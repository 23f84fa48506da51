import JavaBridge.Error
import JavaBridge.Library.Machine
import Mathlib.Logic.Function.Basic

/-!
# Deferred `Java::perform` callbacks

The shared state behind `Java::perform` and `Java::wait_for_app_loader`, and the machine whose
steps are the sections of these functions, and of the startup drains, that run under the one
state lock. Everything between two such sections is local to its thread, so an interleaving of
threads is an interleaving of these steps.

Whatever is decided outside the bridge is part of a step's label: what
`ActivityThread.currentApplication()` answers, whether a thread attaches, which hooks install, and
what a callback returns. `κ` names the calls, `L` the class loader objects, `T` the callbacks'
results and `θ` the captured exception objects; a queued callback is named by the `perform` call
that queued it.
-/

universe u

namespace JavaBridge.Perform

variable {κ L T θ : Type u}

/-! ## The startup drain -/

/-- How early in startup a drain may run. -/
inductive AppStartupHookPoint
  | early
  | late
  deriving DecidableEq

/-- What started a drain. -/
inductive AppStartupDrainSource
  | currentApplication
  | application
  | loadedApk
  deriving DecidableEq

/-- The one-shot state of the startup drain. -/
inductive AppStartupDrain
  | waiting (hookpoint : AppStartupHookPoint)
  | draining (hookpoint : AppStartupHookPoint) (source : AppStartupDrainSource)
  | initialized (source : AppStartupDrainSource)
  deriving DecidableEq

namespace AppStartupDrain

def new : AppStartupDrain := waiting .early

def requireLateHookpoint : AppStartupDrain → AppStartupDrain
  | waiting .early => waiting .late
  | drain => drain

/-- Starts a drain: the new state and whether the caller is to drain. -/
def begin (source : AppStartupDrainSource) : AppStartupDrain → AppStartupDrain × Bool
  | waiting hookpoint =>
    if source = .loadedApk ∧ hookpoint = .late then (waiting hookpoint, false)
    else (draining hookpoint source, true)
  | drain => (drain, false)

def finish (success : Bool) : AppStartupDrain → AppStartupDrain
  | draining hookpoint source => if success then initialized source else waiting hookpoint
  | drain => drain

/-- Some source has drained the queue for good. -/
def IsInitialized : AppStartupDrain → Prop
  | initialized _ => True
  | _ => False

/-- A drain is in progress. -/
def IsDraining : AppStartupDrain → Prop
  | draining _ _ => True
  | _ => False

instance : DecidablePred IsInitialized := fun drain ↦ by
  cases drain <;> unfold IsInitialized <;> infer_instance

instance : DecidablePred IsDraining := fun drain ↦ by
  cases drain <;> unfold IsDraining <;> infer_instance

end AppStartupDrain

/-! ## The shared state -/

/-- The status a `PerformHandle` shows. -/
inductive PerformStatus (θ : Type u) : Type u
  | pending
  | completed
  | failed (error : Error θ)
  deriving DecidableEq

/-- Which of the deferred hooks were installed. -/
structure AppPerformHooks where
  handleBindApplication : Bool
  makeApplication : Bool
  getPackageInfo : Bool
  deriving DecidableEq

/-- The state under the lock. -/
structure AppPerformInner (κ L : Type u) where
  default : Option L
  pending : List κ
  hooks : Option AppPerformHooks
  startupDrain : AppStartupDrain

namespace AppPerformInner

def new : AppPerformInner κ L where
  default := none
  pending := []
  hooks := none
  startupDrain := .new

/-- Publishes the loader; `fault` is an error of attaching the thread or of `is_same_object`. -/
def publishAppLoader [DecidableEq L] (inner : AppPerformInner κ L) (loader : L)
    (fault : Option (Error θ)) : Except (Error θ) (AppPerformInner κ L) :=
  match fault with
  | some error => .error error
  | none =>
    if inner.default = some loader then .ok inner else .ok { inner with default := some loader }

def enqueue (inner : AppPerformInner κ L) (operation : κ) : AppPerformInner κ L :=
  { inner with pending := inner.pending ++ [operation] }

/-- `ensure_hook` holds the lock while it installs; the arguments say which installations
succeed. -/
def ensureHook (inner : AppPerformInner κ L) (installed : AppPerformHooks) :
    Except (Error θ) (AppPerformInner κ L) :=
  if inner.hooks.isSome then .ok inner
  else if !installed.makeApplication && !installed.getPackageInfo then
    .error (.unsupportedFeature "deferred app-loader initialization"
      "no supported LoadedApk.makeApplication or ActivityThread.getPackageInfo hook could be installed")
  else .ok { inner with hooks := some installed }

end AppPerformInner

/-- What a `perform` call's result shows of its callback, and whether the callback was entered. -/
structure PerformCell (T θ : Type u) where
  status : PerformStatus θ
  value : Option (Except (Error θ) T)
  entered : Bool

/-- How a callback ends. -/
inductive CallbackOutcome (T θ : Type u) : Type u
  | returned (result : Except (Error θ) T)
  | panicked

namespace PerformCell

def new : PerformCell T θ where
  status := .pending
  value := none
  entered := false

/-- `perform_callback_status` around `perform_callback_with_result`: a callback that returns
leaves its value, one that panics only a status. -/
def complete (cell : PerformCell T θ) : CallbackOutcome T θ → PerformCell T θ
  | .returned (.ok value) => { cell with status := .completed, value := some (.ok value) }
  | .returned (.error error) => { cell with status := .failed error, value := some (.error error) }
  | .panicked => { cell with
      status := .failed (.unsupportedFeature "Java::perform callback" "callback panicked") }

end PerformCell

/-! ## Program points -/

/-- Program points of `complete_perform`. -/
inductive Complete
  | attach
  | callback
  deriving DecidableEq

/-- Program points of a drain: `drain_if_ready` and the two hook callbacks share them, and differ
in their source and in where their loader comes from. -/
inductive Drain (κ L : Type u) : Type u
  | begin (source : AppStartupDrainSource)
  | resolve
  | publish (loader : L)
  | swap
  /-- The loop over the swapped queue. -/
  | running (pending : List κ)
  | completing (operation : κ) (point : Complete) (pending : List κ)
  | finish (success : Bool)
  | done

/-- Program points of `perform_with_state`. -/
inductive PerformPoint (κ L θ : Type u) : Type u
  | readDefault
  | completing (point : Complete)
  | probe
  | publish (loader : L)
  | ensureHook
  | enqueue
  | drainIfReady (drain : Drain κ L)
  | returned (result : Except (Error θ) Unit)

/-- Program points of `wait_for_app_loader_with_state`. -/
inductive WaitPoint (κ L θ : Type u) : Type u
  | readDefault
  | probe
  | publish (loader : L)
  | published (loader : L)
  | remaining
  | ensureHook
  | drainIfReady (drain : Drain κ L)
  | readDefaultAgain
  | remainingAgain
  /-- `wait_for_default_loader` computes its deadline. -/
  | deadline
  | wait
  /-- The wait has found a loader. -/
  | waited
  | returned (result : Except (Error θ) L)

/-- Where a call stands. -/
inductive Actor (κ L θ : Type u) : Type u
  | idle
  | perform (point : PerformPoint κ L θ)
  | wait (timeout : Nat) (point : WaitPoint κ L θ)
  | drain (drain : Drain κ L)

/-- The whole state: the locked part, the handles, and where each call stands. -/
structure State (κ L T θ : Type u) where
  inner : AppPerformInner κ L
  cells : κ → PerformCell T θ
  actors : κ → Actor κ L θ

end JavaBridge.Perform

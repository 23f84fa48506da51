import JavaBridge.Error
import JavaBridge.Library.Machine
import Mathlib.Data.List.Basic
import Mathlib.Logic.Function.Basic

/-!
# Main-thread scheduling

`Java::schedule_on_main_thread` queues a task and wakes the main thread, whose `epoll_wait` hook
drains the queue. `machine` interleaves any number of scheduling calls with the main thread. A
scheduling call has four sections (`ensure_hook`, `enqueue`, the wake, and after a failed wake the
write of the status); the main thread runs a stack of drains, since a callback that polls enters
the hook again.

`κ` names the scheduling calls, and with them their tasks, and `θ` the captured exception objects.
-/

universe u

namespace JavaBridge.MainThread

variable {κ θ : Type u}

/-! ## Data -/

/-- The status a `MainThreadTaskHandle` shows. -/
inductive MainThreadTaskStatus (θ : Type u) : Type u
  | pending
  | completed
  | failed (error : Error θ)
  deriving DecidableEq

/-- How a callback ends. -/
inductive CallbackOutcome (θ : Type u) : Type u
  | returned (result : Except (Error θ) Unit)
  | panicked

/-- `main_thread_callback_status`. -/
def mainThreadCallbackStatus : CallbackOutcome θ → MainThreadTaskStatus θ
  | .returned (.ok ()) => .completed
  | .returned (.error error) => .failed error
  | .panicked => .failed (.unsupportedFeature "main-thread callback" "callback panicked")

theorem mainThreadCallbackStatus_ne_pending (outcome : CallbackOutcome θ) :
    mainThreadCallbackStatus outcome ≠ .pending := by
  cases outcome with
  | returned result => cases result <;> exact nofun
  | panicked => exact nofun

/-- Program points of the loop of `drain_if_main_thread`. -/
inductive DrainPoint (κ θ : Type u) : Type u
  /-- Before the next `pop_front`. -/
  | next
  /-- The task was popped and found pending. -/
  | enter (task : κ)
  /-- The task's callback runs. -/
  | running (task : κ)
  /-- The callback is over, and its status is to be stored. -/
  | store (task : κ) (outcome : CallbackOutcome θ)

/-- A drain with the queue it swapped out. -/
structure Drain (κ θ : Type u) : Type u where
  point : DrainPoint κ θ
  pending : List κ

/-- Program points of `schedule_on_main_thread_with_state`. -/
inductive SchedulePoint (θ : Type u) : Type u
  | idle
  | ensureHook
  | enqueue
  | wake
  /-- The wake failed, and the status is to be overwritten. -/
  | overwrite (error : Error θ)
  | returned (result : Except (Error θ) Unit)
  deriving DecidableEq

/-- The shared queue and hook, the main thread's drains with the innermost first, the tasks, and
the scheduling calls. -/
structure State (κ θ : Type u) : Type u where
  pending : List κ
  hooks : Bool
  drains : List (Drain κ θ)
  status : κ → MainThreadTaskStatus θ
  /-- The tasks whose callbacks were entered, in order. -/
  entered : List κ
  calls : κ → SchedulePoint θ

namespace State

def initial : State κ θ where
  pending := []
  hooks := false
  drains := []
  status := fun _ ↦ .pending
  entered := []
  calls := fun _ ↦ .idle

/-- The main thread may poll: outside every drain, or in a callback. -/
def mayPoll (s : State κ θ) : Bool :=
  match s.drains with
  | [] => true
  | ⟨.running _, _⟩ :: _ => true
  | _ => false

variable [DecidableEq κ]

def setCall (s : State κ θ) (k : κ) (point : SchedulePoint θ) : State κ θ :=
  { s with calls := Function.update s.calls k point }

/-- `set_main_thread_task_status`. -/
def setStatus (s : State κ θ) (k : κ) (status : MainThreadTaskStatus θ) : State κ θ :=
  { s with status := Function.update s.status k status }

end State

/-! ## Steps -/

/-- The sections of the scheduling calls and of the main thread. -/
inductive Action (κ θ : Type u) : Type u
  /-- A call to `schedule_on_main_thread`. -/
  | schedule (k : κ)
  | ensureHook (k : κ) (fault : Option (Error θ))
  | enqueue (k : κ)
  | wake (k : κ) (fault : Option (Error θ))
  | overwrite (k : κ)
  /-- A thread enters the `epoll_wait` hook. -/
  | epollWait (threadId : Nat)
  /-- The innermost drain pops a task and reads its status. -/
  | check
  | enter
  | callback (outcome : CallbackOutcome θ)
  | store
  /-- The innermost drain has emptied its queue. -/
  | leave

variable [DecidableEq κ]

/-- `schedule_on_main_thread_with_state`, for the call `k`. -/
def scheduleStep (s : State κ θ) (k : κ) : SchedulePoint θ → Action κ θ → Option (State κ θ)
  | .idle, .schedule _ => some (s.setCall k .ensureHook)
  | .ensureHook, .ensureHook _ fault =>
    if s.hooks then some (s.setCall k .enqueue)
    else match fault with
      | none => some { s.setCall k .enqueue with hooks := true }
      | some error => some (s.setCall k (.returned (.error error)))
  | .enqueue, .enqueue _ => some { s.setCall k .wake with pending := s.pending ++ [k] }
  | .wake, .wake _ none => some (s.setCall k (.returned (.ok ())))
  | .wake, .wake _ (some error) => some (s.setCall k (.overwrite error))
  | .overwrite error, .overwrite _ =>
    some ((s.setStatus k (.failed error)).setCall k (.returned (.error error)))
  | _, _ => none

/-- `drain_if_main_thread` up to the swap, from the hook on `epoll_wait`. -/
def pollStep (mainThreadId threadId : Nat) (s : State κ θ) : Option (State κ θ) :=
  if threadId ≠ mainThreadId then some s
  else if s.hooks && s.mayPoll then
    some { s with pending := [], drains := ⟨.next, s.pending⟩ :: s.drains }
  else none

/-- The loop of `drain_if_main_thread`: the innermost drain, with the ones around it. -/
def drainStep (s : State κ θ) (drain : Drain κ θ) (outer : List (Drain κ θ)) :
    Action κ θ → Option (State κ θ)
  | .check =>
    match drain with
    | ⟨.next, task :: pending⟩ =>
      match s.status task with
      | .pending => some { s with drains := ⟨.enter task, pending⟩ :: outer }
      | _ => some { s with drains := ⟨.next, pending⟩ :: outer }
    | _ => none
  | .enter =>
    match drain with
    | ⟨.enter task, pending⟩ =>
      some { s with drains := ⟨.running task, pending⟩ :: outer, entered := s.entered ++ [task] }
    | _ => none
  | .callback outcome =>
    match drain with
    | ⟨.running task, pending⟩ =>
      some { s with drains := ⟨.store task outcome, pending⟩ :: outer }
    | _ => none
  | .store =>
    match drain with
    | ⟨.store task outcome, pending⟩ =>
      some { s.setStatus task (mainThreadCallbackStatus outcome) with
        drains := ⟨.next, pending⟩ :: outer }
    | _ => none
  | .leave =>
    match drain with
    | ⟨.next, []⟩ => some { s with drains := outer }
    | _ => none
  | _ => none

def step (mainThreadId : Nat) (s : State κ θ) (action : Action κ θ) : Option (State κ θ) :=
  match action with
  | .schedule k | .ensureHook k _ | .enqueue k | .wake k _ | .overwrite k =>
    scheduleStep s k (s.calls k) action
  | .epollWait threadId => pollStep mainThreadId threadId s
  | .check | .enter | .callback _ | .store | .leave =>
    match s.drains with
    | [] => none
    | drain :: outer => drainStep s drain outer action

/-- Any number of scheduling calls and the main thread, in any order. -/
def machine (mainThreadId : Nat) : Machine (State κ θ) (Action κ θ) where
  Init := (· = .initial)
  step := step mainThreadId

end JavaBridge.MainThread

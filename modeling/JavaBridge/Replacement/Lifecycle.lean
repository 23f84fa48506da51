import JavaBridge.Error
import JavaBridge.Library.Machine
import JavaBridge.Replacement.Invocation

/-!
# The life of a replacement

A `ClosureMethodReplacement` owns four pieces of memory: the closure thunk and the callback's
state, which it holds itself, and the cloned `ArtMethod` and its dispatch thunk, which belong to
the `ArtMethodReplacementGuard` inside it. `machine` interleaves the threads that call the hooked
method with the one owner, which reverts the replacement any number of times and may drop it.

A call is followed along the whole path of a hooked invocation, of which the active-invocation
guard brackets only the middle:

* `dispatchThunk`: in the thunk that the patched quick entrypoint leads to;
* `clone`: on the cloned method's frame, before its native entrypoint;
* `prologue`: in the closure thunk and in `dispatch_closure_invocation`, before
  `ActiveInvocationState::enter`;
* `invoke`: between `enter` and the drop of its guard;
* `epilogue`: on the way back through `dispatch_closure_invocation` and the closure thunk;
* `leaving`: back on the clone's frame.

`κ` names the calls, `τ` the threads, and `thread` says on which thread a call runs. A thread that
is inside `revert` or `drop` runs none of its calls.
-/

universe u

namespace JavaBridge.Replacement

variable {κ τ θ : Type u}

/-! ## Calls -/

/-- What a hooked Java call returns to its caller. -/
inductive CallResult
  /-- The value the callback returned. -/
  | callback
  /-- The default value, after an error that was recorded. -/
  | recorded
  /-- The default value of an invocation that found the replacement closing. -/
  | closed
  /-- The value of the original implementation. -/
  | original
  deriving DecidableEq

/-- Where a call of the hooked method stands. -/
inductive CallPoint
  | outside
  | dispatchThunk
  | clone
  | prologue
  /-- `closing` is what the invocation's guard saw. -/
  | invoke (closing : Bool)
  | epilogue (result : CallResult)
  | leaving (result : CallResult)
  | original
  | returned (result : CallResult)
  deriving DecidableEq

namespace CallPoint

/-- The call is on its way through the hook. -/
def onPath : CallPoint → Bool
  | outside | original | returned _ => false
  | _ => true

/-- The call holds an active-invocation guard. -/
def invoking : CallPoint → Bool
  | invoke _ => true
  | _ => false

end CallPoint

/-- How a Java call reaches the method: through the quick entrypoint in the `ArtMethod`, or
through an entrypoint that ART's hooks translate by the registered mapping. `active` is
`replacement_frame_is_active` for the calling thread. -/
inductive Route
  | quickCode
  | translated (active : Bool)
  deriving DecidableEq

/-- How an invocation that is not closing ends. -/
inductive InvokeExit
  /-- The callback returned a value that passed `validate_return`. -/
  | value
  /-- The local frame, the callback or the validation failed, and the error was recorded. -/
  | error
  deriving DecidableEq

inductive CallAction
  | call (route : Route)
  /-- The dispatch thunk branches. -/
  | branch (active : Bool)
  | enterThunk
  | enter
  | exit (how : InvokeExit)
  | leaveThunk
  | leave
  | finishOriginal
  deriving DecidableEq

/-! ## The owner -/

/-- What became of a piece of memory. -/
inductive Memory
  | live
  | freed
  | leaked
  deriving DecidableEq

inductive Operation
  | revert
  | drop
  deriving DecidableEq

/-- Program points of `ClosureMethodReplacement::revert` and of its `Drop`, after the first lock
section. -/
inductive OwnerPoint
  /-- `close_and_wait_until_inactive` waits for `total = 0`. -/
  | draining
  /-- `restore_method` runs on the guard taken out of the replacement. -/
  | restoring
  | unregistering
  /-- The guard is dropped: first its clone, then its dispatch thunk. -/
  | droppingClone
  | droppingDispatchThunk
  /-- `wait_until_inactive`. -/
  | finalWait
  /-- The fields of a dropped replacement, in order. -/
  | droppingThunk
  | droppingState
  deriving DecidableEq

/-- The owner of the replacement. -/
inductive Owner (τ θ : Type u) : Type u
  /-- No `revert` is running; `last` is what the last one returned. -/
  | ready (last : Option (Except (Error θ) Unit))
  | busy (operation : Operation) (thread : τ) (point : OwnerPoint)
  | dropped
  deriving DecidableEq

/-- The thread the owner keeps busy. -/
def Owner.thread? : Owner τ θ → Option τ
  | busy _ thread _ => some thread
  | _ => none

/-- Who calls `revert` or `drop`: a thread outside every invocation, or a running callback. -/
inductive Caller (κ τ : Type u) : Type u
  | outside (thread : τ)
  | callback (k : κ)

inductive OwnerAction (κ τ θ : Type u) : Type u
  | start (operation : Operation) (caller : Caller κ τ)
  | drained
  | restore (fault : Option (Error θ))
  | unregister
  | dropClone
  | dropDispatchThunk
  | finalWait
  | dropThunk
  | dropState

/-! ## The state -/

structure State (κ τ θ : Type u) : Type u where
  counts : ActiveInvocationCounts τ
  /-- The replacement still holds its `ArtMethodReplacementGuard`. -/
  replacement : Bool
  /-- The `ArtMethod` carries the patched entrypoints. -/
  patched : Bool
  /-- The controller maps the method to the clone. -/
  registered : Bool
  closureThunk : Memory
  closureState : Memory
  clone : Memory
  dispatchThunk : Memory
  calls : κ → CallPoint
  owner : Owner τ θ

namespace State

/-- The hook has been installed, and nothing has happened since. -/
def installed : State κ τ θ where
  counts := .new
  replacement := true
  patched := true
  registered := true
  closureThunk := .live
  closureState := .live
  clone := .live
  dispatchThunk := .live
  calls := fun _ ↦ .outside
  owner := .ready none

def setCall [DecidableEq κ] (s : State κ τ θ) (k : κ) (point : CallPoint) : State κ τ θ :=
  { s with calls := Function.update s.calls k point }

/-- The operation goes on at another point. -/
def goOn (s : State κ τ θ) (operation : Operation) (thread : τ) (point : OwnerPoint) :
    State κ τ θ :=
  { s with owner := .busy operation thread point }

/-- `revert` returns. -/
def ret (s : State κ τ θ) (result : Except (Error θ) Unit) : State κ τ θ :=
  { s with owner := .ready (some result) }

/-- `leak_state_and_thunk` in a drop that then forgets its guard, if it has one. -/
def leak (s : State κ τ θ) (guard : Bool) : State κ τ θ :=
  { s with
    replacement := false, closureThunk := .leaked, closureState := .leaked
    clone := if guard then .leaked else s.clone
    dispatchThunk := if guard then .leaked else s.dispatchThunk, owner := .dropped }

end State

/-! ## Steps of a call -/

section Steps

variable [DecidableEq κ] [DecidableEq τ]

/-- A call that reaches the method. -/
def arrive (s : State κ τ θ) : Route → CallPoint
  | .quickCode => if s.patched then .dispatchThunk else .original
  | .translated active => if s.registered && !active then .clone else .original

/-- The result of `ClosureReplacementState::invoke`. -/
def invokeResult : Bool → InvokeExit → CallResult
  | true, _ => .closed
  | false, .value => .callback
  | false, .error => .recorded

/-- A call's next step, on its thread. -/
def callStep (s : State κ τ θ) (k : κ) (thread : τ) :
    CallPoint → CallAction → Option (State κ τ θ)
  | .outside, .call route => some (s.setCall k (arrive s route))
  | .dispatchThunk, .branch active => some (s.setCall k (if active then .original else .clone))
  | .clone, .enterThunk => some (s.setCall k .prologue)
  | .prologue, .enter =>
    some { s.setCall k (.invoke s.counts.closing) with counts := s.counts.enter thread }
  | .invoke closing, .exit how =>
    some { s.setCall k (.epilogue (invokeResult closing how)) with
      counts := s.counts.release thread }
  | .epilogue result, .leaveThunk => some (s.setCall k (.leaving result))
  | .leaving result, .leave => some (s.setCall k (.returned result))
  | .original, .finishOriginal => some (s.setCall k (.returned .original))
  | _, _ => none

/-! ## Steps of the owner -/

/-- The thread a caller runs on, where it may call: a thread in an invocation runs only what the
callback runs. -/
def Caller.thread? (thread : κ → τ) (s : State κ τ θ) : Caller κ τ → Option τ
  | .outside t => if s.counts.activeOn t then none else some t
  | .callback k => if s.calls k = .invoke false then some (thread k) else none

/-- The error of a `revert` on a thread with an active invocation. -/
def activeOnCurrentThread : Error θ :=
  .invalidReplacementState "closure replacement revert"
    "replacement is active on the current thread"

/-- What follows `close_and_wait_until_inactive`: the guard is taken out and reverted. -/
def drained (s : State κ τ θ) (operation : Operation) (thread : τ) : State κ τ θ :=
  if s.replacement then
    { s with replacement := false, owner := .busy operation thread .restoring }
  else s.goOn operation thread .finalWait

/-- The first lock section of `close_and_wait_until_inactive`, which ends where the lock is given
up: at an error, in the wait, or when there was nothing to wait for. -/
def start (s : State κ τ θ) (operation : Operation) (thread : τ) : State κ τ θ :=
  if s.counts.activeOn thread then
    match operation with
    | .revert => s.ret (.error activeOnCurrentThread)
    | .drop => s.leak s.replacement
  else if s.counts.total = 0 then drained { s with counts := s.counts.close } operation thread
  else { s with counts := s.counts.close, owner := .busy operation thread .draining }

/-- What follows the last wait: `revert` returns, and a dropped replacement drops its fields. -/
def finish (s : State κ τ θ) (thread : τ) : Operation → State κ τ θ
  | .revert => s.ret (.ok ())
  | .drop => s.goOn .drop thread .droppingThunk

/-- The owner's next step inside `revert` or `drop`. -/
def ownerStep (s : State κ τ θ) (operation : Operation) (thread : τ) :
    OwnerPoint → OwnerAction κ τ θ → Option (State κ τ θ)
  | .draining, .drained =>
    if s.counts.total = 0 then some (drained s operation thread) else none
  | .restoring, .restore none =>
    some { s with patched := false, owner := .busy operation thread .unregistering }
  | .restoring, .restore (some error) =>
    match operation with
    | .revert => some { s with replacement := true, owner := .ready (some (.error error)) }
    | .drop => some (s.leak true)
  | .unregistering, .unregister =>
    some { s with registered := false, owner := .busy operation thread .droppingClone }
  | .droppingClone, .dropClone =>
    some { s with clone := .freed, owner := .busy operation thread .droppingDispatchThunk }
  | .droppingDispatchThunk, .dropDispatchThunk =>
    some { s with dispatchThunk := .freed, owner := .busy operation thread .finalWait }
  | .finalWait, .finalWait =>
    -- The result of this wait is ignored, so an active thread does not stop the operation.
    if s.counts.activeOn thread || s.counts.total == 0 then some (finish s thread operation)
    else none
  | .droppingThunk, .dropThunk =>
    some { s with closureThunk := .freed, owner := .busy operation thread .droppingState }
  | .droppingState, .dropState => some { s with closureState := .freed, owner := .dropped }
  | _, _ => none

/-! ## The machine -/

inductive Action (κ τ θ : Type u) : Type u
  | call (k : κ) (action : CallAction)
  | owner (action : OwnerAction κ τ θ)

def step (thread : κ → τ) (s : State κ τ θ) : Action κ τ θ → Option (State κ τ θ)
  | .call k action =>
    if s.owner.thread? = some (thread k) then none
    else callStep s k (thread k) (s.calls k) action
  | .owner action =>
    match s.owner, action with
    | .ready _, .start operation caller =>
      (caller.thread? thread s).map (start s operation)
    | .busy operation t point, action => ownerStep s operation t point action
    | _, _ => none

/-- Any number of calls on any number of threads, and the owner. -/
def machine (thread : κ → τ) : Machine (State κ τ θ) (Action κ τ θ) where
  Init := (· = .installed)
  step := step thread

end Steps

/-! ## What a call's step can do -/

section Cases

variable [DecidableEq κ] [DecidableEq τ] {s t : State κ τ θ}

omit [DecidableEq κ] [DecidableEq τ] in
/-- Only a patched or a registered method leads a call into the hook. -/
theorem installed_of_arrive {route : Route} (h : (arrive s route).onPath = true) :
    s.patched = true ∨ s.registered = true := by
  cases route with
  | quickCode =>
    simp only [arrive] at h
    split at h
    · rename_i hpatched
      exact .inl hpatched
    · cases h
  | translated active =>
    simp only [arrive] at h
    split at h
    · rename_i hreg
      exact .inr (Bool.and_eq_true_iff.mp hreg).1
    · cases h

omit [DecidableEq κ] [DecidableEq τ] in
theorem not_invoking_arrive (route : Route) : (arrive s route).invoking = false := by
  cases route with
  | quickCode => simp only [arrive]; split <;> rfl
  | translated active => simp only [arrive]; split <;> rfl

/-- A call takes its guard, drops it, or moves without one; and it gets on its way only at the
method's entry. -/
theorem callStep_cases {k : κ} {thread : τ} {point : CallPoint} {action : CallAction}
    (h : callStep s k thread point action = some t) :
    (point = .prologue ∧ action = .enter ∧ t =
        { s.setCall k (.invoke s.counts.closing) with counts := s.counts.enter thread }) ∨
      (∃ closing how, point = .invoke closing ∧ action = .exit how ∧ t =
        { s.setCall k (.epilogue (invokeResult closing how)) with
          counts := s.counts.release thread }) ∨
      ∃ next, t = s.setCall k next ∧ point.invoking = false ∧ next.invoking = false ∧
        action ≠ .enter ∧
        (point.onPath = false → next.onPath = true → s.patched = true ∨ s.registered = true) := by
  unfold callStep at h
  split at h
  · cases h
    exact .inr (.inr ⟨_, rfl, rfl, not_invoking_arrive _, nofun, fun _ h ↦ installed_of_arrive h⟩)
  · cases h
    refine .inr (.inr ⟨_, rfl, rfl, ?_, nofun, nofun⟩)
    split <;> rfl
  · cases h
    exact .inr (.inr ⟨_, rfl, rfl, rfl, nofun, nofun⟩)
  · cases h
    exact .inl ⟨rfl, rfl, rfl⟩
  · cases h
    exact .inr (.inl ⟨_, _, rfl, rfl, rfl⟩)
  · cases h
    exact .inr (.inr ⟨_, rfl, rfl, rfl, nofun, nofun⟩)
  · cases h
    exact .inr (.inr ⟨_, rfl, rfl, rfl, nofun, nofun⟩)
  · cases h
    exact .inr (.inr ⟨_, rfl, rfl, rfl, nofun, nofun⟩)
  · cases h

end Cases

end JavaBridge.Replacement

import JavaBridge.Perform.Step

/-!
# `wait_for_app_loader` and the clock

The perform machine under a monotone clock. `Timed.machine` takes the steps of `machine`, and lets
time pass between any two of them; what a call makes of the time it reads is computed from its own
instants and no longer left to the label. Times are counted in nanoseconds.

Main definitions:

* `Timed.machine`: any number of calls in any order, with any readings of the clock between them.
* `Timed.KeepsTimeout`: no call reports a timeout too early, or where a loader was published in
  time.
* `Timed.InTime`: the steps that do not take one of the three early exits with a wrong answer.
-/

universe u

namespace JavaBridge.Perform

variable {κ L T θ : Type u}

/-! ## Instants and durations -/

def NANOS_PER_SEC : Nat := 1000000000

/-- `Duration::MAX`. -/
def DURATION_MAX : Nat := 2 ^ 64 * NANOS_PER_SEC - 1

/-- An `Instant` holds its seconds in an `i64`. -/
def INSTANT_BOUND : Nat := 2 ^ 63 * NANOS_PER_SEC

/-- `Instant::checked_add`. -/
def checkedAdd (instant duration : Nat) : Option Nat :=
  if instant + duration < INSTANT_BOUND then some (instant + duration) else none

/-- `Duration::checked_sub`, and `Instant::checked_duration_since`. -/
def checkedSub (a b : Nat) : Option Nat :=
  if b ≤ a then some (a - b) else none

/-- `remaining_timeout`, where the clock reads `now`. -/
def remainingTimeout (started timeout now : Nat) : Option Nat :=
  checkedSub timeout (now - started)

/-- No time remains: the difference is negative or `is_zero`. -/
def isUp : Option Nat → Bool
  | none => true
  | some remaining => remaining == 0

theorem isUp_checkedSub {a b : Nat} : isUp (checkedSub a b) = true ↔ a ≤ b := by
  unfold checkedSub
  split
  · next h =>
    rw [isUp, beq_iff_eq]
    omega
  · next h => exact iff_of_true rfl (Nat.le_of_not_le h)

theorem getD_checkedSub {a b : Nat} : (checkedSub a b).getD 0 = a - b := by
  unfold checkedSub
  split
  · rfl
  · next h => exact (Nat.sub_eq_zero_of_le (Nat.le_of_not_le h)).symm

/-! ## The machine with a clock -/

/-- The instants and the duration that a waiting call keeps. -/
structure Clock where
  started : Nat
  remaining : Nat
  deadline : Nat

/-- A state of the machine with the time, and what the calls keep of it. The last two fields are
records of the run: the loaders published so far with the time of each, and the calls of
`wait_for_app_loader` that met an error of attaching, probing or hooking. -/
structure Timed (κ L T θ : Type u) : Type u where
  state : State κ L T θ
  now : Nat
  clocks : κ → Clock
  published : List (L × Nat)
  faulted : κ → Bool

/-- The sections of the calls, and time passing between them. -/
inductive Event (κ L T θ : Type u) : Type u
  | tick (nanos : Nat)
  /-- A call reads the clock outside the lock. -/
  | read (k : κ)
  /-- A call looks for the loader under the lock, first or after a wake-up; `timedOut` is what the
  condition variable says. -/
  | wake (k : κ) (timedOut : Bool)
  | act (k : κ) (action : Action L T θ)

/-- The call that an event is a section of. -/
def Event.actor? : Event κ L T θ → Option κ
  | tick _ => none
  | read k | wake k _ | act k _ => some k

/-- The error is that of a wait whose time is up. -/
def reportsTimeout : Error θ → Bool
  | .appClassLoaderWaitTimedOut _ _ => true
  | _ => false

/-- The section reads no clock, and its answer from outside is not the error that only a waiting
call makes. -/
def Action.fromOutside : Action L T θ → Bool
  | .remaining _ | .deadline _ | .wait _ => false
  | .probe (.error error) | .publish (some error) => !reportsTimeout error
  | _ => true

/-- A waiting call meets an error of attaching, of probing or of installing the hooks. -/
def Actor.meetsFault : Actor κ L θ → Action L T θ → Bool
  | .wait _ .probe, .probe (.error (.appClassLoaderUnavailable _)) => false
  | .wait _ .probe, .probe (.error _) => true
  | .wait _ (.publish _), .publish (some _) => true
  | .wait _ .ensureHook, .ensureHook installed =>
    !installed.makeApplication && !installed.getPackageInfo
  | _, _ => false

namespace Timed

/-- What a call makes of the clock outside the lock. -/
def reading (s : Timed κ L T θ) (k : κ) : Option (Action L T θ) :=
  match s.state.actors k with
  | .wait timeout .remaining | .wait timeout .remainingAgain =>
    some (.remaining (isUp (remainingTimeout (s.clocks k).started timeout s.now)))
  | .wait _ .deadline => some (.deadline (checkedAdd s.now (s.clocks k).remaining).isSome)
  | _ => none

/-- What a call keeps of the clock. -/
def keep (s : Timed κ L T θ) (k : κ) : Action L T θ → Clock
  | .waitForAppLoader _ => { s.clocks k with started := s.now }
  | .remaining _ =>
    match s.state.actors k with
    | .wait timeout .remainingAgain =>
      { s.clocks k with
        remaining := (remainingTimeout (s.clocks k).started timeout s.now).getD 0 }
    | _ => s.clocks k
  | .deadline _ => { s.clocks k with deadline := s.now + (s.clocks k).remaining }
  | _ => s.clocks k

variable [DecidableEq κ] [DecidableEq L]

/-- A section of a call, at the time it is. -/
def take (s : Timed κ L T θ) (k : κ) (action : Action L T θ) : Option (Timed κ L T θ) :=
  (Perform.step s.state (k, action)).map fun state ↦
    { state
      now := s.now
      clocks := Function.update s.clocks k (s.keep k action)
      published := s.published ++
        if state.inner.default = s.state.inner.default then []
        else state.inner.default.toList.map (·, s.now)
      faulted := Function.update s.faulted k
        (s.faulted k || (s.state.actors k).meetsFault action) }

/-- The condition variable says that a wait has timed out only after the time it was given. -/
def step (s : Timed κ L T θ) : Event κ L T θ → Option (Timed κ L T θ)
  | .tick nanos =>
    if s.now + nanos < INSTANT_BOUND then some { s with now := s.now + nanos } else none
  | .read k => (s.reading k).bind (s.take k)
  | .wake k timedOut =>
    if timedOut && !isUp (checkedSub (s.clocks k).deadline s.now) then none
    else s.take k (.wait (timedOut || isUp (checkedSub (s.clocks k).deadline s.now)))
  | .act k action => if action.fromOutside then s.take k action else none

def initial : Timed κ L T θ where
  state := Perform.initial
  now := 0
  clocks := fun _ ↦ ⟨0, 0, 0⟩
  published := []
  faulted := fun _ ↦ false

def machine : Machine (Timed κ L T θ) (Event κ L T θ) where
  Init := (· = initial)
  step := step

end Timed

/-! ## What a timeout promises -/

namespace Timed

/-- A loader was published before the instant. -/
def PublishedBefore (s : Timed κ L T θ) (instant : Nat) : Prop :=
  ∃ p ∈ s.published, p.2 < instant

/-- The instant at which the time of a waiting call is up. -/
def due (s : Timed κ L T θ) (k : κ) (timeout : Nat) : Nat := (s.clocks k).started + timeout

structure KeepsTimeout (s : Timed κ L T θ) : Prop where
  /-- A call that reports a timeout was given its time. -/
  elapsed : ∀ k timeout error, s.state.actors k = .wait timeout (.returned (.error error)) →
    reportsTimeout error = true → s.due k timeout ≤ s.now
  /-- A call returns a published loader, where one was published in time. -/
  found : ∀ k timeout result, s.state.actors k = .wait timeout (.returned result) →
    s.PublishedBefore (s.due k timeout) → s.faulted k = false → ∃ p ∈ s.published, result = .ok p.1

/-- The call may report a timeout: its time is up, and no loader was published before. -/
def MayTimeOut (s : Timed κ L T θ) (k : κ) (timeout : Nat) : Prop :=
  s.due k timeout ≤ s.now ∧ (s.faulted k = true ∨ ¬ s.PublishedBefore (s.due k timeout))

/-- Where a call finds its time up outside the lock, no loader was published in time since it last
looked for one; and where it starts its wait, the deadline can be represented. -/
def InTime (s : Timed κ L T θ) : Event κ L T θ → Prop
  | .read k =>
    match s.state.actors k with
    | .wait timeout .remaining | .wait timeout .remainingAgain =>
      isUp (remainingTimeout (s.clocks k).started timeout s.now) = true → s.MayTimeOut k timeout
    | .wait timeout .deadline =>
      (checkedAdd s.now (s.clocks k).remaining).isSome = true ∨ s.MayTimeOut k timeout
    | _ => True
  | _ => True

end Timed

end JavaBridge.Perform

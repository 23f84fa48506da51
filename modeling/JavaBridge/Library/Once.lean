import JavaBridge.Library.Machine
import Mathlib.Data.List.Basic
import Mathlib.Logic.Function.Basic

/-!
# Values that are made once

Calls of one function look into a cell, make a value where there is none, and put it into the cell.
Any number of calls take their steps in any order.

In `Once.locked`, a call that has found the cell empty takes a lock and looks again before it makes
a value, so that no second value is ever made. In `Once.raced` there is no lock: a value that comes
too late is dropped, and the call returns the one in the cell.

Main results:

* `Exclusive.eq`: a lock lets one call in at a time.
* `Guarded.within`, `Guarded.outside`: what a lock guards is kept by the call that has it, and the
  other calls leave it alone.
* `Locked.Inv.lawful`: one value, which every call that succeeds returns, and no call is stuck.
* `Locked.steps_le`: a call takes five steps at most.
* `Raced.Inv.lawful`: what is made is in the cell, or dropped once, or in the hands of its maker.
-/

universe u v w

namespace Once

variable {ι : Type u} [DecidableEq ι]

/-! ## A lock -/

section

variable {π : Type v}

/-- The calls that are inside hold the lock. -/
def Exclusive (inside : π → Prop) (phase : ι → π) (holder : Option ι) : Prop :=
  ∀ i, inside (phase i) ↔ holder = some i

namespace Exclusive

variable {inside : π → Prop} {phase : ι → π} {holder : Option ι} {i j : ι} {p : π}

omit [DecidableEq ι] in
theorem eq (h : Exclusive inside phase holder) (hi : inside (phase i)) (hj : inside (phase j)) :
    i = j :=
  Option.some.inj (((h i).mp hi).symm.trans ((h j).mp hj))

theorem stay (h : Exclusive inside phase holder) (hp : inside p ↔ inside (phase i)) :
    Exclusive inside (Function.update phase i p) holder := by
  intro j
  by_cases hj : j = i
  · rw [hj, Function.update_self, hp, h i]
  · rw [Function.update_of_ne hj, h j]

theorem enter (h : Exclusive inside phase none) (hp : inside p) :
    Exclusive inside (Function.update phase i p) (some i) := by
  intro j
  by_cases hj : j = i
  · rw [hj, Function.update_self]
    exact iff_of_true hp rfl
  · rw [Function.update_of_ne hj, h j]
    constructor
    · intro hnone
      cases hnone
    · intro hi
      exact absurd (Option.some.inj hi).symm hj

theorem leave (h : Exclusive inside phase holder) (hi : inside (phase i)) (hp : ¬inside p) :
    Exclusive inside (Function.update phase i p) none := by
  intro j
  by_cases hj : j = i
  · rw [hj, Function.update_self]
    constructor
    · intro h
      exact absurd h hp
    · intro h
      cases h
  · rw [Function.update_of_ne hj]
    constructor
    · intro hinside
      exact absurd (h.eq hinside hi) hj
    · intro h
      cases h

end Exclusive

variable {σ : Type w} {inside : π → Prop} {law : Option (ι × π) → σ → Prop} {phase : ι → π}
  {holder : Option ι} {s t : σ} {i : ι} {p : π}

/-- What is shared meets a law that may say how far the call with the lock is. -/
structure Guarded (inside : π → Prop) (law : Option (ι × π) → σ → Prop) (phase : ι → π)
    (holder : Option ι) (s : σ) : Prop where
  exclusive : Exclusive inside phase holder
  law : law (holder.map fun i ↦ (i, phase i)) s

namespace Guarded

omit [DecidableEq ι] in
/-- Something else than a call takes a step. -/
theorem shared (h : Guarded inside law phase holder s) (hlaw : ∀ x, law x s → law x t) :
    Guarded inside law phase holder t :=
  ⟨h.exclusive, hlaw _ h.law⟩

/-- A call without the lock takes a step. -/
theorem outside (h : Guarded inside law phase holder s) (hi : ¬inside (phase i)) (hp : ¬inside p)
    (hlaw : ∀ x, law x s → law x t) : Guarded inside law (Function.update phase i p) holder t := by
  refine ⟨h.exclusive.stay (iff_of_false hp hi), ?_⟩
  have heq : holder.map (fun j ↦ (j, Function.update phase i p j)) =
      holder.map fun j ↦ (j, phase j) := by
    cases holder with
    | none => rfl
    | some j =>
      have hji : j ≠ i := by
        rintro rfl
        exact hi ((h.exclusive j).mpr rfl)
      rw [Option.map_some, Option.map_some, Function.update_of_ne hji]
  rw [heq]
  exact hlaw _ h.law

/-- The call with the lock takes a step. -/
theorem within (h : Guarded inside law phase holder s) (hi : inside (phase i)) (hp : inside p)
    (hlaw : law (some (i, phase i)) s → law (some (i, p)) t) :
    Guarded inside law (Function.update phase i p) holder t := by
  have hholder := (h.exclusive i).mp hi
  refine ⟨h.exclusive.stay (iff_of_true hp hi), ?_⟩
  have hs := h.law
  rw [hholder, Option.map_some] at hs ⊢
  rw [Function.update_self]
  exact hlaw hs

theorem enter (h : Guarded inside law phase none s) (hp : inside p)
    (hlaw : law none s → law (some (i, p)) t) :
    Guarded inside law (Function.update phase i p) (some i) t := by
  refine ⟨h.exclusive.enter hp, ?_⟩
  rw [Option.map_some, Function.update_self]
  exact hlaw h.law

theorem leave (h : Guarded inside law phase holder s) (hi : inside (phase i)) (hp : ¬inside p)
    (hlaw : law (some (i, phase i)) s → law none t) :
    Guarded inside law (Function.update phase i p) none t := by
  refine ⟨h.exclusive.leave hi hp, ?_⟩
  have hs := h.law
  rw [(h.exclusive i).mp hi, Option.map_some] at hs
  exact hlaw hs

end Guarded

end

/-! ## With a lock -/

/-- What a call does next. -/
inductive Phase (α : Type v) (ε : Type w)
  | look
  | lock
  | lookAgain
  | make
  | publish (a : α)
  | done (result : Except ε α)

/-- The call has the lock. -/
def Phase.Inside {α : Type v} {ε : Type w} : Phase α ε → Prop
  | lookAgain | make | publish _ => True
  | _ => False

structure Locked (ι : Type u) (α : Type v) (ε : Type w) where
  cell : Option α
  holder : Option ι
  phase : ι → Phase α ε
  /-- What has come of the attempts to make a value, in their order. -/
  outcomes : List (Except ε α)

/-- A call takes its next step, or ends its attempt to make a value. -/
inductive Label (ι : Type u) (α : Type v) (ε : Type w)
  | go (i : ι)
  | made (i : ι) (outcome : Except ε α)

section

variable {α : Type v} {ε : Type w}

namespace Locked

variable (s : Locked ι α ε)

def setPhase (i : ι) (p : Phase α ε) : Locked ι α ε :=
  { s with phase := Function.update s.phase i p }

/-- The call gives the lock back and returns. -/
def finish (i : ι) (result : Except ε α) : Locked ι α ε :=
  { s.setPhase i (.done result) with holder := none }

def step : Label ι α ε → Option (Locked ι α ε)
  | .go i =>
    match s.phase i with
    | .look =>
      match s.cell with
      | some a => some (s.setPhase i (.done (.ok a)))
      | none => some (s.setPhase i .lock)
    | .lock =>
      match s.holder with
      | some _ => none
      | none => some { s.setPhase i .lookAgain with holder := some i }
    | .lookAgain =>
      match s.cell with
      | some a => some (s.finish i (.ok a))
      | none => some (s.setPhase i .make)
    -- `OnceLock::set` leaves a cell alone that has a value
    | .publish a => some { s.finish i (.ok a) with cell := s.cell.or (some a) }
    | _ => none
  | .made i outcome =>
    match s.phase i with
    | .make =>
      match outcome with
      | .error error =>
        some { s.finish i (.error error) with outcomes := s.outcomes ++ [.error error] }
      | .ok a => some { s.setPhase i (.publish a) with outcomes := s.outcomes ++ [.ok a] }
    | _ => none

end Locked

/-- Calls with a lock, which start with an empty cell. -/
def locked (ι : Type u) [DecidableEq ι] (α : Type v) (ε : Type w) :
    Machine (Locked ι α ε) (Label ι α ε) where
  Init s := s = ⟨none, none, fun _ ↦ .look, []⟩
  step := Locked.step

namespace Locked

variable {s t : Locked ι α ε} {i : ι}

/-- What a step does. -/
theorem step_cases {l : Label ι α ε} (h : s.step l = some t) :
    (∃ i a, l = .go i ∧ s.cell = some a ∧ s.phase i = .look ∧
      t = s.setPhase i (.done (.ok a))) ∨
    (∃ i, l = .go i ∧ s.cell = none ∧ s.phase i = .look ∧ t = s.setPhase i .lock) ∨
    (∃ i, l = .go i ∧ s.holder = none ∧ s.phase i = .lock ∧
      t = { s.setPhase i .lookAgain with holder := some i }) ∨
    (∃ i a, l = .go i ∧ s.cell = some a ∧ s.phase i = .lookAgain ∧ t = s.finish i (.ok a)) ∨
    (∃ i, l = .go i ∧ s.cell = none ∧ s.phase i = .lookAgain ∧ t = s.setPhase i .make) ∨
    (∃ i a, l = .go i ∧ s.phase i = .publish a ∧
      t = { s.finish i (.ok a) with cell := s.cell.or (some a) }) ∨
    (∃ i error, l = .made i (.error error) ∧ s.phase i = .make ∧
      t = { s.finish i (.error error) with outcomes := s.outcomes ++ [.error error] }) ∨
    ∃ i a, l = .made i (.ok a) ∧ s.phase i = .make ∧
      t = { s.setPhase i (.publish a) with outcomes := s.outcomes ++ [.ok a] } := by
  cases l with
  | go i =>
    rw [step] at h
    cases hphase : s.phase i with
    | look =>
      rw [hphase] at h
      cases hcell : s.cell with
      | some a =>
        rw [hcell] at h
        exact .inl ⟨i, a, rfl, rfl, hphase, (Option.some.inj h).symm⟩
      | none =>
        rw [hcell] at h
        exact .inr (.inl ⟨i, rfl, rfl, hphase, (Option.some.inj h).symm⟩)
    | lock =>
      rw [hphase] at h
      cases hholder : s.holder with
      | some j =>
        rw [hholder] at h
        cases h
      | none =>
        rw [hholder] at h
        exact .inr (.inr (.inl ⟨i, rfl, rfl, hphase, (Option.some.inj h).symm⟩))
    | lookAgain =>
      rw [hphase] at h
      cases hcell : s.cell with
      | some a =>
        rw [hcell] at h
        exact .inr (.inr (.inr (.inl ⟨i, a, rfl, rfl, hphase, (Option.some.inj h).symm⟩)))
      | none =>
        rw [hcell] at h
        exact .inr (.inr (.inr (.inr (.inl ⟨i, rfl, rfl, hphase, (Option.some.inj h).symm⟩))))
    | publish a =>
      rw [hphase] at h
      exact .inr (.inr (.inr (.inr (.inr (.inl ⟨i, a, rfl, hphase, (Option.some.inj h).symm⟩)))))
    | make =>
      rw [hphase] at h
      cases h
    | done result =>
      rw [hphase] at h
      cases h
  | made i outcome =>
    cases outcome with
    | error error =>
      rw [step] at h
      split at h
      case h_1 hphase =>
        exact .inr (.inr (.inr (.inr (.inr (.inr (.inl
          ⟨i, error, rfl, hphase, (Option.some.inj h).symm⟩))))))
      case h_2 => cases h
    | ok a =>
      rw [step] at h
      split at h
      case h_1 hphase =>
        exact .inr (.inr (.inr (.inr (.inr (.inr (.inr
          ⟨i, a, rfl, hphase, (Option.some.inj h).symm⟩))))))
      case h_2 => cases h

/-- Failed attempts, and then a value if there is one. -/
def Made (outcomes : List (Except ε α)) (value : Option α) : Prop :=
  ∃ errors : List ε, outcomes = errors.map .error ++ value.toList.map .ok

structure Inv (s : Locked ι α ε) : Prop where
  exclusive : Exclusive Phase.Inside s.phase s.holder
  empty : ∀ i, s.phase i = .make ∨ (∃ a, s.phase i = .publish a) → s.cell = none
  /-- The value is still with the call that has made it. -/
  unpublished : ∀ i a, s.phase i = .publish a → Made s.outcomes (some a)
  published : (∀ i a, s.phase i ≠ .publish a) → Made s.outcomes s.cell
  returned : ∀ i a, s.phase i = .done (.ok a) → s.cell = some a
  failed : ∀ i error, s.phase i = .done (.error error) → .error error ∈ s.outcomes

namespace Inv

omit [DecidableEq ι] in
theorem start : Inv (⟨none, none, fun _ ↦ .look, []⟩ : Locked ι α ε) where
  exclusive := by
    intro i
    constructor
    · intro h
      cases h
    · intro h
      cases h
  empty _ _ := rfl
  unpublished := by
    intro i a h
    cases h
  published := by
    intro _
    exact ⟨[], rfl⟩
  returned := by
    intro i a h
    cases h
  failed := by
    intro i error h
    cases h

omit [DecidableEq ι] in
/-- A call that has the lock is the only one that makes a value. -/
theorem not_publish (h : Inv s) (hi : (s.phase i).Inside) (hp : ∀ a, s.phase i ≠ .publish a) (j : ι)
    (a : α) : s.phase j ≠ .publish a := by
  intro hj
  have hinside : (s.phase j).Inside := by
    rw [hj]
    trivial
  rw [h.exclusive.eq hinside hi] at hj
  exact hp a hj

/-- A step in which no value is made and none is published. -/
theorem move (h : Inv s) {p : Phase α ε} {holder : Option ι} {outcomes : List (Except ε α)}
    (hexclusive : Exclusive Phase.Inside (Function.update s.phase i p) holder)
    (hold : ∀ a, s.phase i ≠ .publish a) (hnew : ∀ a, p ≠ .publish a)
    (hmake : p = .make → s.cell = none) (hreturned : ∀ a, p = .done (.ok a) → s.cell = some a)
    (hfailed : ∀ error, p = .done (.error error) → .error error ∈ outcomes)
    (houtcomes : outcomes = s.outcomes ∨
      (∀ j a, s.phase j ≠ .publish a) ∧ Made outcomes s.cell ∧ s.outcomes ⊆ outcomes) :
    Inv ⟨s.cell, holder, Function.update s.phase i p, outcomes⟩ := by
  have hpublish (j : ι) (a : α) : Function.update s.phase i p j = .publish a ↔
      s.phase j = .publish a := by
    by_cases hj : j = i
    · rw [hj, Function.update_self]
      exact iff_of_false (hnew a) (hold a)
    · rw [Function.update_of_ne hj]
  have hsubset : s.outcomes ⊆ outcomes := by
    rcases houtcomes with rfl | ⟨-, -, hsubset⟩
    · exact List.Subset.refl _
    · exact hsubset
  constructor
  case exclusive => exact hexclusive
  case empty =>
    intro j hj
    dsimp only at hj ⊢
    by_cases hji : j = i
    · rw [hji, Function.update_self] at hj
      rcases hj with hj | ⟨a, hj⟩
      · exact hmake hj
      · exact absurd hj (hnew a)
    · rw [Function.update_of_ne hji] at hj
      exact h.empty j hj
  case unpublished =>
    intro j a hj
    replace hj := (hpublish j a).mp hj
    rcases houtcomes with rfl | ⟨hnone, -⟩
    · exact h.unpublished j a hj
    · exact absurd hj (hnone j a)
  case published =>
    intro hnone
    rcases houtcomes with rfl | ⟨-, hmade, -⟩
    · apply h.published
      intro j a hj
      exact hnone j a ((hpublish j a).mpr hj)
    · exact hmade
  case returned =>
    intro j a hj
    dsimp only at hj ⊢
    by_cases hji : j = i
    · rw [hji, Function.update_self] at hj
      exact hreturned a hj
    · rw [Function.update_of_ne hji] at hj
      exact h.returned j a hj
  case failed =>
    intro j error hj
    dsimp only at hj ⊢
    by_cases hji : j = i
    · rw [hji, Function.update_self] at hj
      exact hfailed error hj
    · rw [Function.update_of_ne hji] at hj
      exact hsubset (h.failed j error hj)

/-- A call puts its value into the cell. -/
theorem publish (h : Inv s) {a : α} (hphase : s.phase i = .publish a) :
    Inv { s.finish i (.ok a) with cell := s.cell.or (some a) } := by
  have hcell := h.empty i (.inr ⟨a, hphase⟩)
  have hinside : (s.phase i).Inside := by
    rw [hphase]
    trivial
  have hother (j : ι) (hji : j ≠ i) : ¬(s.phase j).Inside :=
    fun hj ↦ hji (h.exclusive.eq hj hinside)
  rw [hcell]
  constructor
  case exclusive => exact h.exclusive.leave hinside id
  case empty =>
    intro j hj
    by_cases hji : j = i
    · simp [finish, setPhase, hji] at hj
    · simp only [finish, setPhase, Function.update_of_ne hji] at hj
      refine absurd ?_ (hother j hji)
      rcases hj with hj | ⟨b, hj⟩
      · rw [hj]
        trivial
      · rw [hj]
        trivial
  case unpublished =>
    intro j b hj
    by_cases hji : j = i
    · simp [finish, setPhase, hji] at hj
    · simp only [finish, setPhase, Function.update_of_ne hji] at hj
      refine absurd ?_ (hother j hji)
      rw [hj]
      trivial
  case published => exact fun _ ↦ h.unpublished i a hphase
  case returned =>
    intro j b hj
    by_cases hji : j = i
    · simp only [finish, setPhase, hji, Function.update_self] at hj
      exact congrArg some (Except.ok.inj (Phase.done.inj hj))
    · simp only [finish, setPhase, Function.update_of_ne hji] at hj
      rw [h.returned j b hj] at hcell
      cases hcell
  case failed =>
    intro j error hj
    by_cases hji : j = i
    · simp [finish, setPhase, hji] at hj
    · simp only [finish, setPhase, Function.update_of_ne hji] at hj
      exact h.failed j error hj

/-- A call has made a value. -/
theorem made (h : Inv s) {a : α} (hphase : s.phase i = .make) :
    Inv { s.setPhase i (.publish a) with outcomes := s.outcomes ++ [.ok a] } := by
  have hcell := h.empty i (.inl hphase)
  have hnone := h.not_publish (by rw [hphase]; trivial) (by simp [hphase])
  have hmade : Made (s.outcomes ++ [.ok a]) (some a) := by
    obtain ⟨errors, herrors⟩ := h.published hnone
    refine ⟨errors, ?_⟩
    rw [herrors, hcell]
    simp
  constructor
  case exclusive => exact h.exclusive.stay (by rw [hphase]; exact Iff.rfl)
  case empty => exact fun _ _ ↦ hcell
  case unpublished =>
    intro j b hj
    by_cases hji : j = i
    · simp only [setPhase, hji, Function.update_self] at hj
      rw [← Phase.publish.inj hj]
      exact hmade
    · simp only [setPhase, Function.update_of_ne hji] at hj
      exact absurd hj (hnone j b)
  case published =>
    intro hno
    exact absurd (Function.update_self i _ s.phase) (hno i a)
  case returned =>
    intro j b hj
    by_cases hji : j = i
    · simp [setPhase, hji] at hj
    · simp only [setPhase, Function.update_of_ne hji] at hj
      exact h.returned j b hj
  case failed =>
    intro j error hj
    by_cases hji : j = i
    · simp [setPhase, hji] at hj
    · simp only [setPhase, Function.update_of_ne hji] at hj
      exact List.mem_append_left _ (h.failed j error hj)

/-- **Every step keeps the invariant.** -/
theorem step (h : Inv s) {l : Label ι α ε} (hstep : s.step l = some t) : Inv t := by
  rcases step_cases hstep with ⟨i, a, -, hcell, hphase, rfl⟩ | ⟨i, -, hcell, hphase, rfl⟩ |
    ⟨i, -, hholder, hphase, rfl⟩ | ⟨i, a, -, hcell, hphase, rfl⟩ | ⟨i, -, hcell, hphase, rfl⟩ |
    ⟨i, a, -, hphase, rfl⟩ | ⟨i, error, -, hphase, rfl⟩ | ⟨i, a, -, hphase, rfl⟩
  · exact h.move (h.exclusive.stay (by rw [hphase]; exact Iff.rfl)) (by simp [hphase]) (by simp)
      (by simp) (by simpa using hcell) (by simp) (.inl rfl)
  · exact h.move (h.exclusive.stay (by rw [hphase]; exact Iff.rfl)) (by simp [hphase]) (by simp)
      (by simp) (by simp) (by simp) (.inl rfl)
  · have hexclusive := h.exclusive
    rw [hholder] at hexclusive
    exact h.move (hexclusive.enter trivial) (by simp [hphase]) (by simp) (by simp) (by simp)
      (by simp) (.inl rfl)
  · exact h.move (h.exclusive.leave (by rw [hphase]; trivial) id) (by simp [hphase]) (by simp)
      (by simp) (by simpa using hcell) (by simp) (.inl rfl)
  · exact h.move (h.exclusive.stay (by rw [hphase]; exact Iff.rfl)) (by simp [hphase]) (by simp)
      (fun _ ↦ hcell) (by simp) (by simp) (.inl rfl)
  · exact h.publish hphase
  · have hcell := h.empty i (.inl hphase)
    have hnone := h.not_publish (by rw [hphase]; trivial) (by simp [hphase])
    apply h.move (h.exclusive.leave (by rw [hphase]; trivial) id) (by simp [hphase]) (by simp)
      (by simp) (by simp) (by simp)
    refine .inr ⟨hnone, ?_, List.subset_append_left _ _⟩
    obtain ⟨errors, herrors⟩ := h.published hnone
    refine ⟨errors ++ [error], ?_⟩
    rw [herrors, hcell]
    simp
  · exact h.made hphase

end Inv

theorem inv_of_reachable {C : Locked ι α ε → Label ι α ε → Prop}
    (h : (locked ι α ε).ReachableVia C s) : Inv s := by
  refine h.invariant ?_ fun s l t hs _ ↦ hs.step
  rintro s rfl
  exact .start

/-- What comes of an attempt is what the steps of the run allow. -/
theorem forall_outcomes {C : Locked ι α ε → Label ι α ε → Prop} {P : Except ε α → Prop}
    (hC : ∀ s i outcome, C s (.made i outcome) → P outcome)
    (h : (locked ι α ε).ReachableVia C s) : ∀ outcome ∈ s.outcomes, P outcome := by
  refine Machine.ReachableVia.invariant (I := fun s ↦ ∀ outcome ∈ s.outcomes, P outcome) ?_ ?_ h
  · rintro s rfl outcome houtcome
    cases houtcome
  · intro s l t hs hl hstep
    rcases step_cases hstep with ⟨i, a, -, -, -, rfl⟩ | ⟨i, -, -, -, rfl⟩ | ⟨i, -, -, -, rfl⟩ |
      ⟨i, a, -, -, -, rfl⟩ | ⟨i, -, -, -, rfl⟩ | ⟨i, a, -, -, rfl⟩ | ⟨i, error, rfl, -, rfl⟩ |
      ⟨i, a, rfl, -, rfl⟩
    case inr.inr.inr.inr.inr.inr.inl =>
      intro outcome houtcome
      rcases List.mem_append.mp houtcome with hold | hnew
      · exact hs outcome hold
      · rw [List.mem_singleton.mp hnew]
        exact hC s i _ hl
    case inr.inr.inr.inr.inr.inr.inr =>
      intro outcome houtcome
      rcases List.mem_append.mp houtcome with hold | hnew
      · exact hs outcome hold
      · rw [List.mem_singleton.mp hnew]
        exact hC s i _ hl
    all_goals exact hs

/-- What a call fails with came of its own attempt. -/
theorem forall_failed {C : Locked ι α ε → Label ι α ε → Prop} {P : ι → ε → Prop}
    (hC : ∀ s i error, C s (.made i (.error error)) → P i error)
    (h : (locked ι α ε).ReachableVia C s) :
    ∀ i error, s.phase i = .done (.error error) → P i error := by
  refine Machine.ReachableVia.invariant
    (I := fun s ↦ ∀ i error, s.phase i = .done (.error error) → P i error) ?_ ?_ h
  · rintro s rfl i error hi
    cases hi
  · intro s l t hs hl hstep
    -- the calls that do not take the step are where they were
    have hother {i : ι} {p : Phase α ε} (hp : ∀ error, p = .done (.error error) → P i error) :
        ∀ j error, Function.update s.phase i p j = .done (.error error) → P j error := by
      intro j error hj
      by_cases hji : j = i
      · rw [hji, Function.update_self] at hj
        rw [hji]
        exact hp error hj
      · rw [Function.update_of_ne hji] at hj
        exact hs j error hj
    rcases step_cases hstep with ⟨i, a, -, -, -, rfl⟩ | ⟨i, -, -, -, rfl⟩ | ⟨i, -, -, -, rfl⟩ |
      ⟨i, a, -, -, -, rfl⟩ | ⟨i, -, -, -, rfl⟩ | ⟨i, a, -, -, rfl⟩ | ⟨i, error, rfl, -, rfl⟩ |
      ⟨i, a, rfl, -, rfl⟩
    case inr.inr.inr.inr.inr.inr.inl =>
      refine hother fun error' h ↦ ?_
      rw [← Except.error.inj (Phase.done.inj h)]
      exact hC s i error hl
    all_goals exact hother fun error h ↦ by cases h

/-! ### What the calls return -/

/-- One value at most is made, and all calls that succeed return it. -/
structure Lawful (s : Locked ι α ε) : Prop where
  once : ∃ value, Made s.outcomes value ∧ (s.cell = none ∨ s.cell = value)
  returned : ∀ i a, s.phase i = .done (.ok a) → s.cell = some a
  failed : ∀ i error, s.phase i = .done (.error error) → .error error ∈ s.outcomes
  /-- A call that is not done can go on, or waits for one that can or that makes a value. -/
  progress : ∀ i, (∀ result, s.phase i ≠ .done result) → ∃ j, (j = i ∨ s.holder = some j) ∧
    (s.phase j = .make ∨ (s.step (.go j)).isSome)

omit [DecidableEq ι] in
/-- No attempt is under way once one has succeeded. -/
theorem Inv.not_make (h : Inv s) {a : α} (ha : .ok a ∈ s.outcomes) (i : ι) : s.phase i ≠ .make := by
  intro hi
  have hnone := h.not_publish (by rw [hi]; trivial) (by simp [hi])
  obtain ⟨errors, hmade⟩ := h.published hnone
  rw [hmade, h.empty i (.inl hi)] at ha
  simp at ha

theorem Inv.lawful (h : Inv s) : Lawful s where
  once := by
    by_cases hpublish : ∃ i a, s.phase i = .publish a
    · obtain ⟨i, a, hi⟩ := hpublish
      exact ⟨some a, h.unpublished i a hi, .inl (h.empty i (.inr ⟨a, hi⟩))⟩
    · exact ⟨s.cell, h.published (fun i a hi ↦ hpublish ⟨i, a, hi⟩), .inr rfl⟩
  returned := h.returned
  failed := h.failed
  progress := by
    have hgo (j : ι) (hj : (s.phase j).Inside) :
        s.phase j = .make ∨ (s.step (.go j)).isSome := by
      cases hphase : s.phase j with
      | make => exact .inl rfl
      | lookAgain =>
        rw [Locked.step, hphase]
        cases s.cell with
        | none => exact .inr rfl
        | some a => exact .inr rfl
      | publish a =>
        rw [Locked.step, hphase]
        exact .inr rfl
      | _ =>
        rw [hphase] at hj
        exact hj.elim
    intro i hi
    cases hphase : s.phase i with
    | look =>
      refine ⟨i, .inl rfl, .inr ?_⟩
      rw [Locked.step, hphase]
      cases s.cell with
      | none => rfl
      | some a => rfl
    | lock =>
      cases hholder : s.holder with
      | none =>
        refine ⟨i, .inl rfl, .inr ?_⟩
        rw [Locked.step, hphase, hholder]
        rfl
      | some j => exact ⟨j, .inr rfl, hgo j ((h.exclusive j).mpr hholder)⟩
    | done result => exact absurd hphase (hi result)
    | _ => exact ⟨i, .inl rfl, hgo i (by rw [hphase]; trivial)⟩

end Locked

/-- The call of a step. -/
def Label.call : Label ι α ε → ι
  | .go i | .made i _ => i

/-- How many steps a call has left at most. -/
def Phase.left : Phase α ε → Nat
  | look => 5
  | lock => 4
  | lookAgain => 3
  | make => 2
  | publish _ => 1
  | done _ => 0

namespace Locked

variable {s t : Locked ι α ε} {i : ι}

theorem left_step {l : Label ι α ε} (h : s.step l = some t) :
    (t.phase l.call).left < (s.phase l.call).left ∧ ∀ j, j ≠ l.call → t.phase j = s.phase j := by
  rcases step_cases h with ⟨i, a, rfl, -, hphase, rfl⟩ | ⟨i, rfl, -, hphase, rfl⟩ |
    ⟨i, rfl, -, hphase, rfl⟩ | ⟨i, a, rfl, -, hphase, rfl⟩ | ⟨i, rfl, -, hphase, rfl⟩ |
    ⟨i, a, rfl, hphase, rfl⟩ | ⟨i, error, rfl, hphase, rfl⟩ | ⟨i, a, rfl, hphase, rfl⟩
  all_goals
    refine ⟨?_, fun j hj ↦ Function.update_of_ne hj _ _⟩
    simp [Label.call, hphase, finish, setPhase, Phase.left]

/-- **A call takes five steps at most.** -/
theorem steps_le {ls : List (Label ι α ε)} (h : (locked ι α ε).run s ls = some t) :
    ls.countP (·.call = i) + (t.phase i).left ≤ (s.phase i).left := by
  induction ls generalizing s with
  | nil =>
    obtain rfl := Option.some.inj h
    exact Nat.le_of_eq (Nat.zero_add _)
  | cons l ls ih =>
    obtain ⟨u, hu, h⟩ := (locked ι α ε).run_cons_eq_some.mp h
    obtain ⟨hlt, hother⟩ := left_step hu
    have hrest := ih h
    by_cases hl : l.call = i
    · rw [hl] at hlt
      rw [List.countP_cons, if_pos (decide_eq_true hl)]
      omega
    · rw [hother i (Ne.symm hl)] at hrest
      rw [List.countP_cons, if_neg (by rw [decide_eq_true_iff]; exact hl)]
      exact hrest

end Locked

/-! ## Without a lock -/

inductive RacePhase (α : Type v) (ε : Type w)
  | look
  | make
  | publish (a : α)
  | read
  | done (result : Except ε α)
  | panicked

structure Raced (ι : Type u) (α : Type v) (ε : Type w) where
  /-- With the call that has put the value there. -/
  cell : Option (ι × α)
  phase : ι → RacePhase α ε
  /-- What each call has made. -/
  made : ι → Option α
  /-- How often what a call has made was dropped. -/
  drops : ι → Nat

namespace Raced

variable (s : Raced ι α ε)

def setPhase (i : ι) (p : RacePhase α ε) : Raced ι α ε :=
  { s with phase := Function.update s.phase i p }

def step : Label ι α ε → Option (Raced ι α ε)
  | .go i =>
    match s.phase i with
    | .look =>
      match s.cell with
      | some (_, a) => some (s.setPhase i (.done (.ok a)))
      | none => some (s.setPhase i .make)
    | .publish a =>
      match s.cell with
      | some _ =>
        some { s.setPhase i .read with drops := Function.update s.drops i (s.drops i + 1) }
      | none => some { s.setPhase i .read with cell := some (i, a) }
    | .read =>
      match s.cell with
      | some (_, a) => some (s.setPhase i (.done (.ok a)))
      | none => some (s.setPhase i .panicked)
    | _ => none
  | .made i outcome =>
    match s.phase i with
    | .make =>
      match outcome with
      | .error error => some (s.setPhase i (.done (.error error)))
      | .ok a =>
        some { s.setPhase i (.publish a) with made := Function.update s.made i (some a) }
    | _ => none

end Raced

/-- Calls without a lock, which start with an empty cell. -/
def raced (ι : Type u) [DecidableEq ι] (α : Type v) (ε : Type w) :
    Machine (Raced ι α ε) (Label ι α ε) where
  Init s := s = ⟨none, fun _ ↦ .look, fun _ ↦ none, fun _ ↦ 0⟩
  step := Raced.step

namespace Raced

variable {s t : Raced ι α ε} {i : ι}

theorem step_cases {l : Label ι α ε} (h : s.step l = some t) :
    (∃ i c, s.cell = some c ∧ (s.phase i = .look ∨ s.phase i = .read) ∧
      t = s.setPhase i (.done (.ok c.2))) ∨
    (∃ i, s.cell = none ∧ s.phase i = .look ∧ t = s.setPhase i .make) ∨
    (∃ i a c, s.cell = some c ∧ s.phase i = .publish a ∧
      t = { s.setPhase i .read with drops := Function.update s.drops i (s.drops i + 1) }) ∨
    (∃ i a, s.cell = none ∧ s.phase i = .publish a ∧
      t = { s.setPhase i .read with cell := some (i, a) }) ∨
    (∃ i, s.cell = none ∧ s.phase i = .read ∧ t = s.setPhase i .panicked) ∨
    (∃ i error, l = .made i (.error error) ∧ s.phase i = .make ∧
      t = s.setPhase i (.done (.error error))) ∨
    ∃ i a, l = .made i (.ok a) ∧ s.phase i = .make ∧
      t = { s.setPhase i (.publish a) with made := Function.update s.made i (some a) } := by
  cases l with
  | go i =>
    rw [step] at h
    cases hphase : s.phase i with
    | look =>
      rw [hphase] at h
      cases hcell : s.cell with
      | some c =>
        rw [hcell] at h
        exact .inl ⟨i, c, rfl, .inl hphase, (Option.some.inj h).symm⟩
      | none =>
        rw [hcell] at h
        exact .inr (.inl ⟨i, rfl, hphase, (Option.some.inj h).symm⟩)
    | publish a =>
      rw [hphase] at h
      cases hcell : s.cell with
      | some c =>
        rw [hcell] at h
        exact .inr (.inr (.inl ⟨i, a, c, rfl, hphase, (Option.some.inj h).symm⟩))
      | none =>
        rw [hcell] at h
        exact .inr (.inr (.inr (.inl ⟨i, a, rfl, hphase, (Option.some.inj h).symm⟩)))
    | read =>
      rw [hphase] at h
      cases hcell : s.cell with
      | some c =>
        rw [hcell] at h
        exact .inl ⟨i, c, rfl, .inr hphase, (Option.some.inj h).symm⟩
      | none =>
        rw [hcell] at h
        exact .inr (.inr (.inr (.inr (.inl ⟨i, rfl, hphase, (Option.some.inj h).symm⟩))))
    | _ =>
      rw [hphase] at h
      cases h
  | made i outcome =>
    cases outcome with
    | error error =>
      rw [step] at h
      split at h
      case h_1 hphase =>
        exact .inr (.inr (.inr (.inr (.inr (.inl
          ⟨i, error, rfl, hphase, (Option.some.inj h).symm⟩)))))
      case h_2 => cases h
    | ok a =>
      rw [step] at h
      split at h
      case h_1 hphase =>
        exact .inr (.inr (.inr (.inr (.inr (.inr
          ⟨i, a, rfl, hphase, (Option.some.inj h).symm⟩)))))
      case h_2 => cases h

section

variable (cell : Option (ι × α)) (i : ι) (made : Option α) (drops : Nat)

/-- A call has made nothing. -/
structure NotMade : Prop where
  eq_none : made = none
  not_dropped : drops = 0
  not_kept : ∀ a, cell ≠ some (i, a)

/-- What a call has made is in the cell, or it was dropped because something else is there. -/
structure Settled : Prop where
  full : cell ≠ none
  kept_or_dropped : ∃ a, made = some a ∧
    (cell = some (i, a) ∧ drops = 0 ∨ (∀ b, cell ≠ some (i, b)) ∧ drops = 1)

/-- What has become of the value of a call. -/
def Custody : RacePhase α ε → Prop
  | .look | .make | .done (.error _) => NotMade cell i made drops
  | .publish a => made = some a ∧ drops = 0 ∧ ∀ b, cell ≠ some (i, b)
  | .read => Settled cell i made drops
  | .done (.ok a) =>
    cell.map Prod.snd = some a ∧ (NotMade cell i made drops ∨ Settled cell i made drops)
  | .panicked => False

end

def Inv (s : Raced ι α ε) : Prop := ∀ i, Custody s.cell i (s.made i) (s.drops i) (s.phase i)

omit [DecidableEq ι] in
/-- Nothing changes for the others when a call fills the cell. -/
theorem Custody.fill {j : ι} {made : Option α} {drops : Nat} {p : RacePhase α ε}
    (h : Custody none j made drops p) (hj : j ≠ i) (a : α) :
    Custody (some (i, a)) j made drops p := by
  have hother (b : α) : some (i, a) ≠ some (j, b) := by
    intro h
    exact hj (congrArg Prod.fst (Option.some.inj h)).symm
  cases p with
  | look => exact ⟨h.eq_none, h.not_dropped, hother⟩
  | make => exact ⟨h.eq_none, h.not_dropped, hother⟩
  | publish b => exact ⟨h.1, h.2.1, hother⟩
  | read => exact absurd rfl h.full
  | panicked => exact h
  | done result =>
    cases result with
    | error error => exact ⟨h.eq_none, h.not_dropped, hother⟩
    | ok b => cases h.1

namespace Inv

omit [DecidableEq ι] in
theorem start : Inv (⟨none, fun _ ↦ .look, fun _ ↦ none, fun _ ↦ 0⟩ : Raced ι α ε) := by
  intro i
  refine ⟨rfl, rfl, ?_⟩
  intro a h
  cases h

/-- A step of a call, seen by that call and by the others. -/
theorem update (h : Inv s) {cell : Option (ι × α)} {made : ι → Option α} {drops : ι → Nat}
    {p : RacePhase α ε} (hi : Custody cell i (made i) (drops i) p)
    (hother : ∀ j, j ≠ i → made j = s.made j ∧ drops j = s.drops j ∧
      (Custody s.cell j (s.made j) (s.drops j) (s.phase j) →
        Custody cell j (s.made j) (s.drops j) (s.phase j))) :
    Inv ⟨cell, Function.update s.phase i p, made, drops⟩ := by
  intro j
  dsimp only
  by_cases hj : j = i
  · rw [hj, Function.update_self]
    exact hi
  · obtain ⟨hmade, hdrops, hcustody⟩ := hother j hj
    rw [Function.update_of_ne hj, hmade, hdrops]
    exact hcustody (h j)

/-- **Every step keeps what has become of the values.** -/
theorem step (h : Inv s) {l : Label ι α ε} (hstep : s.step l = some t) : Inv t := by
  rcases step_cases hstep with ⟨i, c, hcell, hphase, rfl⟩ | ⟨i, hcell, hphase, rfl⟩ |
    ⟨i, a, c, hcell, hphase, rfl⟩ | ⟨i, a, hcell, hphase, rfl⟩ | ⟨i, hcell, hphase, rfl⟩ |
    ⟨i, error, -, hphase, rfl⟩ | ⟨i, a, -, hphase, rfl⟩
  · -- the value in the cell is returned
    refine h.update ⟨by rw [hcell]; rfl, ?_⟩ fun j _ ↦ ⟨rfl, rfl, id⟩
    have hi := h i
    rcases hphase with hphase | hphase
    · rw [hphase] at hi
      exact .inl hi
    · rw [hphase] at hi
      exact .inr hi
  · have hi := h i
    rw [hphase] at hi
    exact h.update hi fun j _ ↦ ⟨rfl, rfl, id⟩
  · -- too late
    have hi := h i
    rw [hphase] at hi
    obtain ⟨hmade, hdrops, hcustody⟩ := hi
    refine h.update ?_ fun j hj ↦ ⟨rfl, Function.update_of_ne hj _ _, id⟩
    rw [Function.update_self, hdrops]
    have hfull : s.cell ≠ none := by
      rw [hcell]
      exact Option.some_ne_none c
    exact ⟨hfull, a, hmade, .inr ⟨hcustody, rfl⟩⟩
  · -- in time
    have hi := h i
    rw [hphase] at hi
    obtain ⟨hmade, hdrops, -⟩ := hi
    refine h.update ⟨Option.some_ne_none _, a, hmade, .inl ⟨rfl, hdrops⟩⟩ fun j hj ↦ ⟨rfl, rfl, ?_⟩
    rw [hcell]
    exact fun hj' ↦ hj'.fill hj a
  · have hi := h i
    rw [hphase] at hi
    exact absurd hcell hi.full
  · have hi := h i
    rw [hphase] at hi
    exact h.update hi fun j _ ↦ ⟨rfl, rfl, id⟩
  · have hi := h i
    rw [hphase] at hi
    obtain ⟨hmade, hdrops, hcell⟩ := hi
    refine h.update ?_ fun j hj ↦ ⟨Function.update_of_ne hj _ _, rfl, id⟩
    rw [Function.update_self]
    exact ⟨rfl, hdrops, hcell⟩

end Inv

theorem inv_of_reachable {C : Raced ι α ε → Label ι α ε → Prop}
    (h : (raced ι α ε).ReachableVia C s) : Inv s := by
  refine h.invariant ?_ fun s l t hs _ ↦ hs.step
  rintro s rfl
  exact .start

/-- Every value that was made is in the cell, or was dropped once, or is still with its maker. -/
structure Lawful (s : Raced ι α ε) : Prop where
  made : ∀ i a, s.made i = some a →
    s.drops i = 0 ∧ (s.phase i = .publish a ∨ s.cell = some (i, a)) ∨
      s.drops i = 1 ∧ s.cell ≠ none ∧ ∀ b, s.cell ≠ some (i, b)
  not_made : ∀ i, s.made i = none → s.drops i = 0 ∧ ∀ a, s.cell ≠ some (i, a)
  returned : ∀ i a, s.phase i = .done (.ok a) → s.cell.map Prod.snd = some a
  not_panicked : ∀ i, s.phase i ≠ .panicked

omit [DecidableEq ι] in
theorem Custody.cases {cell : Option (ι × α)} {made : Option α} {drops : Nat}
    {p : RacePhase α ε} (h : Custody cell i made drops p) :
    NotMade cell i made drops ∨ Settled cell i made drops ∨
      ∃ a, p = .publish a ∧ made = some a ∧ drops = 0 := by
  cases p with
  | look => exact .inl h
  | make => exact .inl h
  | publish a => exact .inr (.inr ⟨a, rfl, h.1, h.2.1⟩)
  | read => exact .inr (.inl h)
  | panicked => exact h.elim
  | done result =>
    cases result with
    | error error => exact .inl h
    | ok a => exact h.2.imp_right .inl

omit [DecidableEq ι] in
theorem Inv.lawful (h : Inv s) : Lawful s where
  made := by
    intro i a ha
    rcases (h i).cases with hnot | hsettled | ⟨b, hphase, hb, hdrops⟩
    · cases hnot.eq_none.symm.trans ha
    · obtain ⟨b, hb, ⟨hkept, hdrops⟩ | ⟨hdropped, hdrops⟩⟩ := hsettled.kept_or_dropped
      · obtain rfl := Option.some.inj (ha.symm.trans hb)
        exact .inl ⟨hdrops, .inr hkept⟩
      · exact .inr ⟨hdrops, hsettled.full, hdropped⟩
    · obtain rfl := Option.some.inj (ha.symm.trans hb)
      exact .inl ⟨hdrops, .inl hphase⟩
  not_made := by
    intro i hi
    rcases (h i).cases with hnot | hsettled | ⟨b, -, hb, -⟩
    · exact ⟨hnot.not_dropped, hnot.not_kept⟩
    · obtain ⟨b, hb, -⟩ := hsettled.kept_or_dropped
      cases hi.symm.trans hb
    · cases hi.symm.trans hb
  returned := by
    intro i a hphase
    have hi := h i
    rw [hphase] at hi
    exact hi.1
  not_panicked := by
    intro i hphase
    have hi := h i
    rw [hphase] at hi
    exact hi

omit [DecidableEq ι] in
/-- What is in the cell was made by the call that has put it there, and is not dropped. -/
theorem Inv.kept (h : Inv s) {a : α} (hcell : s.cell = some (i, a)) :
    s.made i = some a ∧ s.drops i = 0 := by
  have hi := h i
  rcases hi.cases with hnot | hsettled | ⟨b, hphase, -⟩
  · exact absurd hcell (hnot.not_kept a)
  · obtain ⟨b, hb, ⟨hkept, hdrops⟩ | ⟨hdropped, -⟩⟩ := hsettled.kept_or_dropped
    · obtain rfl := (Prod.mk.inj (Option.some.inj (hcell.symm.trans hkept))).2
      exact ⟨hb, hdrops⟩
    · exact absurd hcell (hdropped a)
  · rw [hphase] at hi
    exact absurd hcell (hi.2.2 a)

/-- What holds of all outcomes holds of all that is made, and of all errors. -/
theorem forall_outcomes {C : Raced ι α ε → Label ι α ε → Prop} {P : Except ε α → Prop}
    (hC : ∀ s i outcome, C s (.made i outcome) → P outcome)
    (h : (raced ι α ε).ReachableVia C s) :
    (∀ i a, s.made i = some a → P (.ok a)) ∧
      ∀ i error, s.phase i = .done (.error error) → P (.error error) := by
  refine Machine.ReachableVia.invariant (I := fun s ↦ (∀ i a, s.made i = some a → P (.ok a)) ∧
    ∀ i error, s.phase i = .done (.error error) → P (.error error)) ?_ ?_ h
  · rintro s rfl
    constructor
    · intro i a hi
      cases hi
    · intro i error hi
      cases hi
  · rintro s l t ⟨hmade, hfailed⟩ hl hstep
    -- the errors of the calls that do not take the step
    have hother {i : ι} {p : RacePhase α ε}
        (hp : ∀ error, p = .done (.error error) → P (.error error)) :
        ∀ j error, Function.update s.phase i p j = .done (.error error) → P (.error error) := by
      intro j error hj
      by_cases hji : j = i
      · rw [hji, Function.update_self] at hj
        exact hp error hj
      · rw [Function.update_of_ne hji] at hj
        exact hfailed j error hj
    rcases step_cases hstep with ⟨i, c, -, -, rfl⟩ | ⟨i, -, -, rfl⟩ | ⟨i, a, c, -, -, rfl⟩ |
      ⟨i, a, -, -, rfl⟩ | ⟨i, -, -, rfl⟩ | ⟨i, error, rfl, -, rfl⟩ | ⟨i, a, rfl, -, rfl⟩
    case inr.inr.inr.inr.inr.inl =>
      refine ⟨hmade, hother fun error' h ↦ ?_⟩
      rw [← Except.error.inj (RacePhase.done.inj h)]
      exact hC s i _ hl
    case inr.inr.inr.inr.inr.inr =>
      refine ⟨fun j b hj ↦ ?_, hother fun error h ↦ by cases h⟩
      dsimp only at hj
      by_cases hji : j = i
      · rw [hji, Function.update_self] at hj
        rw [← Option.some.inj hj]
        exact hC s i _ hl
      · rw [Function.update_of_ne hji] at hj
        exact hmade j b hj
    all_goals exact ⟨hmade, hother fun error h ↦ by cases h⟩

end Raced

end

end Once

import JavaBridge.Replacement.Lifecycle
import Mathlib.Data.Fintype.Basic

/-!
# When a replacement's memory is freed

A revert drops the guard, and with it the clone and the dispatch thunk, as soon as the method is
restored and unregistered. From then on no call can reach the hook any more; but the calls that
are on their way through it still run on the clone's frame, and the wait before the restore
counts only those between `enter` and the drop of their guard.

Main results:

* `Quiet.step`: once the clone is freed with no call on its way, nothing the replacement owns is
  ever reached again.
* `throughout_safe_iff`: a run keeps every call off freed memory exactly when no call is on its way
  through the hook where the clone is freed.
-/

universe u

namespace JavaBridge.Replacement

variable {κ τ θ : Type u}

/-! ## What a call stands on -/

/-- The memory a replacement owns. -/
inductive Piece
  | closureThunk
  | closureState
  | dispatchThunk
  | clone
  deriving DecidableEq

def State.memory (s : State κ τ θ) : Piece → Memory
  | .closureThunk => s.closureThunk
  | .closureState => s.closureState
  | .dispatchThunk => s.dispatchThunk
  | .clone => s.clone

namespace CallPoint

/-- The pieces a call executes, returns into or walks: the dispatch thunk reads the clone's
entrypoint, and from there on the clone's frame is below every other. -/
def uses : CallPoint → List Piece
  | dispatchThunk => [.dispatchThunk, .clone]
  | clone | leaving _ => [.clone]
  | prologue | invoke _ => [.closureThunk, .closureState, .clone]
  | epilogue _ => [.closureThunk, .clone]
  | outside | original | returned _ => []

theorem clone_mem_uses {point : CallPoint} (h : point.onPath = true) : .clone ∈ point.uses := by
  cases point with
  | outside | original | returned => cases h
  | _ => simp [uses]

theorem uses_eq_nil {point : CallPoint} (h : point.onPath = false) : point.uses = [] := by
  cases point with
  | outside | original | returned => rfl
  | _ => cases h

end CallPoint

/-- No call stands on freed memory. -/
def Safe (s : State κ τ θ) : Prop :=
  ∀ k, ∀ piece ∈ (s.calls k).uses, s.memory piece ≠ .freed

/-- Where the clone is freed, no call is on its way through the hook. -/
def FreedOffPath (s : State κ τ θ) : Action κ τ θ → Prop
  | .owner .dropClone => ∀ k, (s.calls k).onPath = false
  | _ => True

/-! ## The invariant -/

/-- How far the owner has taken the replacement down. -/
def Owner.Reached (s : State κ τ θ) : Owner τ θ → Prop
  | .ready _ | .busy _ _ .draining => s.replacement = false → s.clone = .freed
  | .busy _ _ .restoring | .dropped => True
  | .busy _ _ .unregistering => s.patched = false
  | .busy _ _ .droppingClone => s.patched = false ∧ s.registered = false
  | .busy _ _ _ => s.clone = .freed

/-- The clone is the first piece that is freed, and then no call is or gets on its way. -/
structure Quiet (s : State κ τ θ) : Prop where
  gone : s.clone = .freed →
    s.patched = false ∧ s.registered = false ∧ ∀ k, (s.calls k).onPath = false
  first : ∀ piece, s.memory piece = .freed → s.clone = .freed
  reached : s.owner.Reached s

theorem quiet_installed : Quiet (State.installed : State κ τ θ) where
  gone := nofun
  first piece h := by cases piece <;> cases h
  reached := nofun

theorem Quiet.safe {s : State κ τ θ} (hs : Quiet s) : Safe s := by
  intro k piece hmem hfreed
  have hoff := (hs.gone (hs.first piece hfreed)).2.2 k
  rw [CallPoint.uses_eq_nil hoff] at hmem
  cases hmem

section Step

variable [DecidableEq κ] [DecidableEq τ] {thread : κ → τ} {s t : State κ τ θ}

omit [DecidableEq τ] in
/-- A call that is set to a point it may take leaves the invariant alone. -/
theorem Quiet.setCall {k : κ} {point : CallPoint} (hs : Quiet s)
    (hpath : (s.calls k).onPath = false → point.onPath = true →
      s.patched = true ∨ s.registered = true) : Quiet (s.setCall k point) := by
  refine ⟨fun hfreed ↦ ?_, fun piece h ↦ hs.first piece (by cases piece <;> exact h), ?_⟩
  · obtain ⟨hpatched, hreg, hoff⟩ := hs.gone hfreed
    refine ⟨hpatched, hreg, fun j ↦ ?_⟩
    simp only [State.setCall]
    by_cases hj : j = k
    · subst hj
      rw [Function.update_self]
      by_contra hon
      rcases hpath (hoff j) (Bool.not_eq_false _ ▸ hon) with h | h
      · rw [hpatched] at h
        cases h
      · rw [hreg] at h
        cases h
    · rw [Function.update_of_ne hj]
      exact hoff j
  · have hreached := hs.reached
    revert hreached
    dsimp only [State.setCall]
    cases s.owner with
    | ready | dropped => exact id
    | busy operation t point => cases point <;> exact id

omit [DecidableEq κ] [DecidableEq τ] in
/-- Nor does the invariant look at the counters. -/
theorem Quiet.counts (hs : Quiet s) (counts : ActiveInvocationCounts τ) :
    Quiet { s with counts := counts } := by
  refine ⟨hs.gone, fun piece h ↦ hs.first piece (by cases piece <;> exact h), ?_⟩
  have hreached := hs.reached
  revert hreached
  dsimp only
  cases s.owner with
  | ready | dropped => exact id
  | busy operation t point => cases point <;> exact id

theorem Quiet.callStep {k : κ} {action : CallAction} (hs : Quiet s)
    (h : callStep s k (thread k) (s.calls k) action = some t) : Quiet t := by
  rcases callStep_cases h with ⟨hpoint, -, rfl⟩ | ⟨closing, how, hpoint, -, rfl⟩ |
    ⟨next, rfl, -, -, -, hpath⟩
  · refine (hs.setCall fun hoff ↦ ?_).counts _
    rw [hpoint] at hoff
    cases hoff
  · refine (hs.setCall fun hoff ↦ ?_).counts _
    rw [hpoint] at hoff
    cases hoff
  · exact hs.setCall hpath

omit [DecidableEq κ] [DecidableEq τ] in
theorem Quiet.drained {operation : Operation} {t : τ} (hs : Quiet s)
    (hrep : s.replacement = false → s.clone = .freed) :
    Quiet (drained s operation t) := by
  unfold Replacement.drained
  split
  · exact ⟨hs.gone, fun piece h ↦ hs.first piece (by cases piece <;> exact h), trivial⟩
  · rename_i hnone
    exact ⟨hs.gone, fun piece h ↦ hs.first piece (by cases piece <;> exact h),
      hrep (Bool.eq_false_iff.mpr hnone)⟩

omit [DecidableEq κ] [DecidableEq τ] in
/-- A leak frees nothing. -/
theorem Quiet.leak {guard : Bool} (hs : Quiet s) : Quiet (s.leak guard) := by
  refine ⟨fun hfreed ↦ hs.gone ?_, fun piece h ↦ ?_, trivial⟩
  · cases guard with
    | true => cases hfreed
    | false => exact hfreed
  · cases guard with
    | true => cases piece <;> cases h
    | false =>
      cases piece with
      | closureThunk | closureState => cases h
      | dispatchThunk => exact hs.first .dispatchThunk h
      | clone => exact h

omit [DecidableEq κ] [DecidableEq τ] in
theorem Quiet.start {operation : Operation} {t : τ} (hs : Quiet s)
    (hrep : s.replacement = false → s.clone = .freed) : Quiet (start s operation t) := by
  unfold Replacement.start
  split
  · cases operation with
    | revert =>
      exact ⟨hs.gone, fun piece h ↦ hs.first piece (by cases piece <;> exact h), hrep⟩
    | drop => exact hs.leak
  · split
    · exact (hs.counts _).drained hrep
    · exact ⟨hs.gone, fun piece h ↦ hs.first piece (by cases piece <;> exact h), hrep⟩

omit [DecidableEq κ] [DecidableEq τ] in
/-- **The owner's step**: it frees the clone only where no call is on its way. -/
theorem Quiet.ownerStep {operation : Operation} {t' : τ} {point : OwnerPoint}
    {action : OwnerAction κ τ θ} (hs : Quiet s) (howner : s.owner = .busy operation t' point)
    (hC : FreedOffPath s (.owner action)) (h : ownerStep s operation t' point action = some t) :
    Quiet t := by
  have hreached := hs.reached
  rw [howner] at hreached
  unfold Replacement.ownerStep at h
  split at h
  · split at h
    · cases h
      exact hs.drained hreached
    · cases h
  · cases h
    exact ⟨fun hf ↦ ⟨rfl, (hs.gone hf).2⟩,
      fun piece h ↦ hs.first piece (by cases piece <;> exact h), rfl⟩
  · split at h
    · cases h
      exact ⟨hs.gone, fun piece h ↦ hs.first piece (by cases piece <;> exact h), nofun⟩
    · cases h
      exact hs.leak
  · cases h
    exact ⟨fun hf ↦ ⟨hreached, rfl, (hs.gone hf).2.2⟩,
      fun piece h ↦ hs.first piece (by cases piece <;> exact h), ⟨hreached, rfl⟩⟩
  · cases h
    exact ⟨fun _ ↦ ⟨hreached.1, hreached.2, hC⟩, fun _ _ ↦ rfl, rfl⟩
  · cases h
    exact ⟨hs.gone, fun _ _ ↦ hreached, hreached⟩
  · split at h
    · cases h
      cases operation with
      | revert =>
        exact ⟨hs.gone, fun piece h ↦ hs.first piece (by cases piece <;> exact h),
          fun _ ↦ hreached⟩
      | drop =>
        exact ⟨hs.gone, fun piece h ↦ hs.first piece (by cases piece <;> exact h), hreached⟩
    · cases h
  · cases h
    exact ⟨hs.gone, fun _ _ ↦ hreached, hreached⟩
  · cases h
    exact ⟨hs.gone, fun _ _ ↦ hreached, trivial⟩
  · cases h

theorem Quiet.step {action : Action κ τ θ} (hs : Quiet s) (hC : FreedOffPath s action)
    (h : step thread s action = some t) : Quiet t := by
  cases action with
  | call k action =>
    simp only [Replacement.step] at h
    split at h
    · cases h
    · exact hs.callStep h
  | owner action =>
    simp only [Replacement.step] at h
    split at h
    · rename_i howner
      obtain ⟨t', -, rfl⟩ := Option.map_eq_some_iff.mp h
      have hreached := hs.reached
      rw [howner] at hreached
      exact hs.start hreached
    · rename_i howner
      exact hs.ownerStep howner hC h
    · cases h

/-- A clone freed under a call leaves the call on freed memory. -/
theorem not_safe_of_step {action : Action κ τ θ} (hC : ¬ FreedOffPath s action)
    (h : step thread s action = some t) : ¬ Safe t := by
  intro hsafe
  cases action with
  | call => exact hC trivial
  | owner action =>
    cases action with
    | dropClone =>
      obtain ⟨k, hk⟩ := not_forall.mp hC
      cases howner : s.owner with
      | ready | dropped => simp [Replacement.step, howner] at h
      | busy operation t' point =>
        simp only [Replacement.step, howner] at h
        cases point with
        | droppingClone =>
          cases h
          exact hsafe k .clone (CallPoint.clone_mem_uses (Bool.not_eq_false _ ▸ hk)) rfl
        | _ => cases h
    | _ => exact hC trivial

/-- **Freed memory, exactly.** In every state of a run no call stands on freed memory, if and only
if no call is on its way through the hook where the run frees the clone. -/
theorem throughout_safe_iff {ls : List (Action κ τ θ)}
    (h : (machine thread).run State.installed ls = some s) :
    (machine thread).Throughout Safe State.installed ls ↔
      (machine thread).Along FreedOffPath State.installed ls :=
  Machine.throughout_iff_along (I := Quiet) (fun _ hs ↦ hs.safe)
    (fun _ _ _ hs hC h ↦ hs.step hC h) (fun _ _ _ _ hC h ↦ not_safe_of_step hC h)
    quiet_installed h

end Step

/-! ## Two runs -/

section Runs

instance [Fintype κ] (s : State κ τ θ) (action : Action κ τ θ) :
    Decidable (FreedOffPath s action) :=
  match action with
  | .owner .dropClone => inferInstanceAs (Decidable (∀ k, (s.calls k).onPath = false))
  | .call _ _ | .owner (.start _ _) | .owner .drained | .owner (.restore _) | .owner .unregister
  | .owner .dropDispatchThunk | .owner .finalWait | .owner .dropThunk | .owner .dropState =>
    .isTrue trivial

/-- A call that reaches the closure thunk. -/
def arriving (k : Fin 2) : List (Action (Fin 2) (Fin 2) Unit) :=
  [.call k (.call .quickCode), .call k (.branch false), .call k .enterThunk]

/-- The rest of its way. -/
def leaving (k : Fin 2) : List (Action (Fin 2) (Fin 2) Unit) :=
  [.call k .enter, .call k (.exit .value), .call k .leaveThunk, .call k .leave]

/-- A revert on thread 1 that has nothing to wait for. -/
def reverting : List (Action (Fin 2) (Fin 2) Unit) :=
  [.owner (.start .revert (.outside 1)), .owner (.restore none), .owner .unregister,
    .owner .dropClone, .owner .dropDispatchThunk, .owner .finalWait]

theorem throughout_safe_reverting :
    (machine id).Throughout Safe (State.installed : State (Fin 2) (Fin 2) Unit)
      (arriving 0 ++ leaving 0 ++ reverting) := by
  obtain ⟨s, h, -⟩ : ∃ s, (machine id).run State.installed (arriving 0 ++ leaving 0 ++ reverting) =
      some s ∧ s.clone = .freed :=
    Machine.exists_of_run_any (fun s : State (Fin 2) (Fin 2) Unit ↦ s.clone = .freed)
      (by decide +kernel)
  exact (throughout_safe_iff h).mpr (by decide +kernel)

/-- A revert returns `Ok` while a call is in the closure thunk, on the clone's frame. -/
theorem reverting_not_safe :
    ¬ ∀ s : State (Fin 2) (Fin 2) Unit, (machine id).Reachable s →
      s.owner = .ready (some (.ok ())) → Safe s := by
  intro h
  obtain ⟨s, hrun, howner, hcall, hfreed⟩ :
      ∃ s, (machine id).run State.installed (arriving 0 ++ reverting) = some s ∧
        s.owner = .ready (some (.ok ())) ∧ s.calls 0 = .prologue ∧ s.clone = .freed :=
    Machine.exists_of_run_any (fun s : State (Fin 2) (Fin 2) Unit ↦
      s.owner = .ready (some (.ok ())) ∧ s.calls 0 = .prologue ∧ s.clone = .freed)
      (by decide +kernel)
  have hsafe := h s ⟨_, _, rfl, hrun⟩ howner 0 .clone
  rw [hcall] at hsafe
  exact hsafe (by decide) hfreed

end Runs

end JavaBridge.Replacement

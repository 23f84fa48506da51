import Mathlib.Data.Sum.Basic

/-!
# Loops

A loop is a step function into `σ ⊕ β`: `Sum.inl` goes round once more, `Sum.inr` leaves the loop
with a result. `Loop.Ends` says that the loop ends, by the finitely many steps that it takes;
`Loop.run` takes the steps with a bound on their number.

Main results:

* `Loop.Ends.post`: the rule of invariants.
* `Loop.Ends.iff_forall_visits`: the same, for what a step keeps on a condition.
* `Loop.exists_run`: a loop whose steps lower a measure ends within the measure's steps.
* `Loop.run_map`: a loop that a map of the states turns into another one has its results.
* `Loop.Ends.simulated`, `Loop.Ends.simulates`: a loop that takes some steps for each step of another
  one ends where that one ends, and nowhere else.
-/

universe u v w x

namespace Loop

variable {σ : Type u} {β : Type v} {step : σ → σ ⊕ β}

/-- The loop leaves from a state, with a result. -/
inductive Ends (step : σ → σ ⊕ β) : σ → β → Prop
  | leave {s : σ} {b : β} (h : step s = .inr b) : Ends step s b
  | next {s t : σ} {b : β} (h : step s = .inl t) (rest : Ends step t b) : Ends step s b

/-- The result after a bounded number of steps. -/
def run (step : σ → σ ⊕ β) : Nat → σ → Option β
  | 0, _ => none
  | fuel + 1, s => (step s).elim (run step fuel) some

/-! ## Results -/

/-- **The rule of invariants**: what each step keeps, and leaving turns into `Q`. -/
theorem Ends.post {I : σ → Prop} {Q : β → Prop} (hnext : ∀ s t, I s → step s = .inl t → I t)
    (hleave : ∀ s b, I s → step s = .inr b → Q b) {s : σ} {b : β} (h : Ends step s b) (hs : I s) :
    Q b := by
  induction h with
  | leave h => exact hleave _ _ hs h
  | next h _ ih => exact ih (hnext _ _ hs h)

/-- The states that a loop goes through, from one of them on. -/
inductive Visits (step : σ → σ ⊕ β) : σ → σ → Prop
  | here (s : σ) : Visits step s s
  | next {s t u : σ} (h : step s = .inl t) (rest : Visits step t u) : Visits step s u

/-- What each step keeps holds of every state that the loop goes through. -/
theorem Visits.invariant {I : σ → Prop} (hnext : ∀ s t, I s → step s = .inl t → I t) {s t : σ}
    (h : Visits step s t) (hs : I s) : I t := by
  induction h with
  | here s => exact hs
  | next h _ ih => exact ih (hnext _ _ hs h)

/-- **The rule of conditions**: where each step keeps `P` just if `C` holds before it, the loop leaves
with `P` just if `C` holds all the way. -/
theorem Ends.iff_forall_visits {I P C : σ → Prop} {Q : Prop} {b : β}
    (hnext : ∀ s t, I s → step s = .inl t → I t ∧ (P t ↔ P s ∧ C s))
    (hleave : ∀ s, I s → step s = .inr b → C s ∧ (Q ↔ P s)) {s : σ} (h : Ends step s b) (hs : I s) :
    Q ↔ P s ∧ ∀ t, Visits step s t → C t := by
  induction h with
  | @leave s _ h =>
    obtain ⟨hC, hQ⟩ := hleave s hs h
    rw [hQ]
    constructor
    · intro hP
      refine ⟨hP, ?_⟩
      intro t ht
      cases ht with
      | here => exact hC
      | next h' => cases h.symm.trans h'
    · exact And.left
  | @next s t _ h _ ih =>
    obtain ⟨ht, hPt⟩ := hnext s t hs h
    rw [ih hleave ht, hPt, and_assoc]
    apply and_congr_right
    intro _
    constructor
    · rintro ⟨hC, hrest⟩ u hu
      cases hu with
      | here => exact hC
      | next h' rest =>
        obtain rfl := Sum.inl.inj (h.symm.trans h')
        exact hrest u rest
    · intro hall
      exact ⟨hall s (.here s), fun u hu ↦ hall u (.next h hu)⟩

theorem ends_of_run {fuel : Nat} {s : σ} {b : β} (h : run step fuel s = some b) :
    Ends step s b := by
  induction fuel generalizing s with
  | zero => cases h
  | succ fuel ih =>
    rw [run] at h
    cases hstep : step s with
    | inl t =>
      rw [hstep] at h
      exact .next hstep (ih h)
    | inr b' =>
      rw [hstep] at h
      exact .leave (hstep.trans (congrArg Sum.inr (Option.some.inj h)))

theorem exists_run_of_ends {s : σ} {b : β} (h : Ends step s b) : ∃ fuel, run step fuel s = some b := by
  induction h with
  | @leave s b h =>
    refine ⟨1, ?_⟩
    rw [run, h]
    rfl
  | @next s t b h _ ih =>
    obtain ⟨fuel, hfuel⟩ := ih
    refine ⟨fuel + 1, ?_⟩
    rw [run, h]
    exact hfuel

theorem Ends.unique {s : σ} {b b' : β} (h : Ends step s b) (h' : Ends step s b') : b = b' := by
  induction h with
  | leave h =>
    cases h' with
    | leave h' => exact Sum.inr.inj (h.symm.trans h')
    | next h' _ => cases h.symm.trans h'
  | next h _ ih =>
    cases h' with
    | leave h' => cases h.symm.trans h'
    | next h' rest =>
      obtain rfl := Sum.inl.inj (h.symm.trans h')
      exact ih rest

theorem Visits.trans {s t u : σ} (h : Visits step s t) (h' : Visits step t u) : Visits step s u := by
  induction h with
  | here => exact h'
  | next h _ ih => exact .next h (ih h')

theorem Visits.ends {s t : σ} {b : β} (h : Visits step s t) (h' : Ends step t b) : Ends step s b := by
  induction h with
  | here => exact h'
  | next h _ ih => exact .next h (ih h')

/-! ## Measures -/

section Measure

variable {I : σ → Prop} {m : σ → Nat}

/-- A loop ends within the steps of a measure that its steps lower. -/
theorem exists_run (hnext : ∀ s t, I s → step s = .inl t → I t ∧ m t < m s) {fuel : Nat} {s : σ}
    (hs : I s) (hfuel : m s < fuel) : ∃ b, run step fuel s = some b := by
  induction fuel generalizing s with
  | zero => cases hfuel
  | succ fuel ih =>
    rw [run]
    cases hstep : step s with
    | inl t =>
      obtain ⟨ht, hlt⟩ := hnext s t hs hstep
      exact ih ht (Nat.lt_of_lt_of_le hlt (Nat.le_of_lt_succ hfuel))
    | inr b => exact ⟨b, rfl⟩

end Measure

/-! ## Simulation -/

/-- A loop that a map of the states turns into another one has its results, after as many steps. -/
theorem run_map {τ : Type w} {γ : Type x} {step' : τ → τ ⊕ γ} {I : σ → Prop} {f : σ → τ} {g : β → γ}
    (hstep : ∀ s, I s → (step s).map f g = step' (f s))
    (hnext : ∀ s t, I s → step s = .inl t → I t) (fuel : Nat) {s : σ} (hs : I s) :
    (run step fuel s).map g = run step' fuel (f s) := by
  induction fuel generalizing s with
  | zero => rfl
  | succ fuel ih =>
    rw [run, run, ← hstep s hs]
    cases h : step s with
    | inl t => exact ih (hnext s t hs h)
    | inr b => rfl

/-! ## Several steps for one -/

/-- The loop goes from one state to another, by one step or more. -/
def Passes (step : σ → σ ⊕ β) (s u : σ) : Prop := ∃ t, step s = .inl t ∧ Visits step t u

theorem Passes.visits {s t : σ} (h : Passes step s t) : Visits step s t := by
  obtain ⟨u, hu, hrest⟩ := h
  exact .next hu hrest

theorem Visits.trans_passes {s t u : σ} (h : Visits step s t) (h' : Passes step t u) :
    Passes step s u := by
  cases h with
  | here => exact h'
  | next h rest => exact ⟨_, h, rest.trans h'.visits⟩

/-- What is left of a run, from a state on that it visits. -/
theorem Visits.run {fuel : Nat} {s t : σ} {b : β} (h : Visits step s t)
    (hrun : run step fuel s = some b) : ∃ fuel' ≤ fuel, Loop.run step fuel' t = some b := by
  induction h generalizing fuel with
  | here => exact ⟨fuel, Nat.le_refl fuel, hrun⟩
  | next h _ ih =>
    cases fuel with
    | zero => cases hrun
    | succ fuel =>
      rw [Loop.run, h] at hrun
      obtain ⟨fuel', hle, hrun⟩ := ih hrun
      exact ⟨fuel', Nat.le_succ_of_le hle, hrun⟩

theorem Passes.run {fuel : Nat} {s t : σ} {b : β} (h : Passes step s t)
    (hrun : run step fuel s = some b) : ∃ fuel' < fuel, Loop.run step fuel' t = some b := by
  obtain ⟨u, hu, hrest⟩ := h
  cases fuel with
  | zero => cases hrun
  | succ fuel =>
    rw [Loop.run, hu] at hrun
    obtain ⟨fuel', hle, hrun⟩ := hrest.run hrun
    exact ⟨fuel', Nat.lt_succ_of_le hle, hrun⟩

section Simulation

variable {τ : Type w} {γ : Type x} {step' : τ → τ ⊕ γ} {R : σ → τ → Prop} {Q : β → γ → Prop}
  {Open : β → Prop}

/-- **The rule of simulation**: where the second loop goes on for each step of the first one, and ends
where it ends, it ends where the first one does. Of the results that are `Open` nothing is said. -/
theorem Ends.simulated (hnext : ∀ s t u, step s = .inl t → R s u → ∃ v, Passes step' u v ∧ R t v)
    (hleave : ∀ s b u, step s = .inr b → R s u → Open b ∨ ∃ c, Ends step' u c ∧ Q b c)
    {s : σ} {b : β} {u : τ} (h : Ends step s b) (hR : R s u) :
    Open b ∨ ∃ c, Ends step' u c ∧ Q b c := by
  induction h generalizing u with
  | leave h => exact hleave _ _ u h hR
  | next h _ ih =>
    obtain ⟨v, hpasses, hR⟩ := hnext _ _ u h hR
    rcases ih hR with hopen | ⟨c, hc, hQ⟩
    · exact .inl hopen
    · exact .inr ⟨c, hpasses.visits.ends hc, hQ⟩

/-- The second loop ends nowhere else: where it ends, the first one does, since it goes on for each of
its steps. -/
theorem Ends.simulates (hnext : ∀ s t u, step s = .inl t → R s u → ∃ v, Passes step' u v ∧ R t v)
    (hleave : ∀ s b u, step s = .inr b → R s u → Open b ∨ ∃ c, Ends step' u c ∧ Q b c)
    {s : σ} {u : τ} {c : γ} (h : Ends step' u c) (hR : R s u) :
    ∃ b, Ends step s b ∧ (Open b ∨ Q b c) := by
  obtain ⟨fuel, hfuel⟩ := exists_run_of_ends h
  induction fuel using Nat.strongRecOn generalizing s u with
  | ind fuel ih =>
    cases hs : step s with
    | inl t =>
      obtain ⟨v, hpasses, hR⟩ := hnext s t u hs hR
      obtain ⟨fuel', hlt, hfuel'⟩ := hpasses.run hfuel
      obtain ⟨b, hb, hQ⟩ := ih fuel' hlt (ends_of_run hfuel') hR hfuel'
      exact ⟨b, .next hs hb, hQ⟩
    | inr b =>
      refine ⟨b, .leave hs, ?_⟩
      rcases hleave s b u hs hR with hopen | ⟨c', hc', hQ⟩
      · exact .inl hopen
      · rw [h.unique hc']
        exact .inr hQ

end Simulation

end Loop

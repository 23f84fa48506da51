import Mathlib.Algebra.Ring.Nat
import Mathlib.Data.Option.Basic
import Mathlib.Order.WellFounded

/-!
# Machines and their runs

A `Machine` is a labelled transition system given by a *partial step function*: a label names
everything a step leaves open (which party moves, what an outside operation answers), so that a
run is a list of labels and can be computed.

Main results:

* `Machine.run_invariant`, `Machine.ReachableVia.invariant`: a predicate that every step of a run
  preserves holds in the state the run ends in, where `Along C` may promise a condition `C` on
  each step.
* `Machine.exists_step_of_not_along`: a run that breaks its condition splits at a step that
  breaks it.
* `Machine.throughout_iff_along`: where a step leaves the good states exactly when it breaks `C`, a
  run stays in them exactly when it meets `C` throughout.
* `Machine.WeaklyFair.exists_goal`: a measure that a party's own steps lower leads a fair run to its
  goal.
* `Machine.eq_append_observe`: a record that each step extends holds what the run has shown.
-/

universe u v w

/-- A labelled transition system whose steps are partial functions of the state. -/
structure Machine (σ : Type u) (ℓ : Type v) where
  /-- The states a run may start in. -/
  Init : σ → Prop
  /-- The state after a step, or `none` where the label is not enabled. -/
  step : σ → ℓ → Option σ

/-- For runs of two parties. -/
instance neZero_two : NeZero 2 := ⟨by decide⟩

namespace Machine

variable {σ : Type u} {ℓ : Type v} (M : Machine σ ℓ)

/-! ## Runs -/

/-- The state after a list of steps. -/
def run : σ → List ℓ → Option σ
  | s, [] => some s
  | s, l :: ls => (M.step s l).bind fun t ↦ run t ls

@[simp] theorem run_nil (s : σ) : M.run s [] = some s := rfl

@[simp] theorem run_cons (s : σ) (l : ℓ) (ls : List ℓ) :
    M.run s (l :: ls) = (M.step s l).bind fun t ↦ M.run t ls := rfl

theorem run_append (s : σ) (ls ls' : List ℓ) :
    M.run s (ls ++ ls') = (M.run s ls).bind fun t ↦ M.run t ls' := by
  induction ls generalizing s with
  | nil => rfl
  | cons l ls ih =>
    rw [List.cons_append, run_cons, run_cons, Option.bind_assoc]
    exact congrArg _ (funext ih)

theorem run_cons_eq_some {s t : σ} {l : ℓ} {ls : List ℓ} :
    M.run s (l :: ls) = some t ↔ ∃ u, M.step s l = some u ∧ M.run u ls = some t := by
  rw [run_cons, Option.bind_eq_some_iff]

/-- Every step of the run meets the condition `C` on its label and the state it is taken in. -/
def Along (C : σ → ℓ → Prop) : σ → List ℓ → Prop
  | _, [] => True
  | s, l :: ls => C s l ∧ ∀ t, M.step s l = some t → Along C t ls

@[simp] theorem along_nil (C : σ → ℓ → Prop) (s : σ) : M.Along C s [] := trivial

theorem along_cons {C : σ → ℓ → Prop} {s t : σ} {l : ℓ} {ls : List ℓ}
    (h : M.step s l = some t) : M.Along C s (l :: ls) ↔ C s l ∧ M.Along C t ls := by
  refine ⟨fun hC ↦ ⟨hC.1, hC.2 t h⟩, fun hC ↦ ⟨hC.1, fun u hu ↦ ?_⟩⟩
  rw [h, Option.some.injEq] at hu
  exact hu ▸ hC.2

instance decidableAlong (C : σ → ℓ → Prop) [∀ s l, Decidable (C s l)] :
    ∀ s ls, Decidable (M.Along C s ls)
  | _, [] => isTrue trivial
  | s, l :: ls =>
    match h : M.step s l with
    | none => decidable_of_iff (C s l) ⟨fun hC ↦ ⟨hC, fun t ht ↦ by rw [h] at ht; cases ht⟩, And.left⟩
    | some t =>
      have := decidableAlong C t ls
      decidable_of_iff (C s l ∧ M.Along C t ls) (M.along_cons h).symm

/-- Every state the run passes through, its first and last included, satisfies `P`. -/
def Throughout (P : σ → Prop) : σ → List ℓ → Prop
  | s, [] => P s
  | s, l :: ls => P s ∧ ∀ t, M.step s l = some t → Throughout P t ls

theorem throughout_cons {P : σ → Prop} {s t : σ} {l : ℓ} {ls : List ℓ}
    (h : M.step s l = some t) : M.Throughout P s (l :: ls) ↔ P s ∧ M.Throughout P t ls := by
  refine ⟨fun hP ↦ ⟨hP.1, hP.2 t h⟩, fun hP ↦ ⟨hP.1, fun u hu ↦ ?_⟩⟩
  rw [h, Option.some.injEq] at hu
  exact hu ▸ hP.2

theorem Throughout.head {P : σ → Prop} {s : σ} {ls : List ℓ} (h : M.Throughout P s ls) : P s := by
  cases ls with
  | nil => exact h
  | cons l ls => exact h.1

/-! ## Reachable states -/

/-- The states some run from an initial state ends in. -/
def Reachable (s : σ) : Prop := ∃ s₀ ls, M.Init s₀ ∧ M.run s₀ ls = some s

/-- The states reached by a run all of whose steps meet `C`. -/
def ReachableVia (C : σ → ℓ → Prop) (s : σ) : Prop :=
  ∃ s₀ ls, M.Init s₀ ∧ M.Along C s₀ ls ∧ M.run s₀ ls = some s

variable {M}

/-- A run that computes to a state with a decidable property. -/
theorem exists_of_run_any {s₀ : σ} {ls : List ℓ} (P : σ → Prop) [DecidablePred P]
    (h : (M.run s₀ ls).any (fun s ↦ decide (P s)) = true) : ∃ s, M.run s₀ ls = some s ∧ P s := by
  cases hs : M.run s₀ ls with
  | none => rw [hs] at h; cases h
  | some s => exact ⟨s, rfl, of_decide_eq_true (by rwa [hs] at h)⟩

/-! ## Invariants -/

variable {C : σ → ℓ → Prop} {I : σ → Prop}

/-- **The run rule**: what each step meeting `C` preserves, a run meeting `C` preserves. -/
theorem run_invariant (hstep : ∀ s l t, I s → C s l → M.step s l = some t → I t)
    {s t : σ} {ls : List ℓ} (hs : I s) (hC : M.Along C s ls) (h : M.run s ls = some t) :
    I t := by
  induction ls generalizing s with
  | nil =>
    rw [run_nil, Option.some.injEq] at h
    exact h ▸ hs
  | cons l ls ih =>
    obtain ⟨u, hu, h⟩ := M.run_cons_eq_some.mp h
    have hC := (M.along_cons hu).mp hC
    exact ih (hstep s l u hs hC.1 hu) hC.2 h

/-- Along a run that keeps an invariant, a condition may use it. -/
theorem along_of_invariant {C' : σ → ℓ → Prop} (hstep : ∀ s l t, I s → M.step s l = some t → I t)
    (h : ∀ s l, I s → C s l → C' s l) {s : σ} {ls : List ℓ} (hs : I s) (hC : M.Along C s ls) :
    M.Along C' s ls := by
  induction ls generalizing s with
  | nil => trivial
  | cons l ls ih => exact ⟨h s l hs hC.1, fun t ht ↦ ih (hstep s l t hs ht) (hC.2 t ht)⟩

theorem along_true (s : σ) (ls : List ℓ) : M.Along (fun _ _ ↦ True) s ls := by
  induction ls generalizing s with
  | nil => trivial
  | cons l ls ih => exact ⟨trivial, fun t _ ↦ ih t⟩

theorem along_of_forall {ls : List ℓ} (h : ∀ l ∈ ls, ∀ s, C s l) (s : σ) : M.Along C s ls := by
  induction ls generalizing s with
  | nil => trivial
  | cons l ls ih =>
    obtain ⟨hl, hls⟩ := List.forall_mem_cons.mp h
    exact ⟨hl s, fun t _ ↦ ih hls t⟩

theorem ReachableVia.invariant (hinit : ∀ s, M.Init s → I s)
    (hstep : ∀ s l t, I s → C s l → M.step s l = some t → I t) {s : σ}
    (h : M.ReachableVia C s) : I s := by
  obtain ⟨s₀, ls, h₀, hC, h⟩ := h
  exact run_invariant hstep (hinit s₀ h₀) hC h

theorem Reachable.invariant (hinit : ∀ s, M.Init s → I s)
    (hstep : ∀ s l t, I s → M.step s l = some t → I t) {s : σ} (h : M.Reachable s) :
    I s := by
  obtain ⟨s₀, ls, h₀, h⟩ := h
  exact run_invariant (C := fun _ _ ↦ True) (fun s l t hs _ ↦ hstep s l t hs) (hinit s₀ h₀)
    (along_true s₀ ls) h

/-! ## Runs that break their condition -/

/-- A run that does not meet `C` splits at a step that breaks it. -/
theorem exists_step_of_not_along {s t : σ} {ls : List ℓ} (h : M.run s ls = some t)
    (hC : ¬ M.Along C s ls) :
    ∃ before l after u v, M.run s before = some u ∧ ¬ C u l ∧ M.step u l = some v ∧
      M.run v after = some t ∧ ls = before ++ l :: after := by
  induction ls generalizing s with
  | nil => exact absurd trivial hC
  | cons l ls ih =>
    obtain ⟨u, hu, h⟩ := M.run_cons_eq_some.mp h
    by_cases hl : C s l
    · have hrest : ¬ M.Along C u ls := fun h' ↦ hC ((M.along_cons hu).mpr ⟨hl, h'⟩)
      obtain ⟨before, l', after, v, w, hbefore, hbreak, hstep, hafter, rfl⟩ := ih h hrest
      refine ⟨l :: before, l', after, v, w, ?_, hbreak, hstep, hafter, rfl⟩
      exact M.run_cons_eq_some.mpr ⟨u, hu, hbefore⟩
    · exact ⟨[], l, ls, s, u, rfl, hl, hu, h, rfl⟩

/-- **The exact rule**: where `I` implies `P`, is kept by the steps that meet `C`, and is left for
`P`'s complement by those that do not, a run satisfies `P` throughout exactly when all its steps
meet `C`. -/
theorem throughout_iff_along {P : σ → Prop} (hP : ∀ s, I s → P s)
    (hstep : ∀ s l t, I s → C s l → M.step s l = some t → I t)
    (hbreak : ∀ s l t, I s → ¬ C s l → M.step s l = some t → ¬ P t)
    {s t : σ} {ls : List ℓ} (hs : I s) (h : M.run s ls = some t) :
    M.Throughout P s ls ↔ M.Along C s ls := by
  induction ls generalizing s with
  | nil => exact ⟨fun _ ↦ trivial, fun _ ↦ hP s hs⟩
  | cons l ls ih =>
    obtain ⟨u, hu, h⟩ := M.run_cons_eq_some.mp h
    rw [M.throughout_cons hu, M.along_cons hu]
    constructor
    · rintro ⟨-, hall⟩
      have hC : C s l := by
        by_contra hC
        exact hbreak s l u hs hC hu (Throughout.head M hall)
      exact ⟨hC, (ih (hstep s l u hs hC hu) h).mp hall⟩
    · rintro ⟨hC, hall⟩
      exact ⟨hP s hs, (ih (hstep s l u hs hC hu) h).mpr hall⟩

/-! ## Progress -/

section Progress

variable {α : Type w} [Preorder α] {Goal : σ → Prop} {Own : ℓ → Prop} {m : σ → α}

/-- An infinite run: the states it passes and the steps it takes. -/
def Executes (M : Machine σ ℓ) (states : Nat → σ) (labels : Nat → ℓ) : Prop :=
  ∀ n, M.step (states n) (labels n) = some (states (n + 1))

/-- Weak fairness: steps that stay enabled from some point on are taken again. -/
def WeaklyFair (M : Machine σ ℓ) (Own : ℓ → Prop) (states : Nat → σ) (labels : Nat → ℓ) : Prop :=
  ∀ n, (∀ i, n ≤ i → ∃ l t, Own l ∧ M.step (states i) l = some t) → ∃ i, n ≤ i ∧ Own (labels i)

/-- **The rule of progress**: where each of a party's own steps reaches the goal or lowers a measure,
which the other steps leave alone, and some own step is enabled until then, a fair run reaches the
goal. -/
theorem WeaklyFair.exists_goal [WellFoundedLT α] {states : Nat → σ} {labels : Nat → ℓ}
    (hfair : M.WeaklyFair Own states labels) (hrun : M.Executes states labels)
    (hstep : ∀ s l t, I s → M.step s l = some t →
      Goal t ∨ I t ∧ (m t < m s ∨ ¬ Own l ∧ m t = m s))
    (henabled : ∀ s, I s → ∃ l t, Own l ∧ M.step s l = some t) {n : Nat} (hn : I (states n)) :
    ∃ i, n ≤ i ∧ Goal (states i) := by
  by_contra hgoal
  have hnext : ∀ i, n ≤ i → I (states i) → I (states (i + 1)) ∧
      (m (states (i + 1)) < m (states i) ∨ ¬ Own (labels i) ∧ m (states (i + 1)) = m (states i)) := by
    intro i hi hI
    refine (hstep _ _ _ hI (hrun i)).resolve_left fun h ↦ hgoal ⟨i + 1, ?_, h⟩
    exact Nat.le_succ_of_le hi
  have hI : ∀ i, n ≤ i → I (states i) := by
    intro i hi
    induction i, hi using Nat.le_induction with
    | base => exact hn
    | succ i hi ih => exact (hnext i hi ih).1
  have hmono : ∀ i j, n ≤ i → i ≤ j → m (states j) ≤ m (states i) := by
    intro i j hi hij
    induction j, hij using Nat.le_induction with
    | base => exact le_refl _
    | succ j hij ih =>
      rcases (hnext j (Nat.le_trans hi hij) (hI j (Nat.le_trans hi hij))).2 with hlt | ⟨-, heq⟩
      · exact le_trans (le_of_lt hlt) ih
      · rwa [heq]
  have hdescend : ∀ a i, n ≤ i → m (states i) = a → False := by
    intro a
    induction a using WellFoundedLT.induction with
    | ind a ih =>
      rintro i hi rfl
      obtain ⟨j, hij, hown⟩ := hfair i fun j hj ↦ henabled _ (hI j (Nat.le_trans hi hj))
      have hj := Nat.le_trans hi hij
      have hlt := (hnext j hj (hI j hj)).2.resolve_right fun h ↦ h.1 hown
      exact ih _ (lt_of_lt_of_le hlt (hmono i j hi hij)) (j + 1) (Nat.le_succ_of_le hj) rfl
  exact hdescend _ n (Nat.le_refl n) rfl

end Progress

/-! ## What a run shows -/

section Observe

variable {β : Type w} (M)

/-- What `f` sees of the steps of a run, in order. -/
def observe (f : σ → ℓ → List β) : σ → List ℓ → List β
  | _, [] => []
  | s, l :: ls => f s l ++ (M.step s l).elim [] fun t ↦ observe f t ls

variable {M}

/-- A record in the state that each step extends by what `f` sees holds all that `f` has seen. -/
theorem eq_append_observe {f : σ → ℓ → List β} (record : σ → List β)
    (hstep : ∀ s l t, M.step s l = some t → record t = record s ++ f s l)
    {s t : σ} {ls : List ℓ} (h : M.run s ls = some t) :
    record t = record s ++ M.observe f s ls := by
  induction ls generalizing s with
  | nil =>
    rw [run_nil, Option.some.injEq] at h
    rw [h, observe, List.append_nil]
  | cons l ls ih =>
    obtain ⟨u, hu, h⟩ := M.run_cons_eq_some.mp h
    rw [ih h, hstep s l u hu, observe, hu, Option.elim_some, List.append_assoc]

/-- What each step that meets `C` preserves of the state and of what has been seen before it, a run
that meets `C` preserves. -/
theorem observe_invariant {f : σ → ℓ → List β} {J : List β → σ → Prop}
    (hstep : ∀ seen s l t, J seen s → C s l → M.step s l = some t → J (seen ++ f s l) t)
    {seen : List β} {s t : σ} {ls : List ℓ} (hs : J seen s) (hC : M.Along C s ls)
    (h : M.run s ls = some t) : J (seen ++ M.observe f s ls) t := by
  induction ls generalizing seen s with
  | nil =>
    rw [run_nil, Option.some.injEq] at h
    rwa [observe, List.append_nil, ← h]
  | cons l ls ih =>
    obtain ⟨u, hu, h⟩ := M.run_cons_eq_some.mp h
    have hC := (M.along_cons hu).mp hC
    rw [observe, hu, Option.elim_some, ← List.append_assoc]
    exact ih (hstep seen s l u hs hC.1 hu) hC.2 h

/-- What is seen of a run in two parts. -/
theorem observe_append {f : σ → ℓ → List β} {s t : σ} {ls : List ℓ} (h : M.run s ls = some t)
    (ls' : List ℓ) : M.observe f s (ls ++ ls') = M.observe f s ls ++ M.observe f t ls' := by
  induction ls generalizing s with
  | nil =>
    rw [run_nil, Option.some.injEq] at h
    rw [h]
    rfl
  | cons l ls ih =>
    obtain ⟨u, hu, h⟩ := M.run_cons_eq_some.mp h
    rw [List.cons_append, observe, observe, hu, Option.elim_some, Option.elim_some, ih h,
      List.append_assoc]

end Observe

end Machine

import Mathlib.Order.Lattice
import Mathlib.Data.List.Basic

/-!
# Selection by scores

A pass over candidates that keeps the one of the least score. Candidates without a score are passed
over, and of equal scores the first is kept.

Main results:

* `firstBest_of_select`, `select_eq_none_iff`: what the pass keeps, and when it keeps nothing.
* `select_insert`: candidates without a score do not matter.
-/

universe u v

namespace Selection

variable {α : Type u} {σ : Type v}

/-- Two passes have kept the same candidate, at places that they have passed. -/
structure Alike (index index' : Nat) (best best' : Option (σ × Nat × α)) : Prop where
  kept : best.map (fun kept ↦ (kept.1, kept.2.2)) = best'.map fun kept ↦ (kept.1, kept.2.2)
  index : ∀ kept ∈ best, kept.2.1 < index
  index' : ∀ kept ∈ best', kept.2.1 < index'

theorem Alike.mono {m n m' n' : Nat} {best best' : Option (σ × Nat × α)}
    (h : Alike m m' best best') (hn : m ≤ n) (hn' : m' ≤ n') : Alike n n' best best' :=
  ⟨h.kept, fun kept hkept ↦ Nat.lt_of_lt_of_le (h.index kept hkept) hn,
    fun kept hkept ↦ Nat.lt_of_lt_of_le (h.index' kept hkept) hn'⟩

variable [LinearOrder σ]

/-- The best so far, or the candidate where its score and place come before. -/
def keepBest (best : Option (σ × Nat × α)) (score : σ) (index : Nat) (candidate : α) :
    Option (σ × Nat × α) :=
  if best.all fun kept ↦ score < kept.1 ∨ score = kept.1 ∧ index < kept.2.1 then
    some (score, index, candidate)
  else best

variable (score : α → Option σ)

def step (best : Option (σ × Nat × α)) (index : Nat) (candidate : α) : Option (σ × Nat × α) :=
  match score candidate with
  | none => best
  | some s => keepBest best s index candidate

/-- The pass from the place `index` on. -/
def select : Nat → Option (σ × Nat × α) → List α → Option (σ × Nat × α)
  | _, best, [] => best
  | index, best, candidate :: candidates =>
    select (index + 1) (step score best index candidate) candidates

/-- The candidate in the place has the least score, and no candidate before it has it. -/
structure FirstBest (candidates : List α) (kept : σ × Nat × α) : Prop where
  mem : candidates[kept.2.1]? = some kept.2.2
  scored : score kept.2.2 = some kept.1
  least : ∀ j a t, candidates[j]? = some a → score a = some t →
    kept.1 < t ∨ kept.1 = t ∧ kept.2.1 ≤ j

/-- What has been kept of the candidates. -/
def Kept (candidates : List α) : Option (σ × Nat × α) → Prop
  | none => ∀ a ∈ candidates, score a = none
  | some kept => FirstBest score candidates kept

variable {score}

theorem FirstBest.index_lt {candidates : List α} {kept : σ × Nat × α}
    (h : FirstBest score candidates kept) : kept.2.1 < candidates.length :=
  (List.getElem?_eq_some_iff.1 h.mem).1

theorem FirstBest.append {candidates more : List α} {kept : σ × Nat × α}
    (h : FirstBest score candidates kept)
    (hmore : ∀ a ∈ more, ∀ t, score a = some t → kept.1 ≤ t) :
    FirstBest score (candidates ++ more) kept where
  mem := by rw [List.getElem?_append_left h.index_lt, h.mem]
  scored := h.scored
  least j a t hj ht := by
    rcases Nat.lt_or_ge j candidates.length with hlt | hge
    · rw [List.getElem?_append_left hlt] at hj
      exact h.least j a t hj ht
    · rw [List.getElem?_append_right hge] at hj
      rcases lt_or_eq_of_le (hmore a (List.mem_of_getElem? hj) t ht) with hless | heq
      · exact .inl hless
      · exact .inr ⟨heq, Nat.le_trans (Nat.le_of_lt h.index_lt) hge⟩

/-- One candidate more. -/
theorem Kept.step {candidates : List α} {best : Option (σ × Nat × α)} (h : Kept score candidates best)
    (a : α) : Kept score (candidates ++ [a]) (step score best candidates.length a) := by
  unfold Selection.step
  cases ha : score a with
  | none =>
    cases best with
    | none =>
      intro b hb
      rcases List.mem_append.1 hb with hb | hb
      · exact h b hb
      · rw [List.mem_singleton.1 hb, ha]
    | some kept =>
      refine FirstBest.append h fun b hb t ht ↦ ?_
      rw [List.mem_singleton.1 hb, ha] at ht
      cases ht
  | some s =>
    dsimp only [keepBest]
    split
    · next hless =>
      refine ⟨by simp, ha, fun j b t hj ht ↦ ?_⟩
      rcases Nat.lt_or_ge j candidates.length with hlt | hge
      · rw [List.getElem?_append_left hlt] at hj
        cases best with
        | none =>
          rw [h b (List.mem_of_getElem? hj)] at ht
          cases ht
        | some kept =>
          have hkept : s < kept.1 := by
            rcases of_decide_eq_true hless with hless | ⟨-, hindex⟩
            · exact hless
            · exact absurd hindex (Nat.lt_asymm (FirstBest.index_lt h))
          rcases FirstBest.least h j b t hj ht with ht | ⟨ht, -⟩
          · exact .inl (lt_trans hkept ht)
          · exact .inl (ht ▸ hkept)
      · rw [List.getElem?_append_right hge] at hj
        rw [List.mem_singleton.1 (List.mem_of_getElem? hj), ha] at ht
        exact .inr ⟨Option.some.inj ht, hge⟩
    · next hnot =>
      cases best with
      | none => exact absurd rfl hnot
      | some kept =>
        refine FirstBest.append h fun b hb t ht ↦ ?_
        rw [List.mem_singleton.1 hb, ha] at ht
        obtain rfl := Option.some.inj ht
        refine le_of_not_gt fun hless ↦ hnot ?_
        exact decide_eq_true (.inl hless)

/-- The whole pass. -/
theorem Kept.select {before : List α} {best : Option (σ × Nat × α)} (h : Kept score before best)
    (candidates : List α) :
    Kept score (before ++ candidates) (select score before.length best candidates) := by
  induction candidates generalizing before best with
  | nil => rwa [List.append_nil]
  | cons a candidates ih =>
    have := ih (h.step a)
    rwa [List.length_append, List.append_assoc] at this

theorem kept_select (score : α → Option σ) (candidates : List α) :
    Kept score candidates (Selection.select score 0 none candidates) := by
  have hnone : Kept score [] none := List.forall_mem_nil _
  exact hnone.select candidates

theorem firstBest_of_select {candidates : List α} {kept : σ × Nat × α}
    (h : Selection.select score 0 none candidates = some kept) : FirstBest score candidates kept := by
  have := kept_select score candidates
  rwa [h] at this

theorem select_eq_none_iff {candidates : List α} :
    Selection.select score 0 none candidates = none ↔ ∀ a ∈ candidates, score a = none := by
  have := kept_select score candidates
  constructor
  · intro h
    rwa [h] at this
  · intro hnone
    cases h : Selection.select score 0 none candidates with
    | none => rfl
    | some kept =>
      have hkept := firstBest_of_select h
      have hscored := hkept.scored
      rw [hnone _ (List.mem_of_getElem? hkept.mem)] at hscored
      cases hscored

/-! ## Candidates without a score -/

theorem Alike.keepBest {index index' : Nat} {best best' : Option (σ × Nat × α)}
    (h : Alike index index' best best') (s : σ) (a : α) :
    Alike (index + 1) (index' + 1) (keepBest best s index a) (keepBest best' s index' a) := by
  rcases best with _ | ⟨t, i, b⟩ <;> rcases best' with _ | ⟨t', i', b'⟩
  · exact ⟨rfl, by simp [Selection.keepBest], by simp [Selection.keepBest]⟩
  · cases h.kept
  · cases h.kept
  · obtain ⟨rfl, rfl⟩ : t = t' ∧ b = b' := by simpa using h.kept
    have hi : ¬index < i := Nat.lt_asymm (h.index _ rfl)
    have hi' : ¬index' < i' := Nat.lt_asymm (h.index' _ rfl)
    by_cases hless : s < t
    · exact ⟨by simp [Selection.keepBest, hless], by simp [Selection.keepBest, hless],
        by simp [Selection.keepBest, hless]⟩
    · have hsame := h.mono (Nat.le_succ index) (Nat.le_succ index')
      simpa [Selection.keepBest, hless, hi, hi'] using hsame

theorem Alike.step {index index' : Nat} {best best' : Option (σ × Nat × α)}
    (h : Alike index index' best best') (a : α) :
    Alike (index + 1) (index' + 1) (step score best index a) (step score best' index' a) := by
  unfold Selection.step
  cases score a with
  | none => exact h.mono (Nat.le_succ index) (Nat.le_succ index')
  | some s => exact h.keepBest s a

theorem Alike.select {index index' : Nat} {best best' : Option (σ × Nat × α)}
    (h : Alike index index' best best') (candidates : List α) :
    (select score index best candidates).map (fun kept ↦ (kept.1, kept.2.2)) =
      (select score index' best' candidates).map fun kept ↦ (kept.1, kept.2.2) := by
  induction candidates generalizing index index' best best' with
  | nil => exact h.kept
  | cons a candidates ih => exact ih (h.step a)

/-- A candidate without a score does not change the choice. -/
theorem select_insert {before : List α} {a : α} (ha : score a = none) (after : List α) :
    (select score 0 none (before ++ a :: after)).map (fun kept ↦ (kept.1, kept.2.2)) =
      (select score 0 none (before ++ after)).map fun kept ↦ (kept.1, kept.2.2) := by
  have hinsert : ∀ {index index' : Nat} {best best' : Option (σ × Nat × α)},
      Alike index index' best best' →
      (select score index best (before ++ a :: after)).map (fun kept ↦ (kept.1, kept.2.2)) =
        (select score index' best' (before ++ after)).map fun kept ↦ (kept.1, kept.2.2) := by
    induction before with
    | nil =>
      intro index index' best best' h
      rw [List.nil_append, List.nil_append, Selection.select, Selection.step, ha]
      exact (h.mono (Nat.le_succ index) (Nat.le_refl index')).select after
    | cons b before ih =>
      intro index index' best best' h
      exact ih (h.step b)
  exact hinsert ⟨rfl, by simp, by simp⟩

end Selection

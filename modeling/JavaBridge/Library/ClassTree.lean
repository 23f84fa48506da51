import Mathlib.Data.List.TakeWhile

/-!
# Trees of classes

Single inheritance: every class has at most one parent, and its depth is larger than the parent's. A
class inherits the declarations of its ancestors, and what it declares itself comes first.

Main results:

* `mem_ancestors_trans`: being an ancestor is transitive.
* `nearest_eq_some_iff`: the nearest declaration is that of an ancestor exactly when no class below
  the ancestor declares one.
-/

universe u

/-- Classes under single inheritance. -/
structure ClassTree (κ : Type u) where
  parent : κ → Option κ
  depth : κ → Nat
  depth_parent : ∀ {c p}, parent c = some p → depth p < depth c

namespace ClassTree

variable {κ : Type u} (tree : ClassTree κ)

/-! ## Ancestors -/

/-- The class and its ancestors at most `fuel` steps up, the nearest first. -/
def ancestorsWithin : Nat → κ → List κ
  | 0, c => [c]
  | fuel + 1, c => c :: (tree.parent c).elim [] (ancestorsWithin fuel)

/-- The class and its ancestors, the nearest first. -/
def ancestors (c : κ) : List κ := tree.ancestorsWithin (tree.depth c) c

/-- The ancestors of a class are no more than its depth. -/
theorem ancestorsWithin_eq {fuel : Nat} {c : κ} (h : tree.depth c ≤ fuel) :
    tree.ancestorsWithin fuel c = c :: (tree.parent c).elim [] tree.ancestors := by
  induction fuel using Nat.strong_induction_on generalizing c with
  | _ fuel ih =>
    cases hparent : tree.parent c with
    | none => cases fuel <;> simp [ancestorsWithin, hparent]
    | some p =>
      have hp := tree.depth_parent hparent
      obtain _ | fuel := fuel
      · exact absurd (Nat.lt_of_lt_of_le hp h) (Nat.not_lt_zero _)
      · have hfuel : tree.depth p ≤ fuel := Nat.le_of_lt_succ (Nat.lt_of_lt_of_le hp h)
        simp only [ancestorsWithin, hparent, Option.elim_some]
        rw [ih fuel (Nat.lt_succ_self fuel) hfuel, ancestors,
          ih (tree.depth p) (Nat.lt_succ_of_le hfuel) (Nat.le_refl _)]

theorem ancestors_eq (c : κ) :
    tree.ancestors c = c :: (tree.parent c).elim [] tree.ancestors :=
  tree.ancestorsWithin_eq (Nat.le_refl _)

variable {tree} {c d e : κ}

@[simp] theorem mem_ancestors_self : c ∈ tree.ancestors c := by
  rw [ancestors_eq]
  exact List.mem_cons_self

theorem ancestors_of_parent (h : tree.parent c = some d) :
    tree.ancestors c = c :: tree.ancestors d := by
  rw [ancestors_eq, h, Option.elim_some]

theorem mem_ancestors_of_parent (h : tree.parent c = some d) (he : e ∈ tree.ancestors d) :
    e ∈ tree.ancestors c := by
  rw [ancestors_of_parent h]
  exact List.mem_cons_of_mem c he

theorem mem_ancestors_trans (hd : d ∈ tree.ancestors c) (he : e ∈ tree.ancestors d) :
    e ∈ tree.ancestors c := by
  induction hn : tree.depth c using Nat.strong_induction_on generalizing c with
  | _ n ih =>
    rw [ancestors_eq] at hd
    rcases List.mem_cons.1 hd with rfl | hd
    · exact he
    · cases hparent : tree.parent c with
      | none => simp [hparent] at hd
      | some p =>
        rw [hparent, Option.elim_some] at hd
        exact mem_ancestors_of_parent hparent
          (ih (tree.depth p) (hn ▸ tree.depth_parent hparent) hd rfl)

/-! ## Declarations -/

/-- The class a lookup from `c` upwards finds. -/
def nearest (tree : ClassTree κ) (declares : κ → Bool) (c : κ) : Option κ :=
  (tree.ancestors c).find? declares

variable {declares : κ → Bool}

theorem declares_of_nearest (h : tree.nearest declares c = some d) : declares d = true :=
  List.find?_some h

theorem mem_ancestors_of_nearest (h : tree.nearest declares c = some d) : d ∈ tree.ancestors c :=
  List.mem_of_find?_eq_some h

theorem nearest_ne_none (hd : d ∈ tree.ancestors c) (h : declares d = true) :
    tree.nearest declares c ≠ none := by
  intro hnone
  exact List.find?_eq_none.1 hnone d hd h

variable [DecidableEq κ]

/-- The classes from `c` up to the ancestor `d`, which is left out. -/
def below (tree : ClassTree κ) (c d : κ) : List κ := (tree.ancestors c).takeWhile (· ≠ d)

theorem find?_eq_some_iff_takeWhile {l : List κ} (hd : d ∈ l) :
    l.find? declares = some d ↔
      declares d = true ∧ ∀ k ∈ l.takeWhile (· ≠ d), declares k = false := by
  induction l with
  | nil => cases hd
  | cons c l ih =>
    by_cases hc : c = d
    · subst hc
      cases h : declares c <;> simp [h]
      intro hfind
      exact absurd (List.find?_some hfind) (by simp [h])
    · have hl : d ∈ l := (List.mem_cons.1 hd).resolve_left (Ne.symm hc)
      cases h : declares c <;> simp [h, hc, ih hl]

/-- The nearest declaration is the ancestor's exactly when no class below it has one. -/
theorem nearest_eq_some_iff (hd : d ∈ tree.ancestors c) :
    tree.nearest declares c = some d ↔
      declares d = true ∧ ∀ k ∈ tree.below c d, declares k = false :=
  find?_eq_some_iff_takeWhile hd

end ClassTree

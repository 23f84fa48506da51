import Mathlib.Data.PEquiv
import Mathlib.Logic.Function.Basic

/-!
# Partial bijections that change by a pair

`PEquiv` with a pair added between two free ends, and with the pair of one end taken out.

Main result:

* `PEquiv.symm_erase_of_eq_some`: the other side loses the partner and nothing else.
-/

universe u v

namespace PEquiv

variable {α : Type u} {β : Type v} [DecidableEq α] {e : α ≃. β} {a : α} {b : β}

/-- `e` with one more pair. -/
def insert [DecidableEq β] (e : α ≃. β) (a : α) (b : β) (ha : e a = none)
    (hb : e.symm b = none) : α ≃. β where
  toFun := Function.update e a (some b)
  invFun := Function.update e.symm b (some a)
  inv a' b' := by
    have hfree : ∀ a', e a' ≠ some b := by
      intro a' h
      rw [← e.eq_some_iff, hb] at h
      cases h
    have hfree' : ∀ b', e.symm b' ≠ some a := by
      intro b' h
      rw [e.eq_some_iff, ha] at h
      cases h
    by_cases ha' : a' = a <;> by_cases hb' : b' = b
    · subst ha' hb'
      simp
    · subst ha'
      simp [Function.update_of_ne hb', hfree', Ne.symm hb']
    · subst hb'
      simp [Function.update_of_ne ha', hfree, Ne.symm ha']
    · simpa [Function.update_of_ne ha', Function.update_of_ne hb'] using e.mem_iff_mem

/-- `e` without the pair of `a`. -/
def erase (e : α ≃. β) (a : α) : α ≃. β where
  toFun := Function.update e a none
  invFun b := (e.symm b).filter (· ≠ a)
  inv a' b' := by
    by_cases ha' : a' = a
    · subst ha'
      simp
    · simp [ha', e.eq_some_iff]

@[simp] theorem coe_insert [DecidableEq β] (ha : e a = none) (hb : e.symm b = none) :
    ⇑(e.insert a b ha hb) = Function.update e a (some b) := rfl

@[simp] theorem coe_symm_insert [DecidableEq β] (ha : e a = none) (hb : e.symm b = none) :
    ⇑(e.insert a b ha hb).symm = Function.update e.symm b (some a) := rfl

@[simp] theorem coe_erase : ⇑(e.erase a) = Function.update e a none := rfl

/-- The other side loses the partner and nothing else. -/
theorem symm_erase_of_eq_some [DecidableEq β] (h : e a = some b) :
    ⇑(e.erase a).symm = Function.update e.symm b none := by
  have hb : e.symm b = some a := e.eq_some_iff.2 h
  funext b'
  show (e.symm b').filter (· ≠ a) = _
  by_cases hb' : b' = b
  · subst hb'
    simp [hb]
  · rw [Function.update_of_ne hb']
    cases h' : e.symm b' with
    | none => rfl
    | some a' =>
      have hne : a' ≠ a := by
        rintro rfl
        rw [e.eq_some_iff, h] at h'
        exact hb' (Option.some.inj h').symm
      simp [hne]

theorem erase_of_eq_none (h : e a = none) : e.erase a = e := by
  ext a' : 1
  rw [coe_erase, Function.update_eq_self_iff.2 h.symm]

end PEquiv

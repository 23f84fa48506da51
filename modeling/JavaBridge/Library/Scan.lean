import Mathlib.Data.Nat.Basic

/-!
# Scans for the first place

A scan goes through the places below a bound, in order, and stops at the first one that it looks
for.

Main results:

* `Scan.find?_range_eq_some_iff`, `Scan.find?_step_eq_some_iff`: what a scan finds.
* `Scan.isFirstOf_cons_of_pos`, `Scan.isFirstOf_cons_of_neg`: the first of a list, at its head or
  behind it.
* `Scan.IsFirst.unique`: there is one first place.
-/

universe u

namespace Scan

/-- `o` is the first place at which `p` holds, and it is below `n`. -/
structure IsFirst (p : Nat → Prop) (n o : Nat) : Prop where
  lt : o < n
  holds : p o
  before : ∀ j < o, ¬p j

variable {p : Nat → Prop} {n n' o o' : Nat}

namespace IsFirst

theorem of_lt (h : IsFirst p n o) (hlt : o < n') : IsFirst p n' o := ⟨hlt, h.holds, h.before⟩

theorem le (h : IsFirst p n o) (h' : p o') : o ≤ o' :=
  Nat.le_of_not_lt fun hlt ↦ h.before o' hlt h'

theorem unique (h : IsFirst p n o) (h' : IsFirst p n' o') : o = o' :=
  Nat.le_antisymm (h.le h'.holds) (h'.le h.holds)

end IsFirst

theorem isFirst_congr {q : Nat → Prop} (h : ∀ i < n, (p i ↔ q i)) :
    IsFirst p n o ↔ IsFirst q n o := by
  constructor
  · intro hp
    refine ⟨hp.lt, (h o hp.lt).1 hp.holds, ?_⟩
    intro j hj hq
    exact hp.before j hj ((h j (Nat.lt_trans hj hp.lt)).2 hq)
  · intro hq
    refine ⟨hq.lt, (h o hq.lt).2 hq.holds, ?_⟩
    intro j hj hp
    exact hq.before j hj ((h j (Nat.lt_trans hj hq.lt)).1 hp)

/-! ## What a scan finds -/

variable {test : Nat → Bool}

theorem find?_range_eq_some_iff :
    (List.range n).find? test = some o ↔ IsFirst (test · = true) n o := by
  rw [List.find?_range_eq_some]
  constructor
  · rintro ⟨hp, hlt, hbefore⟩
    refine ⟨List.mem_range.1 hlt, hp, ?_⟩
    intro j hj
    simpa using hbefore j hj
  · intro h
    refine ⟨h.holds, List.mem_range.2 h.lt, ?_⟩
    intro j hj
    simpa using h.before j hj

/-- One place and the places after it. -/
theorem find?_cons_eq_or {places : List Nat} :
    (o :: places).find? test = (if test o then some o else none).or (places.find? test) := by
  rw [List.find?_cons]
  cases test o <;> rfl

/-- A scan in steps of `k`. -/
theorem find?_step_eq_some_iff {k : Nat} (hk : 0 < k) :
    ((List.range n).map (k * ·)).find? test = some o ↔
      IsFirst (fun o ↦ k ∣ o ∧ test o = true) (k * n) o := by
  rw [List.find?_map, Option.map_eq_some_iff]
  constructor
  · rintro ⟨i, hi, rfl⟩
    have hi := find?_range_eq_some_iff.1 hi
    refine ⟨Nat.mul_lt_mul_of_pos_left hi.lt hk, ⟨Nat.dvd_mul_right k i, hi.holds⟩, ?_⟩
    rintro _ hj ⟨⟨j, rfl⟩, htest⟩
    exact hi.before j (Nat.lt_of_mul_lt_mul_left hj) htest
  · rintro ⟨hlt, ⟨⟨i, rfl⟩, htest⟩, hbefore⟩
    refine ⟨i, find?_range_eq_some_iff.2 ⟨Nat.lt_of_mul_lt_mul_left hlt, htest, ?_⟩, rfl⟩
    intro j hj htest'
    exact hbefore (k * j) (Nat.mul_lt_mul_of_pos_left hj hk) ⟨Nat.dvd_mul_right k j, htest'⟩

theorem find?_step_eq_none_iff {k : Nat} (hk : 0 < k) :
    ((List.range n).map (k * ·)).find? test = none ↔
      ∀ o, ¬IsFirst (fun o ↦ k ∣ o ∧ test o = true) (k * n) o := by
  constructor
  · intro h o ho
    rw [(find?_step_eq_some_iff hk).2 ho] at h
    cases h
  · intro h
    cases hfind : ((List.range n).map (k * ·)).find? test with
    | none => rfl
    | some o => exact absurd ((find?_step_eq_some_iff hk).1 hfind) (h o)

/-! ## The first of a list -/

section List

variable {α : Type u} {q : α → Prop} {l : List α} {a b : α}

/-- `a` is in the list, `q` holds of it and of none before it. -/
def IsFirstOf (q : α → Prop) (l : List α) (a : α) : Prop :=
  ∃ before after, l = before ++ a :: after ∧ (∀ b ∈ before, ¬q b) ∧ q a

theorem not_isFirstOf_nil : ¬IsFirstOf q [] a := by
  rintro ⟨before, after, h, -⟩
  exact List.append_ne_nil_of_right_ne_nil before (List.cons_ne_nil a after) h.symm

theorem isFirstOf_cons_of_pos (hb : q b) : IsFirstOf q (b :: l) a ↔ b = a := by
  constructor
  · rintro ⟨before, after, h, hbefore, -⟩
    cases before with
    | nil => exact (List.cons.inj h).1
    | cons c before =>
      obtain rfl := (List.cons.inj h).1
      exact absurd hb (hbefore b List.mem_cons_self)
  · rintro rfl
    exact ⟨[], l, rfl, List.forall_mem_nil _, hb⟩

theorem isFirstOf_cons_of_neg (hb : ¬q b) : IsFirstOf q (b :: l) a ↔ IsFirstOf q l a := by
  constructor
  · rintro ⟨before, after, h, hbefore, ha⟩
    cases before with
    | nil =>
      obtain rfl := (List.cons.inj h).1
      exact absurd ha hb
    | cons c before => exact ⟨before, after, (List.cons.inj h).2, (List.forall_mem_cons.1 hbefore).2, ha⟩
  · rintro ⟨before, after, rfl, hbefore, ha⟩
    exact ⟨b :: before, after, rfl, List.forall_mem_cons.2 ⟨hb, hbefore⟩, ha⟩

end List

end Scan

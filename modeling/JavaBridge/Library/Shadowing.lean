import Mathlib.Data.List.Flatten
import Mathlib.Data.List.Nodup

/-!
# Shadowing

Named entries in layers, the nearest layer first. A layer hides whatever the layers behind it have
under one of its names.

Main results:

* `visible_eq_flatMap`: what is seen, layer by layer.
* `mem_visible_iff`: an entry is seen exactly where no layer before it has its name.
* `filter_visible`: what is seen under a name is what the nearest layer has under it.
-/

universe u v

namespace Shadowing

variable {α : Type u} {ν : Type v}

section Hides

variable (name : α → ν)

/-- One of the layers has the name. -/
def Hides (layers : List (List α)) (n : ν) : Prop := ∃ layer ∈ layers, n ∈ layer.map name

instance [DecidableEq ν] (layers : List (List α)) (n : ν) : Decidable (Hides name layers n) :=
  inferInstanceAs (Decidable (∃ layer ∈ layers, n ∈ layer.map name))

variable {name} {layer : List α} {layers : List (List α)} {n : ν}

@[simp] theorem not_hides_nil : ¬Hides name [] n := by simp [Hides]

@[simp] theorem hides_cons :
    Hides name (layer :: layers) n ↔ n ∈ layer.map name ∨ Hides name layers n := by
  simp [Hides]

end Hides

variable [DecidableEq ν] (name : α → ν)

/-- What is seen of the layers. -/
def visible : List (List α) → List α
  | [] => []
  | layer :: layers => layer ++ (visible layers).filter fun a ↦ name a ∉ layer.map name

variable {name} {layer : List α} {layers : List (List α)} {a : α}

variable (name layers) in
/-- Each layer is seen as far as those before it do not hide it. -/
theorem visible_eq_flatMap : visible name layers = (List.range layers.length).flatMap fun i ↦
    (layers[i]?.getD []).filter fun a ↦ ¬Hides name (layers.take i) (name a) := by
  induction layers with
  | nil => rfl
  | cons layer layers ih =>
    rw [visible, ih, List.length_cons, List.range_succ_eq_map, List.flatMap_cons, List.flatMap_map,
      List.filter_flatMap]
    congr 1
    · simp
    · congr 1
      funext i
      simp [List.filter_filter, not_or]

theorem mem_visible_iff : a ∈ visible name layers ↔
    ∃ i layer, layers[i]? = some layer ∧ a ∈ layer ∧ ¬Hides name (layers.take i) (name a) := by
  rw [visible_eq_flatMap, List.mem_flatMap]
  constructor
  · rintro ⟨i, hi, ha⟩
    have hlayer := List.getElem?_eq_getElem (List.mem_range.1 hi)
    rw [hlayer, Option.getD_some, List.mem_filter] at ha
    exact ⟨i, _, hlayer, ha.1, by simpa using ha.2⟩
  · rintro ⟨i, layer, hlayer, ha, hhides⟩
    refine ⟨i, List.mem_range.2 (List.getElem?_eq_some_iff.1 hlayer).1, ?_⟩
    rw [hlayer, Option.getD_some, List.mem_filter]
    exact ⟨ha, by simpa using hhides⟩

theorem visible_sublist (layers : List (List α)) : (visible name layers).Sublist layers.flatten := by
  induction layers with
  | nil => exact .slnil
  | cons layer layers ih =>
    rw [visible, List.flatten_cons]
    exact (List.Sublist.refl layer).append (List.filter_sublist.trans ih)

/-- Entries that differ are seen once at most. -/
theorem nodup_visible (h : layers.flatten.Nodup) : (visible name layers).Nodup :=
  h.sublist (visible_sublist layers)

/-- Entries that differ are seen just where no layer before their own hides them. -/
theorem mem_visible_iff_of_nodup (h : layers.flatten.Nodup) {i : Nat} (hi : layers[i]? = some layer)
    (ha : a ∈ layer) : a ∈ visible name layers ↔ ¬Hides name (layers.take i) (name a) := by
  rw [mem_visible_iff]
  constructor
  · rintro ⟨j, layer', hj, ha', hhides⟩
    obtain ⟨hlt, rfl⟩ := List.getElem?_eq_some_iff.1 hi
    obtain ⟨hlt', rfl⟩ := List.getElem?_eq_some_iff.1 hj
    have hdisjoint := List.pairwise_iff_getElem.1 (List.nodup_flatten.1 h).2
    rcases Nat.lt_trichotomy i j with hij | rfl | hij
    · exact absurd ha' (hdisjoint i j hlt hlt' hij ha)
    · exact hhides
    · exact absurd ha (hdisjoint j i hlt' hlt hij ha')
  · intro hhides
    exact ⟨i, layer, hi, ha, hhides⟩

/-- What is seen under a name is what the nearest layer that has it has under it. -/
theorem filter_visible (layers : List (List α)) (n : ν) :
    (visible name layers).filter (name · = n) =
      ((layers.find? fun layer ↦ n ∈ layer.map name).getD []).filter (name · = n) := by
  induction layers with
  | nil => rfl
  | cons layer layers ih =>
    rw [visible, List.filter_append, List.filter_filter]
    by_cases hn : n ∈ layer.map name
    · have hnil : (visible name layers).filter
          (fun a ↦ decide (name a = n) && decide (name a ∉ layer.map name)) = [] := by
        refine List.filter_eq_nil_iff.2 fun a _ ha ↦ ?_
        rw [Bool.and_eq_true, decide_eq_true_eq, decide_eq_true_eq] at ha
        exact ha.2 (ha.1 ▸ hn)
      rw [List.find?_cons_of_pos (by simpa using hn), Option.getD_some, hnil, List.append_nil]
    · have hnil : layer.filter (fun a ↦ decide (name a = n)) = [] := by
        refine List.filter_eq_nil_iff.2 fun a ha hname ↦ ?_
        exact hn (List.mem_map.2 ⟨a, ha, of_decide_eq_true hname⟩)
      rw [List.find?_cons_of_neg (by simpa using hn), ← ih, hnil, List.nil_append]
      refine List.filter_congr fun a _ ↦ ?_
      by_cases ha : name a = n
      · simpa [ha] using hn
      · simp [ha]

end Shadowing

import Mathlib.Algebra.BigOperators.Group.Multiset.Basic
import Mathlib.Algebra.Ring.Nat
import Mathlib.Data.List.Induction
import Mathlib.Data.List.Perm.Basic
import Mathlib.Data.Multiset.Filter

/-!
# Grouping

Entries with a key, put one after another into the group of their key. A second grouping tells keys
apart that are equal: each entry with a key of its own begins a group, and only the entries without
one share theirs.

Main results:

* `mem_group`: the groups of some entries, each with the values of its key.
* `parts_group_perm`: up to order, the groups do not depend on the order of the entries.
* `parts_apart_eq_iff`: when the two groupings agree.
-/

namespace Grouping

variable {K L V W : Type*}

/-! ## Groups of a key -/

section

variable [DecidableEq K] [DecidableEq L]

/-- The value goes into the first group of its key, which is new at the end if need be. -/
def insert (key : K) (value : V) : List (K × List V) → List (K × List V)
  | [] => [(key, [value])]
  | group :: groups =>
    if group.1 = key then (group.1, group.2 ++ [value]) :: groups
    else group :: insert key value groups

def group (entries : List (K × V)) : List (K × List V) :=
  entries.foldl (fun groups entry ↦ insert entry.1 entry.2 groups) []

/-- The values of a key. -/
def values (key : K) (entries : List (K × V)) : List V :=
  (entries.filter (·.1 = key)).map Prod.snd

variable {key k : K} {value : V} {vs : List V} {groups : List (K × List V)}
  {entries entries' : List (K × V)}

theorem group_concat (entries : List (K × V)) (entry : K × V) :
    group (entries ++ [entry]) = insert entry.1 entry.2 (group entries) := by
  rw [group, List.foldl_append]
  rfl

theorem values_concat (entries : List (K × V)) (entry : K × V) :
    values key (entries ++ [entry]) =
      values key entries ++ if entry.1 = key then [entry.2] else [] := by
  rw [values, List.filter_append, List.map_append]
  by_cases h : entry.1 = key <;> simp [values, h]

theorem insert_of_not_mem (h : key ∉ groups.map Prod.fst) :
    insert key value groups = groups ++ [(key, [value])] := by
  induction groups with
  | nil => rfl
  | cons group groups ih =>
    rw [List.map_cons, List.mem_cons, not_or] at h
    rw [insert, if_neg (Ne.symm h.1), ih h.2, List.cons_append]

/-- The group is found by its place. -/
theorem insert_of_findIdx? {index : Nat} (h : groups.findIdx? (·.1 = key) = some index) :
    insert key value groups = groups.modify index fun group ↦ (group.1, group.2 ++ [value]) := by
  induction groups generalizing index with
  | nil => cases h
  | cons group groups ih =>
    rw [List.findIdx?_cons] at h
    by_cases hkey : group.1 = key
    · rw [if_pos (decide_eq_true hkey)] at h
      obtain rfl := Option.some.inj h
      rw [insert, if_pos hkey, List.modify_zero_cons]
    · rw [if_neg (by simpa using hkey)] at h
      obtain ⟨i, hi, rfl⟩ := Option.map_eq_some_iff.1 h
      rw [insert, if_neg hkey, ih hi, List.modify_succ_cons]

/-- A new group has its place at the end. -/
theorem insert_of_findIdx?_eq_none (h : groups.findIdx? (·.1 = key) = none) :
    insert key value groups = (groups ++ [(key, [])]).modify groups.length
      fun group ↦ (group.1, group.2 ++ [value]) := by
  induction groups with
  | nil => rfl
  | cons group groups ih =>
    rw [List.findIdx?_eq_none_iff, List.forall_mem_cons] at h
    rw [insert, if_neg (of_decide_eq_false h.1), ih (List.findIdx?_eq_none_iff.2 h.2)]
    rfl

theorem map_fst_insert (key : K) (value : V) (groups : List (K × List V)) :
    (insert key value groups).map Prod.fst =
      if key ∈ groups.map Prod.fst then groups.map Prod.fst else groups.map Prod.fst ++ [key] := by
  induction groups with
  | nil => rfl
  | cons group groups ih =>
    rw [insert]
    by_cases hkey : group.1 = key
    · rw [if_pos hkey, if_pos (by simp [hkey])]
      rfl
    · rw [if_neg hkey, List.map_cons, ih, List.map_cons]
      by_cases hmem : key ∈ groups.map Prod.fst
      · rw [if_pos hmem, if_pos (List.mem_cons_of_mem _ hmem)]
      · rw [if_neg hmem, if_neg (by simpa [Ne.symm hkey] using hmem), List.cons_append]

theorem nodup_insert (h : (groups.map Prod.fst).Nodup) :
    ((insert key value groups).map Prod.fst).Nodup := by
  rw [map_fst_insert]
  split
  · exact h
  · next hmem =>
    rw [← List.concat_eq_append]
    exact h.concat hmem

theorem nodup_group (entries : List (K × V)) : ((group entries).map Prod.fst).Nodup := by
  induction entries using List.reverseRecOn with
  | nil => exact List.nodup_nil
  | append_singleton entries entry ih =>
    rw [group_concat]
    exact nodup_insert ih

theorem mem_fst_group : k ∈ (group entries).map Prod.fst ↔ k ∈ entries.map Prod.fst := by
  induction entries using List.reverseRecOn with
  | nil => rfl
  | append_singleton entries entry ih =>
    rw [group_concat, map_fst_insert, List.map_append, List.mem_append, ← ih]
    split
    · next hmem =>
      refine ⟨.inl, ?_⟩
      rintro (h | h)
      · exact h
      · obtain rfl := List.mem_singleton.1 h
        exact hmem
    · rw [List.mem_append]
      rfl

/-- The other groups stay, and that of the key has the value at its end. -/
theorem mem_insert_iff (h : (groups.map Prod.fst).Nodup) :
    (k, vs) ∈ insert key value groups ↔
      if key = k then
        (∃ old, (k, old) ∈ groups ∧ vs = old ++ [value]) ∨
          k ∉ groups.map Prod.fst ∧ vs = [value]
      else (k, vs) ∈ groups := by
  induction groups with
  | nil =>
    by_cases hkey : key = k
    · simp [insert, hkey]
    · simp [insert, hkey, Ne.symm hkey]
  | cons group groups ih =>
    rw [List.map_cons, List.nodup_cons] at h
    obtain ⟨first, old⟩ := group
    rw [insert]
    by_cases hfirst : first = key
    · subst hfirst
      rw [if_pos rfl, List.mem_cons]
      by_cases hkey : first = k
      · subst hkey
        have hrest : ∀ vs, (first, vs) ∉ groups := fun vs hmem ↦
          h.1 (List.mem_map.2 ⟨(first, vs), hmem, rfl⟩)
        simp [hrest]
      · rw [if_neg hkey]
        simp [Ne.symm hkey]
    · rw [if_neg hfirst, List.mem_cons, ih h.2]
      by_cases hkey : key = k
      · subst hkey
        simp [Ne.symm hfirst]
      · rw [if_neg hkey, if_neg hkey, List.mem_cons]

theorem values_eq_nil : values key entries = [] ↔ key ∉ entries.map Prod.fst := by
  rw [values, List.map_eq_nil_iff, List.filter_eq_nil_iff]
  constructor
  · intro h hmem
    obtain ⟨entry, hentry, rfl⟩ := List.mem_map.1 hmem
    exact h entry hentry (decide_eq_true rfl)
  · intro h entry hentry hkey
    exact h (List.mem_map.2 ⟨entry, hentry, of_decide_eq_true hkey⟩)

/-- A group has the values of its key, and there is one for each key with a value. -/
theorem mem_group : (k, vs) ∈ group entries ↔ vs = values k entries ∧ vs ≠ [] := by
  induction entries using List.reverseRecOn generalizing vs with
  | nil => simp [group, values]
  | append_singleton entries entry ih =>
    rw [group_concat, mem_insert_iff (nodup_group entries), values_concat]
    by_cases hkey : entry.1 = k
    · rw [if_pos hkey, if_pos hkey, mem_fst_group]
      constructor
      · rintro (⟨old, hold, rfl⟩ | ⟨hmem, rfl⟩)
        · exact ⟨by rw [(ih.1 hold).1], by simp⟩
        · rw [values_eq_nil.2 hmem]
          exact ⟨rfl, by simp⟩
      · rintro ⟨rfl, -⟩
        by_cases hnil : values k entries = []
        · exact .inr ⟨values_eq_nil.1 hnil, by rw [hnil, List.nil_append]⟩
        · exact .inl ⟨_, ih.2 ⟨rfl, hnil⟩, rfl⟩
    · rw [if_neg hkey, if_neg hkey, List.append_nil, ih]

/-! ## Other keys and values -/

theorem map_insert {κ : K → L} (hκ : κ.Injective) (f : V → W) :
    (insert key value groups).map (fun g ↦ (κ g.1, g.2.map f)) =
      insert (κ key) (f value) (groups.map fun g ↦ (κ g.1, g.2.map f)) := by
  induction groups with
  | nil => rfl
  | cons group groups ih =>
    rw [insert, List.map_cons, insert]
    by_cases hkey : group.1 = key
    · simp [hkey]
    · rw [if_neg hkey, if_neg (hκ.ne hkey), List.map_cons, ih]

/-- To group by other names of the keys gives the same groups. -/
theorem map_group {κ : K → L} (hκ : κ.Injective) (f : V → W) (entries : List (K × V)) :
    (group entries).map (fun g ↦ (κ g.1, g.2.map f)) =
      group (entries.map fun e ↦ (κ e.1, f e.2)) := by
  induction entries using List.reverseRecOn with
  | nil => rfl
  | append_singleton entries entry ih =>
    rw [group_concat, map_insert hκ, ih, List.map_append, List.map_singleton, group_concat]

end

/-! ## Up to order -/

/-- The groups, up to their order and to that of their values. -/
def parts (groups : List (K × List V)) : Multiset (K × Multiset V) :=
  Multiset.ofList (groups.map fun g ↦ (g.1, Multiset.ofList g.2))

section

variable [DecidableEq K] {entries entries' : List (K × V)}

theorem nodup_parts_group (entries : List (K × V)) : (parts (group entries)).Nodup := by
  have hkeys : (((group entries).map fun g ↦ (g.1, Multiset.ofList g.2)).map Prod.fst).Nodup := by
    rw [List.map_map]
    exact nodup_group entries
  exact Multiset.coe_nodup.2 (List.Nodup.of_map _ hkeys)

theorem mem_parts_group {k : K} {m : Multiset V} :
    (k, m) ∈ parts (group entries) ↔ m = Multiset.ofList (values k entries) ∧ m ≠ 0 := by
  rw [parts, Multiset.mem_coe, List.mem_map]
  constructor
  · rintro ⟨⟨key, vs⟩, hmem, heq⟩
    obtain ⟨rfl, rfl⟩ := Prod.mk.inj heq
    obtain ⟨rfl, hne⟩ := mem_group.1 hmem
    exact ⟨rfl, fun h ↦ hne ((Multiset.coe_eq_zero _).1 h)⟩
  · rintro ⟨rfl, hne⟩
    exact ⟨(k, values k entries), mem_group.2 ⟨rfl, fun h ↦ hne (congrArg Multiset.ofList h)⟩, rfl⟩

/-- Up to order, the groups do not depend on the order of the entries. -/
theorem parts_group_perm (h : entries.Perm entries') :
    parts (group entries) = parts (group entries') := by
  refine (Multiset.Nodup.ext (nodup_parts_group _) (nodup_parts_group _)).2 ?_
  rintro ⟨k, m⟩
  have hvalues : Multiset.ofList (values k entries) = Multiset.ofList (values k entries') :=
    Multiset.coe_eq_coe.2 ((h.filter _).map _)
  rw [mem_parts_group, mem_parts_group, hvalues]

end

/-- How many values the groups have. -/
def count (groups : List (K × List V)) : Nat := (groups.map (·.2.length)).sum

theorem count_eq_of_parts {groups groups' : List (K × List V)} (h : parts groups = parts groups') :
    count groups = count groups' := by
  have hcount (groups : List (K × List V)) :
      count groups = ((parts groups).map fun g ↦ Multiset.card g.2).sum := by
    rw [parts, Multiset.map_coe, Multiset.sum_coe, List.map_map]
    rfl
  rw [hcount, hcount, h]

/-- The keys that are not missing, up to order. -/
theorem filterMap_eq_of_parts {groups groups' : List (Option K × List V)}
    (h : parts groups = parts groups') :
    (groups.filterMap Prod.fst).Perm (groups'.filterMap Prod.fst) := by
  have hkeys (groups : List (Option K × List V)) :
      Multiset.ofList (groups.filterMap Prod.fst) = (parts groups).filterMap Prod.fst := by
    rw [parts, Multiset.filterMap_coe, List.filterMap_map]
    rfl
  rw [← Multiset.coe_eq_coe, hkeys, hkeys, h]

section

variable [DecidableEq K]

theorem count_insert (key : K) (value : V) (groups : List (K × List V)) :
    count (insert key value groups) = count groups + 1 := by
  induction groups with
  | nil => rfl
  | cons group groups ih =>
    rw [insert]
    split
    · simp only [count, List.map_cons, List.sum_cons, List.length_append, List.length_singleton]
      exact Nat.add_right_comm _ _ _
    · simp only [count, List.map_cons, List.sum_cons] at ih ⊢
      rw [ih, Nat.add_assoc]

theorem count_group (entries : List (K × V)) : count (group entries) = entries.length := by
  induction entries using List.reverseRecOn with
  | nil => rfl
  | append_singleton entries entry ih =>
    rw [group_concat, count_insert, ih, List.length_append, List.length_singleton]

end

/-! ## Keys that are told apart -/

section

variable [DecidableEq K]

/-- A value with a key begins a group; those without one share theirs. -/
def insertApart (key : Option K) (value : V) (groups : List (Option K × List V)) :
    List (Option K × List V) :=
  match key with
  | none => insert none value groups
  | some key => groups ++ [(some key, [value])]

def apart (entries : List (Option K × V)) : List (Option K × List V) :=
  entries.foldl (fun groups entry ↦ insertApart entry.1 entry.2 groups) []

variable {entries entries' : List (Option K × V)}

theorem apart_concat (entries : List (Option K × V)) (entry : Option K × V) :
    apart (entries ++ [entry]) = insertApart entry.1 entry.2 (apart entries) := by
  rw [apart, List.foldl_append]
  rfl

theorem count_apart (entries : List (Option K × V)) : count (apart entries) = entries.length := by
  induction entries using List.reverseRecOn with
  | nil => rfl
  | append_singleton entries entry ih =>
    obtain ⟨key, value⟩ := entry
    rw [apart_concat, List.length_append, List.length_singleton, ← ih]
    cases key with
    | none => exact count_insert _ _ _
    | some key => simp [insertApart, count]

theorem filterMap_apart (entries : List (Option K × V)) :
    (apart entries).filterMap Prod.fst = entries.filterMap Prod.fst := by
  have hmap (groups : List (Option K × List V)) :
      groups.filterMap Prod.fst = (groups.map Prod.fst).filterMap id := by
    rw [List.filterMap_map]
    rfl
  induction entries using List.reverseRecOn with
  | nil => rfl
  | append_singleton entries entry ih =>
    obtain ⟨key, value⟩ := entry
    rw [apart_concat, List.filterMap_append, ← ih]
    cases key with
    | none =>
      rw [insertApart, hmap, map_fst_insert, hmap]
      split <;> simp
    | some key => rw [insertApart, List.filterMap_append]; rfl

/-- Where no key comes twice, there is nothing to tell apart. -/
theorem apart_eq_group (h : (entries.filterMap Prod.fst).Nodup) : apart entries = group entries := by
  induction entries using List.reverseRecOn with
  | nil => rfl
  | append_singleton entries entry ih =>
    obtain ⟨key, value⟩ := entry
    rw [List.filterMap_append] at h
    rw [apart_concat, group_concat, ih h.of_append_left]
    cases key with
    | none => rfl
    | some key =>
      have hnew : some key ∉ (group entries).map Prod.fst := by
        rw [mem_fst_group]
        intro hmem
        obtain ⟨entry, hentry, hkey⟩ := List.mem_map.1 hmem
        exact List.disjoint_of_nodup_append h (List.mem_filterMap.2 ⟨entry, hentry, hkey⟩)
          (List.mem_singleton.2 rfl)
      exact (insert_of_not_mem hnew).symm

theorem nodup_filterMap_group (entries : List (Option K × V)) :
    ((group entries).filterMap Prod.fst).Nodup := by
  have hkeys := (nodup_group entries).filterMap (f := id) fun _ _ _ h h' ↦ h.trans h'.symm
  rwa [List.filterMap_map] at hkeys

/-- The two groupings of some entries and of a part of them agree exactly where no key comes twice
and the part is the whole. -/
theorem parts_apart_eq_iff (h : entries'.Subperm entries) :
    parts (apart entries) = parts (group entries') ↔
      (entries.filterMap Prod.fst).Nodup ∧ entries'.length = entries.length := by
  constructor
  · intro heq
    constructor
    · rw [← filterMap_apart]
      exact (filterMap_eq_of_parts heq).nodup_iff.2 (nodup_filterMap_group entries')
    · rw [← count_group, ← count_eq_of_parts heq, count_apart]
  · rintro ⟨hnodup, hlength⟩
    rw [apart_eq_group hnodup]
    exact parts_group_perm (h.perm_of_length_le hlength.ge).symm

end

end Grouping

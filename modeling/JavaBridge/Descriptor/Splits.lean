import JavaBridge.Descriptor.Names

/-!
# Splits of text

Where `split_once` and `rsplit_once` cut a text.

Main results:

* `Text.splitOnce_eq_some_iff`: the cut is at the first delimiter.
* `Text.rsplitOnce_eq_some_iff`: the cut is at the last one.
-/

namespace JavaBridge.Text

variable {delimiter : Char} {cs before after : List Char}

theorem splitOnce_eq_none_iff : splitOnce delimiter cs = none ↔ delimiter ∉ cs := by
  induction cs with
  | nil => exact iff_of_true rfl List.not_mem_nil
  | cons c cs ih =>
    rw [splitOnce, List.mem_cons]
    split
    · next hc => exact iff_of_false (fun h ↦ by cases h) fun h ↦ h (.inl hc.symm)
    · next hc => rw [Option.map_eq_none_iff, ih, not_or, and_iff_right (Ne.symm hc)]

/-- The first delimiter. -/
theorem splitOnce_eq_some_iff :
    splitOnce delimiter cs = some (before, after) ↔
      cs = before ++ delimiter :: after ∧ delimiter ∉ before := by
  induction cs generalizing before with
  | nil =>
    refine iff_of_false (fun h ↦ by cases h) ?_
    rintro ⟨h, -⟩
    exact List.cons_ne_nil _ _ (List.append_eq_nil_iff.1 h.symm).2
  | cons c cs ih =>
    rw [splitOnce]
    split
    · next hc =>
      subst hc
      cases before with
      | nil => simp [eq_comm]
      | cons b before =>
        refine iff_of_false (fun h ↦ by cases h) ?_
        rintro ⟨h, hmem⟩
        rw [List.cons_append, List.cons.injEq] at h
        exact hmem (h.1 ▸ List.mem_cons_self)
    · next hc =>
      cases before with
      | nil =>
        refine iff_of_false (fun h ↦ ?_) ?_
        · obtain ⟨⟨b, a⟩, -, h⟩ := Option.map_eq_some_iff.1 h
          cases h
        · rintro ⟨h, -⟩
          exact hc (List.cons.inj h).1
      | cons b before =>
        rw [List.cons_append, List.cons.injEq, List.mem_cons, not_or, Option.map_eq_some_iff]
        constructor
        · rintro ⟨⟨b', a⟩, hsplit, h⟩
          cases h
          obtain ⟨rfl, hmem⟩ := ih.1 hsplit
          exact ⟨⟨rfl, rfl⟩, Ne.symm hc, hmem⟩
        · rintro ⟨⟨rfl, rfl⟩, -, hmem⟩
          exact ⟨(before, after), ih.2 ⟨rfl, hmem⟩, rfl⟩

/-- The last delimiter. -/
theorem rsplitOnce_eq_some_iff :
    rsplitOnce delimiter cs = some (before, after) ↔
      cs = before ++ delimiter :: after ∧ delimiter ∉ after := by
  have hsplit : rsplitOnce delimiter cs = some (before, after) ↔
      splitOnce delimiter cs.reverse = some (after.reverse, before.reverse) := by
    rw [rsplitOnce, Option.map_eq_some_iff]
    constructor
    · rintro ⟨⟨a, b⟩, h, heq⟩
      cases heq
      rwa [List.reverse_reverse, List.reverse_reverse]
    · intro h
      refine ⟨_, h, ?_⟩
      show (before.reverse.reverse, after.reverse.reverse) = (before, after)
      rw [List.reverse_reverse, List.reverse_reverse]
  rw [hsplit, splitOnce_eq_some_iff, List.mem_reverse, ← List.reverse_inj, List.reverse_reverse]
  simp

end JavaBridge.Text

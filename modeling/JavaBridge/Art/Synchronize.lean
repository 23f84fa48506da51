import JavaBridge.Art.Registry
import JavaBridge.Library.Footprint

/-!
# Synchronising the clones

After a collection every clone gets the declaring class of its original, which the collector may have
moved, and an original that fell back to the nterp entrypoint gets the interpreter bridge again. Each
registered pair is an update of its own bytes, so that the order in which the map gives the pairs
does not matter.

Main results:

* `ArtReplacementMappings.synchronizeReplacementMethods_eq_runAll`: the loop is a batch of updates.
* `ArtReplacementMappings.synchronizeReplacementMethods_lawful`: what a synchronisation changes, in
  any order and however often.
-/

namespace JavaBridge.Art

open ByteMemory

namespace ArtReplacementRecord

variable (record : ArtReplacementRecord) (original : BitVec 64)

/-- The place of the quick entrypoint of the original. -/
def originalQuickCode : BitVec 64 := original + record.synchronization.quickCodeOffset

/-- The quick entrypoint of the original is the nterp entrypoint. -/
def FellBack (m : ByteMemory) : Prop :=
  record.synchronization.nterpEntrypoint = some (m.word (record.originalQuickCode original))

/-- The clone with the declaring class of its original. -/
def withDeclaringClass (m : ByteMemory) : ByteMemory :=
  m.store record.replacement 4 (m.load original 4)

variable {record original} {m m' : ByteMemory}

theorem synchronize_of_fellBack
    (h : record.FellBack original (record.withDeclaringClass original m)) :
    record.synchronize original m =
      (record.withDeclaringClass original m).store (record.originalQuickCode original) 8
        record.synchronization.quickToInterpreterBridge.toNat := by
  rw [FellBack] at h
  rw [synchronize, h]
  exact if_pos rfl

theorem synchronize_of_not_fellBack
    (h : ¬record.FellBack original (record.withDeclaringClass original m)) :
    record.synchronize original m = record.withDeclaringClass original m := by
  rw [FellBack] at h
  rw [synchronize]
  cases hnterp : record.synchronization.nterpEntrypoint with
  | none => rfl
  | some nterpEntrypoint =>
    rw [hnterp, Option.some_inj] at h
    exact if_neg (Ne.symm h)

theorem synchronize_of_not_mem {b : BitVec 64}
    (hb : b ∉ block record.replacement 4 ∪ block (record.originalQuickCode original) 8) :
    record.synchronize original m b = m b := by
  rw [Set.mem_union, not_or] at hb
  have hclass : record.withDeclaringClass original m b = m b := store_of_not_mem m _ hb.1
  by_cases h : record.FellBack original (record.withDeclaringClass original m)
  · rw [synchronize_of_fellBack h, store_of_not_mem _ _ hb.2, hclass]
  · rw [synchronize_of_not_fellBack h, hclass]

theorem withDeclaringClass_congr
    (h : Set.EqOn m m' (block original 4 ∪ block (record.originalQuickCode original) 8)) :
    Set.EqOn (record.withDeclaringClass original m) (record.withDeclaringClass original m')
      (block record.replacement 4 ∪ block (record.originalQuickCode original) 8) := by
  intro b hb
  have hload : m.load original 4 = m'.load original 4 :=
    load_congr_of_eqOn (by decide) (h.mono Set.subset_union_left)
  rw [withDeclaringClass, withDeclaringClass, hload]
  by_cases hclass : b ∈ block record.replacement 4
  · exact store_of_mem m m' _ hclass
  · rw [store_of_not_mem m _ hclass, store_of_not_mem m' _ hclass]
    exact h (.inr (hb.resolve_left hclass))

theorem synchronize_congr
    (h : Set.EqOn m m' (block original 4 ∪ block (record.originalQuickCode original) 8)) :
    Set.EqOn (record.synchronize original m) (record.synchronize original m')
      (block record.replacement 4 ∪ block (record.originalQuickCode original) 8) := by
  have hclass := withDeclaringClass_congr h
  have hword := word_congr_of_eqOn (hclass.mono Set.subset_union_right)
  intro b hb
  by_cases hback : record.FellBack original (record.withDeclaringClass original m)
  · have hback' : record.FellBack original (record.withDeclaringClass original m') := by
      rw [FellBack, ← hword]
      exact hback
    rw [synchronize_of_fellBack hback, synchronize_of_fellBack hback']
    by_cases hquick : b ∈ block (record.originalQuickCode original) 8
    · exact store_of_mem _ _ _ hquick
    · rw [store_of_not_mem _ _ hquick, store_of_not_mem _ _ hquick]
      exact hclass hb
  · have hback' : ¬record.FellBack original (record.withDeclaringClass original m') := by
      rw [FellBack, ← hword]
      exact hback
    rw [synchronize_of_not_fellBack hback, synchronize_of_not_fellBack hback']
    exact hclass hb

variable (record original) in
/-- What the synchronisation of one pair reads and writes. -/
def update : Update (BitVec 64) (BitVec 8) where
  run := record.synchronize original
  reads := block original 4 ∪ block (record.originalQuickCode original) 8
  writes := block record.replacement 4 ∪ block (record.originalQuickCode original) 8
  frame := fun _ _ hb ↦ synchronize_of_not_mem hb
  congr := fun _ _ h ↦ synchronize_congr h

/-! ## One pair -/

/-- The blocks of a pair: the entrypoint lies behind the declaring class of the original, inside of
its block, and the clone has a block of its own. -/
structure Fits (record : ArtReplacementRecord) (original : BitVec 64) (size : Nat) : Prop where
  size_le : size ≤ 2 ^ 64
  four_le : 4 ≤ record.synchronization.quickCodeOffset.toNat
  inside : record.synchronization.quickCodeOffset.toNat + 8 ≤ size
  disjoint : Disjoint (block original size) (block record.replacement size)

variable {size : Nat}

theorem Fits.quickCode_subset (h : record.Fits original size) :
    block (record.originalQuickCode original) 8 ⊆ block original size :=
  block_add_subset_block original h.size_le h.inside

theorem Fits.four_le_size (h : record.Fits original size) : 4 ≤ size :=
  Nat.le_trans h.four_le (Nat.le_trans (Nat.le_add_right _ _) h.inside)

theorem Fits.replacement_quickCode (h : record.Fits original size) :
    Disjoint (block record.replacement 4) (block (record.originalQuickCode original) 8) :=
  (h.disjoint.mono h.quickCode_subset (block_subset_block _ h.four_le_size)).symm

theorem Fits.replacement_original (h : record.Fits original size) :
    Disjoint (block record.replacement 4) (block original 4) :=
  (h.disjoint.mono (block_subset_block _ h.four_le_size)
    (block_subset_block _ h.four_le_size)).symm

theorem Fits.quickCode_original (h : record.Fits original size) :
    Disjoint (block (record.originalQuickCode original) 8) (block original 4) :=
  (disjoint_block_block_add original h.four_le (Nat.le_trans h.inside h.size_le)).symm

/-- The new declaring class does not hide whether the original fell back. -/
theorem Fits.fellBack_iff (h : record.Fits original size) :
    record.FellBack original (record.withDeclaringClass original m) ↔ record.FellBack original m := by
  rw [FellBack, FellBack, withDeclaringClass,
    word_congr_of_eqOn (store_eqOn_of_disjoint m _ h.replacement_quickCode)]

theorem Fits.load_replacement (h : record.Fits original size) :
    (record.synchronize original m).load record.replacement 4 = m.load original 4 := by
  have hclass : (record.withDeclaringClass original m).load record.replacement 4 =
      m.load original 4 := by
    rw [withDeclaringClass, load_store_prefix m _ _ (by decide) (Nat.le_refl 4)]
    exact Nat.mod_eq_of_lt (m.load_lt original 4)
  by_cases hback : record.FellBack original (record.withDeclaringClass original m)
  · rw [synchronize_of_fellBack hback, ← hclass]
    exact load_congr_of_eqOn (by decide) (store_eqOn_of_disjoint _ _ h.replacement_quickCode.symm)
  · rw [synchronize_of_not_fellBack hback, hclass]

theorem Fits.load_original (h : record.Fits original size) :
    (record.synchronize original m).load original 4 = m.load original 4 := by
  apply load_congr_of_eqOn (by decide)
  intro b hb
  apply synchronize_of_not_mem
  rintro (hclass | hquick)
  · exact Set.disjoint_left.1 h.replacement_original hclass hb
  · exact Set.disjoint_left.1 h.quickCode_original hquick hb

theorem Fits.word_quickCode (h : record.Fits original size) (hback : record.FellBack original m) :
    (record.synchronize original m).word (record.originalQuickCode original) =
      record.synchronization.quickToInterpreterBridge := by
  rw [synchronize_of_fellBack (h.fellBack_iff.2 hback), word_store]

theorem Fits.synchronize_of_not_mem (h : record.Fits original size) {b : BitVec 64}
    (hclass : b ∉ block record.replacement 4)
    (hquick : record.FellBack original m → b ∉ block (record.originalQuickCode original) 8) :
    record.synchronize original m b = m b := by
  have hstore : record.withDeclaringClass original m b = m b := store_of_not_mem m _ hclass
  by_cases hback : record.FellBack original m
  · rw [synchronize_of_fellBack (h.fellBack_iff.2 hback), store_of_not_mem _ _ (hquick hback), hstore]
  · rw [synchronize_of_not_fellBack fun hback' ↦ hback (h.fellBack_iff.1 hback'), hstore]

/-- To synchronise a pair once more changes nothing. -/
theorem Fits.synchronize_synchronize (h : record.Fits original size) :
    record.synchronize original (record.synchronize original m) = record.synchronize original m := by
  have hclass : record.withDeclaringClass original (record.synchronize original m) =
      record.synchronize original m := by
    rw [withDeclaringClass, h.load_original, ← h.load_replacement]
    exact store_load_self _ _ 4
  by_cases hback : record.FellBack original (record.synchronize original m)
  · have hback' : record.FellBack original m := by
      by_contra hnot
      have hword : (record.synchronize original m).word (record.originalQuickCode original) =
          m.word (record.originalQuickCode original) := by
        apply word_congr_of_eqOn
        intro b hb
        apply h.synchronize_of_not_mem (Set.disjoint_right.1 h.replacement_quickCode hb)
        exact fun hback' ↦ absurd hback' hnot
      rw [FellBack, hword] at hback
      exact hnot hback
    rw [synchronize_of_fellBack (hclass.symm ▸ hback), hclass, ← h.word_quickCode hback', word_toNat]
    exact store_load_self _ _ 8
  · rw [synchronize_of_not_fellBack (hclass.symm ▸ hback), hclass]

end ArtReplacementRecord

/-! ## All pairs -/

namespace ArtReplacementMappings

variable (mappings : ArtReplacementMappings)

/-- Pairwise disjoint blocks, of a size for each pair. -/
structure Separated (size : BitVec 64 → Nat) : Prop where
  fits : ∀ original record, mappings.methods original = some record →
    record.Fits original (size original)
  disjoint : ∀ original record original' record', original ≠ original' →
    mappings.methods original = some record → mappings.methods original' = some record' →
    Disjoint (block original (size original) ∪ block record.replacement (size original))
      (block original' (size original') ∪ block record'.replacement (size original'))

/-- `order` gives each registered method once. -/
structure Enumerates (order : List (BitVec 64)) : Prop where
  nodup : order.Nodup
  mem_iff : ∀ original, original ∈ order ↔ (mappings.methods original).isSome = true

/-- The updates of the registered pairs, in an order. -/
def updates (order : List (BitVec 64)) : List (Update (BitVec 64) (BitVec 8)) :=
  order.filterMap fun original ↦ (mappings.methods original).map (·.update original)

/-- The declaring classes agree, originals that fell back have the bridge, and nothing else has
changed. -/
structure Synchronized (m m' : ByteMemory) : Prop where
  declaringClass : ∀ original record, mappings.methods original = some record →
    m'.load record.replacement 4 = m'.load original 4
  quickCode : ∀ original record, mappings.methods original = some record →
    record.FellBack original m → m'.word (record.originalQuickCode original) =
      record.synchronization.quickToInterpreterBridge
  frame : ∀ b, (∀ original record, mappings.methods original = some record →
    b ∉ block record.replacement 4 ∧
      (record.FellBack original m → b ∉ block (record.originalQuickCode original) 8)) → m' b = m b

variable {mappings} {order order' : List (BitVec 64)} {size : BitVec 64 → Nat} {m : ByteMemory}

/-- **The loop** is a batch of updates. -/
theorem synchronizeReplacementMethods_eq_runAll :
    mappings.synchronizeReplacementMethods order m = Update.runAll (mappings.updates order) m := by
  rw [synchronizeReplacementMethods, Update.runAll, updates, List.foldl_filterMap]
  congr 1
  funext m original
  cases mappings.methods original <;> rfl

theorem mem_updates {u : Update (BitVec 64) (BitVec 8)} :
    u ∈ mappings.updates order ↔
      ∃ original ∈ order, ∃ record, mappings.methods original = some record ∧
        u = record.update original := by
  rw [updates, List.mem_filterMap]
  apply exists_congr
  intro original
  rw [Option.map_eq_some_iff]
  apply and_congr_right
  intro _
  apply exists_congr
  intro record
  rw [eq_comm (a := u)]

theorem Enumerates.mem_updates_iff (ho : mappings.Enumerates order)
    {u : Update (BitVec 64) (BitVec 8)} :
    u ∈ mappings.updates order ↔
      ∃ original record, mappings.methods original = some record ∧ u = record.update original := by
  rw [mem_updates]
  constructor
  · rintro ⟨original, -, record, hrecord, hu⟩
    exact ⟨original, record, hrecord, hu⟩
  · rintro ⟨original, record, hrecord, hu⟩
    exact ⟨original, (ho.mem_iff original).2 (hrecord ▸ rfl), record, hrecord, hu⟩

/-- The bytes that a pair touches are in its blocks. -/
theorem Separated.footprint_subset (h : mappings.Separated size) {original : BitVec 64}
    {record : ArtReplacementRecord} (hrecord : mappings.methods original = some record) :
    (record.update original).writes ∪ (record.update original).reads ⊆
      block original (size original) ∪ block record.replacement (size original) := by
  have hfits := h.fits original record hrecord
  have hquick := hfits.quickCode_subset
  rintro b ((hb | hb) | (hb | hb))
  · exact .inr (block_subset_block _ hfits.four_le_size hb)
  · exact .inl (hquick hb)
  · exact .inl (block_subset_block _ hfits.four_le_size hb)
  · exact .inl (hquick hb)

theorem Separated.apart (h : mappings.Separated size) {original original' : BitVec 64}
    {record record' : ArtReplacementRecord} (hne : original ≠ original')
    (hrecord : mappings.methods original = some record)
    (hrecord' : mappings.methods original' = some record') :
    Update.Apart (record.update original) (record'.update original') := by
  have hdisjoint := (h.disjoint original record original' record' hne hrecord hrecord').mono
    (h.footprint_subset hrecord) (h.footprint_subset hrecord')
  exact ⟨hdisjoint.mono Set.subset_union_left Set.subset_union_left,
    hdisjoint.mono Set.subset_union_left Set.subset_union_right,
    hdisjoint.symm.mono Set.subset_union_left Set.subset_union_right⟩

theorem Separated.pairwise_apart (h : mappings.Separated size) (ho : order.Nodup) :
    (mappings.updates order).Pairwise Update.Apart := by
  rw [updates, List.pairwise_filterMap]
  apply ho.imp
  intro original original' hne u hu v hv
  obtain ⟨record, hrecord, rfl⟩ := Option.map_eq_some_iff.1 hu
  obtain ⟨record', hrecord', rfl⟩ := Option.map_eq_some_iff.1 hv
  exact h.apart hne hrecord hrecord'

/-- A pair is synchronised as if it were the only one. -/
theorem Separated.eqOn_footprint (h : mappings.Separated size) (ho : mappings.Enumerates order)
    {original : BitVec 64} {record : ArtReplacementRecord}
    (hrecord : mappings.methods original = some record) :
    Set.EqOn (mappings.synchronizeReplacementMethods order m) (record.synchronize original m)
      ((record.update original).writes ∪ (record.update original).reads) := by
  have hmem : record.update original ∈ mappings.updates order :=
    ho.mem_updates_iff.2 ⟨original, record, hrecord, rfl⟩
  have hapart := h.pairwise_apart ho.nodup
  rw [synchronizeReplacementMethods_eq_runAll]
  rintro b (hb | hb)
  · exact Update.runAll_of_mem hapart hmem hb
  · exact Update.runAll_eqOn hapart hmem hb

theorem Separated.synchronized (h : mappings.Separated size) (ho : mappings.Enumerates order) :
    mappings.Synchronized m (mappings.synchronizeReplacementMethods order m) where
  declaringClass := by
    intro original record hrecord
    have hfits := h.fits original record hrecord
    have heq := h.eqOn_footprint ho hrecord (m := m)
    have hclone : Set.EqOn _ _ (block record.replacement 4) := heq.mono fun _ hb ↦ .inl (.inl hb)
    have horiginal : Set.EqOn _ _ (block original 4) := heq.mono fun _ hb ↦ .inr (.inl hb)
    rw [load_congr_of_eqOn (by decide) hclone, load_congr_of_eqOn (by decide) horiginal,
      hfits.load_replacement, hfits.load_original]
  quickCode := by
    intro original record hrecord hback
    have heq := h.eqOn_footprint ho hrecord (m := m)
    rw [word_congr_of_eqOn (heq.mono fun _ hb ↦ .inl (.inr hb))]
    exact (h.fits original record hrecord).word_quickCode hback
  frame := by
    intro b hb
    by_cases hmem : ∃ u ∈ mappings.updates order, b ∈ u.writes
    · obtain ⟨u, hu, hwrites⟩ := hmem
      obtain ⟨original, record, hrecord, rfl⟩ := ho.mem_updates_iff.1 hu
      obtain ⟨hclass, hquick⟩ := hb original record hrecord
      rw [h.eqOn_footprint ho hrecord (.inl hwrites)]
      exact (h.fits original record hrecord).synchronize_of_not_mem hclass hquick
    · push Not at hmem
      rw [synchronizeReplacementMethods_eq_runAll]
      exact Update.runAll_of_not_mem hmem

theorem Separated.synchronize_perm (h : mappings.Separated size) (ho : mappings.Enumerates order)
    (ho' : mappings.Enumerates order') :
    mappings.synchronizeReplacementMethods order' m =
      mappings.synchronizeReplacementMethods order m := by
  have hperm : order.Perm order' := by
    rw [List.perm_ext_iff_of_nodup ho.nodup ho'.nodup]
    intro original
    rw [ho.mem_iff, ho'.mem_iff]
  rw [synchronizeReplacementMethods_eq_runAll, synchronizeReplacementMethods_eq_runAll]
  exact (Update.runAll_perm (h.pairwise_apart ho.nodup) (hperm.filterMap _)).symm

theorem Separated.synchronize_synchronize (h : mappings.Separated size)
    (ho : mappings.Enumerates order) :
    mappings.synchronizeReplacementMethods order (mappings.synchronizeReplacementMethods order m) =
      mappings.synchronizeReplacementMethods order m := by
  simp only [synchronizeReplacementMethods_eq_runAll]
  apply Update.runAll_runAll (h.pairwise_apart ho.nodup)
  intro u hu m
  obtain ⟨original, record, hrecord, rfl⟩ := ho.mem_updates_iff.1 hu
  exact (h.fits original record hrecord).synchronize_synchronize

/-- **A synchronisation** changes the declaring classes of the clones and the entrypoints that fell
back and nothing else, in whatever order the map gives the pairs, and a second one changes
nothing. -/
theorem synchronizeReplacementMethods_lawful (mappings : ArtReplacementMappings)
    (size : BitVec 64 → Nat) (h : mappings.Separated size) (order : List (BitVec 64))
    (ho : mappings.Enumerates order) (m : ByteMemory) :
    mappings.Synchronized m (mappings.synchronizeReplacementMethods order m) ∧
      (∀ order', mappings.Enumerates order' → mappings.synchronizeReplacementMethods order' m =
        mappings.synchronizeReplacementMethods order m) ∧
      ∀ order', mappings.Enumerates order' →
        mappings.synchronizeReplacementMethods order'
            (mappings.synchronizeReplacementMethods order m) =
          mappings.synchronizeReplacementMethods order m := by
  refine ⟨h.synchronized ho, fun order' ho' ↦ h.synchronize_perm ho ho', ?_⟩
  intro order' ho'
  rw [h.synchronize_perm ho ho', h.synchronize_synchronize ho]

/-- Two replaced methods side by side, of 32 bytes, the first of which fell back to nterp. -/
def neighbouringPairs : ArtReplacementMappings :=
  let synchronization := ⟨24, 0, some 0x7000, 0x8000⟩
  (empty.insert 0x1000 ⟨0x2000, 0x6000, 0x6040, synchronization⟩).insert 0x1020
    ⟨0x3000, 0x6040, 0x6080, synchronization⟩

def fallenBack : ByteMemory :=
  ByteMemory.store (ByteMemory.store (fun _ ↦ 0) 0x1000 4 0x1234) 0x1018 8 0x7000

theorem methods_neighbouringPairs {original : BitVec 64} {record : ArtReplacementRecord}
    (h : neighbouringPairs.methods original = some record) :
    original = 0x1020 ∧ record = ⟨0x3000, 0x6040, 0x6080, ⟨24, 0, some 0x7000, 0x8000⟩⟩ ∨
      original = 0x1000 ∧ record = ⟨0x2000, 0x6000, 0x6040, ⟨24, 0, some 0x7000, 0x8000⟩⟩ := by
  change Function.update (Function.update _ _ _) _ _ original = _ at h
  by_cases hsecond : original = 0x1020
  · subst hsecond
    rw [Function.update_self] at h
    exact .inl ⟨rfl, (Option.some.inj h).symm⟩
  · rw [Function.update_of_ne hsecond] at h
    by_cases hfirst : original = 0x1000
    · subst hfirst
      rw [Function.update_self] at h
      exact .inr ⟨rfl, (Option.some.inj h).symm⟩
    · rw [Function.update_of_ne hfirst] at h
      cases h

theorem separated_neighbouringPairs : neighbouringPairs.Separated fun _ ↦ 32 where
  fits := by
    intro original record hrecord
    rcases methods_neighbouringPairs hrecord with ⟨rfl, rfl⟩ | ⟨rfl, rfl⟩
    · exact ⟨by decide, by decide, by decide, disjoint_block_of_le (by decide) (by decide)⟩
    · exact ⟨by decide, by decide, by decide, disjoint_block_of_le (by decide) (by decide)⟩
  disjoint := by
    have hboth : Disjoint (block 0x1000 32 ∪ block 0x2000 32) (block 0x1020 32 ∪ block 0x3000 32) := by
      rw [Set.disjoint_union_left, Set.disjoint_union_right, Set.disjoint_union_right]
      exact ⟨⟨disjoint_block_of_le (by decide) (by decide),
        disjoint_block_of_le (by decide) (by decide)⟩,
        (disjoint_block_of_le (by decide) (by decide)).symm,
        disjoint_block_of_le (by decide) (by decide)⟩
    intro original record original' record' hne hrecord hrecord'
    rcases methods_neighbouringPairs hrecord with ⟨rfl, rfl⟩ | ⟨rfl, rfl⟩
    · rcases methods_neighbouringPairs hrecord' with ⟨rfl, rfl⟩ | ⟨rfl, rfl⟩
      · exact absurd rfl hne
      · exact hboth.symm
    · rcases methods_neighbouringPairs hrecord' with ⟨rfl, rfl⟩ | ⟨rfl, rfl⟩
      · exact hboth
      · exact absurd rfl hne

theorem enumerates_neighbouringPairs : neighbouringPairs.Enumerates [0x1000, 0x1020] where
  nodup := by decide
  mem_iff := by
    intro original
    constructor
    · intro h
      rcases List.mem_pair.1 h with rfl | rfl
      · rfl
      · rfl
    · intro h
      obtain ⟨record, hrecord⟩ := Option.isSome_iff_exists.1 h
      rcases methods_neighbouringPairs hrecord with ⟨rfl, -⟩ | ⟨rfl, -⟩
      · exact List.mem_pair.2 (.inr rfl)
      · exact List.mem_pair.2 (.inl rfl)

/-- The first method has the bridge and its clone the declaring class, from either end. -/
theorem synchronizeReplacementMethods_lawful_neighbouringPairs :
    let synchronized := neighbouringPairs.synchronizeReplacementMethods [0x1000, 0x1020] fallenBack
    synchronized.load 0x2000 4 = 0x1234 ∧ synchronized.word 0x1018 = 0x8000 ∧
      neighbouringPairs.Synchronized fallenBack synchronized := by
  refine ⟨by decide +kernel, by decide +kernel, ?_⟩
  exact (synchronizeReplacementMethods_lawful _ _ separated_neighbouringPairs _
    enumerates_neighbouringPairs _).1

end ArtReplacementMappings
end JavaBridge.Art

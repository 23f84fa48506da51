import JavaBridge.Art.Replace

/-!
# What a replacement does

A replacement that succeeds has copied the method to a mapping of its own, filled a page with the
thunk, registered the pair and patched the fields of the method. Everything else that was mapped is
as it was.

Main results:

* `IsSnapshot.of_eqOn`: a snapshot depends on the bytes of the fields.
* `wp_cloneReplacementArtMethod_block`: a clone is made inside of its mapping.
* `wp_replaceMethod_replaced`: what a replacement has done to the world.
-/

namespace JavaBridge.Art

open ByteMemory (block)

/-! ## The bytes of the fields -/

/-- The bytes of the fields of a method. -/
def ArtMethodRuntimeLayout.fieldBytes (layout : ArtMethodRuntimeLayout) (method : BitVec 64) :
    Set (BitVec 64) :=
  {b | ∃ field ∈ layout.fields method, b ∈ block field.1 field.2}

variable {θ : Type} {method : BitVec 64} {layout : ArtMethodRuntimeLayout}
  {original patched snapshot : ArtMethodSnapshot} {memory : MemoryRanges} {m m' : ByteMemory}

theorem readUsize_of_eqOn {pointer : BitVec 64}
    (h : Set.EqOn m' m (block (normalizeAddress pointer) 8)) :
    readUsize pointer memory m' = readUsize pointer memory m := by
  rw [readUsize, readUsize]
  rw [ByteMemory.word_congr_of_eqOn h]

theorem readU32_of_eqOn {pointer : BitVec 64}
    (h : Set.EqOn m' m (block (normalizeAddress pointer) 4)) :
    readU32 pointer memory m' = readU32 pointer memory m := by
  rw [readU32, readU32]
  rw [ByteMemory.load_congr_of_eqOn (by decide) h]

theorem ArtMethodRuntimeLayout.block_subset_fieldBytes {address : BitVec 64} {n : Nat}
    (h : (address, n) ∈ layout.fields method) : block address n ⊆ layout.fieldBytes method :=
  fun _ hb ↦ ⟨(address, n), h, hb⟩

theorem ArtMethodRuntimeLayout.accessFlags_mem_fields (method : BitVec 64) :
    (normalizeAddress (method + layout.accessFlagsOffset), 4) ∈ layout.fields method := by
  simp [ArtMethodRuntimeLayout.fields]

theorem ArtMethodRuntimeLayout.jniCode_mem_fields (method : BitVec 64) :
    (normalizeAddress (method + layout.jniCodeOffset), 8) ∈ layout.fields method := by
  simp [ArtMethodRuntimeLayout.fields]

theorem ArtMethodRuntimeLayout.quickCode_mem_fields (method : BitVec 64) :
    (normalizeAddress (method + layout.quickCodeOffset), 8) ∈ layout.fields method := by
  simp [ArtMethodRuntimeLayout.fields]

theorem ArtMethodRuntimeLayout.interpreterCode_mem_fields (method : BitVec 64) {offset : BitVec 64}
    (h : layout.interpreterCodeOffset = some offset) :
    (normalizeAddress (method + offset), 8) ∈ layout.fields method := by
  simp [ArtMethodRuntimeLayout.fields, h]

/-- A snapshot depends on the bytes of the fields only. -/
theorem IsSnapshot.of_eqOn (hs : IsSnapshot method layout memory m snapshot)
    (h : Set.EqOn m' m (layout.fieldBytes method)) :
    IsSnapshot method layout memory m' snapshot where
  method_ne := hs.method_ne
  contains := hs.contains
  accessFlags := by
    rw [readU32_of_eqOn (h.mono (layout.block_subset_fieldBytes (layout.accessFlags_mem_fields _)))]
    exact hs.accessFlags
  jniCode := by
    rw [readUsize_of_eqOn (h.mono (layout.block_subset_fieldBytes (layout.jniCode_mem_fields _)))]
    exact hs.jniCode
  quickCode := by
    rw [readUsize_of_eqOn (h.mono (layout.block_subset_fieldBytes (layout.quickCode_mem_fields _)))]
    exact hs.quickCode
  interpreterCode := by
    rw [← hs.interpreterCode]
    apply Option.map_congr
    intro offset hoffset
    apply readUsize_of_eqOn
    exact h.mono (layout.block_subset_fieldBytes (layout.interpreterCode_mem_fields _ hoffset))

theorem IsSnapshot.fieldBytes_subset (hs : IsSnapshot method layout memory m snapshot) :
    layout.fieldBytes method ⊆ {b | memory.Covers b} := by
  rintro b ⟨field, hfield, hb⟩
  exact hs.covers hfield hb

theorem patchArtMethod_eqOn_compl :
    Set.EqOn (patchArtMethod method layout patched m) m (layout.fieldBytes method)ᶜ := by
  intro b hb
  apply patchArtMethod_of_apart
  intro field hfield
  exact Nat.not_lt.mp fun hlt ↦ hb ⟨field, hfield, hlt⟩

/-- To patch with a snapshot puts the bytes of the fields back. -/
theorem patchArtMethod_eqOn_fieldBytes {m₀ : ByteMemory}
    (hs : IsSnapshot method layout memory m₀ original) :
    Set.EqOn (patchArtMethod method layout original m) m₀ (layout.fieldBytes method) := by
  intro b hb
  rw [patchArtMethod_snapshot hs]
  exact ByteMemory.writeBack_of_mem hb

/-! ## A clone -/

/-- A verified patch that succeeds can be read back. -/
theorem wp_patchArtMethodVerified_snapshot (original patched : ArtMethodSnapshot)
    (memory : MemoryRanges) :
    Fallible.wp (patchArtMethodVerified (θ := θ) method layout original patched memory)
      (fun _ m' ↦ m' = patchArtMethod method layout patched m ∧
        IsSnapshot method layout memory m' patched) (fun _ _ ↦ True) m := by
  rw [patchArtMethodVerified]
  simp only [Fallible.wp_bind, Fallible.wp_modify, Fallible.wp_get]
  split
  · next snapshot hsnapshot =>
    split
    · next heq =>
      rw [Fallible.wp_pure]
      rw [heq] at hsnapshot
      exact ⟨rfl, isSnapshot_of_snapshotArtMethod hsnapshot⟩
    · trivial
  · trivial

theorem copyNonoverlapping_eqOn_compl (source target : BitVec 64) (length : Nat) :
    Set.EqOn (copyNonoverlapping source target length m) m (block target length)ᶜ :=
  fun _ hb ↦ if_neg hb

variable {mapping : Option (Mapping memory layout.methodSize.toNat)}

/-- A clone is made inside of its mapping, and has the patched fields. -/
theorem wp_cloneReplacementArtMethod_block :
    Fallible.wp (cloneReplacementArtMethod (θ := θ) method layout original patched memory mapping)
      (fun clone m' ↦ ∃ place : Mapping memory layout.methodSize.toNat, mapping = some place ∧
        clone = ⟨place.start, layout.methodSize⟩ ∧
        Set.EqOn m' m (block place.start layout.methodSize.toNat)ᶜ ∧
        IsSnapshot clone.method layout clone.memoryRanges m' patched)
      (fun _ _ ↦ True) m := by
  unfold cloneReplacementArtMethod ArtMethodClone.copyFrom
  simp only [Fallible.wp_bind, Fallible.wp_ite, Fallible.wp_throw]
  refine ⟨fun _ ↦ trivial, fun _ ↦ ⟨fun _ ↦ trivial, fun _ ↦ ?_⟩⟩
  cases mapping with
  | none => trivial
  | some place =>
    simp only [Fallible.wp_bind, Fallible.wp_ite, Fallible.wp_throw, Fallible.wp_modify,
      Fallible.wp_pure, Fallible.wp_get]
    refine ⟨fun _ ↦ trivial, fun _ ↦ ?_⟩
    split
    · next snapshot hsnapshot =>
      have hs := isSnapshot_of_snapshotArtMethod hsnapshot
      simp only [Fallible.wp_bind, Fallible.wp_ite, Fallible.wp_throw]
      refine ⟨fun _ ↦ trivial, fun _ ↦ ?_⟩
      refine Fallible.wp_mono (wp_patchArtMethodVerified_snapshot _ _ _) ?_ fun _ _ _ ↦ trivial
      rintro _ m' ⟨rfl, hpatched⟩
      refine ⟨place, rfl, rfl, ?_, hpatched⟩
      -- the fields of the clone lie in its mapping
      have hsubset : layout.fieldBytes place.start ⊆ block place.start layout.methodSize.toNat := by
        intro b hb
        apply place.lt_of_covers
        rw [Mapping.memoryRanges, BitVec.ofNat_toNat, BitVec.setWidth_eq]
        exact hs.fieldBytes_subset hb
      intro b hb
      exact (patchArtMethod_eqOn_compl fun hfield ↦ hb (hsubset hfield)).trans
        (copyNonoverlapping_eqOn_compl _ _ _ hb)
    · trivial

/-! ## A replacement -/

/-- The record of a pair in the registry. -/
def replacementRecord (layout : ArtMethodReplacementLayout) (clone dispatchThunk : BitVec 64) :
    ArtReplacementRecord :=
  .ofThunk clone dispatchThunk (BitVec.ofNat 64 thunkLength) {
    quickCodeOffset := layout.method.quickCodeOffset
    threadManagedStackOffset := layout.threadManagedStackOffset
    nterpEntrypoint := none
    quickToInterpreterBridge := layout.trampolines.quickToInterpreterBridgeTrampoline }

def clonePatched (layout : ArtMethodReplacementLayout) (original : ArtMethodSnapshot)
    (replacement : BitVec 64) : ArtMethodSnapshot :=
  patchedReplacementMethod original replacement layout.trampolines.quickGenericJniTrampoline
    (compileDontBotherFlag layout.apiLevel)

def originalPatched (layout : ArtMethodReplacementLayout) (original : ArtMethodSnapshot)
    (dispatchThunk : BitVec 64) : ArtMethodSnapshot :=
  patchedOriginalMethodForCloneDispatch original dispatchThunk
    (compileDontBotherFlag layout.apiLevel)

/-- What a replacement that succeeds has done to the world. -/
structure Replaced {memory : MemoryRanges} {layout : ArtMethodReplacementLayout}
    (env : ReplaceEnvironment θ memory layout) (replacement : BitVec 64) (w w' : World)
    (guard : ArtMethodReplacementGuard) : Prop where
  not_reverted : guard.reverted = false
  guard_layout : guard.layout = layout.method
  candidate : guard.method ∈ env.candidates
  original : IsSnapshot guard.method layout.method memory w.memory guard.original
  thunk : ∃ thunk : ArtMethodDispatchThunk, thunk.clonedMethod = guard.clonedMethod.method ∧
    thunk.originalDispatchCode = layout.trampolines.quickToInterpreterBridgeTrampoline ∧
    thunk.quickCodeOffset = layout.method.quickCodeOffset.toNat ∧
    thunk.threadManagedStackOffset = layout.threadManagedStackOffset.toNat
  registrable : w.mappings.Registrable guard.method guard.clonedMethod.method guard.dispatchThunk
    (BitVec.ofNat 64 thunkLength)
  mappings : w'.mappings = w.mappings.insert guard.method
    (replacementRecord layout guard.clonedMethod.method guard.dispatchThunk)
  /-- The clone, the page and the patch, one after the other. -/
  memory : ∃ (place : Mapping memory layout.method.methodSize.toNat) (page : ThunkPage memory)
      (m : ByteMemory),
    env.cloneMapping = some place ∧ guard.clonedMethod = ⟨place.start, layout.method.methodSize⟩ ∧
    env.thunkPage = .ok page ∧ guard.dispatchThunk = page.mapping.start ∧
    Set.EqOn m w.memory (block place.start layout.method.methodSize.toNat)ᶜ ∧
    IsSnapshot place.start layout.method guard.clonedMethod.memoryRanges m
      (clonePatched layout guard.original replacement) ∧
    IsSnapshot guard.method layout.method memory
      (patchArtMethod guard.method layout.method
        (originalPatched layout guard.original guard.dispatchThunk) (page.write m))
      (originalPatched layout guard.original guard.dispatchThunk) ∧
    w'.memory = w'.mappings.synchronizeReplacementMethods env.order
      (patchArtMethod guard.method layout.method
        (originalPatched layout guard.original guard.dispatchThunk) (page.write m))

section

variable {layout : ArtMethodReplacementLayout} {env : ReplaceEnvironment θ memory layout}
  {w : World}

theorem exists_of_new_eq_ok {clonedMethod originalDispatchCode : BitVec 64}
    {quickCodeOffset threadManagedStackOffset : Nat} {thunk : ArtMethodDispatchThunk}
    (h : ArtMethodDispatchThunk.new (θ := θ) clonedMethod originalDispatchCode quickCodeOffset
      threadManagedStackOffset = .ok thunk) :
    thunk.clonedMethod = clonedMethod ∧ thunk.originalDispatchCode = originalDispatchCode ∧
      thunk.quickCodeOffset = quickCodeOffset ∧
      thunk.threadManagedStackOffset = threadManagedStackOffset := by
  rw [ArtMethodDispatchThunk.new] at h
  iterate 7
    split at h
    · cases h
  cases h
  exact ⟨rfl, rfl, rfl, rfl⟩

theorem wp_replaceCandidate_replaced {replacement : BitVec 64}
    (hcandidate : method ∈ env.candidates)
    (hs : IsSnapshot method layout.method memory w.memory original) :
    Fallible.wp (replaceCandidate env replacement method original)
      (fun guard w' ↦ Replaced env replacement w w' guard) (fun _ _ ↦ True) w := by
  rw [replaceCandidate]
  simp only [Fallible.wp_bind, onMemory, onMappings, Fallible.wp_zoom]
  refine Fallible.wp_mono wp_cloneReplacementArtMethod_block ?_ fun _ _ _ ↦ trivial
  rintro clone m ⟨place, hplace, rfl, hblock, hclone⟩
  simp only [Fallible.wp_ofExcept]
  refine ⟨fun thunk hthunk ↦ ⟨fun page hpage ↦ ?_, fun _ _ ↦ trivial⟩, fun _ _ ↦ trivial⟩
  simp only [Fallible.wp_bind, Fallible.wp_modify, Fallible.wp_ite, Fallible.wp_throw,
    Fallible.wp_ofExcept, Fallible.wp_zoom, Fallible.wp_onError, Fallible.wp_pure]
  refine ⟨fun _ ↦ trivial, fun _ ↦ ⟨fun _ _ ↦ ?_, fun _ _ ↦ trivial⟩⟩
  refine Fallible.wp_mono ArtReplacementMappings.wp_register ?_ fun _ _ _ ↦ trivial
  rintro _ mappings ⟨hr, rfl⟩
  refine Fallible.wp_mono (wp_patchArtMethodVerified_snapshot _ _ _) ?_ fun _ _ _ ↦ trivial
  rintro _ m' ⟨rfl, hpatched⟩
  refine ⟨rfl, rfl, hcandidate, hs, ⟨thunk, exists_of_new_eq_ok hthunk⟩, hr, rfl, ?_⟩
  exact ⟨place, page, m, hplace, rfl, hpage, rfl, hblock, hclone, hpatched, rfl⟩

/-- **What a replacement has done to the world.** -/
theorem wp_replaceMethod_replaced (env : ReplaceEnvironment θ memory layout) (kind : MethodKind)
    (replacement : BitVec 64) (w : World) :
    Fallible.wp (replaceMethod env kind replacement)
      (fun guard w' ↦ Replaced env replacement w w' guard) (fun _ _ ↦ True) w := by
  have hcandidates (candidates : List (BitVec 64)) (hsubset : candidates ⊆ env.candidates)
      (sawReadable sawWrongKind : Bool) :
      Fallible.wp (replaceCandidates env kind replacement candidates sawReadable sawWrongKind)
        (fun guard w' ↦ Replaced env replacement w w' guard) (fun _ _ ↦ True) w := by
    induction candidates generalizing sawReadable sawWrongKind with
    | nil => trivial
    | cons method candidates ih =>
      obtain ⟨hmethod, hsubset⟩ := List.cons_subset.mp hsubset
      rw [replaceCandidates, Fallible.wp_bind, Fallible.wp_get]
      split
      · exact ih hsubset _ _
      · next original hsnapshot =>
        split
        · exact wp_replaceCandidate_replaced hmethod (isSnapshot_of_snapshotArtMethod hsnapshot)
        · exact ih hsubset _ _
  rw [replaceMethod]
  simp only [Fallible.wp_bind, Fallible.wp_ite, Fallible.wp_throw, Fallible.wp_ofExcept]
  refine ⟨fun _ ↦ trivial, fun _ ↦ ⟨fun _ _ ↦ ⟨fun _ _ ↦ ⟨fun _ _ ↦ ⟨fun _ _ ↦ ?_, ?_⟩, ?_⟩, ?_⟩,
    ?_⟩⟩
  · exact hcandidates _ (List.Subset.refl _) _ _
  all_goals exact fun _ _ ↦ trivial

end

/-! ## A reversal -/

/-- The world after the fields of the method are restored. -/
def ArtMethodReplacementGuard.restore (guard : ArtMethodReplacementGuard) (w : World) : World :=
  { w with memory := patchArtMethod guard.method guard.layout guard.original w.memory }

/-- A reversal restores the fields, unless it fails before that, and takes the pair out of the
registry, unless it fails at all. -/
theorem wp_revert_restores (guard : ArtMethodReplacementGuard) (w : World)
    (answer : Except (Error θ) MemoryRanges) :
    Fallible.wp (revert answer)
      (fun _ r ↦ guard.reverted = true ∧ r = (guard, w) ∨
        guard.reverted = false ∧ answer.isOk = true ∧
          r = ({ guard with reverted := true },
            { guard.restore w with mappings := w.mappings.unregister guard.method }))
      (fun _ r ↦ guard.reverted = false ∧
        r = (guard, if answer.isOk then guard.restore w else w))
      (guard, w) := by
  rw [revert]
  simp only [Fallible.wp_bind, Fallible.wp_get]
  by_cases hreverted : guard.reverted = false
  · rw [if_pos hreverted]
    simp only [Fallible.wp_bind, Fallible.wp_ofExcept, Fallible.wp_zoom, Fallible.wp_modify]
    refine ⟨fun memory hmemory ↦ ?_, fun _ herror ↦ ⟨hreverted, ?_⟩⟩
    · subst hmemory
      refine Fallible.wp_mono (wp_restoreArtMethodVerified _ rfl) ?_ ?_
      · rintro _ m rfl
        exact .inr ⟨hreverted, rfl, rfl⟩
      · rintro _ m rfl
        exact ⟨hreverted, rfl⟩
    · subst herror
      rfl
  · rw [if_neg hreverted]
    exact .inl ⟨Bool.not_eq_false _ ▸ hreverted, rfl⟩

end JavaBridge.Art

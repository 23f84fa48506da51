import JavaBridge.Art.MethodPatch
import JavaBridge.Art.Registry
import JavaBridge.Signature

/-!
# Replacing a method

`replace_method` clones the target, patches the clone, builds the dispatch thunk, registers the pair
and patches the target, and `revert` takes it back. The steps that other parts of the backend answer
for, and the mappings that the kernel gives, are an environment of the call.

Main results:

* `wp_cloneReplacementArtMethod`: to build a clone changes nothing that was mapped before.
* `wp_replaceMethod`: a replacement that fails leaves the mapped memory and the registry alone.
* `patch_atomic`: the law of patches, of replacements and of their reversal.
-/

namespace JavaBridge.Art

/-! ## Flags -/

def K_ACC_STATIC : BitVec 32 := 0x0008
def K_ACC_NATIVE : BitVec 32 := 0x0100
def K_ACC_FAST_NATIVE : BitVec 32 := 0x00080000
def K_ACC_CRITICAL_NATIVE : BitVec 32 := 0x00200000
def K_ACC_CONSTRUCTOR : BitVec 32 := 0x00010000
def K_ACC_FAST_INTERPRETER_TO_INTERPRETER_INVOKE : BitVec 32 := 0x40000000
def K_ACC_NTERP_ENTRY_POINT_FAST_PATH_FLAG : BitVec 32 := 0x00100000
def K_ACC_NTERP_INVOKE_FAST_PATH_FLAG : BitVec 32 := 0x00200000
def K_ACC_SKIP_ACCESS_CHECKS : BitVec 32 := 0x00080000
def K_ACC_SINGLE_IMPLEMENTATION : BitVec 32 := 0x08000000

def compileDontBotherFlag (apiLevel : Int) : BitVec 32 :=
  if 27 ≤ apiLevel then 0x02000000 else if 24 ≤ apiLevel then 0x01000000 else 0

def artMethodKindMatches (snapshot : ArtMethodSnapshot) : MethodKind → Bool
  | .staticMethod => snapshot.accessFlags &&& K_ACC_STATIC ≠ 0
  | .instanceMethod => snapshot.accessFlags &&& (K_ACC_STATIC ||| K_ACC_CONSTRUCTOR) = 0
  | .constructor => snapshot.accessFlags &&& K_ACC_CONSTRUCTOR ≠ 0

def patchedReplacementMethod (original : ArtMethodSnapshot)
    (replacement quickGenericJniTrampoline : BitVec 64) (compileDontBother : BitVec 32) :
    ArtMethodSnapshot :=
  let removedFlags := K_ACC_CRITICAL_NATIVE ||| K_ACC_FAST_NATIVE |||
    K_ACC_NTERP_ENTRY_POINT_FAST_PATH_FLAG ||| K_ACC_NTERP_INVOKE_FAST_PATH_FLAG |||
    K_ACC_FAST_INTERPRETER_TO_INTERPRETER_INVOKE ||| K_ACC_SINGLE_IMPLEMENTATION |||
    K_ACC_SKIP_ACCESS_CHECKS
  { accessFlags := original.accessFlags &&& ~~~removedFlags ||| K_ACC_NATIVE ||| compileDontBother
    jniCode := replacement
    quickCode := quickGenericJniTrampoline
    interpreterCode := original.interpreterCode }

def patchedOriginalMethodForCloneDispatch (original : ArtMethodSnapshot)
    (quickToInterpreterBridgeTrampoline : BitVec 64) (compileDontBother : BitVec 32) :
    ArtMethodSnapshot :=
  let removedFlags := K_ACC_FAST_INTERPRETER_TO_INTERPRETER_INVOKE |||
    K_ACC_NTERP_ENTRY_POINT_FAST_PATH_FLAG ||| K_ACC_NTERP_INVOKE_FAST_PATH_FLAG |||
    K_ACC_SINGLE_IMPLEMENTATION ||| K_ACC_SKIP_ACCESS_CHECKS
  { accessFlags := original.accessFlags &&& ~~~removedFlags ||| compileDontBother
    jniCode := original.jniCode
    quickCode := quickToInterpreterBridgeTrampoline
    interpreterCode := original.interpreterCode }

/-! ## Clones -/

structure ArtMethodClone where
  method : BitVec 64
  length : BitVec 64

def ArtMethodClone.memoryRanges (clone : ArtMethodClone) : MemoryRanges where
  ranges := [⟨clone.method, clone.method + clone.length, false, false⟩]

/-- `ptr::copy_nonoverlapping`. -/
def copyNonoverlapping (source target : BitVec 64) (length : Nat) (m : ByteMemory) : ByteMemory :=
  fun a ↦ if (a - target).toNat < length then m (source + (a - target)) else m a

section

variable {θ : Type}

/-- `mapping` is what `mmap` gives, where it does not fail. -/
def ArtMethodClone.copyFrom (method : BitVec 64) (layout : ArtMethodRuntimeLayout)
    (memory : MemoryRanges) (mapping : Option (Mapping memory layout.methodSize.toNat)) :
    EStateM (Error θ) ByteMemory ArtMethodClone := do
  if method = 0 ∨ memory.contains method layout.methodSize.toNat = false then
    throw (.unsupportedFeature FEATURE_METHOD_REPLACEMENT
      "target ArtMethod is not readable for cloning")
  if layout.methodSize = 0 then
    throw (.unsupportedFeature FEATURE_METHOD_REPLACEMENT "target ArtMethod clone size is zero")
  match mapping with
  | none =>
    throw (.unsupportedFeature FEATURE_METHOD_REPLACEMENT "unable to allocate cloned ArtMethod")
  | some mapping =>
    modify (copyNonoverlapping method mapping.start layout.methodSize.toNat)
    if mapping.start = 0 then throw (.nullReturn "mmap")
    pure ⟨mapping.start, layout.methodSize⟩

def cloneReplacementArtMethod (method : BitVec 64) (layout : ArtMethodRuntimeLayout)
    (original patched : ArtMethodSnapshot) (memory : MemoryRanges)
    (mapping : Option (Mapping memory layout.methodSize.toNat)) :
    EStateM (Error θ) ByteMemory ArtMethodClone := do
  let clonedMethod ← ArtMethodClone.copyFrom method layout memory mapping
  let cloneMemory := clonedMethod.memoryRanges
  match snapshotArtMethod clonedMethod.method layout cloneMemory (← get) with
  | .ok snapshot =>
    if snapshot ≠ original then
      throw (.unsupportedFeature FEATURE_METHOD_REPLACEMENT
        ("cloned ArtMethod snapshot mismatch: expected " ++ original.debug ++ ", got " ++
          snapshot.debug))
    patchArtMethodVerified clonedMethod.method layout original patched cloneMemory
    pure clonedMethod
  | .error error => throw error

end

/-! ## What a clone changes -/

section

variable {θ : Type} {method : BitVec 64} {layout : ArtMethodRuntimeLayout}
  {original patched : ArtMethodSnapshot} {memory : MemoryRanges} {m : ByteMemory}
  {mapping : Option (Mapping memory layout.methodSize.toNat)}

theorem sameMapped_copyNonoverlapping (source : BitVec 64) {length : Nat}
    (mapping : Mapping memory length) :
    SameMapped memory m (copyNonoverlapping source mapping.start length m) :=
  fun a ha ↦ if_neg (Nat.not_lt.2 (mapping.not_covers a ha))

theorem wp_copyFrom :
    Fallible.wp (ArtMethodClone.copyFrom (θ := θ) method layout memory mapping)
      (fun clone m' ↦ SameMapped memory m m' ∧
        ∃ mapping : Mapping memory layout.methodSize.toNat,
          clone.memoryRanges = mapping.memoryRanges)
      (fun _ m' ↦ SameMapped memory m m') m := by
  unfold ArtMethodClone.copyFrom
  simp only [Fallible.wp_bind, Fallible.wp_ite, Fallible.wp_throw]
  refine ⟨fun _ a _ ↦ rfl, fun _ ↦ ⟨fun _ a _ ↦ rfl, fun _ ↦ ?_⟩⟩
  cases mapping with
  | none => exact fun a _ ↦ rfl
  | some mapping =>
    have hsame : SameMapped memory m
        (copyNonoverlapping method mapping.start layout.methodSize.toNat m) :=
      sameMapped_copyNonoverlapping method mapping
    simp only [Fallible.wp_bind, Fallible.wp_ite, Fallible.wp_throw, Fallible.wp_modify,
      Fallible.wp_pure]
    refine ⟨fun _ ↦ hsame, fun _ ↦ ⟨hsame, mapping, ?_⟩⟩
    rw [ArtMethodClone.memoryRanges, Mapping.memoryRanges, BitVec.ofNat_toNat, BitVec.setWidth_eq]

/-- To build a clone changes nothing that was mapped before. -/
theorem wp_cloneReplacementArtMethod :
    Fallible.wp (cloneReplacementArtMethod (θ := θ) method layout original patched memory mapping)
      (fun _ m' ↦ SameMapped memory m m') (fun _ m' ↦ SameMapped memory m m') m := by
  rw [cloneReplacementArtMethod, Fallible.wp_bind]
  refine Fallible.wp_mono wp_copyFrom ?_ fun _ _ h ↦ h
  rintro clone m₁ ⟨hsame, mapping, hranges⟩
  rw [Fallible.wp_bind, Fallible.wp_get]
  split
  · next snapshot hsnapshot =>
    have hs := isSnapshot_of_snapshotArtMethod hsnapshot
    simp only [Fallible.wp_bind, Fallible.wp_ite, Fallible.wp_throw]
    refine ⟨fun _ ↦ hsame, fun _ ↦ ?_⟩
    -- the fields of the clone lie in its mapping, and the mapping is apart from what was mapped
    have hapart : ∀ a, memory.Covers a → ∀ field ∈ layout.fields clone.method,
        field.2 ≤ (a - field.1).toNat := by
      intro a ha field hfield
      by_contra hlt
      have hcovers := hs.covers hfield (Nat.not_le.1 hlt)
      rw [hranges] at hcovers
      exact absurd (mapping.lt_of_covers hcovers) (Nat.not_lt.2 (mapping.not_covers a ha))
    exact Fallible.wp_mono (wp_patchArtMethodVerified_of_apart hapart) (fun _ _ h ↦ hsame.trans h)
      fun _ _ h ↦ hsame.trans h
  · exact hsame

end

/-! ## Replacements -/

/-- The memory of the process and the registry. -/
structure World where
  memory : ByteMemory
  mappings : ArtReplacementMappings

structure ArtClassLinkerTrampolines where
  quickResolutionTrampoline : BitVec 64
  quickGenericJniTrampoline : BitVec 64
  quickToInterpreterBridgeTrampoline : BitVec 64

structure ArtMethodReplacementLayout where
  apiLevel : Int
  method : ArtMethodRuntimeLayout
  trampolines : ArtClassLinkerTrampolines
  threadManagedStackOffset : BitVec 64

/-- The length of a dispatch thunk's page. -/
def thunkLength : Nat := 4096

/-- A page for a dispatch thunk and the bytes that the writer put there. -/
structure ThunkPage (memory : MemoryRanges) where
  mapping : Mapping memory thunkLength
  code : Nat → BitVec 8

/-- The thunk's bytes in its page. -/
def ThunkPage.write {memory : MemoryRanges} (page : ThunkPage memory) (m : ByteMemory) :
    ByteMemory := fun a ↦
  if (a - page.mapping.start).toNat < thunkLength then page.code (a - page.mapping.start).toNat
  else m a

/-- What a call of `replace_method` is answered by the rest of the backend and by the kernel. -/
structure ReplaceEnvironment (θ : Type) (memory : MemoryRanges)
    (layout : ArtMethodReplacementLayout) where
  /-- The thread and the mappings. -/
  attached : Except (Error θ) Unit
  /-- The API level, the layout and the hooks. -/
  prerequisites : Except (Error θ) Unit
  /-- The transition to a runnable thread, which fails before the candidates are looked at. -/
  transition : Except (Error θ) Unit
  /-- What `art_method_from_jni_id` gives. -/
  candidates : List (BitVec 64)
  cloneMapping : Option (Mapping memory layout.method.methodSize.toNat)
  /-- The page of a dispatch thunk that was written and protected. -/
  thunkPage : Except (Error θ) (ThunkPage memory)
  suspended : Except (Error θ) Unit
  /-- The order in which the registry's map gives its methods. -/
  order : List (BitVec 64)

structure ArtMethodReplacementGuard where
  method : BitVec 64
  clonedMethod : ArtMethodClone
  dispatchThunk : BitVec 64
  layout : ArtMethodRuntimeLayout
  original : ArtMethodSnapshot
  reverted : Bool

section

variable {θ : Type} {memory : MemoryRanges} {layout : ArtMethodReplacementLayout}
  (env : ReplaceEnvironment θ memory layout)

/-- Runs a function of the memory. -/
def onMemory {α : Type} (x : EStateM (Error θ) ByteMemory α) : EStateM (Error θ) World α :=
  Fallible.zoom World.memory (fun m w ↦ { w with memory := m }) x

/-- Runs a function of the registry. -/
def onMappings {α : Type} (x : EStateM (Error θ) ArtReplacementMappings α) :
    EStateM (Error θ) World α :=
  Fallible.zoom World.mappings (fun mappings w ↦ { w with mappings := mappings }) x

def validateReplacementFunction (replacement : BitVec 64) (memory : MemoryRanges) :
    Except (Error θ) Unit := do
  if replacement = 0 then throw (.nullReturn "ART replacement function")
  if memory.containsExecutable replacement 1 = false then
    throw (.unsupportedFeature FEATURE_METHOD_REPLACEMENT "replacement function is not executable")

/-- The body of the candidate loop, for the candidate that is taken. -/
def replaceCandidate (replacement method : BitVec 64) (original : ArtMethodSnapshot) :
    EStateM (Error θ) World ArtMethodReplacementGuard := do
  let compileDontBother := compileDontBotherFlag layout.apiLevel
  let clonePatched := patchedReplacementMethod original replacement
    layout.trampolines.quickGenericJniTrampoline compileDontBother
  let clonedMethod ← onMemory
    (cloneReplacementArtMethod method layout.method original clonePatched memory env.cloneMapping)
  let _ ← MonadExcept.ofExcept (ArtMethodDispatchThunk.new clonedMethod.method
    layout.trampolines.quickToInterpreterBridgeTrampoline layout.method.quickCodeOffset.toNat
    layout.threadManagedStackOffset.toNat)
  let page ← MonadExcept.ofExcept env.thunkPage
  modify fun w ↦ { w with memory := page.write w.memory }
  if page.mapping.start = 0 then throw (.nullReturn "mmap")
  let originalPatched :=
    patchedOriginalMethodForCloneDispatch original page.mapping.start compileDontBother
  MonadExcept.ofExcept env.suspended
  onMappings (ArtReplacementMappings.register method clonedMethod.method page.mapping.start
    (BitVec.ofNat 64 thunkLength) {
      quickCodeOffset := layout.method.quickCodeOffset
      threadManagedStackOffset := layout.threadManagedStackOffset
      nterpEntrypoint := none
      quickToInterpreterBridge := layout.trampolines.quickToInterpreterBridgeTrampoline })
  Fallible.onError (fun w ↦ { w with mappings := w.mappings.unregister method })
    (onMemory (patchArtMethodVerified method layout.method original originalPatched memory))
  modify fun w ↦ { w with
    memory := w.mappings.synchronizeReplacementMethods env.order w.memory }
  pure {
    method, clonedMethod, original
    dispatchThunk := page.mapping.start
    layout := layout.method
    reverted := false }

/-- The candidate loop. -/
def replaceCandidates (kind : MethodKind) (replacement : BitVec 64) :
    List (BitVec 64) → Bool → Bool → EStateM (Error θ) World ArtMethodReplacementGuard
  | [], sawReadableCandidate, sawWrongKindCandidate =>
    throw (.unsupportedFeature FEATURE_METHOD_REPLACEMENT
      (if sawWrongKindCandidate then
        match kind with
        | .staticMethod => "resolved target ArtMethod is not static"
        | .instanceMethod => "resolved target ArtMethod is static"
        | .constructor => "resolved target ArtMethod is a constructor"
      else if sawReadableCandidate then
        match kind with
        | .staticMethod => "unable to resolve a static target ArtMethod from JNI method ID"
        | .instanceMethod => "unable to resolve an instance target ArtMethod from JNI method ID"
        | .constructor => "unable to resolve a constructor target ArtMethod from JNI method ID"
      else "unable to resolve target ArtMethod from JNI method ID: no readable candidates"))
  | method :: candidates, sawReadableCandidate, sawWrongKindCandidate => do
    let w ← get
    match snapshotArtMethod (θ := θ) method layout.method memory w.memory with
    | .error _ =>
      replaceCandidates kind replacement candidates sawReadableCandidate sawWrongKindCandidate
    | .ok original =>
      if artMethodKindMatches original kind then replaceCandidate env replacement method original
      else replaceCandidates kind replacement candidates true true

def replaceMethod (kind : MethodKind) (replacement : BitVec 64) :
    EStateM (Error θ) World ArtMethodReplacementGuard := do
  if replacement = 0 then throw (.nullReturn "ART replacement function")
  MonadExcept.ofExcept env.attached
  MonadExcept.ofExcept (validateReplacementFunction replacement memory)
  MonadExcept.ofExcept env.prerequisites
  MonadExcept.ofExcept env.transition
  replaceCandidates env kind replacement env.candidates false false

end

/-- `revert`, with what `restore_method` is answered before it restores: the mapped memory, or an
error. The state holds the guard as well. -/
def revert {θ : Type} (memory : Except (Error θ) MemoryRanges) :
    EStateM (Error θ) (ArtMethodReplacementGuard × World) Unit := do
  let (guard, _) ← get
  if guard.reverted = false then
    let memory ← MonadExcept.ofExcept memory
    Fallible.zoom (fun s ↦ s.2.memory) (fun m s ↦ (s.1, { s.2 with memory := m }))
      (restoreArtMethodVerified guard.method guard.layout guard.original memory)
    modify fun s ↦ ({ s.1 with reverted := true },
      { s.2 with mappings := s.2.mappings.unregister guard.method })

/-! ## What a replacement changes -/

section

variable {θ : Type} {memory : MemoryRanges} {layout : ArtMethodReplacementLayout}
  {env : ReplaceEnvironment θ memory layout} {w : World}

/-- The mapped bytes and the registry are the same. -/
structure Untouched (memory : MemoryRanges) (w w' : World) : Prop where
  memory : SameMapped memory w.memory w'.memory
  mappings : w'.mappings = w.mappings

theorem Untouched.refl (w : World) : Untouched memory w w := ⟨fun _ _ ↦ rfl, rfl⟩

theorem sameMapped_write (page : ThunkPage memory) (m : ByteMemory) :
    SameMapped memory m (page.write m) :=
  fun a ha ↦ if_neg (Nat.not_lt.2 (page.mapping.not_covers a ha))

/-- A candidate that is not replaced is untouched. -/
theorem wp_replaceCandidate {method replacement : BitVec 64} {original : ArtMethodSnapshot}
    (hs : IsSnapshot method layout.method memory w.memory original) :
    Fallible.wp (replaceCandidate env replacement method original) (fun _ _ ↦ True)
      (fun _ w' ↦ Untouched memory w w') w := by
  rw [replaceCandidate]
  simp only [Fallible.wp_bind, onMemory, onMappings, Fallible.wp_zoom]
  refine Fallible.wp_mono wp_cloneReplacementArtMethod ?_ fun _ _ h ↦ ⟨h, rfl⟩
  intro clone m₁ hclone
  simp only [Fallible.wp_ofExcept]
  refine ⟨fun _ _ ↦ ⟨fun page _ ↦ ?_, fun _ _ ↦ ⟨hclone, rfl⟩⟩, fun _ _ ↦ ⟨hclone, rfl⟩⟩
  have hpage := hclone.trans (sameMapped_write page m₁)
  simp only [Fallible.wp_bind, Fallible.wp_modify, Fallible.wp_ite, Fallible.wp_throw,
    Fallible.wp_ofExcept, Fallible.wp_zoom, Fallible.wp_onError, Fallible.wp_pure]
  refine ⟨fun _ ↦ ⟨hpage, rfl⟩, fun _ ↦ ⟨fun _ _ ↦ ?_, fun _ _ ↦ ⟨hpage, rfl⟩⟩⟩
  refine Fallible.wp_mono ArtReplacementMappings.wp_register ?_ fun _ _ h ↦ ⟨hpage, h.2⟩
  rintro _ mappings ⟨hr, rfl⟩
  refine Fallible.wp_mono (wp_patchArtMethodVerified _ _ (hs.of_sameMapped hpage)) (fun _ _ _ ↦ trivial) ?_
  rintro _ m₂ rfl
  exact ⟨hpage, ArtReplacementMappings.unregister_insert hr.methods_eq hr.replacements_eq⟩

/-- A replacement that fails has changed nothing: neither the bytes that were mapped, those of the
target among them, nor the registry. -/
theorem wp_replaceMethod (env : ReplaceEnvironment θ memory layout) (kind : MethodKind)
    (replacement : BitVec 64) (w : World) :
    Fallible.wp (replaceMethod env kind replacement) (fun _ _ ↦ True)
      (fun _ w' ↦ Untouched memory w w') w := by
  have hcandidates (candidates : List (BitVec 64)) (sawReadable sawWrongKind : Bool) :
      Fallible.wp (replaceCandidates env kind replacement candidates sawReadable sawWrongKind)
        (fun _ _ ↦ True) (fun _ w' ↦ Untouched memory w w') w := by
    induction candidates generalizing sawReadable sawWrongKind with
    | nil => exact .refl w
    | cons method candidates ih =>
      rw [replaceCandidates, Fallible.wp_bind, Fallible.wp_get]
      split
      · exact ih _ _
      · next original hsnapshot =>
        split
        · exact wp_replaceCandidate (isSnapshot_of_snapshotArtMethod hsnapshot)
        · exact ih _ _
  rw [replaceMethod]
  simp only [Fallible.wp_bind, Fallible.wp_ite, Fallible.wp_throw, Fallible.wp_ofExcept]
  refine ⟨fun _ ↦ .refl w, fun _ ↦ ⟨fun _ _ ↦ ⟨fun _ _ ↦ ⟨fun _ _ ↦ ⟨fun _ _ ↦ ?_, ?_⟩, ?_⟩, ?_⟩,
    ?_⟩⟩
  · exact hcandidates _ _ _
  all_goals exact fun _ _ ↦ .refl w

/-- The reversal of a replacement: the method and the registry are as they were before it, or the
pair is still registered and the guard not reverted. -/
theorem wp_revert {guard : ArtMethodReplacementGuard} (patched : ArtMethodSnapshot) {m₀ : ByteMemory}
    {mappings₀ : ArtReplacementMappings} {record : ArtReplacementRecord}
    (hguard : guard.reverted = false)
    (hs : IsSnapshot guard.method guard.layout memory m₀ guard.original)
    (hm : mappings₀.methods guard.method = none)
    (hr : mappings₀.replacements record.replacement = none) (answer : Except (Error θ) MemoryRanges) :
    Fallible.wp (revert answer)
      (fun _ s ↦ s = ({ guard with reverted := true }, ⟨m₀, mappings₀⟩))
      (fun _ s ↦ s.1 = guard ∧ s.2.mappings = mappings₀.insert guard.method record)
      (guard, ⟨patchArtMethod guard.method guard.layout patched m₀,
        mappings₀.insert guard.method record⟩) := by
  rw [revert]
  simp only [Fallible.wp_bind, Fallible.wp_get, hguard, if_true, Fallible.wp_ofExcept,
    Fallible.wp_zoom, Fallible.wp_modify]
  refine ⟨fun memory' _ ↦ ?_, fun _ _ ↦ ⟨trivial, trivial⟩⟩
  refine Fallible.wp_mono (wp_restoreArtMethodVerified _ (patchArtMethod_patchArtMethod hs)) ?_
    fun _ _ _ ↦ ⟨trivial, trivial⟩
  rintro _ m rfl
  rw [ArtReplacementMappings.unregister_insert hm hr]

end

/-! ## The law -/

/-- Patches are undone byte by byte, and replacements that fail have no effect. -/
structure AtomicPatches (θ : Type) : Prop where
  /-- A snapshot, a patch and the restoration: every byte of the memory is as it was. -/
  restored : ∀ {method layout memory m original},
    snapshotArtMethod (θ := θ) method layout memory m = .ok original →
    ∀ patched memory' memory'' r m',
    Fallible.outcome (patchArtMethodVerified (θ := θ) method layout original patched memory') m =
      (r, m') →
    (Fallible.outcome (restoreArtMethodVerified (θ := θ) method layout original memory'') m').2 = m
  failed_patch : ∀ {method layout memory m original},
    snapshotArtMethod (θ := θ) method layout memory m = .ok original →
    ∀ patched memory' e m',
    patchArtMethodVerified (θ := θ) method layout original patched memory' m = .error e m' → m' = m
  /-- The bytes of a readable method, and all others that were mapped. -/
  failed_replacement : ∀ {memory layout} (env : ReplaceEnvironment θ memory layout) kind replacement
    w e w', replaceMethod env kind replacement w = .error e w' →
    w'.mappings = w.mappings ∧ SameMapped memory w.memory w'.memory ∧
      ∀ method, memory.contains method layout.method.methodSize.toNat = true →
        ∀ b, (b - normalizeAddress method).toNat < layout.method.methodSize.toNat →
          w'.memory b = w.memory b
  reverted : ∀ {guard : ArtMethodReplacementGuard} {patched memory m₀ mappings₀}
    {record : ArtReplacementRecord}, guard.reverted = false →
    snapshotArtMethod (θ := θ) guard.method guard.layout memory m₀ = .ok guard.original →
    mappings₀.methods guard.method = none → mappings₀.replacements record.replacement = none →
    ∀ answer s, revert (θ := θ) answer
      (guard, ⟨patchArtMethod guard.method guard.layout patched m₀,
        mappings₀.insert guard.method record⟩) = .ok ⟨⟩ s →
    s = ({ guard with reverted := true }, ⟨m₀, mappings₀⟩)

theorem patch_atomic (θ : Type) : AtomicPatches θ where
  restored := by
    intro method layout memory m original hsnapshot patched memory' memory'' r m' hpatch
    have hs := isSnapshot_of_snapshotArtMethod hsnapshot
    have hwp := wp_patchArtMethodVerified (θ := θ) patched memory' hs
    rw [Fallible.wp_of_outcome hpatch] at hwp
    have hback : patchArtMethod method layout original m' = m := by
      cases r with
      | ok =>
        obtain rfl : m' = patchArtMethod method layout patched m := hwp
        exact patchArtMethod_patchArtMethod hs
      | error =>
        obtain rfl : m' = m := hwp
        exact patchArtMethod_eq hs fun _ _ ↦ rfl
    exact (Fallible.wp_iff_outcome (P := fun _ m'' ↦ m'' = m)).1
      (wp_restoreArtMethodVerified memory'' hback)
  failed_patch := by
    intro method layout memory m original hsnapshot patched memory' e m' hpatch
    have hwp := wp_patchArtMethodVerified (θ := θ) patched memory'
      (isSnapshot_of_snapshotArtMethod hsnapshot)
    rw [Fallible.wp, hpatch] at hwp
    exact hwp
  failed_replacement := by
    intro memory layout env kind replacement w e w' hreplace
    have hwp := wp_replaceMethod env kind replacement w
    rw [Fallible.wp, hreplace] at hwp
    refine ⟨hwp.mappings, hwp.memory, fun method hmethod b hb ↦ ?_⟩
    exact hwp.memory b (MemoryRanges.covers_of_contains hmethod hb)
  reverted := by
    intro guard patched memory m₀ mappings₀ record hguard hsnapshot hm hr answer s hrevert
    have hwp := wp_revert patched hguard (isSnapshot_of_snapshotArtMethod hsnapshot) hm hr answer
    rw [Fallible.wp, hrevert] at hwp
    exact hwp

-- The two entrypoints of this layout overlap, so that no patch of both can be read back.
example :
    (Fallible.outcome (patchArtMethodVerified (θ := Empty) 0x1000 ⟨32, 0, 8, 12, none⟩ ⟨0, 0, 0, none⟩
      ⟨1, 2, 3, none⟩ ⟨[⟨0x1000, 0x2000, true, false⟩]⟩) fun _ ↦ 0).1.isOk = false := by
  decide +kernel

end JavaBridge.Art

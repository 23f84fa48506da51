import JavaBridge.Art.Dispatch
import JavaBridge.Art.Memory
import JavaBridge.Library.Fallible

/-!
# Patching an `ArtMethod`

The fields of a method that a replacement changes are read, written one after the other, read back
and compared, at offsets that the runtime layout gives and that may lie anywhere, also over each
other. A snapshot holds the values of the fields, and writing it back puts the bytes back.

Main results:

* `patchArtMethod_snapshot`: to patch with a snapshot is to write back the bytes it was read from.
* `wp_patchArtMethodVerified`: a patch that fails leaves the memory as it was.
* `wp_restoreArtMethodVerified`: so does the restoration after a patch.
-/

namespace JavaBridge.Art

structure ArtMethodRuntimeLayout where
  methodSize : BitVec 64
  accessFlagsOffset : BitVec 64
  jniCodeOffset : BitVec 64
  quickCodeOffset : BitVec 64
  interpreterCodeOffset : Option (BitVec 64)
  deriving DecidableEq

/-- The values of the fields. -/
structure ArtMethodSnapshot where
  accessFlags : BitVec 32
  jniCode : BitVec 64
  quickCode : BitVec 64
  interpreterCode : Option (BitVec 64)
  deriving DecidableEq

/-- A pointer as `{:?}` prints it. -/
def debugPointer (p : BitVec 64) : String := "0x" ++ String.ofList (Nat.toDigits 16 p.toNat)

/-- A snapshot as `{:?}` prints it. -/
def ArtMethodSnapshot.debug (snapshot : ArtMethodSnapshot) : String :=
  "ArtMethodSnapshot \x7b access_flags: " ++ toString snapshot.accessFlags.toNat ++
    ", jni_code: " ++ debugPointer snapshot.jniCode ++
    ", quick_code: " ++ debugPointer snapshot.quickCode ++
    ", interpreter_code: " ++
    snapshot.interpreterCode.elim "None" (fun p ↦ "Some(" ++ debugPointer p ++ ")") ++ " \x7d"

section

variable {θ : Type}

/-- An `Option` that has to be there. -/
def okOrElse {α : Type} (reason : String) : Option α → Except (Error θ) α
  | some a => .ok a
  | none => .error (.unsupportedFeature FEATURE_METHOD_REPLACEMENT reason)

def snapshotArtMethod (method : BitVec 64) (layout : ArtMethodRuntimeLayout)
    (memory : MemoryRanges) (m : ByteMemory) : Except (Error θ) ArtMethodSnapshot := do
  if method = 0 ∨ memory.contains method layout.methodSize.toNat = false then
    throw (.unsupportedFeature FEATURE_METHOD_REPLACEMENT "target ArtMethod is not readable")
  let accessFlags ← okOrElse "target ArtMethod access flags are not readable"
    (readU32 (method + layout.accessFlagsOffset) memory m)
  let jniCode ← okOrElse "target ArtMethod JNI entrypoint is not readable"
    (readUsize (method + layout.jniCodeOffset) memory m)
  let quickCode ← okOrElse "target ArtMethod quick entrypoint is not readable"
    (readUsize (method + layout.quickCodeOffset) memory m)
  let interpreterCode ← layout.interpreterCodeOffset.elim (pure none) fun offset ↦
    (okOrElse "target ArtMethod interpreter entrypoint is not readable"
      (readUsize (method + offset) memory m)).map some
  pure { accessFlags, jniCode, quickCode, interpreterCode }

def patchArtMethod (method : BitVec 64) (layout : ArtMethodRuntimeLayout)
    (snapshot : ArtMethodSnapshot) (m : ByteMemory) : ByteMemory :=
  let m := writeU32 (method + layout.accessFlagsOffset) snapshot.accessFlags m
  let m := writeUsize (method + layout.jniCodeOffset) snapshot.jniCode m
  let m := writeUsize (method + layout.quickCodeOffset) snapshot.quickCode m
  match layout.interpreterCodeOffset, snapshot.interpreterCode with
  | some offset, some interpreterCode => writeUsize (method + offset) interpreterCode m
  | _, _ => m

def patchArtMethodVerified (method : BitVec 64) (layout : ArtMethodRuntimeLayout)
    (original patched : ArtMethodSnapshot) (memory : MemoryRanges) :
    EStateM (Error θ) ByteMemory Unit := do
  modify (patchArtMethod method layout patched)
  match snapshotArtMethod method layout memory (← get) with
  | .ok snapshot =>
    if snapshot = patched then pure ()
    else
      modify (patchArtMethod method layout original)
      throw (.unsupportedFeature FEATURE_METHOD_REPLACEMENT
        ("target ArtMethod patch verification failed: expected " ++ patched.debug ++ ", got " ++
          snapshot.debug))
  | .error error =>
    modify (patchArtMethod method layout original)
    throw error

def restoreArtMethodVerified (method : BitVec 64) (layout : ArtMethodRuntimeLayout)
    (original : ArtMethodSnapshot) (memory : MemoryRanges) :
    EStateM (Error θ) ByteMemory Unit := do
  modify (patchArtMethod method layout original)
  match snapshotArtMethod method layout memory (← get) with
  | .ok snapshot =>
    if snapshot = original then pure ()
    else
      throw (.unsupportedFeature FEATURE_METHOD_REPLACEMENT
        ("target ArtMethod restore verification failed: expected " ++ original.debug ++ ", got " ++
          snapshot.debug))
  | .error error => throw error

end

/-! ## The fields as ranges of bytes -/

/-- The ranges of the fields, in the order they are written. -/
def ArtMethodRuntimeLayout.fields (layout : ArtMethodRuntimeLayout) (method : BitVec 64) :
    List (BitVec 64 × Nat) :=
  (normalizeAddress (method + layout.accessFlagsOffset), 4) ::
  (normalizeAddress (method + layout.jniCodeOffset), 8) ::
  (normalizeAddress (method + layout.quickCodeOffset), 8) ::
  layout.interpreterCodeOffset.toList.map fun offset ↦ (normalizeAddress (method + offset), 8)

variable {θ : Type} {method : BitVec 64} {layout : ArtMethodRuntimeLayout}
  {original patched snapshot : ArtMethodSnapshot} {memory memory' : MemoryRanges}
  {m m₀ : ByteMemory}

theorem okOrElse_eq_ok {α : Type} {reason : String} {x : Option α} {a : α} :
    okOrElse (θ := θ) reason x = .ok a ↔ x = some a := by
  cases x <;> simp [okOrElse]

/-- A snapshot holds what the fields hold, all of them readable. -/
structure IsSnapshot (method : BitVec 64) (layout : ArtMethodRuntimeLayout)
    (memory : MemoryRanges) (m : ByteMemory) (snapshot : ArtMethodSnapshot) : Prop where
  method_ne : method ≠ 0
  contains : memory.contains method layout.methodSize.toNat = true
  accessFlags : readU32 (method + layout.accessFlagsOffset) memory m = some snapshot.accessFlags
  jniCode : readUsize (method + layout.jniCodeOffset) memory m = some snapshot.jniCode
  quickCode : readUsize (method + layout.quickCodeOffset) memory m = some snapshot.quickCode
  interpreterCode : (layout.interpreterCodeOffset.map fun offset ↦
    readUsize (method + offset) memory m) = snapshot.interpreterCode.map some

theorem isSnapshot_of_snapshotArtMethod
    (h : snapshotArtMethod (θ := θ) method layout memory m = .ok snapshot) :
    IsSnapshot method layout memory m snapshot := by
  rw [snapshotArtMethod] at h
  split at h
  · cases h
  · next hreadable =>
    obtain ⟨accessFlags, haccess, h⟩ := Fallible.bind_eq_ok.1 h
    obtain ⟨jniCode, hjni, h⟩ := Fallible.bind_eq_ok.1 h
    obtain ⟨quickCode, hquick, h⟩ := Fallible.bind_eq_ok.1 h
    obtain ⟨interpreterCode, hinterpreter, h⟩ := Fallible.bind_eq_ok.1 h
    cases h
    rw [not_or, Bool.not_eq_false] at hreadable
    refine ⟨hreadable.1, hreadable.2, okOrElse_eq_ok.1 haccess, okOrElse_eq_ok.1 hjni,
      okOrElse_eq_ok.1 hquick, ?_⟩
    cases hoffset : layout.interpreterCodeOffset with
    | none =>
      rw [hoffset] at hinterpreter
      cases hinterpreter
      rfl
    | some offset =>
      rw [hoffset] at hinterpreter
      obtain ⟨code, hcode, rfl⟩ := Fallible.map_eq_ok.1 hinterpreter
      exact congrArg some (okOrElse_eq_ok.1 hcode)

theorem writeUsize_of_readUsize {pointer value : BitVec 64}
    (h : readUsize pointer memory m₀ = some value) :
    writeUsize pointer value m =
      m.store (normalizeAddress pointer) 8 (m₀.load (normalizeAddress pointer) 8) := by
  obtain ⟨-, h⟩ := Option.ite_none_right_eq_some.1 h
  obtain rfl := Option.some.inj h
  rw [writeUsize, ByteMemory.word_toNat]

theorem writeU32_of_readU32 {pointer : BitVec 64} {value : BitVec 32}
    (h : readU32 pointer memory m₀ = some value) :
    writeU32 pointer value m =
      m.store (normalizeAddress pointer) 4 (m₀.load (normalizeAddress pointer) 4) := by
  obtain ⟨-, h⟩ := Option.ite_none_right_eq_some.1 h
  obtain rfl := Option.some.inj h
  rw [writeU32, BitVec.toNat_ofNat, show 2 ^ 32 = 256 ^ 4 from rfl,
    Nat.mod_eq_of_lt (m₀.load_lt _ 4)]

/-- To patch with a snapshot is to write back the bytes it was read from. -/
theorem patchArtMethod_snapshot (h : IsSnapshot method layout memory m₀ original)
    (m : ByteMemory) :
    patchArtMethod method layout original m =
      ByteMemory.writeBack m₀ (layout.fields method) m := by
  rw [patchArtMethod, writeU32_of_readU32 h.accessFlags, writeUsize_of_readUsize h.jniCode,
    writeUsize_of_readUsize h.quickCode]
  have hinterpreter := h.interpreterCode
  cases hoffset : layout.interpreterCodeOffset with
  | none => simp [ByteMemory.writeBack, ArtMethodRuntimeLayout.fields, hoffset]
  | some offset =>
    rw [hoffset, Option.map_some] at hinterpreter
    obtain ⟨code, hcode, hread⟩ := Option.map_eq_some_iff.1 hinterpreter.symm
    simp only [hcode, writeUsize_of_readUsize hread.symm, ByteMemory.writeBack,
      ArtMethodRuntimeLayout.fields, hoffset, Option.toList_some, List.map_cons, List.map_nil,
      List.foldl_cons, List.foldl_nil]

/-- A patch changes the fields and nothing else. -/
theorem patchArtMethod_of_apart {b : BitVec 64}
    (hb : ∀ field ∈ layout.fields method, field.2 ≤ (b - field.1).toNat) :
    patchArtMethod method layout snapshot m b = m b := by
  rw [ArtMethodRuntimeLayout.fields] at hb
  obtain ⟨haccess, hb⟩ := List.forall_mem_cons.1 hb
  obtain ⟨hjni, hb⟩ := List.forall_mem_cons.1 hb
  obtain ⟨hquick, hb⟩ := List.forall_mem_cons.1 hb
  have hthree (m : ByteMemory) : writeUsize (method + layout.quickCodeOffset) snapshot.quickCode
      (writeUsize (method + layout.jniCodeOffset) snapshot.jniCode
        (writeU32 (method + layout.accessFlagsOffset) snapshot.accessFlags m)) b = m b := by
    rw [writeUsize, ByteMemory.store_of_le _ _ hquick, writeUsize, ByteMemory.store_of_le _ _ hjni,
      writeU32, ByteMemory.store_of_le _ _ haccess]
  cases hoffset : layout.interpreterCodeOffset with
  | none =>
    simp only [patchArtMethod, hoffset]
    exact hthree m
  | some offset =>
    simp only [patchArtMethod, hoffset]
    cases snapshot.interpreterCode with
    | none => exact hthree m
    | some code =>
      rw [hoffset] at hb
      exact (ByteMemory.store_of_le _ _ (hb _ List.mem_cons_self)).trans (hthree m)

/-- Whatever was written to the fields, patching with their snapshot undoes it. -/
theorem patchArtMethod_eq (h : IsSnapshot method layout memory m original) {m' : ByteMemory}
    (hm' : ∀ b, (∀ field ∈ layout.fields method, field.2 ≤ (b - field.1).toNat) → m' b = m b) :
    patchArtMethod method layout original m' = m := by
  rw [patchArtMethod_snapshot h]
  exact ByteMemory.writeBack_eq hm'

theorem patchArtMethod_patchArtMethod (h : IsSnapshot method layout memory m original) :
    patchArtMethod method layout original (patchArtMethod method layout patched m) = m :=
  patchArtMethod_eq h fun _ hb ↦ patchArtMethod_of_apart hb

/-! ## Mapped bytes -/

/-- Every byte that is mapped is the same. -/
def SameMapped (memory : MemoryRanges) (m m' : ByteMemory) : Prop :=
  ∀ a, memory.Covers a → m' a = m a

theorem SameMapped.trans {m₁ m₂ m₃ : ByteMemory} (h : SameMapped memory m₁ m₂)
    (h' : SameMapped memory m₂ m₃) : SameMapped memory m₁ m₃ :=
  fun a ha ↦ (h' a ha).trans (h a ha)

theorem load_eq_of_sameMapped {m' : ByteMemory} (h : SameMapped memory m m') {address : BitVec 64}
    {n : Nat} (hn : n < 2 ^ 64) (hcontains : memory.contains address n = true) :
    m'.load (normalizeAddress address) n = m.load (normalizeAddress address) n := by
  apply ByteMemory.load_congr
  intro i hi
  apply h
  apply MemoryRanges.covers_of_contains hcontains
  rw [ByteMemory.add_ofNat_sub_toNat _ (Nat.lt_trans hi hn)]
  exact hi

theorem readUsize_of_sameMapped {m' : ByteMemory} (h : SameMapped memory m m')
    (pointer : BitVec 64) : readUsize pointer memory m' = readUsize pointer memory m := by
  rw [readUsize, readUsize]
  split
  · next hcontains =>
    have := load_eq_of_sameMapped h (by decide) hcontains
    rw [normalizeAddress_normalizeAddress] at this
    rw [ByteMemory.word, ByteMemory.word, this]
  · rfl

theorem readU32_of_sameMapped {m' : ByteMemory} (h : SameMapped memory m m')
    (pointer : BitVec 64) : readU32 pointer memory m' = readU32 pointer memory m := by
  rw [readU32, readU32]
  split
  · next hcontains =>
    have := load_eq_of_sameMapped h (by decide) hcontains
    rw [normalizeAddress_normalizeAddress] at this
    rw [this]
  · rfl

/-- A snapshot depends on mapped bytes only. -/
theorem IsSnapshot.of_sameMapped {m' : ByteMemory} (hs : IsSnapshot method layout memory m snapshot)
    (h : SameMapped memory m m') : IsSnapshot method layout memory m' snapshot where
  method_ne := hs.method_ne
  contains := hs.contains
  accessFlags := (readU32_of_sameMapped h _).trans hs.accessFlags
  jniCode := (readUsize_of_sameMapped h _).trans hs.jniCode
  quickCode := (readUsize_of_sameMapped h _).trans hs.quickCode
  interpreterCode := by
    have hread : (fun offset ↦ readUsize (method + offset) memory m') =
        fun offset ↦ readUsize (method + offset) memory m := by
      funext offset
      exact readUsize_of_sameMapped h _
    rw [hread]
    exact hs.interpreterCode

/-- The fields of a method that a snapshot was taken of are mapped. -/
theorem IsSnapshot.covers (hs : IsSnapshot method layout memory m snapshot)
    {field : BitVec 64 × Nat} (hfield : field ∈ layout.fields method) {b : BitVec 64}
    (hb : (b - field.1).toNat < field.2) : memory.Covers b := by
  have hcovers {pointer : BitVec 64} {n : Nat}
      (h : memory.contains (normalizeAddress pointer) n = true)
      (hb : (b - normalizeAddress pointer).toNat < n) : memory.Covers b := by
    apply MemoryRanges.covers_of_contains h
    rwa [normalizeAddress_normalizeAddress]
  rw [ArtMethodRuntimeLayout.fields] at hfield
  simp only [List.mem_cons, List.mem_map, Option.mem_toList] at hfield
  rcases hfield with rfl | rfl | rfl | ⟨offset, hoffset, rfl⟩
  · exact hcovers (Option.ite_none_right_eq_some.1 hs.accessFlags).1 hb
  · exact hcovers (Option.ite_none_right_eq_some.1 hs.jniCode).1 hb
  · exact hcovers (Option.ite_none_right_eq_some.1 hs.quickCode).1 hb
  · have hinterpreter := hs.interpreterCode
    rw [Option.mem_def.1 hoffset, Option.map_some] at hinterpreter
    obtain ⟨code, -, hread⟩ := Option.map_eq_some_iff.1 hinterpreter.symm
    exact hcovers (Option.ite_none_right_eq_some.1 hread.symm).1 hb

/-! ## Verified patches -/

/-- A verified patch writes to the fields and nowhere else. -/
theorem wp_patchArtMethodVerified_of_apart {P : BitVec 64 → Prop}
    (hP : ∀ b, P b → ∀ field ∈ layout.fields method, field.2 ≤ (b - field.1).toNat) :
    Fallible.wp (patchArtMethodVerified (θ := θ) method layout original patched memory)
      (fun _ m' ↦ ∀ b, P b → m' b = m b) (fun _ m' ↦ ∀ b, P b → m' b = m b) m := by
  have honce : ∀ b, P b → patchArtMethod method layout patched m b = m b :=
    fun b hb ↦ patchArtMethod_of_apart (hP b hb)
  have htwice : ∀ b, P b →
      patchArtMethod method layout original (patchArtMethod method layout patched m) b = m b :=
    fun b hb ↦ (patchArtMethod_of_apart (hP b hb)).trans (honce b hb)
  rw [patchArtMethodVerified]
  simp only [Fallible.wp_bind, Fallible.wp_modify, Fallible.wp_get]
  split
  · split
    · rw [Fallible.wp_pure]
      exact honce
    · rw [Fallible.wp_bind, Fallible.wp_modify, Fallible.wp_throw]
      exact htwice
  · rw [Fallible.wp_bind, Fallible.wp_modify, Fallible.wp_throw]
    exact htwice

/-- A patch that fails leaves the memory as it was. -/
theorem wp_patchArtMethodVerified (patched : ArtMethodSnapshot) (memory' : MemoryRanges)
    (h : IsSnapshot method layout memory m original) :
    Fallible.wp (patchArtMethodVerified (θ := θ) method layout original patched memory')
      (fun _ m' ↦ m' = patchArtMethod method layout patched m) (fun _ m' ↦ m' = m) m := by
  rw [patchArtMethodVerified]
  simp only [Fallible.wp_bind, Fallible.wp_modify, Fallible.wp_get]
  split
  · split
    · rw [Fallible.wp_pure]
    · rw [Fallible.wp_bind, Fallible.wp_modify, Fallible.wp_throw]
      exact patchArtMethod_patchArtMethod h
  · rw [Fallible.wp_bind, Fallible.wp_modify, Fallible.wp_throw]
    exact patchArtMethod_patchArtMethod h

/-- The restoration leaves the memory as the snapshot found it, whether it says so or not. -/
theorem wp_restoreArtMethodVerified {m' : ByteMemory} (memory' : MemoryRanges)
    (h : patchArtMethod method layout original m' = m) :
    Fallible.wp (restoreArtMethodVerified (θ := θ) method layout original memory')
      (fun _ m'' ↦ m'' = m) (fun _ m'' ↦ m'' = m) m' := by
  rw [restoreArtMethodVerified]
  simp only [Fallible.wp_bind, Fallible.wp_modify, Fallible.wp_get]
  split
  · split
    · rw [Fallible.wp_pure]
      exact h
    · rw [Fallible.wp_throw]
      exact h
  · rw [Fallible.wp_throw]
    exact h

end JavaBridge.Art

import JavaBridge.Art.HookTableStep

/-!
# What the table of replaced methods says

After any replacements and reversals, a call of a method that is replaced comes to its replacement
function, and all other memory is what it would be without them.

Main results:

* `HookTable.Inv.dispatches`: where calls go.
* `HookTable.refines`: the memory and the registry are what the table of replacements says.
-/

namespace JavaBridge.Art

open ByteMemory (block)

/-! ## What the table says -/

/-- Where a call of a replaced method goes: to the interpreter, if the top frame is one of the clone,
and to the replacement function otherwise, through the generic trampoline. -/
structure Hook.Dispatches (hook : Hook) (m : ByteMemory) : Prop where
  thunk : ∃ thunk : ArtMethodDispatchThunk,
    thunk.clonedMethod = hook.guard.clonedMethod.method ∧
    ∀ (callee : BitVec 64 → Arm64.State → Arm64.State) (σ : Arm64.State), σ.mem = m →
      ∃ e, thunk.run callee σ = some e ∧ ArtMethodDispatchThunk.Keeps σ e.state ∧
        (thunk.takesOriginal σ → e.state.x 0 = σ.x 0 ∧
          e.target = hook.layout.trampolines.quickToInterpreterBridgeTrampoline) ∧
        (¬thunk.takesOriginal σ → e.state.x 0 = hook.guard.clonedMethod.method ∧
          e.target = hook.layout.trampolines.quickGenericJniTrampoline)
  jniCode : m.word (hook.guard.clonedMethod.method + hook.guard.layout.jniCodeOffset) =
    hook.replacement

namespace HookTable

variable {ι θ : Type} [DecidableEq ι] {K : Set (BitVec 64)} {s : HookTable ι} {i : ι} {hook : Hook}

theorem word_of_readUsize {pointer value : BitVec 64} {memory : MemoryRanges} {m : ByteMemory}
    (h : readUsize pointer memory m = some value) (huntagged : normalizeAddress pointer = pointer) :
    m.word pointer = value := by
  obtain ⟨-, h⟩ := Option.ite_none_right_eq_some.1 h
  rw [huntagged] at h
  exact Option.some.inj h

omit [DecidableEq ι] in
theorem Inv.dispatches (h : Inv K s) (hlive : s.Live i hook) :
    hook.Dispatches s.world.memory := by
  have hplaced := h.placed i hook hlive
  have hclone := (h.holds i hook hlive).clone
  constructor
  case jniCode => exact word_of_readUsize hclone.jniCode hplaced.jniCode_untagged
  case thunk =>
    obtain ⟨thunk, hmethod, horiginal, hquick, -⟩ := hplaced.thunk
    refine ⟨thunk, hmethod, ?_⟩
    intro callee σ hσ
    obtain ⟨e, he, htoOriginal, htoReplacement⟩ := thunk.run_dispatches callee σ
    refine ⟨e, he, ?_, ?_, ?_⟩
    · by_cases htakes : thunk.takesOriginal σ
      · exact (htoOriginal htakes).keeps
      · exact (htoReplacement htakes).keeps
    · intro htakes
      exact ⟨(htoOriginal htakes).method, (htoOriginal htakes).target.trans horiginal⟩
    · intro htakes
      refine ⟨(htoReplacement htakes).method.trans hmethod, ?_⟩
      rw [(htoReplacement htakes).target, hσ, hmethod, hquick, BitVec.ofNat_toNat,
        BitVec.setWidth_eq, ← hplaced.guard_layout]
      exact word_of_readUsize hclone.quickCode hplaced.quickCode_untagged

/-- The memory and the registry are what the live hooks say. -/
structure Refines (K : Set (BitVec 64)) (s : HookTable ι) : Prop where
  /-- A method has one live hook at most. -/
  one : ∀ i j hook hook', s.Live i hook → s.Live j hook' →
    hook.guard.method = hook'.guard.method → i = j
  replacementFor : ∀ method clone, s.world.mappings.replacementFor method = some clone ↔
    ∃ i hook, s.Live i hook ∧ hook.guard.method = method ∧
      hook.guard.clonedMethod.method = clone
  isReplacementMethod : ∀ clone, s.world.mappings.isReplacementMethod clone = true ↔
    ∃ i hook, s.Live i hook ∧ hook.guard.clonedMethod.method = clone
  /-- The method of a hook that is in place leads to its thunk. -/
  patched : ∀ i hook, s.Live i hook → hook.inPlace = true →
    IsSnapshot hook.guard.method hook.guard.layout hook.memory s.world.memory
      (originalPatched hook.layout hook.guard.original hook.guard.dispatchThunk)
  code : ∀ i hook, s.Live i hook → ∀ k < thunkLength,
    s.world.memory (hook.guard.dispatchThunk + BitVec.ofNat 64 k) = hook.code k
  dispatches : ∀ i hook, s.Live i hook → hook.Dispatches s.world.memory
  /-- Everything else is as it would be without hooks. -/
  transparent : ∀ b ∈ K, (∀ i hook, s.Live i hook → hook.inPlace = true → b ∉ hook.fields) →
    s.world.memory b = s.underlying b
  /-- Nothing is left after the last reversal. -/
  reverted : (∀ i hook, ¬s.Live i hook) →
    s.world.mappings = .empty ∧ Set.EqOn s.world.memory s.underlying K

/-- Methods at `0x1000`, and code at `0x3000`. -/
def methodPages : MemoryRanges := ⟨[⟨0x1000, 0x2000, true, false⟩, ⟨0x3000, 0x4000, false, true⟩]⟩

theorem covers_methodPages {b : BitVec 64} :
    methodPages.Covers b ↔ b ∈ block 0x1000 0x1000 ∨ b ∈ block 0x3000 0x1000 := by
  rw [MemoryRanges.Covers, methodPages]
  simp only [List.mem_cons, List.not_mem_nil, or_false, exists_eq_or_imp, exists_eq_left]
  show 0x1000#64 ≤ b ∧ b < 0x2000#64 ∨ 0x3000#64 ≤ b ∧ b < 0x4000#64 ↔
    (b - 0x1000#64).toNat < 0x1000 ∨ (b - 0x3000#64).toNat < 0x1000
  bv_omega

/-- A mapping behind the pages. -/
def mappingAt (start : BitVec 64) (length : Nat) (h : 0x4000 ≤ start.toNat)
    (h' : start.toNat + length ≤ 2 ^ 56) : Mapping methodPages length where
  start := start
  toNat_add_le := h'
  not_covers := by
    intro b hb
    rcases covers_methodPages.mp hb with hb | hb
    · have hlt : (b - 0x1000).toNat < 0x1000 := hb
      bv_omega
    · have hlt : (b - 0x3000).toNat < 0x1000 := hb
      bv_omega

def exampleLayout : ArtMethodReplacementLayout where
  apiLevel := 30
  method := ⟨32, 4, 16, 24, none⟩
  trampolines := ⟨0x3100, 0x3200, 0x3300⟩
  threadManagedStackOffset := 160

def exampleCall : ReplaceCall Unit where
  memory := methodPages
  layout := exampleLayout
  env := {
    attached := .ok ⟨⟩
    prerequisites := .ok ⟨⟩
    transition := .ok ⟨⟩
    candidates := [0x1000]
    cloneMapping := some (mappingAt 0x10000 _ (by decide) (by decide))
    thunkPage := .ok ⟨mappingAt 0x20000 _ (by decide) (by decide), fun _ ↦ 0⟩
    suspended := .ok ⟨⟩
    order := [0x1000] }
  kind := .instanceMethod
  replacement := 0x3000

def exampleOps : List (HookOp Bool Unit) :=
  [.replace true exampleCall, .synchronize [0x1000], .revert true (.ok methodPages)]

theorem admissible_exampleCall :
    ReplaceAdmissible (block 0x1000 0x1000) (.start fun _ ↦ 0 : HookTable Bool) exampleCall where
  mapped := fun b hb ↦ covers_methodPages.mpr (.inl hb)
  own_mapped := fun i hook hlive ↦ by cases hlive.1
  layout := by
    rw [ArtMethodRuntimeLayout.BehindClass]
    decide
  candidates := by
    rintro method hmethod - b ⟨field, hfield, hb⟩
    obtain rfl := List.mem_singleton.mp hmethod
    have hfields : exampleCall.layout.method.fields 0x1000 =
        [(0x1004, 4), (0x1010, 8), (0x1018, 8)] := rfl
    rw [hfields] at hfield
    simp only [List.mem_cons, List.not_mem_nil, or_false] at hfield
    show (b - 0x1000).toNat < 0x1000
    rcases hfield with rfl | rfl | rfl
    · have hlt : (b - 0x1004).toNat < 4 := hb
      bv_omega
    · have hlt : (b - 0x1010).toNat < 8 := hb
      bv_omega
    · have hlt : (b - 0x1018).toNat < 8 := hb
      bv_omega
  methods_apart := fun method _ i hook hlive ↦ by cases hlive.1
  mappings_apart := by
    intro place page hplace hpage
    cases hplace
    cases hpage
    exact ByteMemory.disjoint_block_of_le (by decide) (by decide)

theorem along_exampleOps : (hookTable Bool Unit).Along (Admissible (block 0x1000 0x1000))
    (.start fun _ ↦ 0) exampleOps :=
  ⟨admissible_exampleCall, fun _ _ ↦ ⟨trivial, fun _ _ ↦ ⟨trivial, fun _ _ ↦ trivial⟩⟩⟩

end HookTable

end JavaBridge.Art

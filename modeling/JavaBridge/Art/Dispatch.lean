import JavaBridge.Error
import JavaBridge.Library.Arm64

/-!
# The dispatch thunk

The patched quick entrypoint of a hooked method leads to a thunk that asks whether the top managed
frame of the calling thread is the hook's own clone: then the call is the callback's call of the
original, and otherwise it goes to the clone. `replacementFrameIsActive` asks the same of the same
memory for ART's entrypoint hooks, which choose through
`translateMethodArgumentForThread`. `ArtMethodDispatchThunk.code` is the emitted thunk and runs
as `Arm64.run`; `x19` holds ART's `Thread`.

Main results:

* `ArtMethodDispatchThunk.run_dispatches`: what the thunk does on every memory.
* `ArtMethodDispatchThunk.agrees_iff`: the thunk takes the branch the predicate names, unless the
  top quick-frame word is a null pointer with a tag and the linked frame is the clone's.
-/

universe u

namespace JavaBridge.Art

open Arm64

/-- `layout::POINTER_SIZE`. -/
def POINTER_SIZE : Nat := 8

/-- The mask that clears the two tag bits of a quick-frame pointer. -/
def frameMask : BitVec 64 := ~~~3

/-! ## The predicate -/

/-- The calling thread's top managed frame is that of `replacement`: no quick frame on top, and the
linked fragment's top frame holds `replacement` as its method. -/
def replacementFrameIsActive (mem : ByteMemory) (replacement thread : BitVec 64)
    (threadManagedStackOffset : Nat) : Bool :=
  if replacement = 0 ∨ thread = 0 then false
  else
    let managedStack := thread + BitVec.ofNat 64 threadManagedStackOffset
    let topQuickFrame := mem.word managedStack &&& frameMask
    if topQuickFrame ≠ 0 then false
    else
      let link := mem.word (managedStack + BitVec.ofNat 64 POINTER_SIZE)
      if link = 0 then false
      else
        let linkTopQuickFrame := mem.word link &&& frameMask
        if linkTopQuickFrame = 0 then false
        else mem.word linkTopQuickFrame = replacement

theorem replacementFrameIsActive_eq_true {mem : ByteMemory} {replacement thread : BitVec 64}
    {threadManagedStackOffset : Nat} {managedStack link linkTopQuickFrame : BitVec 64}
    (hstack : thread + BitVec.ofNat 64 threadManagedStackOffset = managedStack)
    (hlink : mem.word (managedStack + BitVec.ofNat 64 POINTER_SIZE) = link)
    (hframe : mem.word link &&& frameMask = linkTopQuickFrame) :
    replacementFrameIsActive mem replacement thread threadManagedStackOffset = true ↔
      (replacement ≠ 0 ∧ thread ≠ 0) ∧ mem.word managedStack &&& frameMask = 0 ∧ link ≠ 0 ∧
        linkTopQuickFrame ≠ 0 ∧ mem.word linkTopQuickFrame = replacement := by
  subst hstack hlink hframe
  simp [replacementFrameIsActive]

/-- What the controller keeps of a replaced method. -/
structure MethodRecord where
  replacement : BitVec 64
  threadManagedStackOffset : Nat

/-- The method that an entrypoint hook goes on with. -/
def translateMethodArgumentForThread (mem : ByteMemory)
    (methods : BitVec 64 → Option MethodRecord) (method thread : BitVec 64) : BitVec 64 :=
  match methods method with
  | none => method
  | some record =>
    if replacementFrameIsActive mem record.replacement thread record.threadManagedStackOffset then
      method
    else record.replacement

/-! ## The thunk -/

abbrev checkLink : Nat := 1
abbrev original : Nat := 2
abbrev replacement : Nat := 3

def writeReplacementFrameCheck (originalLabel replacementLabel : Nat) (clonedMethod : BitVec 64) :
    List Instr :=
  [.andImm (.x 16) (.x 16) frameMask,
    .cbz (.x 16) replacementLabel,
    .ldr (.x 16) (.x 16) 0,
    .ldrImm (.x 17) clonedMethod,
    .cmp (.x 16) (.x 17),
    .bEq originalLabel,
    .b replacementLabel]

def writeArtMethodDispatchThunk (clonedMethod originalDispatchCode : BitVec 64)
    (quickCodeOffset threadManagedStackOffset : Nat) : List Instr :=
  [.cbz (.x 19) replacement,
    .ldr (.x 16) (.x 19) threadManagedStackOffset,
    .cbz (.x 16) checkLink,
    .b replacement,
    .label checkLink,
    .ldr (.x 16) (.x 19) (threadManagedStackOffset + POINTER_SIZE),
    .cbz (.x 16) replacement,
    .ldr (.x 16) (.x 16) 0] ++
  writeReplacementFrameCheck original replacement clonedMethod ++
  [.label original,
    .ldrImm (.x 16) originalDispatchCode,
    .br (.x 16),
    .label replacement,
    .ldrImm (.x 0) clonedMethod,
    .ldr (.x 16) (.x 0) quickCodeOffset,
    .br (.x 16),
    .nop]

/-- A thunk that was built: what it was built for is within the reach of its instructions. -/
structure ArtMethodDispatchThunk where
  clonedMethod : BitVec 64
  originalDispatchCode : BitVec 64
  quickCodeOffset : Nat
  threadManagedStackOffset : Nat
  clonedMethod_ne : clonedMethod ≠ 0
  originalDispatchCode_ne : originalDispatchCode ≠ 0
  quickCodeOffset_aligned : quickCodeOffset % POINTER_SIZE = 0
  threadManagedStackOffset_aligned : threadManagedStackOffset % POINTER_SIZE = 0
  quickCodeOffset_le : quickCodeOffset / POINTER_SIZE ≤ 0x0fff
  threadManagedStackOffset_le : threadManagedStackOffset / POINTER_SIZE ≤ 0x0fff
  linkOffset_le : (threadManagedStackOffset + POINTER_SIZE) / POINTER_SIZE ≤ 0x0fff

/-- `features::FEATURE_METHOD_REPLACEMENT`. -/
def FEATURE_METHOD_REPLACEMENT : String := "ART method replacement"

namespace ArtMethodDispatchThunk

variable {θ : Type u}

/-- What the thunk is refused for, once its page can be had. -/
def new (clonedMethod originalDispatchCode : BitVec 64)
    (quickCodeOffset threadManagedStackOffset : Nat) :
    Except (Error θ) ArtMethodDispatchThunk :=
  if hclone : clonedMethod = 0 then
    .error (.unsupportedFeature FEATURE_METHOD_REPLACEMENT
      "cloned ArtMethod is null for dispatch thunk")
  else if horiginal : originalDispatchCode = 0 then
    .error (.unsupportedFeature FEATURE_METHOD_REPLACEMENT
      "original ArtMethod dispatch entrypoint is null for dispatch thunk")
  else if hquick : quickCodeOffset % POINTER_SIZE ≠ 0 then
    .error (.unsupportedFeature FEATURE_METHOD_REPLACEMENT
      "ArtMethod quick entrypoint offset is not pointer-aligned")
  else if hstack : threadManagedStackOffset % POINTER_SIZE ≠ 0 then
    .error (.unsupportedFeature FEATURE_METHOD_REPLACEMENT
      "ART Thread managed stack offset is not pointer-aligned")
  else if hquick' : quickCodeOffset / POINTER_SIZE > 0x0fff then
    .error (.unsupportedFeature FEATURE_METHOD_REPLACEMENT
      "ArtMethod quick entrypoint offset is too large for dispatch thunk")
  else if hstack' : threadManagedStackOffset / POINTER_SIZE > 0x0fff then
    .error (.unsupportedFeature FEATURE_METHOD_REPLACEMENT
      "ART Thread managed stack offset is too large for dispatch thunk")
  else if hlink : (threadManagedStackOffset + POINTER_SIZE) / POINTER_SIZE > 0x0fff then
    .error (.unsupportedFeature FEATURE_METHOD_REPLACEMENT
      "ART Thread managed stack link offset is too large for dispatch thunk")
  else
    .ok {
      clonedMethod, originalDispatchCode, quickCodeOffset, threadManagedStackOffset
      clonedMethod_ne := hclone
      originalDispatchCode_ne := horiginal
      quickCodeOffset_aligned := not_ne_iff.mp hquick
      threadManagedStackOffset_aligned := not_ne_iff.mp hstack
      quickCodeOffset_le := Nat.le_of_not_gt hquick'
      threadManagedStackOffset_le := Nat.le_of_not_gt hstack'
      linkOffset_le := Nat.le_of_not_gt hlink }

variable (thunk : ArtMethodDispatchThunk)

def code : List Instr :=
  writeArtMethodDispatchThunk thunk.clonedMethod thunk.originalDispatchCode
    thunk.quickCodeOffset thunk.threadManagedStackOffset

/-- The thunk is entered at its first instruction. Its branches all lead forward. -/
def run (callee : BitVec 64 → State → State) (s : State) : Option Exit :=
  Arm64.run callee thunk.code thunk.code.length 0 s

/-- `new` accepts just what the fields of a thunk say. -/
theorem new_eq_ok : new (θ := θ) thunk.clonedMethod thunk.originalDispatchCode
    thunk.quickCodeOffset thunk.threadManagedStackOffset = .ok thunk := by
  simp only [new, dif_neg thunk.clonedMethod_ne, dif_neg thunk.originalDispatchCode_ne,
    dif_neg (not_ne_iff.mpr thunk.quickCodeOffset_aligned),
    dif_neg (not_ne_iff.mpr thunk.threadManagedStackOffset_aligned),
    dif_neg (Nat.not_lt.mpr thunk.quickCodeOffset_le),
    dif_neg (Nat.not_lt.mpr thunk.threadManagedStackOffset_le),
    dif_neg (Nat.not_lt.mpr thunk.linkOffset_le)]

/-! ## Where it leaves -/

/-- Only the scratch registers, the method register and the flags have changed. -/
structure Keeps (s t : State) : Prop where
  x : ∀ n, n ≠ 0 → n ≠ 16 → n ≠ 17 → t.x n = s.x n
  v : t.v = s.v
  sp : t.sp = s.sp
  mem : t.mem = s.mem

/-- The thunk left for the original implementation, with the called method in `x0`. -/
structure ToOriginal (s : State) (e : Exit) : Prop where
  label : labelAt thunk.code e.pc = some original
  target : e.target = thunk.originalDispatchCode
  method : e.state.x 0 = s.x 0
  keeps : Keeps s e.state

/-- The thunk left for the clone's quick code, with the clone in `x0`. -/
structure ToReplacement (s : State) (e : Exit) : Prop where
  label : labelAt thunk.code e.pc = some replacement
  target : e.target =
    s.mem.word (thunk.clonedMethod + BitVec.ofNat 64 thunk.quickCodeOffset)
  method : e.state.x 0 = thunk.clonedMethod
  keeps : Keeps s e.state

variable {thunk}

theorem ToOriginal.not_toReplacement {s : State} {e : Exit} (h : thunk.ToOriginal s e) :
    ¬ thunk.ToReplacement s e := by
  intro h'
  have := h.label.symm.trans h'.label
  exact absurd this (by decide)

/-! ## Running it -/

variable (thunk) in
/-- What the thunk tests, read off its instructions: unlike the predicate it takes the top
quick-frame word with its tag. -/
def takesOriginal (s : State) : Prop :=
  let managedStack := s.x 19 + BitVec.ofNat 64 thunk.threadManagedStackOffset
  let link := s.mem.word (managedStack + BitVec.ofNat 64 POINTER_SIZE)
  let linkTopQuickFrame := s.mem.word link &&& frameMask
  s.x 19 ≠ 0 ∧ s.mem.word managedStack = 0 ∧ link ≠ 0 ∧ linkTopQuickFrame ≠ 0 ∧
    s.mem.word linkTopQuickFrame = thunk.clonedMethod

namespace Keeps

variable {s t : State}

theorem refl (s : State) : Keeps s s := ⟨fun _ _ _ _ ↦ rfl, rfl, rfl, rfl⟩

theorem set (h : Keeps s t) {n : Fin 31} (hn : n = 0 ∨ n = 16 ∨ n = 17) (value : BitVec 64) :
    Keeps s (t.set (.x n) value) where
  x m h0 h16 h17 := by
    have hm : m ≠ n := by rintro rfl; simp_all
    rw [State.set_x_x, if_neg hm, h.x m h0 h16 h17]
  v := h.v
  sp := h.sp
  mem := (State.set_mem t _ value).trans h.mem

theorem cmp (h : Keeps s t) (left right : Reg) : Keeps s (Instr.effect t (.cmp left right)) :=
  ⟨h.x, h.v, h.sp, h.mem⟩

theorem load (h : Keeps s t) (a : BitVec 64) : t.load a 8 = s.mem.word a := by
  rw [State.load, h.mem]
  rfl

end Keeps

variable {callee : BitVec 64 → State → State} {s t : State}

theorem run_replacement (h : Keeps s t) (fuel : Nat) :
    ∃ e, Arm64.run callee thunk.code (fuel + 4) 18 t = some e ∧ thunk.ToReplacement s e := by
  let t' := t.set (.x 0) thunk.clonedMethod
  let quickCode := t'.load (thunk.clonedMethod + BitVec.ofNat 64 thunk.quickCodeOffset) 8
  have hclone : Keeps s t' := h.set (.inl rfl) thunk.clonedMethod
  refine ⟨⟨21, quickCode, t'.set (.x 16) quickCode⟩, ?_, rfl, hclone.load _, rfl,
    hclone.set (.inr (.inl rfl)) _⟩
  rw [run_step (i := .label replacement) rfl rfl,
    run_step (i := .ldrImm (.x 0) thunk.clonedMethod) rfl rfl,
    run_step (i := .ldr (.x 16) (.x 0) thunk.quickCodeOffset) rfl rfl,
    run_leave (i := .br (.x 16)) rfl rfl]
  rfl

theorem run_original (h : Keeps s t) (hmethod : t.x 0 = s.x 0) (fuel : Nat) :
    ∃ e, Arm64.run callee thunk.code (fuel + 3) 15 t = some e ∧ thunk.ToOriginal s e := by
  refine ⟨⟨17, thunk.originalDispatchCode, t.set (.x 16) thunk.originalDispatchCode⟩, ?_, rfl, rfl,
    hmethod, h.set (.inr (.inl rfl)) _⟩
  rw [run_step (i := .label original) rfl rfl,
    run_step (i := .ldrImm (.x 16) thunk.originalDispatchCode) rfl rfl,
    run_leave (i := .br (.x 16)) rfl rfl]
  rfl

/-- The last steps of the frame check, with the two methods it compares in `x16` and `x17`. -/
theorem run_compare (h : Keeps s t) (hmethod : t.x 0 = s.x 0) {left right : BitVec 64}
    (hleft : t.x 16 = left) (hright : t.x 17 = right) (fuel : Nat) :
    ∃ e, Arm64.run callee thunk.code (fuel + 7) 12 t = some e ∧
      if left = right then thunk.ToOriginal s e else thunk.ToReplacement s e := by
  subst hleft hright
  have hcmp := h.cmp (.x 16) (.x 17)
  rw [run_step (i := .cmp (.x 16) (.x 17)) rfl rfl]
  by_cases hequal : t.x 16 = t.x 17
  · have hflag : (Instr.effect t (.cmp (.x 16) (.x 17))).equal = true := decide_eq_true hequal
    obtain ⟨e, he, hto⟩ := run_original hcmp hmethod (fuel + 2)
    rw [run_jump (i := .bEq original) rfl (Instr.control_bEq_of_equal _ hflag) rfl]
    exact ⟨e, he, by rwa [if_pos hequal]⟩
  · have hflag : (Instr.effect t (.cmp (.x 16) (.x 17))).equal = false := decide_eq_false hequal
    obtain ⟨e, he, hto⟩ := run_replacement hcmp fuel
    rw [run_step (i := .bEq original) rfl (Instr.control_bEq_of_not_equal _ hflag),
      run_jump (i := .b replacement) rfl rfl rfl]
    exact ⟨e, he, by rwa [if_neg hequal]⟩

-- the linter would evaluate the words that are loaded
set_option linter.constructorNameAsVariable false in
/-- From the frame check on, with the linked fragment's top quick-frame word in `x16`. -/
theorem run_frameCheck (h : Keeps s t) (hmethod : t.x 0 = s.x 0) {frame : BitVec 64}
    (hx : t.x 16 &&& frameMask = frame) (fuel : Nat) :
    ∃ e, Arm64.run callee thunk.code (fuel + 11) 8 t = some e ∧
      if frame ≠ 0 ∧ s.mem.word frame = thunk.clonedMethod then thunk.ToOriginal s e
      else thunk.ToReplacement s e := by
  subst hx
  let frame := t.x 16 &&& frameMask
  let t' := t.set (.x 16) frame
  have hmask : Keeps s t' := h.set (.inr (.inl rfl)) frame
  have hstep : Arm64.run callee thunk.code (fuel + 11) 8 t =
      Arm64.run callee thunk.code (fuel + 10) 9 t' :=
    run_step (i := .andImm (.x 16) (.x 16) frameMask) rfl rfl
  rw [hstep]
  by_cases hframe : frame = 0
  · have hzero : t'.get (.x 16) = 0 := hframe
    obtain ⟨e, he, hto⟩ := run_replacement hmask (fuel + 5)
    rw [run_jump (i := .cbz (.x 16) replacement) rfl (Instr.control_cbz_of_eq _ hzero) rfl]
    exact ⟨e, he, by rwa [if_neg fun h ↦ h.1 hframe]⟩
  · have hnonzero : t'.get (.x 16) ≠ 0 := hframe
    have hload : t'.load (frame + BitVec.ofNat 64 0) 8 = s.mem.word frame := by
      rw [hmask.load, BitVec.add_zero]
    have hloaded := (hmask.set (.inr (.inl rfl)) (t'.load (frame + BitVec.ofNat 64 0) 8)).set
      (.inr (.inr rfl)) thunk.clonedMethod
    obtain ⟨e, he, hto⟩ := run_compare hloaded hmethod hload
      (show _ = thunk.clonedMethod from rfl) fuel
    rw [run_step (i := .cbz (.x 16) replacement) rfl (Instr.control_cbz_of_ne _ hnonzero),
      run_step (i := .ldr (.x 16) (.x 16) 0) rfl rfl,
      run_step (i := .ldrImm (.x 17) thunk.clonedMethod) rfl rfl]
    refine ⟨e, he, ?_⟩
    by_cases hmatch : s.mem.word frame = thunk.clonedMethod
    · rw [if_pos hmatch] at hto
      rwa [if_pos ⟨hframe, hmatch⟩]
    · rw [if_neg hmatch] at hto
      rwa [if_neg fun h ↦ hmatch h.2]

/-- From `checkLink` on: no quick frame is on top. -/
theorem run_checkLink (h : Keeps s t) (hmethod : t.x 0 = s.x 0) {managedStack link : BitVec 64}
    (hstack : s.x 19 + BitVec.ofNat 64 thunk.threadManagedStackOffset = managedStack)
    (hlink : s.mem.word (managedStack + BitVec.ofNat 64 POINTER_SIZE) = link) (fuel : Nat) :
    ∃ e, Arm64.run callee thunk.code (fuel + 15) 4 t = some e ∧
      if link ≠ 0 ∧ s.mem.word link &&& frameMask ≠ 0 ∧
          s.mem.word (s.mem.word link &&& frameMask) = thunk.clonedMethod then
        thunk.ToOriginal s e
      else thunk.ToReplacement s e := by
  let value := t.load (t.x 19 + BitVec.ofNat 64 (thunk.threadManagedStackOffset + POINTER_SIZE)) 8
  have hvalue : value = link := (h.load _).trans <| by
    rw [h.x 19 (by decide) (by decide) (by decide), BitVec.ofNat_add, ← BitVec.add_assoc, hstack,
      hlink]
  let t' := t.set (.x 16) value
  have h' : Keeps s t' := h.set (.inr (.inl rfl)) value
  have hrun : Arm64.run callee thunk.code (fuel + 15) 4 t =
      Arm64.run callee thunk.code (fuel + 13) 6 t' := by
    rw [run_step (i := .label checkLink) rfl rfl,
      run_step (i := .ldr (.x 16) (.x 19) (thunk.threadManagedStackOffset + POINTER_SIZE)) rfl rfl]
    rfl
  rw [hrun]
  by_cases hzero : link = 0
  · have hx : t'.get (.x 16) = 0 := hvalue.trans hzero
    obtain ⟨e, he, hto⟩ := run_replacement h' (fuel + 8)
    rw [run_jump (i := .cbz (.x 16) replacement) rfl (Instr.control_cbz_of_eq _ hx) rfl]
    exact ⟨e, he, by rwa [if_neg fun h ↦ h.1 hzero]⟩
  · have hx : t'.get (.x 16) ≠ 0 := fun h ↦ hzero (hvalue.symm.trans h)
    let word := t'.load (value + BitVec.ofNat 64 0) 8
    have hword : word = s.mem.word link := (h'.load _).trans <| by
      rw [BitVec.add_zero, hvalue]
    obtain ⟨e, he, hto⟩ := run_frameCheck
      (h'.set (.inr (.inl rfl)) word) hmethod
      (show word &&& frameMask = s.mem.word link &&& frameMask by rw [hword]) fuel
    rw [run_step (i := .cbz (.x 16) replacement) rfl (Instr.control_cbz_of_ne _ hx),
      run_step (i := .ldr (.x 16) (.x 16) 0) rfl rfl]
    refine ⟨e, he, ?_⟩
    by_cases hframe : s.mem.word link &&& frameMask ≠ 0 ∧
        s.mem.word (s.mem.word link &&& frameMask) = thunk.clonedMethod
    · rw [if_pos hframe] at hto
      rwa [if_pos ⟨hzero, hframe⟩]
    · rw [if_neg hframe] at hto
      rwa [if_neg fun h ↦ hframe h.2]

set_option linter.constructorNameAsVariable false in
/-- **What the thunk does**, on every memory and for every thread pointer. -/
theorem run_dispatches (thunk : ArtMethodDispatchThunk) (callee : BitVec 64 → State → State)
    (s : State) :
    ∃ e, thunk.run callee s = some e ∧
      (thunk.takesOriginal s → thunk.ToOriginal s e) ∧
        (¬ thunk.takesOriginal s → thunk.ToReplacement s e) := by
  show ∃ e, Arm64.run callee thunk.code 23 0 s = some e ∧ _
  have hs := Keeps.refl s
  by_cases hthread : s.x 19 = 0
  · obtain ⟨e, he, hto⟩ := run_replacement hs 18
    rw [run_jump (i := .cbz (.x 19) replacement) rfl (Instr.control_cbz_of_eq _ hthread) rfl]
    exact ⟨e, he, fun h ↦ absurd hthread h.1, fun _ ↦ hto⟩
  let managedStack := s.x 19 + BitVec.ofNat 64 thunk.threadManagedStackOffset
  let t := s.set (.x 16) (s.load managedStack 8)
  have ht : Keeps s t := hs.set (.inr (.inl rfl)) _
  have htop : t.get (.x 16) = s.mem.word managedStack := hs.load managedStack
  have hrun : Arm64.run callee thunk.code 23 0 s = Arm64.run callee thunk.code 21 2 t := by
    rw [run_step (i := .cbz (.x 19) replacement) rfl (Instr.control_cbz_of_ne _ hthread),
      run_step (i := .ldr (.x 16) (.x 19) thunk.threadManagedStackOffset) rfl rfl]
    rfl
  rw [hrun]
  by_cases hquick : s.mem.word managedStack = 0
  · obtain ⟨e, he, hto⟩ := run_checkLink ht rfl rfl rfl 5
    rw [run_jump (i := .cbz (.x 16) checkLink) rfl
        (Instr.control_cbz_of_eq _ (htop.trans hquick)) rfl]
    refine ⟨e, he, fun h ↦ ?_, fun h ↦ ?_⟩
    · rwa [if_pos h.2.2] at hto
    · rwa [if_neg fun h' ↦ h ⟨hthread, hquick, h'⟩] at hto
  · obtain ⟨e, he, hto⟩ := run_replacement ht 15
    rw [run_step (i := .cbz (.x 16) checkLink) rfl
        (Instr.control_cbz_of_ne _ fun h ↦ hquick (htop.symm.trans h)),
      run_jump (i := .b replacement) rfl rfl rfl]
    exact ⟨e, he, fun h ↦ absurd h.2.1 hquick, fun _ ↦ hto⟩

/-! ## The thunk and the predicate -/

variable (thunk) in
/-- The thunk leaves for the original just where the predicate holds, and for the replacement just
where it does not. -/
def Agrees (callee : BitVec 64 → State → State) (s : State) : Prop :=
  ∃ e, thunk.run callee s = some e ∧
    (thunk.ToOriginal s e ↔ replacementFrameIsActive s.mem thunk.clonedMethod (s.x 19)
      thunk.threadManagedStackOffset = true) ∧
    (thunk.ToReplacement s e ↔ replacementFrameIsActive s.mem thunk.clonedMethod (s.x 19)
      thunk.threadManagedStackOffset = false)

variable (thunk) in
/-- The top quick-frame word is a null pointer with a tag (1, 2 or 3), and the frame that the link
leads to is the clone's. -/
def TaggedTopOverClone (s : State) : Prop :=
  let managedStack := s.x 19 + BitVec.ofNat 64 thunk.threadManagedStackOffset
  let link := s.mem.word (managedStack + BitVec.ofNat 64 POINTER_SIZE)
  let linkTopQuickFrame := s.mem.word link &&& frameMask
  s.x 19 ≠ 0 ∧ (s.mem.word managedStack ≠ 0 ∧ s.mem.word managedStack &&& frameMask = 0) ∧
    link ≠ 0 ∧ linkTopQuickFrame ≠ 0 ∧ s.mem.word linkTopQuickFrame = thunk.clonedMethod

instance (s : State) : Decidable (thunk.TaggedTopOverClone s) :=
  inferInstanceAs (Decidable (_ ∧ _ ∧ _ ∧ _ ∧ _))

/-- The predicate holds where the thunk takes the original, and above a tagged null word. -/
theorem replacementFrameIsActive_iff (thunk : ArtMethodDispatchThunk) (s : State) :
    replacementFrameIsActive s.mem thunk.clonedMethod (s.x 19) thunk.threadManagedStackOffset =
      true ↔ thunk.takesOriginal s ∨ thunk.TaggedTopOverClone s := by
  rw [replacementFrameIsActive_eq_true rfl rfl rfl]
  constructor
  · rintro ⟨⟨-, hthread⟩, hmasked, hlinked⟩
    by_cases htop : s.mem.word (s.x 19 + BitVec.ofNat 64 thunk.threadManagedStackOffset) = 0
    · exact .inl ⟨hthread, htop, hlinked⟩
    · exact .inr ⟨hthread, ⟨htop, hmasked⟩, hlinked⟩
  · rintro (⟨hthread, htop, hlinked⟩ | ⟨hthread, ⟨-, hmasked⟩, hlinked⟩)
    · exact ⟨⟨thunk.clonedMethod_ne, hthread⟩, by rw [htop]; exact BitVec.zero_and, hlinked⟩
    · exact ⟨⟨thunk.clonedMethod_ne, hthread⟩, hmasked, hlinked⟩

theorem takesOriginal_ne_tagged {s : State} (h : thunk.takesOriginal s) :
    ¬ thunk.TaggedTopOverClone s := fun h' ↦ h'.2.1.1 h.2.1

/-- Above a tagged null word the thunk takes the replacement and the predicate holds. -/
theorem not_agrees_of_tagged {s : State} (h : thunk.TaggedTopOverClone s) :
    ¬ thunk.Agrees callee s := by
  obtain ⟨e, he, -, hreplacement⟩ := run_dispatches thunk callee s
  rintro ⟨e', he', horiginal, -⟩
  obtain rfl := Option.some.inj (he.symm.trans he')
  have hto := horiginal.mpr ((replacementFrameIsActive_iff thunk s).mpr (.inr h))
  exact hto.not_toReplacement (hreplacement fun h' ↦ takesOriginal_ne_tagged h' h)

theorem agrees_of_not_tagged {s : State} (h : ¬ thunk.TaggedTopOverClone s) :
    thunk.Agrees callee s := by
  obtain ⟨e, he, horiginal, hreplacement⟩ := run_dispatches thunk callee s
  have hactive := replacementFrameIsActive_iff thunk s
  refine ⟨e, he, ?_⟩
  by_cases htakes : thunk.takesOriginal s
  · have hto := horiginal htakes
    have htrue := hactive.mpr (.inl htakes)
    exact ⟨⟨fun _ ↦ htrue, fun _ ↦ hto⟩,
      ⟨fun h' ↦ absurd h' hto.not_toReplacement, fun h' ↦ by rw [htrue] at h'; cases h'⟩⟩
  · have hto := hreplacement htakes
    have hfalse := Bool.eq_false_iff.mpr fun ha ↦ (hactive.mp ha).elim htakes h
    exact ⟨⟨fun h' ↦ absurd hto h'.not_toReplacement, fun h' ↦ by rw [hfalse] at h'; cases h'⟩,
      ⟨fun _ ↦ hfalse, fun _ ↦ hto⟩⟩

/-- **Where the thunk agrees with the predicate**: everywhere but above a tagged null word whose
link leads to the clone's frame. -/
theorem agrees_iff (thunk : ArtMethodDispatchThunk) (callee : BitVec 64 → State → State)
    (s : State) : thunk.Agrees callee s ↔ ¬ thunk.TaggedTopOverClone s :=
  ⟨fun h htagged ↦ not_agrees_of_tagged htagged h, agrees_of_not_tagged⟩

/-- Where they agree, a call through the patched quick code and a call through an entrypoint hook go
to the same method. -/
theorem toOriginal_iff_translate {s : State} {methods : BitVec 64 → Option MethodRecord}
    {method : BitVec 64}
    (hrecord : methods method = some ⟨thunk.clonedMethod, thunk.threadManagedStackOffset⟩)
    (hclone : thunk.clonedMethod ≠ method) (h : ¬ thunk.TaggedTopOverClone s) :
    ∃ e, thunk.run callee s = some e ∧
      (thunk.ToOriginal s e ↔
        translateMethodArgumentForThread s.mem methods method (s.x 19) = method) := by
  obtain ⟨e, he, horiginal, -⟩ := agrees_of_not_tagged h
  refine ⟨e, he, horiginal.trans ?_⟩
  rw [translateMethodArgumentForThread, hrecord]
  show _ ↔ (if _ then method else thunk.clonedMethod) = method
  split
  · next hactive => exact ⟨fun _ ↦ rfl, fun _ ↦ hactive⟩
  · next hactive => exact ⟨fun h' ↦ absurd h' hactive, fun h' ↦ absurd h' hclone⟩

/-! ## A tagged top frame -/

/-- The clone at `0x1000`, its quick code at offset 32, and the managed stack at offset 160. -/
def example160 : ArtMethodDispatchThunk where
  clonedMethod := 0x1000
  originalDispatchCode := 0x2000
  quickCodeOffset := 32
  threadManagedStackOffset := 160
  clonedMethod_ne := by decide
  originalDispatchCode_ne := by decide
  quickCodeOffset_aligned := by decide
  threadManagedStackOffset_aligned := by decide
  quickCodeOffset_le := by decide
  threadManagedStackOffset_le := by decide
  linkOffset_le := by decide

/-- The thread at `0x8000` has the word 1 on top, and its link leads to a frame of the clone. -/
def taggedTop : State where
  x := Function.update (fun _ ↦ 0) 19 0x8000
  sp := 0
  v := fun _ ↦ 0
  equal := false
  mem := (((ByteMemory.store (fun _ ↦ 0) 0x80a0 8 1).store 0x80a8 8 0x9000).store 0x9000 8
    0xa000).store 0xa000 8 0x1000

theorem taggedTop_not_agrees :
    ¬ ∀ (thunk : ArtMethodDispatchThunk) (callee : BitVec 64 → State → State) (s : State),
      thunk.Agrees callee s := by
  intro h
  have htagged : example160.TaggedTopOverClone taggedTop := by decide +kernel
  exact not_agrees_of_tagged htagged (h example160 (fun _ s ↦ s) taggedTop)

end ArtMethodDispatchThunk

end JavaBridge.Art

import JavaBridge.Trampoline.Capture

/-!
# The size of a closure thunk

The thunk of a replacement is written into one mapping of `THUNK_CODE_LENGTH` bytes. What is
accepted is bounded by the frame, to which every argument adds eight bytes. The code grows with the
arguments too: by four bytes for an argument in a register, and by eight for one on the stack.

Main results:

* `closureTrampoline_size`, `size_of_accepted`: the size of the code, and that its immediates can be
  encoded.
* `fitsThunkPage_iff`: which of the accepted signatures have a thunk that fits.
-/

universe u

namespace JavaBridge.Trampoline

open Arm64 Instr

variable {θ : Type u}

def THUNK_CODE_LENGTH : Nat := 4096

/-- The instructions that the thunk has for a signature: a store for every argument, a load for
every argument on the stack, and a load of the return value. -/
def signatureInstructions (signature : MethodSignature) : Nat :=
  signature.arguments.length + spilled signature.arguments +
    if signature.returnType = .void then 0 else 1

/-! ## The fixed parts -/

theorem codeBytes_enterFrame (frameSize : Nat) (state : BitVec 64) (argumentCount : Nat) :
    codeBytes (enterFrame frameSize state argumentCount) = 56 := rfl

theorem codeBytes_leaveFrame (frameSize : Nat) (ty : JavaType) :
    codeBytes (leaveFrame frameSize (ClosureValueLayout.forType ty)) =
      8 + 4 * if ty = .void then 0 else 1 := by
  cases ty <;> rfl

theorem encodable_storeRegister (r : Reg) {n : Nat} (h : n < 2048) :
    ∀ i ∈ storeRegister r (8 * n), i.Encodable := by
  intro i hi
  rw [List.mem_singleton.1 hi]
  exact encodable_offset h

/-! ## The captures -/

/-- The loads before an argument can be stored. -/
def stackLoads : ClosureArgumentLocation → Nat
  | .stack _ => 1
  | .generalRegister _ | .floatRegister _ => 0

theorem spilled_append (earlier : List JavaType) {ty : JavaType} (hty : ty ≠ .void) :
    spilled (earlier ++ [ty]) =
      spilled earlier + stackLoads (jniPlace earlier (argumentClass ty)) := by
  have hclass : (ClosureValueLayout.forType ty).registerClass = some (argumentClass ty) := by
    cases ty <;> first | rfl | exact absurd rfl hty
  have hgeneral := classCount_append .general earlier ty
  have hfloat := classCount_append .float earlier ty
  rw [hclass] at hgeneral hfloat
  rw [spilled, spilled, hgeneral, hfloat]
  cases argumentClass ty with
  | general =>
    rw [if_pos rfl, if_neg (by decide), jniPlace]
    split <;> simp only [stackLoads] <;> omega
  | float =>
    rw [if_neg (by decide), if_pos rfl, jniPlace]
    split <;> simp only [stackLoads] <;> omega

/-- The block of one argument, in a frame of `8 * frame` bytes. -/
theorem captureArgument_size {frame index : Nat} (hframe : frame ≤ 512) (hindex : index < 506)
    (earlier : List JavaType) (hearlier : earlier.length ≤ 506) {ty : JavaType} (hty : ty ≠ .void) :
    ∃ block, captureArgument (8 * frame) index
        ⟨ty, ClosureValueLayout.forType ty, jniPlace earlier (argumentClass ty)⟩ = some block ∧
      codeBytes block = 4 + 4 * stackLoads (jniPlace earlier (argumentClass ty)) ∧
      ∀ i ∈ block, i.Encodable := by
  have hslot : closureArgumentsOffset + 8 * index = 8 * (6 + index) := by
    rw [closureArgumentsOffset]
    omega
  have hstore (r : Reg) : ∀ i ∈ storeRegister r (8 * (6 + index)), i.Encodable :=
    encodable_storeRegister r (by omega)
  rcases jniPlace_cases earlier (argumentClass ty) with
    ⟨n, -, hn, hclass, hplace⟩ | ⟨n, hn, hclass, hplace⟩ | hplace
  · obtain ⟨r, hr, -⟩ := argumentRegister_general hty hclass hn
    rw [hplace]
    refine ⟨storeRegister r (8 * (6 + index)), ?_, rfl, hstore r⟩
    rw [← hslot]
    exact congrArg (Option.map fun r ↦ storeRegister r _) hr
  · obtain ⟨r, hr, -⟩ := argumentRegister_float hclass hn
    rw [hplace]
    refine ⟨storeRegister r (8 * (6 + index)), ?_, rfl, hstore r⟩
    rw [← hslot]
    exact congrArg (Option.map fun r ↦ storeRegister r _) hr
  · rw [hplace]
    refine ⟨_, rfl, rfl, fun i hi ↦ ?_⟩
    rcases List.mem_cons.1 hi with rfl | hi
    · have hspilled := spilled_le earlier
      have hoffset : 8 * frame + 16 + 8 * spilled earlier = 8 * (frame + 2 + spilled earlier) := by
        omega
      show (8 * frame + 16 + 8 * spilled earlier) % _ = 0 ∧ _
      rw [hoffset]
      exact encodable_offset (by omega)
    · rw [hslot] at hi
      exact hstore _ i hi

theorem captureArguments_size {frame : Nat} (hframe : frame ≤ 512) {tys : List JavaType}
    (htys : JavaType.void ∉ tys) :
    ∀ (index : Nat) (earlier : List JavaType), index + tys.length ≤ 506 →
      earlier.length + tys.length ≤ 506 →
      ∃ blocks, captureArguments (8 * frame) index (jniLayout earlier tys) = some blocks ∧
        codeBytes blocks + 4 * spilled earlier = 4 * (tys.length + spilled (earlier ++ tys)) ∧
        ∀ i ∈ blocks, i.Encodable := by
  induction tys with
  | nil =>
    intro index earlier _ _
    refine ⟨[], rfl, ?_, List.forall_mem_nil _⟩
    rw [List.append_nil, List.length_nil, codeBytes]
    omega
  | cons ty tys ih =>
    intro index earlier hindex hlength
    rw [List.mem_cons, not_or] at htys
    rw [List.length_cons] at hindex hlength
    have hfirst : index < 506 := by omega
    obtain ⟨block, hblock, hbytes, hencodable⟩ := captureArgument_size hframe hfirst earlier
      (by omega) (Ne.symm htys.1)
    obtain ⟨blocks, hblocks, hrest, hrestEncodable⟩ := ih htys.2 (index + 1) (earlier ++ [ty])
      (by omega) (by
        rw [List.length_append, List.length_singleton]
        omega)
    have hspilled := spilled_append earlier (Ne.symm htys.1)
    refine ⟨block ++ blocks, ?_, ?_, ?_⟩
    · rw [jniLayout, captureArguments, hblock, Option.bind_some, hblocks]
      rfl
    · rw [List.append_assoc, List.singleton_append] at hrest
      rw [codeBytes_append, hbytes, List.length_cons]
      omega
    · intro i hi
      exact (List.mem_append.1 hi).elim (hencodable i) (hrestEncodable i)

/-! ## The thunk -/

theorem encodable_enterFrame {frameSize : Nat} (hframe : frameSize ≤ MAX_INVOCATION_FRAME_SIZE)
    (state : BitVec 64) (argumentCount : Nat) :
    ∀ i ∈ enterFrame frameSize state argumentCount, i.Encodable := by
  have hsize : frameSize < 4096 ∨ frameSize % 4096 = 0 ∧ frameSize / 4096 < 4096 := by
    rw [MAX_INVOCATION_FRAME_SIZE] at hframe
    omega
  simp [enterFrame, storeImmediate, storeRegister, frameOffset, closureArgumentsOffset,
    Instr.Encodable, Reg.bytes, hsize]

theorem encodable_leaveFrame {frameSize : Nat} (hframe : frameSize ≤ MAX_INVOCATION_FRAME_SIZE)
    (value : ClosureValueLayout) : ∀ i ∈ leaveFrame frameSize value, i.Encodable := by
  have hsize : frameSize < 4096 ∨ frameSize % 4096 = 0 ∧ frameSize / 4096 < 4096 := by
    rw [MAX_INVOCATION_FRAME_SIZE] at hframe
    omega
  cases value <;>
    simp [leaveFrame, loadReturnValue, frameOffset, Instr.Encodable, Reg.bytes, hsize]

/-- The code of an accepted signature: what it takes, and that its immediates can be encoded. -/
theorem closureTrampoline_size {signature : MethodSignature}
    (hvoid : JavaType.void ∉ signature.arguments) (hlength : signature.arguments.length ≤ 506)
    (state dispatcher : BitVec 64) :
    ∃ code, writeClosureTrampoline state dispatcher ⟨jniLayout [] signature.arguments,
        ClosureValueLayout.forType signature.returnType⟩ = some code ∧
      codeBytes code = 88 + 4 * signatureInstructions signature ∧ ∀ i ∈ code, i.Encodable := by
  have hcount := length_jniLayout [] signature.arguments
  let frame := (48 + signature.arguments.length * 8 + 15) / 16 * 2
  have hframe : frame ≤ 512 := by omega
  have hsize : closureInvocationFrameSize ⟨jniLayout [] signature.arguments,
      ClosureValueLayout.forType signature.returnType⟩ = some (8 * frame) := by
    rw [closureInvocationFrameSize_eq_some, hcount]
    omega
  obtain ⟨captures, hcaptures, hbytes, hencodable⟩ :=
    captureArguments_size hframe hvoid 0 [] (by omega) (by rw [List.length_nil]; omega)
  have hmax : 8 * frame ≤ MAX_INVOCATION_FRAME_SIZE := by
    rw [MAX_INVOCATION_FRAME_SIZE]
    omega
  refine ⟨enterFrame (8 * frame) state signature.arguments.length ++ captures ++
      passFrame dispatcher ++ [.blr (.x 16)] ++
      leaveFrame (8 * frame) (ClosureValueLayout.forType signature.returnType) ++ [.ret],
    ?_, ?_, ?_⟩
  · rw [writeClosureTrampoline, hsize, Option.bind_some, hcaptures, hcount]
    rfl
  · have hpass : codeBytes (passFrame dispatcher) = 16 := rfl
    have hcall : codeBytes [.blr (.x 16)] = 4 := rfl
    have hret : codeBytes [.ret] = 4 := rfl
    have hnone : spilled [] = 0 := rfl
    rw [List.nil_append, hnone] at hbytes
    rw [codeBytes_append, codeBytes_append, codeBytes_append, codeBytes_append, codeBytes_append,
      codeBytes_enterFrame, hpass, hcall, codeBytes_leaveFrame, hret, signatureInstructions]
    omega
  · simp only [List.forall_mem_append]
    refine ⟨⟨⟨⟨⟨?_, hencodable⟩, ?_⟩, ?_⟩, encodable_leaveFrame hmax _⟩, ?_⟩
    · exact encodable_enterFrame hmax _ _
    · simp [passFrame, Instr.Encodable]
    · simp [Instr.Encodable]
    · simp [Instr.Encodable]

/-- The thunk of the replacement fits into its mapping, and its immediates can be encoded. -/
def FitsThunkPage (θ : Type u) (kind : MethodKind) (signature : MethodSignature) : Prop :=
  ∃ layout, closureReplacementLayout (θ := θ) kind signature = .ok layout ∧
    ∀ state dispatcher, ∃ code, writeClosureTrampoline state dispatcher layout = some code ∧
      codeBytes code ≤ THUNK_CODE_LENGTH ∧ ∀ i ∈ code, i.Encodable

/-- Of a signature that is accepted. -/
theorem size_of_accepted {kind : MethodKind} {signature : MethodSignature} {operation : String}
    (hvalid : validateClosureReplacementSignature (θ := θ) kind signature operation = .ok ()) :
    ∃ layout, closureReplacementLayout (θ := θ) kind signature = .ok layout ∧
      ∀ state dispatcher, ∃ code, writeClosureTrampoline state dispatcher layout = some code ∧
        codeBytes code = 88 + 4 * signatureInstructions signature ∧ ∀ i ∈ code, i.Encodable := by
  obtain ⟨hreturn, hvoid, hlength⟩ := validateClosureReplacementSignature_eq_ok.1 hvalid
  exact ⟨_, closureReplacementLayout_eq_ok.2 ⟨hreturn, hvoid, rfl⟩,
    closureTrampoline_size hvoid hlength⟩

theorem signatureInstructions_le_of_fits {kind : MethodKind} {signature : MethodSignature}
    {operation : String}
    (hvalid : validateClosureReplacementSignature (θ := θ) kind signature operation = .ok ())
    (hfits : FitsThunkPage θ kind signature) : signatureInstructions signature ≤ 1002 := by
  obtain ⟨layout, hlayout, hcode⟩ := size_of_accepted hvalid
  obtain ⟨layout', hlayout', hfits⟩ := hfits
  cases hlayout.symm.trans hlayout'
  obtain ⟨code, hwrite, hbytes, -⟩ := hcode 0 0
  obtain ⟨code', hwrite', hle, -⟩ := hfits 0 0
  cases hwrite.symm.trans hwrite'
  rw [hbytes, THUNK_CODE_LENGTH] at hle
  omega

theorem fits_of_signatureInstructions_le {kind : MethodKind} {signature : MethodSignature}
    {operation : String}
    (hvalid : validateClosureReplacementSignature (θ := θ) kind signature operation = .ok ())
    (hle : signatureInstructions signature ≤ 1002) : FitsThunkPage θ kind signature := by
  obtain ⟨layout, hlayout, hcode⟩ := size_of_accepted hvalid
  refine ⟨layout, hlayout, fun state dispatcher ↦ ?_⟩
  obtain ⟨code, hwrite, hbytes, hencodable⟩ := hcode state dispatcher
  refine ⟨code, hwrite, ?_, hencodable⟩
  rw [hbytes, THUNK_CODE_LENGTH]
  omega

/-- **What fits, exactly**: of the signatures that are accepted, those with at most 1002
instructions of their own. -/
theorem fitsThunkPage_iff {kind : MethodKind} {signature : MethodSignature} {operation : String}
    (hvalid : validateClosureReplacementSignature (θ := θ) kind signature operation = .ok ()) :
    FitsThunkPage θ kind signature ↔ signatureInstructions signature ≤ 1002 :=
  ⟨signatureInstructions_le_of_fits hvalid, fits_of_signatureInstructions_le hvalid⟩

theorem classCount_add_le (tys : List JavaType) :
    classCount .general tys + classCount .float tys ≤ tys.length := by
  induction tys with
  | nil => exact Nat.le_refl 0
  | cons ty tys ih =>
    simp only [classCount, List.countP_cons, List.length_cons] at ih ⊢
    cases (ClosureValueLayout.forType ty).registerClass with
    | none =>
      simp only [reduceCtorEq, decide_false, Bool.false_eq_true, if_false]
      omega
    | some cls => cases cls <;> simp <;> omega

/-- Up to 503 arguments of any types fit, and so does every method that the Java virtual machine
admits. -/
theorem fitsThunkPage_of_length_le {kind : MethodKind} {signature : MethodSignature}
    {operation : String}
    (hvalid : validateClosureReplacementSignature (θ := θ) kind signature operation = .ok ())
    (hlength : signature.arguments.length ≤ 503) : FitsThunkPage θ kind signature := by
  apply fits_of_signatureInstructions_le hvalid
  have hcount := classCount_add_le signature.arguments
  rw [signatureInstructions, spilled]
  split <;> omega

/-! ## Methods of many `int`s -/

/-- `static int m(int, …)`. -/
def intsSignature (n : Nat) : MethodSignature := ⟨.replicate n .int, .int⟩

theorem accepts_ints {n : Nat} (h : n ≤ 506) (operation : String) :
    validateClosureReplacementSignature (θ := θ) .staticMethod (intsSignature n) operation =
      .ok () := by
  refine validateClosureReplacementSignature_eq_ok.2 ⟨nofun, fun hvoid ↦ ?_, ?_⟩
  · cases List.eq_of_mem_replicate hvoid
  · show (List.replicate n JavaType.int).length ≤ 506
    rwa [List.length_replicate]

theorem signatureInstructions_ints (n : Nat) :
    signatureInstructions (intsSignature n) = n + (n - 6) + 1 := by
  have hgeneral : classCount .general (.replicate n .int) = n := by
    rw [classCount, List.countP_replicate]
    rfl
  have hfloat : classCount .float (.replicate n .int) = 0 := by
    rw [classCount, List.countP_replicate]
    rfl
  show (List.replicate n JavaType.int).length + spilled (.replicate n .int) + 1 = _
  rw [List.length_replicate, spilled, hgeneral, hfloat]
  rfl

/-- 255 arguments, as many as Java allows. -/
theorem fitsThunkPage_iff_255 :
    FitsThunkPage Unit .staticMethod (intsSignature 255) ↔
      signatureInstructions (intsSignature 255) ≤ 1002 :=
  fitsThunkPage_iff (accepts_ints (by decide) "test")

/-- 504 arguments are accepted, and their thunk is four bytes too long. -/
theorem not_fitsThunkPage :
    ¬∀ (kind : MethodKind) (signature : MethodSignature) (operation : String),
      validateClosureReplacementSignature (θ := Unit) kind signature operation = .ok () →
        FitsThunkPage Unit kind signature := by
  intro hfits
  have haccepted := accepts_ints (θ := Unit) (n := 504) (by decide) "test"
  have hle := signatureInstructions_le_of_fits haccepted (hfits _ _ _ haccepted)
  rw [signatureInstructions_ints] at hle
  omega

end JavaBridge.Trampoline

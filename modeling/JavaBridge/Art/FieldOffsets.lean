import JavaBridge.Library.Fallible
import JavaBridge.RunnableThread.Transition

/-!
# Offsets of fields, from machine code

Some fields of the runtime are found by the instructions that use them: the one that says how method
ids are to be read by the comparison or the call in `Runtime::SetJniIdType`, and the instrumentation
by the first instruction of `Runtime::DeoptimizeBootImage` that takes its address or loads it.

Main results:

* `detectJniIdsIndirectionOffset_eq_some`: the offset of the indirection is one that two instructions
  name.
* `detectInstrumentationOffset_eq_ok_iff`: the offset of the instrumentation is the first that fits.
-/

namespace JavaBridge.Art

open RunnableThread (hex unsupported)

/-! ## Instructions -/

inductive Reg
  | x0
  | sp
  | other (reg : Nat)
  deriving DecidableEq

/-- An operand that the disassembler gives. -/
inductive Operand
  | reg (reg : Reg)
  | imm (imm : Int)
  | mem (base : Reg) (disp : Int)
  | other

inductive InsnId
  | ldr
  | str
  | add
  | cmp
  | bl
  | other
  deriving DecidableEq

structure Insn where
  id : InsnId
  address : Nat
  detail : Option (List Operand)

/-- What the relocator reads from the start of a function, one instruction after the other, with
`none` where it reads no more. -/
abbrev Code : Type := Nat → Option Insn

def operandReg (operands : List Operand) (index : Nat) : Option Reg :=
  match operands[index]? with
  | some (.reg reg) => some reg
  | _ => none

def operandImm (operands : List Operand) (index : Nat) : Option Int :=
  match operands[index]? with
  | some (.imm imm) => some imm
  | _ => none

def operandMem (operands : List Operand) (index : Nat) : Option (Reg × Int) :=
  match operands[index]? with
  | some (.mem base disp) => some (base, disp)
  | _ => none

/-- Where the runtime has the fields that are looked for. -/
def IsFieldOffset (offset : Int) : Prop := 0x100 ≤ offset ∧ offset ≤ 0x400

instance decidableIsFieldOffset (offset : Int) : Decidable (IsFieldOffset offset) :=
  inferInstanceAs (Decidable (_ ∧ _))

section

variable {θ : Type} (feature : String)

/-! ## The indirection of method ids -/

inductive Arm64MemoryAccessKind
  | load
  | store
  deriving DecidableEq

structure Arm64MemoryAccess where
  kind : Arm64MemoryAccessKind
  offset : Int

def decodeArm64Memory (instruction : Insn) (operands : List Operand) :
    Except (Error θ) (Reg × Reg × Int) :=
  match operandReg operands 0 with
  | none =>
    unsupported feature ("unable to decode ART ExceptionClear memory source register at " ++
      hex instruction.address)
  | some rt =>
    match operandMem operands 1 with
    | none =>
      unsupported feature ("unable to decode ART ExceptionClear memory operand at " ++
        hex instruction.address)
    | some (rn, offset) => .ok (rt, rn, offset)

def InsnId.accessKind : InsnId → Option Arm64MemoryAccessKind
  | .ldr => some .load
  | .str => some .store
  | _ => none

/-- The access of an instruction to the runtime, which is in `x0`. -/
def arm64RuntimeMemoryAccess (instruction : Insn) :
    Except (Error θ) (Option Arm64MemoryAccess) := do
  match instruction.id.accessKind with
  | none => .ok none
  | some kind =>
    match instruction.detail with
    | none =>
      unsupported feature ("unable to decode ART Runtime::SetJniIdType instruction detail at " ++
        hex instruction.address)
    | some operands =>
      let (_, rn, offset) ← decodeArm64Memory feature instruction operands
      if rn ≠ .x0 then .ok none else .ok (some ⟨kind, offset⟩)

/-- The offset of the access before a comparison or a call. -/
def indirectionOffset (id : InsnId) (previous : Option Arm64MemoryAccess) : Option Int :=
  match id with
  | .cmp => (previous.filter (·.kind = .load)).map (·.offset)
  | .bl => (previous.filter (·.kind = .store)).map (·.offset)
  | _ => none

/-- The rest of the loop. -/
def detectIndirectionFrom (code : Code) :
    List Nat → Option Arm64MemoryAccess → Except (Error θ) (Option Nat)
  | [], _ => .ok none
  | n :: ns, previous =>
    match code n with
    | none => .ok none
    | some instruction =>
      match (indirectionOffset instruction.id previous).filter (IsFieldOffset ·) with
      | some offset => .ok (some offset.toNat)
      | none => do
        let previous ← arm64RuntimeMemoryAccess feature instruction
        detectIndirectionFrom code ns previous

def detectJniIdsIndirectionOffset (setJniIdType : Code) : Except (Error θ) (Option Nat) :=
  detectIndirectionFrom feature setJniIdType (List.range 20) none

/-! ## The instrumentation -/

/-- The offset that an instruction loads from the runtime, or adds to a register. -/
def instrumentationOffset (instrumentationIsPointer : Bool) (id : InsnId)
    (operands : List Operand) : Option Int :=
  if instrumentationIsPointer then
    if id ≠ .ldr then none
    else
      match operandReg operands 0, operandMem operands 1 with
      | some rt, some (base, disp) => if rt ≠ .x0 ∧ base = .x0 then some disp else none
      | _, _ => none
  else if id = .add then
    match operandReg operands 0, operandReg operands 1, operandImm operands 2 with
    | some rd, some rn, some imm => if rd ≠ .sp ∧ rn ≠ .sp then some imm else none
    | _, _, _ => none
  else none

/-- The rest of the loop. -/
def detectInstrumentationFrom (code : Code) (instrumentationIsPointer : Bool) :
    List Nat → Except (Error θ) (Option Nat)
  | [] => .ok none
  | n :: ns =>
    match code n with
    | none => .ok none
    | some instruction =>
      match instruction.detail with
      | none =>
        unsupported feature
          ("unable to decode Runtime::DeoptimizeBootImage instruction detail at " ++
            hex instruction.address)
      | some operands =>
        match (instrumentationOffset instrumentationIsPointer instruction.id operands).filter
            (IsFieldOffset ·) with
        | some offset => .ok (some offset.toNat)
        | none => detectInstrumentationFrom code instrumentationIsPointer ns

def detectInstrumentationOffset (deoptimizeBootImage : Code) (instrumentationIsPointer : Bool) :
    Except (Error θ) (Option Nat) :=
  detectInstrumentationFrom feature deoptimizeBootImage instrumentationIsPointer (List.range 30)

/-! ## What is found -/

variable {feature}

/-- An error that says why a feature is not supported. -/
def IsUnsupported (feature : String) (error : Error θ) : Prop :=
  ∃ reason, error = .unsupportedFeature feature reason

theorem isUnsupported_of_unsupported {α : Type} {reason : String} {error : Error θ}
    (h : (unsupported feature reason : Except (Error θ) α) = .error error) :
    IsUnsupported feature error :=
  ⟨reason, (Except.error.inj h).symm⟩

theorem isUnsupported_of_arm64RuntimeMemoryAccess {instruction : Insn} {error : Error θ}
    (h : arm64RuntimeMemoryAccess feature instruction = .error error) :
    IsUnsupported feature error := by
  rw [arm64RuntimeMemoryAccess] at h
  split at h
  case h_1 => cases h
  case h_2 =>
    split at h
    case h_1 => exact isUnsupported_of_unsupported h
    case h_2 operands _ =>
      rcases Fallible.bind_eq_error.mp h with herror | ⟨access, -, h⟩
      · rw [decodeArm64Memory] at herror
        split at herror
        case h_1 => exact isUnsupported_of_unsupported herror
        case h_2 =>
          split at herror
          case h_1 => exact isUnsupported_of_unsupported herror
          case h_2 => cases herror
      · dsimp only at h
        split at h
        case isTrue => cases h
        case isFalse => cases h

theorem isUnsupported_of_detectIndirectionFrom {code : Code} {ns : List Nat}
    {previous : Option Arm64MemoryAccess} {error : Error θ}
    (h : detectIndirectionFrom feature code ns previous = .error error) :
    IsUnsupported feature error := by
  induction ns generalizing previous with
  | nil => cases h
  | cons n ns ih =>
    rw [detectIndirectionFrom] at h
    split at h
    case h_1 => cases h
    case h_2 =>
      split at h
      case h_1 => cases h
      case h_2 =>
        rcases Fallible.bind_eq_error.mp h with herror | ⟨access, -, h⟩
        · exact isUnsupported_of_arm64RuntimeMemoryAccess herror
        · exact ih h

/-- The instruction at `k` accesses the runtime at an offset, and the next one compares what has been
loaded, or calls a function after a store. -/
structure NamesIndirection (feature : String) (code : Code) (k offset : Nat) : Prop where
  field : IsFieldOffset offset
  access : ∃ access instruction next, code k = some instruction ∧ code (k + 1) = some next ∧
    (arm64RuntimeMemoryAccess feature instruction : Except (Error θ) _) = .ok (some access) ∧
    access.offset = offset ∧
    (access.kind = .load ∧ next.id = .cmp ∨ access.kind = .store ∧ next.id = .bl)

theorem indirectionOffset_eq_some {id : InsnId} {previous : Option Arm64MemoryAccess}
    {offset : Int} (h : indirectionOffset id previous = some offset) :
    ∃ access, previous = some access ∧ access.offset = offset ∧
      (access.kind = .load ∧ id = .cmp ∨ access.kind = .store ∧ id = .bl) := by
  cases id with
  | cmp =>
    obtain ⟨access, haccess, hoffset⟩ := Option.map_eq_some_iff.mp h
    obtain ⟨hprevious, hkind⟩ := Option.filter_eq_some_iff.mp haccess
    exact ⟨access, hprevious, hoffset, .inl ⟨of_decide_eq_true hkind, rfl⟩⟩
  | bl =>
    obtain ⟨access, haccess, hoffset⟩ := Option.map_eq_some_iff.mp h
    obtain ⟨hprevious, hkind⟩ := Option.filter_eq_some_iff.mp haccess
    exact ⟨access, hprevious, hoffset, .inr ⟨of_decide_eq_true hkind, rfl⟩⟩
  | ldr => cases h
  | str => cases h
  | add => cases h
  | other => cases h

/-- What the loop knows of the access before the next instruction. -/
theorem detectIndirectionFrom_eq_some {code : Code} {offset : Nat} {n k : Nat}
    {previous : Option Arm64MemoryAccess}
    (hprevious : ∀ access, previous = some access → ∃ j instruction, k = j + 1 ∧
      code j = some instruction ∧
      (arm64RuntimeMemoryAccess feature instruction : Except (Error θ) _) = .ok (some access))
    (h : (detectIndirectionFrom feature code (List.range' k n) previous : Except (Error θ) _) =
      .ok (some offset)) :
    ∃ j, j + 1 < k + n ∧ NamesIndirection (θ := θ) feature code j offset := by
  induction n generalizing k previous with
  | zero => cases h
  | succ n ih =>
    rw [List.range'_succ, detectIndirectionFrom] at h
    split at h
    case h_1 => cases h
    case h_2 instruction hcode =>
      split at h
      case h_1 found hfound =>
        obtain ⟨hoffset, hfield⟩ := Option.filter_eq_some_iff.mp hfound
        obtain ⟨access, rfl, haccess, hkind⟩ := indirectionOffset_eq_some hoffset
        obtain ⟨j, before, rfl, hbefore, hread⟩ := hprevious access rfl
        have hfield := of_decide_eq_true hfield
        have hnat : (found.toNat : Int) = found :=
          Int.toNat_of_nonneg (Int.le_trans (by decide) hfield.1)
        obtain rfl := Option.some.inj (Except.ok.inj h)
        refine ⟨j, by omega, ?_, access, before, instruction, hbefore, hcode, hread, ?_, hkind⟩
        · rw [hnat]
          exact hfield
        · rw [hnat]
          exact haccess
      case h_2 =>
        obtain ⟨access, haccess, h⟩ := Fallible.bind_eq_ok.mp h
        obtain ⟨j, hj, hnames⟩ := ih (fun _ hsome ↦
          ⟨k, instruction, rfl, hcode, hsome ▸ haccess⟩) h
        exact ⟨j, by omega, hnames⟩

/-- **The offset of the indirection is one that two instructions name.** -/
theorem detectJniIdsIndirectionOffset_eq_some {code : Code} {offset : Nat}
    (h : (detectJniIdsIndirectionOffset feature code : Except (Error θ) _) = .ok (some offset)) :
    ∃ k, k + 1 < 20 ∧ NamesIndirection (θ := θ) feature code k offset := by
  rw [detectJniIdsIndirectionOffset, List.range_eq_range'] at h
  obtain ⟨k, hk, hnames⟩ := detectIndirectionFrom_eq_some (by
    intro access haccess
    cases haccess) h
  exact ⟨k, by omega, hnames⟩

/-- The offset in the instruction at `k`. -/
def instrumentationAt (code : Code) (instrumentationIsPointer : Bool) (k : Nat) : Option Int := do
  let instruction ← code k
  let operands ← instruction.detail
  (instrumentationOffset instrumentationIsPointer instruction.id operands).filter
    (IsFieldOffset ·)

/-- The instruction at `k` can be read, with its operands. -/
def Decoded (code : Code) (k : Nat) : Prop :=
  ∃ instruction operands, code k = some instruction ∧ instruction.detail = some operands

theorem detectInstrumentationFrom_eq_ok_some_iff {code : Code} {isPointer : Bool} {offset n k : Nat} :
    (detectInstrumentationFrom feature code isPointer (List.range' k n) : Except (Error θ) _) =
      .ok (some offset) ↔
    ∃ j, k ≤ j ∧ j < k + n ∧ instrumentationAt code isPointer j = some (offset : Int) ∧
      ∀ i, k ≤ i → i < j → Decoded code i ∧ instrumentationAt code isPointer i = none := by
  induction n generalizing k with
  | zero =>
    constructor
    · intro h
      cases h
    · rintro ⟨j, hk, hj, -⟩
      omega
  | succ n ih =>
    rw [List.range'_succ, detectInstrumentationFrom]
    cases hcode : code k with
    | none =>
      have hnone : instrumentationAt code isPointer k = none := by
        rw [instrumentationAt, hcode]
        rfl
      constructor
      · intro h
        cases h
      · rintro ⟨j, hk, hj, hfound, hbefore⟩
        rcases Nat.eq_or_lt_of_le hk with rfl | hlt
        · cases hnone.symm.trans hfound
        · obtain ⟨⟨instruction, operands, hinstruction, -⟩, -⟩ := hbefore k (Nat.le_refl k) hlt
          cases hcode.symm.trans hinstruction
    | some instruction =>
      dsimp only
      cases hdetail : instruction.detail with
      | none =>
        have hnone : instrumentationAt code isPointer k = none := by
          rw [instrumentationAt, hcode, Option.bind_eq_bind, Option.bind_some, hdetail]
          rfl
        constructor
        · intro h
          cases h
        · rintro ⟨j, hk, hj, hfound, hbefore⟩
          rcases Nat.eq_or_lt_of_le hk with rfl | hlt
          · cases hnone.symm.trans hfound
          · obtain ⟨⟨instruction', operands, hinstruction, hoperands⟩, -⟩ :=
              hbefore k (Nat.le_refl k) hlt
            obtain rfl := Option.some.inj (hcode.symm.trans hinstruction)
            cases hdetail.symm.trans hoperands
      | some operands =>
        have hat : instrumentationAt code isPointer k =
            (instrumentationOffset isPointer instruction.id operands).filter
              (IsFieldOffset ·) := by
          rw [instrumentationAt, hcode, Option.bind_eq_bind, Option.bind_some, hdetail]
          rfl
        dsimp only
        rw [← hat]
        cases hfound : instrumentationAt code isPointer k with
        | some found =>
          have hfield : IsFieldOffset found := by
            rw [hat] at hfound
            exact of_decide_eq_true (Option.filter_eq_some_iff.mp hfound).2
          have hnat : (found.toNat : Int) = found :=
            Int.toNat_of_nonneg (Int.le_trans (by decide) hfield.1)
          constructor
          · intro h
            obtain rfl := Option.some.inj (Except.ok.inj h)
            refine ⟨k, Nat.le_refl k, by omega, ?_, fun i hk hi ↦ absurd hi (Nat.not_lt.mpr hk)⟩
            rw [hfound, hnat]
          · rintro ⟨j, hk, hj, hj', hbefore⟩
            rcases Nat.eq_or_lt_of_le hk with rfl | hlt
            · rw [hfound] at hj'
              rw [Option.some.inj hj']
              rfl
            · cases hfound.symm.trans (hbefore k (Nat.le_refl k) hlt).2
        | none =>
          dsimp only
          rw [ih]
          constructor
          · rintro ⟨j, hk, hj, hj', hbefore⟩
            refine ⟨j, by omega, by omega, hj', fun i hki hij ↦ ?_⟩
            rcases Nat.eq_or_lt_of_le hki with rfl | hlt
            · exact ⟨⟨instruction, operands, hcode, hdetail⟩, hfound⟩
            · exact hbefore i hlt hij
          · rintro ⟨j, hk, hj, hj', hbefore⟩
            rcases Nat.eq_or_lt_of_le hk with rfl | hlt
            · cases hfound.symm.trans hj'
            · exact ⟨j, hlt, by omega, hj', fun i hki hij ↦ hbefore i (by omega) hij⟩

/-- **The offset of the instrumentation is the first that fits**, behind instructions that can all be
read. -/
theorem detectInstrumentationOffset_eq_ok_iff {code : Code} {isPointer : Bool} {offset : Nat} :
    (detectInstrumentationOffset feature code isPointer : Except (Error θ) _) =
      .ok (some offset) ↔
    ∃ k, k < 30 ∧ instrumentationAt code isPointer k = some (offset : Int) ∧
      ∀ i < k, Decoded code i ∧ instrumentationAt code isPointer i = none := by
  rw [detectInstrumentationOffset, List.range_eq_range', detectInstrumentationFrom_eq_ok_some_iff]
  constructor
  · rintro ⟨k, -, hk, hfound, hbefore⟩
    exact ⟨k, by omega, hfound, fun i hi ↦ hbefore i (Nat.zero_le i) hi⟩
  · rintro ⟨k, hk, hfound, hbefore⟩
    exact ⟨k, Nat.zero_le k, by omega, hfound, fun i _ hi ↦ hbefore i hi⟩

end

end JavaBridge.Art

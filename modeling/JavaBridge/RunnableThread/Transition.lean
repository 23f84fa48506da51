import JavaBridge.Library.Arm64
import JavaBridge.RunnableThread.Blocks

/-!
# Writing the transition

The transition is a copy of `ExceptionClear` in which the callback is called where the thread's
exception is cleared. Branches go by labels, one before each instruction that is branched to; the
other instructions are relocated. Two kinds of instruction are replaced: the store of zero to the
exception of the thread, and the call of the real `ExceptionClear` where a checked one has looked it
up before.

Code is a list of what the writer is asked for, and positions in the list are addresses. How the
writer places labels and return addresses is left to a `Placement`.

Main results:

* `foldl_writeAt`: what is written, instruction by instruction.
* `map_code_writeThreadTransition`: the whole code.
-/

namespace JavaBridge.RunnableThread

open Arm64 (Instr Reg)

variable {θ : Type}

/-! ## The processor -/

/-- The registers, the memory and the flags. -/
structure Cpu where
  state : Arm64.State
  nzcv : BitVec 64

/-! ## Code -/

/-- What the writer is asked for. -/
inductive Item : Type
  | label (l : Nat)
  | bLabel (l : Nat)
  | bCondLabel (cond l : Nat)
  | cbzLabel (reg l : Nat)
  | cbnzLabel (reg l : Nat)
  | tbzLabel (reg bit l : Nat)
  | tbnzLabel (reg bit l : Nat)
  | plain (i : Instr)
  /-- `mov x0, reg`, with a register number of the disassembler. -/
  | movX0 (reg : Nat)
  | movRegNzcv (dst : Fin 31)
  | movNzcvReg (src : Fin 31)
  /-- `bl` to a position of the code. -/
  | blImm (position : Nat)
  /-- The call of `on_runnable_thread_transition_complete` with what is in `x0`. -/
  | callCallback
  /-- The relocated instruction of an address. -/
  | relocated (address : Nat)
  | ret

def Item.isLabel : Item → Bool
  | label _ => true
  | _ => false

/-- What comes with the instruction writer and the disassembler. -/
structure Gum where
  isArm64ZeroRegister : Nat → Bool
  /-- One of the thirty-one general registers by its number; `none` for the stack pointer. -/
  general : Nat → Option (Fin 31)
  /-- `put_push_all_x_registers`. -/
  pushAllX : List Item
  /-- `put_pop_all_x_registers`. -/
  popAllX : List Item
  /-- The bytes that are pushed. -/
  pushedBytes : Nat

/-! ## The writer -/

def JNIENV_EXT_SELF_OFFSET : Nat := 8

/-- `jni::ENV_EXCEPTION_CLEAR * POINTER_SIZE`. -/
def exceptionClearOffset : Int := 17 * 8

/-- `u64::MAX - 1`. -/
def PERFORM_TRANSITION : Nat := 2 ^ 64 - 2

/-- The position after the branch over the callback's subroutine. -/
def invokeCallback : Nat := 1

def isNeuteredThreadStore (_offset : Int) : Bool := false

/-- The loop variables of the writer. -/
structure Writer where
  code : List Item
  threadReg : Option Nat
  realImplReg : Option Nat
  foundCore : Bool

section

variable (gum : Gum) (exceptionOffset : Int)

/-- The store of zero to the exception of a thread. -/
def isCoreStore (rt : Nat) (offset : Int) : Bool :=
  gum.isArm64ZeroRegister rt && offset = exceptionOffset

/-- What is written in the place of an instruction, and what is known of the registers after it. -/
def writeDecoded (address : Nat) (w : Writer) : Arm64Insn → Writer
  | .b target => { w with code := w.code ++ [.bLabel target] }
  | .bCond cond target => { w with code := w.code ++ [.bCondLabel cond target] }
  | .cbz reg target => { w with code := w.code ++ [.cbzLabel reg target] }
  | .cbnz reg target => { w with code := w.code ++ [.cbnzLabel reg target] }
  | .tbz reg bit target => { w with code := w.code ++ [.tbzLabel reg bit target] }
  | .tbnz reg bit target => { w with code := w.code ++ [.tbnzLabel reg bit target] }
  | .str rt rn offset =>
    if isCoreStore gum exceptionOffset rt offset then
      { w with
        code := w.code ++
          [.plain (.push (.x 0) .lr), .movX0 rn, .blImm invokeCallback, .plain (.pop (.x 0) .lr)]
        threadReg := some rn
        foundCore := true }
    else if w.threadReg = some rn && isNeuteredThreadStore offset then w
    else { w with code := w.code ++ [.relocated address] }
  | .ldr rt _ offset =>
    if offset = exceptionClearOffset then
      { w with code := w.code ++ [.relocated address], realImplReg := some rt }
    else { w with code := w.code ++ [.relocated address] }
  | .blr rn =>
    if w.realImplReg = some rn then
      { w with
        code := w.code ++ [.plain (.ldr (.x 0) (.x 0) JNIENV_EXT_SELF_OFFSET), .callCallback]
        realImplReg := none
        foundCore := true }
    else { w with code := w.code ++ [.relocated address] }
  -- the relocated copy of a return is a return
  | .ret => { w with code := w.code ++ [.ret] }
  | .other => { w with code := w.code ++ [.relocated address] }

variable (branchTargets : List Nat)

def writeInsn (address : Nat) (insn : Arm64Insn) (w : Writer) : Writer :=
  writeDecoded gum exceptionOffset address
    (if address ∈ branchTargets then { w with code := w.code ++ [.label address] } else w) insn

def hex (n : Nat) : String := "0x" ++ String.ofList (Nat.toDigits 16 n)

variable (decoder : Decoder θ) (feature : String)

/-- A round of the inner loop, at the next address of a block. -/
def writeNext (block : Arm64Block) (w : Writer) (address : Nat) : Except (Error θ) Writer :=
  match decoder.decode address with
  | none =>
    unsupported feature ("unable to relocate ART ExceptionClear instruction: block " ++
      hex block.begin ++ ".." ++ hex block.stop ++ ", offset 0, word 0x00000000")
  | some (.error error) => .error error
  | some (.ok insn) => .ok (writeInsn gum exceptionOffset branchTargets address insn w)

def writeBlock (w : Writer) (block : Arm64Block) : Except (Error θ) Writer :=
  block.addresses.foldlM (writeNext gum exceptionOffset branchTargets decoder feature block) w

end

/-- The branch over the subroutine that calls the callback, and the subroutine. -/
def subroutine (gum : Gum) : List Item :=
  [.bLabel PERFORM_TRANSITION] ++ gum.pushAllX ++ [.callCallback] ++ gum.popAllX ++ [.ret]

def prologue (gum : Gum) : List Item := subroutine gum ++ [.label PERFORM_TRANSITION]

/-- Writes the transition from collected blocks. -/
def writeThreadTransition (gum : Gum) (exceptionOffset : Int) (decoder : Decoder θ)
    (feature : String) (entry : Nat) (collected : List Arm64Block × List Nat) :
    Except (Error θ) Writer := do
  let w ← (blocksOrdered entry collected.1).foldlM
    (writeBlock gum exceptionOffset collected.2 decoder feature) ⟨prologue gum, none, none, false⟩
  if w.foundCore then pure w
  else unsupported feature "unable to parse ART ExceptionClear runnable thread transition"

/-! ## What is written -/

/-- An instruction that is written, and whether a call in it is replaced. -/
structure Copy where
  address : Nat
  insn : Arm64Insn
  replaced : Bool

/-- The call goes to what was looked up last. -/
def Writer.replaces (w : Writer) : Arm64Insn → Bool
  | .blr rn => w.realImplReg = some rn
  | _ => false

section

variable (gum : Gum) (exceptionOffset : Int)

namespace Copy

/-- The instruction is one where the callback is called. -/
def isCore (copy : Copy) : Bool :=
  match copy.insn with
  | .str rt _ offset => isCoreStore gum exceptionOffset rt offset
  | .blr _ => copy.replaced
  | _ => false

/-- The code of an instruction behind its label. -/
def body (copy : Copy) : List Item :=
  match copy.insn with
  | .b target => [.bLabel target]
  | .bCond cond target => [.bCondLabel cond target]
  | .cbz reg target => [.cbzLabel reg target]
  | .cbnz reg target => [.cbnzLabel reg target]
  | .tbz reg bit target => [.tbzLabel reg bit target]
  | .tbnz reg bit target => [.tbnzLabel reg bit target]
  | .str rt rn offset =>
    if isCoreStore gum exceptionOffset rt offset then
      [.plain (.push (.x 0) .lr), .movX0 rn, .blImm invokeCallback, .plain (.pop (.x 0) .lr)]
    else [.relocated copy.address]
  | .blr _ =>
    if copy.replaced then [.plain (.ldr (.x 0) (.x 0) JNIENV_EXT_SELF_OFFSET), .callCallback]
    else [.relocated copy.address]
  | .ret => [.ret]
  | .ldr .. | .other => [.relocated copy.address]

def code (branchTargets : List Nat) (copy : Copy) : List Item :=
  (if copy.address ∈ branchTargets then [.label copy.address] else []) ++
    copy.body gum exceptionOffset

end Copy

variable (branchTargets : List Nat) (decoder : Decoder θ)

/-- The copies of the instructions of some addresses, in their order. -/
def copiesFrom (w : Writer) : List Nat → List Copy
  | [] => []
  | address :: addresses =>
    match decoder.decode address with
    | some (.ok insn) =>
      ⟨address, insn, w.replaces insn⟩ ::
        copiesFrom (writeInsn gum exceptionOffset branchTargets address insn w) addresses
    | _ => []

/-- All copies of the transition. -/
def copies (entry : Nat) (collected : List Arm64Block × List Nat) : List Copy :=
  copiesFrom gum exceptionOffset collected.2 decoder ⟨prologue gum, none, none, false⟩
    (emitted entry collected.1)

end

section

variable {gum : Gum} {exceptionOffset : Int} {branchTargets : List Nat}
  {decoder : Decoder θ} {feature : String} {w w' : Writer} {address : Nat}

theorem writeDecoded_eq (insn : Arm64Insn) :
    (writeDecoded gum exceptionOffset address w insn).code =
        w.code ++ Copy.body gum exceptionOffset ⟨address, insn, w.replaces insn⟩ ∧
      (writeDecoded gum exceptionOffset address w insn).foundCore =
        (w.foundCore || Copy.isCore gum exceptionOffset ⟨address, insn, w.replaces insn⟩) := by
  cases insn with
  | str rt rn offset =>
    cases hcore : isCoreStore gum exceptionOffset rt offset with
    | true => simp [writeDecoded, Copy.body, Copy.isCore, hcore]
    | false => simp [writeDecoded, Copy.body, Copy.isCore, hcore, isNeuteredThreadStore]
  | ldr rt rn offset =>
    rw [writeDecoded]
    split
    · exact ⟨rfl, (Bool.or_false _).symm⟩
    · exact ⟨rfl, (Bool.or_false _).symm⟩
  | blr rn =>
    by_cases h : w.realImplReg = some rn
    · simp [writeDecoded, Copy.body, Copy.isCore, Writer.replaces, h]
    · simp [writeDecoded, Copy.body, Copy.isCore, Writer.replaces, h]
  | b target => exact ⟨rfl, (Bool.or_false _).symm⟩
  | bCond cond target => exact ⟨rfl, (Bool.or_false _).symm⟩
  | cbz reg target => exact ⟨rfl, (Bool.or_false _).symm⟩
  | cbnz reg target => exact ⟨rfl, (Bool.or_false _).symm⟩
  | tbz reg bit target => exact ⟨rfl, (Bool.or_false _).symm⟩
  | tbnz reg bit target => exact ⟨rfl, (Bool.or_false _).symm⟩
  | ret => exact ⟨rfl, (Bool.or_false _).symm⟩
  | other => exact ⟨rfl, (Bool.or_false _).symm⟩

theorem writeInsn_eq (insn : Arm64Insn) :
    (writeInsn gum exceptionOffset branchTargets address insn w).code =
        w.code ++ Copy.code gum exceptionOffset branchTargets ⟨address, insn, w.replaces insn⟩ ∧
      (writeInsn gum exceptionOffset branchTargets address insn w).foundCore =
        (w.foundCore || Copy.isCore gum exceptionOffset ⟨address, insn, w.replaces insn⟩) := by
  rw [writeInsn, Copy.code]
  by_cases h : address ∈ branchTargets
  · rw [if_pos h, if_pos h, ← List.append_assoc]
    exact writeDecoded_eq insn
  · rw [if_neg h, if_neg h, List.nil_append]
    exact writeDecoded_eq insn

theorem copiesFrom_cons {insn : Arm64Insn} (h : decoder.decode address = some (.ok insn))
    (addresses : List Nat) :
    copiesFrom gum exceptionOffset branchTargets decoder w (address :: addresses) =
      ⟨address, insn, w.replaces insn⟩ ::
        copiesFrom gum exceptionOffset branchTargets decoder
          (writeInsn gum exceptionOffset branchTargets address insn w) addresses := by
  rw [copiesFrom, h]

variable (gum exceptionOffset branchTargets decoder) in
/-- The writer after the instruction of an address. -/
def writeAt (w : Writer) (address : Nat) : Writer :=
  match decoder.decode address with
  | some (.ok insn) => writeInsn gum exceptionOffset branchTargets address insn w
  | _ => w

/-- The instructions of an address list can be read. -/
def Readable (decoder : Decoder θ) (addresses : List Nat) : Prop :=
  ∀ a ∈ addresses, ∃ insn, decoder.decode a = some (.ok insn)

/-- Nothing goes wrong where all instructions can be read. -/
theorem writeBlock_eq_ok {block : Arm64Block} (h : Readable decoder block.addresses) :
    writeBlock gum exceptionOffset branchTargets decoder feature w block =
      .ok (block.addresses.foldl (writeAt gum exceptionOffset branchTargets decoder) w) := by
  rw [writeBlock]
  generalize block.addresses = addresses at h
  induction addresses generalizing w with
  | nil => rfl
  | cons a addresses ih =>
    obtain ⟨⟨insn, hinsn⟩, h⟩ := List.forall_mem_cons.mp h
    rw [List.foldlM_cons, List.foldl_cons, writeNext, writeAt, hinsn]
    exact ih h

theorem foldlM_writeBlock {blocks : List Arm64Block}
    (h : Readable decoder (blocks.flatMap Arm64Block.addresses)) :
    blocks.foldlM (writeBlock gum exceptionOffset branchTargets decoder feature) w =
      .ok ((blocks.flatMap Arm64Block.addresses).foldl
        (writeAt gum exceptionOffset branchTargets decoder) w) := by
  induction blocks generalizing w with
  | nil => rfl
  | cons block blocks ih =>
    rw [List.flatMap_cons] at h ⊢
    obtain ⟨hblock, hblocks⟩ := List.forall_mem_append.mp h
    rw [List.foldlM_cons, writeBlock_eq_ok hblock, List.foldl_append]
    exact ih hblocks

/-- What is written, instruction by instruction. -/
theorem foldl_writeAt {addresses : List Nat} (h : Readable decoder addresses) :
    (addresses.foldl (writeAt gum exceptionOffset branchTargets decoder) w).code = w.code ++
        (copiesFrom gum exceptionOffset branchTargets decoder w addresses).flatMap
          (Copy.code gum exceptionOffset branchTargets) ∧
      (addresses.foldl (writeAt gum exceptionOffset branchTargets decoder) w).foundCore =
        (w.foundCore || (copiesFrom gum exceptionOffset branchTargets decoder w addresses).any
          (Copy.isCore gum exceptionOffset)) := by
  induction addresses generalizing w with
  | nil => exact ⟨(List.append_nil _).symm, (Bool.or_false _).symm⟩
  | cons a addresses ih =>
    obtain ⟨⟨insn, hinsn⟩, h⟩ := List.forall_mem_cons.mp h
    obtain ⟨hcode, hcore⟩ :=
      @writeInsn_eq gum exceptionOffset branchTargets w a insn
    rw [List.foldl_cons, copiesFrom_cons hinsn, writeAt, hinsn, List.flatMap_cons, List.any_cons,
      (ih h).1, (ih h).2, hcode, hcore, List.append_assoc, Bool.or_assoc]
    exact ⟨rfl, rfl⟩

theorem map_address_copiesFrom {addresses : List Nat} (h : Readable decoder addresses) :
    (copiesFrom gum exceptionOffset branchTargets decoder w addresses).map Copy.address =
      addresses := by
  induction addresses generalizing w with
  | nil => rfl
  | cons a addresses ih =>
    obtain ⟨⟨insn, hinsn⟩, h⟩ := List.forall_mem_cons.mp h
    rw [copiesFrom_cons hinsn, List.map_cons, ih h]

theorem decode_of_mem_copiesFrom {addresses : List Nat} (h : Readable decoder addresses)
    {copy : Copy}
    (hcopy : copy ∈ copiesFrom gum exceptionOffset branchTargets decoder w addresses) :
    decoder.decode copy.address = some (.ok copy.insn) := by
  induction addresses generalizing w with
  | nil => cases hcopy
  | cons a addresses ih =>
    obtain ⟨⟨insn, hinsn⟩, h⟩ := List.forall_mem_cons.mp h
    rw [copiesFrom_cons hinsn] at hcopy
    rcases List.mem_cons.mp hcopy with rfl | hcopy
    · exact hinsn
    · exact ih h hcopy

/-- The code of the transition: the prologue and all copies, if the callback is called in one. -/
theorem map_code_writeThreadTransition {entry : Nat} {collected : List Arm64Block × List Nat}
    (h : Readable decoder (emitted entry collected.1)) :
    (writeThreadTransition gum exceptionOffset decoder feature entry collected).map Writer.code =
      if (copies gum exceptionOffset decoder entry collected).any
          (Copy.isCore gum exceptionOffset) then
        .ok (prologue gum ++ (copies gum exceptionOffset decoder entry collected).flatMap
          (Copy.code gum exceptionOffset collected.2))
      else unsupported feature "unable to parse ART ExceptionClear runnable thread transition" := by
  obtain ⟨hcode, hcore⟩ :=
    @foldl_writeAt _ gum exceptionOffset collected.2 decoder ⟨prologue gum, none, none, false⟩ _ h
  rw [Bool.false_or] at hcore
  rw [writeThreadTransition, foldlM_writeBlock h, copies, ← hcode, ← hcore]
  generalize hw : (emitted entry collected.1).foldl
    (writeAt gum exceptionOffset collected.2 decoder) ⟨prologue gum, none, none, false⟩ = w
  show Except.map Writer.code (if Writer.foundCore _ = true then _ else _) = _
  rw [show ((blocksOrdered entry collected.1).flatMap Arm64Block.addresses).foldl
    (writeAt gum exceptionOffset collected.2 decoder) ⟨prologue gum, none, none, false⟩ = w from hw]
  cases w.foundCore with
  | false => rfl
  | true => rfl

end

end JavaBridge.RunnableThread

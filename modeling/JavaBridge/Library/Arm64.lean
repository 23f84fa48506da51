import JavaBridge.Library.ByteMemory
import Mathlib.Data.List.Basic
import Mathlib.Logic.Function.Basic

/-!
# Running arm64 code

The instructions that an arm64 code writer emits for thunks: loads and stores at an offset of a
base register, immediates, the two-register frame push and pop, and branches to labels and to
registers. Code is a list of instructions in which a label is an instruction that does nothing.

A run ends where the code leaves by `br` or `ret`; a `blr` hands the state to a function `call`
that stands for the callee and goes on behind it. Of the vector registers only the low sixty-four
bits are kept.

Main results:

* `Arm64.run_step`, `Arm64.run_jump`, `Arm64.run_call`, `Arm64.run_leave`: one lemma for each way
  an instruction can continue.
* `Arm64.run_block`: a block without branches runs as the fold of its effects.
* `Arm64.run_around_call`: a function of two such blocks around a call, up to its `ret`.
* `Arm64.run_mono`: more fuel does not change where a run ends.
* `Arm64.Instr.exec_popAll`: registers that were pushed are popped again.
-/

namespace Arm64

instance neZero_generalRegisters : NeZero 31 := ⟨by decide⟩

instance neZero_vectorRegisters : NeZero 32 := ⟨by decide⟩

/-- The registers as instructions name them: `w` and `s` are the low halves of `x` and `d`. -/
inductive Reg
  | x (n : Fin 31)
  | w (n : Fin 31)
  | sp
  | s (n : Fin 32)
  | d (n : Fin 32)
  deriving DecidableEq

namespace Reg

/-- The frame pointer. -/
abbrev fp : Reg := x 29

/-- The link register. -/
abbrev lr : Reg := x 30

/-- Width in bytes. -/
def bytes : Reg → Nat
  | w _ | s _ => 4
  | x _ | sp | d _ => 8

end Reg

structure State where
  x : Fin 31 → BitVec 64
  sp : BitVec 64
  /-- The low halves of the vector registers. -/
  v : Fin 32 → BitVec 64
  /-- The flag that `cmp` leaves for `b.eq`. -/
  equal : Bool
  mem : ByteMemory

namespace State

def get (s : State) : Reg → BitVec 64
  | .x n => s.x n
  | .w n => ((s.x n).setWidth 32).setWidth 64
  | .sp => s.sp
  | .s n => ((s.v n).setWidth 32).setWidth 64
  | .d n => s.v n

/-- A write to the low half of a register clears the rest of it. -/
def set (s : State) (r : Reg) (value : BitVec 64) : State :=
  match r with
  | .x n => { s with x := Function.update s.x n value }
  | .w n => { s with x := Function.update s.x n ((value.setWidth 32).setWidth 64) }
  | .sp => { s with sp := value }
  | .s n => { s with v := Function.update s.v n ((value.setWidth 32).setWidth 64) }
  | .d n => { s with v := Function.update s.v n value }

def load (s : State) (a : BitVec 64) (n : Nat) : BitVec 64 := BitVec.ofNat 64 (s.mem.load a n)

def store (s : State) (a : BitVec 64) (n : Nat) (value : BitVec 64) : State :=
  { s with mem := s.mem.store a n value.toNat }

@[simp] theorem set_mem (s : State) (r : Reg) (value : BitVec 64) :
    (s.set r value).mem = s.mem := by
  cases r <;> rfl

@[simp] theorem set_equal (s : State) (r : Reg) (value : BitVec 64) :
    (s.set r value).equal = s.equal := by
  cases r <;> rfl

@[simp] theorem set_x_x (s : State) (n m : Fin 31) (value : BitVec 64) :
    (s.set (.x n) value).x m = if m = n then value else s.x m :=
  Function.update_apply s.x n value m

@[simp] theorem set_x_sp (s : State) (n : Fin 31) (value : BitVec 64) :
    (s.set (.x n) value).sp = s.sp := rfl

@[simp] theorem set_x_v (s : State) (n : Fin 31) (value : BitVec 64) :
    (s.set (.x n) value).v = s.v := rfl

@[simp] theorem set_sp_x (s : State) (value : BitVec 64) : (s.set .sp value).x = s.x := rfl

@[simp] theorem set_sp_sp (s : State) (value : BitVec 64) : (s.set .sp value).sp = value := rfl

@[simp] theorem set_sp_v (s : State) (value : BitVec 64) : (s.set .sp value).v = s.v := rfl

@[simp] theorem store_x (s : State) (a : BitVec 64) (n : Nat) (value : BitVec 64) :
    (s.store a n value).x = s.x := rfl

@[simp] theorem store_sp (s : State) (a : BitVec 64) (n : Nat) (value : BitVec 64) :
    (s.store a n value).sp = s.sp := rfl

@[simp] theorem store_v (s : State) (a : BitVec 64) (n : Nat) (value : BitVec 64) :
    (s.store a n value).v = s.v := rfl

@[simp] theorem store_mem (s : State) (a : BitVec 64) (n : Nat) (value : BitVec 64) :
    (s.store a n value).mem = s.mem.store a n value.toNat := rfl

@[simp] theorem get_x (s : State) (n : Fin 31) : s.get (.x n) = s.x n := rfl

@[simp] theorem get_sp (s : State) : s.get .sp = s.sp := rfl

@[simp] theorem get_d (s : State) (n : Fin 32) : s.get (.d n) = s.v n := rfl

/-- Storing a register looks at no more of it than its width. -/
theorem get_toNat_mod (s : State) (r : Reg) (k : Nat) (h : k ≤ r.bytes) :
    (s.get r).toNat % 256 ^ k =
      match r with
      | .x n | .w n => (s.x n).toNat % 256 ^ k
      | .sp => s.sp.toNat % 256 ^ k
      | .s n | .d n => (s.v n).toNat % 256 ^ k := by
  cases r with
  | x n => rfl
  | sp => rfl
  | d n => rfl
  | w n =>
    have hk : (256 : Nat) ^ k ∣ 2 ^ 32 := Nat.pow_dvd_pow (256 : Nat) (show k ≤ 4 from h)
    show (((s.x n).setWidth 32).setWidth 64).toNat % 256 ^ k = _
    rw [BitVec.toNat_setWidth, BitVec.toNat_setWidth,
      Nat.mod_eq_of_lt (Nat.lt_trans (Nat.mod_lt _ (by decide)) (by decide : 2 ^ 32 < 2 ^ 64))]
    exact Nat.mod_mod_of_dvd _ hk
  | s n =>
    have hk : (256 : Nat) ^ k ∣ 2 ^ 32 := Nat.pow_dvd_pow (256 : Nat) (show k ≤ 4 from h)
    show (((s.v n).setWidth 32).setWidth 64).toNat % 256 ^ k = _
    rw [BitVec.toNat_setWidth, BitVec.toNat_setWidth,
      Nat.mod_eq_of_lt (Nat.lt_trans (Nat.mod_lt _ (by decide)) (by decide : 2 ^ 32 < 2 ^ 64))]
    exact Nat.mod_mod_of_dvd _ hk

end State

inductive Instr
  | label (l : Nat)
  /-- Branches to the label where the register is zero. -/
  | cbz (r : Reg) (l : Nat)
  | b (l : Nat)
  | bEq (l : Nat)
  | ldr (dst base : Reg) (offset : Nat)
  | str (src base : Reg) (offset : Nat)
  /-- Loads a constant from the literal pool. -/
  | ldrImm (dst : Reg) (value : BitVec 64)
  | mov (dst src : Reg)
  | addImm (dst left : Reg) (value : Nat)
  | subImm (dst left : Reg) (value : Nat)
  | andImm (dst left : Reg) (value : BitVec 64)
  | cmp (left right : Reg)
  /-- `stp` with pre-decrement of `sp` by sixteen. -/
  | push (first second : Reg)
  /-- `ldp` with post-increment of `sp` by sixteen. -/
  | pop (first second : Reg)
  | br (r : Reg)
  | blr (r : Reg)
  | ret
  | nop

/-- How a run goes on behind an instruction. -/
inductive Control
  | next
  | jump (l : Nat)
  | leave (target : BitVec 64)
  | call (target : BitVec 64)
  deriving DecidableEq

namespace Instr

def control (s : State) : Instr → Control
  | cbz r l => if s.get r = 0 then .jump l else .next
  | b l => .jump l
  | bEq l => if s.equal then .jump l else .next
  | br r => .leave (s.get r)
  | blr r => .call (s.get r)
  | ret => .leave (s.get .lr)
  | _ => .next

def effect (s : State) : Instr → State
  | ldr dst base offset => s.set dst (s.load (s.get base + BitVec.ofNat 64 offset) dst.bytes)
  | str src base offset => s.store (s.get base + BitVec.ofNat 64 offset) src.bytes (s.get src)
  | ldrImm dst value => s.set dst value
  | mov dst src => s.set dst (s.get src)
  | addImm dst left value => s.set dst (s.get left + BitVec.ofNat 64 value)
  | subImm dst left value => s.set dst (s.get left - BitVec.ofNat 64 value)
  | andImm dst left value => s.set dst (s.get left &&& value)
  | cmp left right => { s with equal := s.get left = s.get right }
  | push first second =>
    let s' := s.set .sp (s.sp - 16)
    (s'.store s'.sp 8 (s.get first)).store (s'.sp + 8) 8 (s.get second)
  | pop first second =>
    ((s.set first (s.load s.sp 8)).set second (s.load (s.sp + 8) 8)).set .sp (s.sp + 16)
  | _ => s

/-- The instruction has no branch in it. -/
def straight : Instr → Bool
  | cbz .. | b _ | bEq _ | br _ | blr _ | ret => false
  | _ => true

def isLabel (l : Nat) : Instr → Bool
  | label l' => l == l'
  | _ => false

/-- What a block without branches does. -/
def exec (block : List Instr) (s : State) : State := block.foldl effect s

@[simp] theorem exec_nil (s : State) : exec [] s = s := rfl

@[simp] theorem exec_cons (i : Instr) (block : List Instr) (s : State) :
    exec (i :: block) s = exec block (i.effect s) := rfl

theorem exec_append (block block' : List Instr) (s : State) :
    exec (block ++ block') s = exec block' (exec block s) := List.foldl_append

theorem effect_pop_x (s : State) (first second n : Fin 31) :
    (effect s (.pop (.x first) (.x second))).x n =
      if n = second then s.mem.word (s.sp + 8)
      else if n = first then s.mem.word s.sp else s.x n := by
  rw [effect, State.set_sp_x, State.set_x_x, State.set_x_x]
  rfl

theorem control_of_straight (s : State) {i : Instr} (h : i.straight) : i.control s = .next := by
  cases i <;> first | rfl | cases h

theorem control_cbz_of_eq {s : State} {r : Reg} (l : Nat) (h : s.get r = 0) :
    (cbz r l).control s = .jump l := if_pos h

theorem control_cbz_of_ne {s : State} {r : Reg} (l : Nat) (h : s.get r ≠ 0) :
    (cbz r l).control s = .next := if_neg h

theorem control_bEq_of_equal {s : State} (l : Nat) (h : s.equal = true) :
    (bEq l).control s = .jump l := if_pos h

theorem control_bEq_of_not_equal {s : State} (l : Nat) (h : s.equal = false) :
    (bEq l).control s = .next := if_neg (Bool.eq_false_iff.mp h)

end Instr

/-! ## Runs -/

/-- Where and how a run left the code. -/
structure Exit where
  /-- The position of the instruction it left by. -/
  pc : Nat
  target : BitVec 64
  state : State

section Run

variable (callee : BitVec 64 → State → State) (code : List Instr)

/-- A run from position `pc`. There is no result where the fuel ends, where the code does, or where a
label is not in it. -/
def run : Nat → Nat → State → Option Exit
  | 0, _, _ => none
  | fuel + 1, pc, s =>
    code[pc]?.bind fun i ↦
      match i.control s with
      | .next => run fuel (pc + 1) (i.effect s)
      | .jump l => (code.findIdx? (Instr.isLabel l)).bind fun pc' ↦ run fuel pc' s
      | .leave target => some ⟨pc, target, s⟩
      | .call target => run fuel (pc + 1) (callee target s)

/-- The last label at or before a position. -/
def labelAt (pc : Nat) : Option Nat :=
  ((code.take (pc + 1)).filterMap fun
    | .label l => some l
    | _ => none).getLast?

variable {callee code} {fuel pc : Nat} {s : State} {i : Instr}

theorem run_step (hi : code[pc]? = some i) (h : i.control s = .next) :
    run callee code (fuel + 1) pc s = run callee code fuel (pc + 1) (i.effect s) := by
  rw [run, hi, Option.bind_some, h]

theorem run_jump {l pc' : Nat} (hi : code[pc]? = some i) (h : i.control s = .jump l)
    (hl : code.findIdx? (Instr.isLabel l) = some pc') :
    run callee code (fuel + 1) pc s = run callee code fuel pc' s := by
  rw [run, hi, Option.bind_some, h]
  show (code.findIdx? (Instr.isLabel l)).bind _ = _
  rw [hl, Option.bind_some]

theorem run_leave {target : BitVec 64} (hi : code[pc]? = some i)
    (h : i.control s = .leave target) :
    run callee code (fuel + 1) pc s = some ⟨pc, target, s⟩ := by
  rw [run, hi, Option.bind_some, h]

theorem run_call {target : BitVec 64} (hi : code[pc]? = some i) (h : i.control s = .call target) :
    run callee code (fuel + 1) pc s = run callee code fuel (pc + 1) (callee target s) := by
  rw [run, hi, Option.bind_some, h]

/-- A block without branches runs as the fold of its effects. -/
theorem run_block {before block after : List Instr} (hcode : code = before ++ block ++ after)
    (hstraight : ∀ i ∈ block, i.straight) (fuel : Nat) (s : State) :
    run callee code (fuel + block.length) before.length s =
      run callee code fuel (before.length + block.length) (Instr.exec block s) := by
  induction block generalizing before s with
  | nil => rfl
  | cons i block ih =>
    have hi : code[before.length]? = some i := by
      rw [hcode]
      simp
    have hnext := @ih (before ++ [i]) (by simp [hcode])
      (fun j hj ↦ hstraight j (List.mem_cons_of_mem i hj)) (i.effect s)
    rw [List.length_cons, ← Nat.add_assoc,
      run_step hi (Instr.control_of_straight s (hstraight i List.mem_cons_self))]
    rw [List.length_append, List.length_singleton] at hnext
    rw [hnext, Instr.exec_cons, Nat.add_assoc, Nat.add_comm 1]

/-- A function of two blocks around a call: it runs up to the call, and on from it to its `ret`. -/
theorem run_around_call {entry exit : List Instr} {r : Reg}
    (hcode : code = entry ++ [.blr r] ++ exit ++ [.ret]) (hentry : ∀ i ∈ entry, i.straight)
    (hexit : ∀ i ∈ exit, i.straight) (s : State) :
    let t := Instr.exec entry s
    let u := Instr.exec exit (callee (t.get r) t)
    run callee code code.length 0 s = run callee code (exit.length + 2) entry.length t ∧
      code[entry.length]? = some (.blr r) ∧
      run callee code (exit.length + 2) entry.length t =
        some ⟨entry.length + 1 + exit.length, u.x 30, u⟩ := by
  intro t u
  have hlength : code.length = exit.length + 2 + entry.length := by
    rw [hcode]
    simp only [List.length_append, List.length_singleton]
    omega
  have hcall : code[entry.length]? = some (.blr r) := by
    rw [hcode]
    simp
  have hret : code[entry.length + 1 + exit.length]? = some .ret := by
    have hindex : entry.length + 1 + exit.length = (entry ++ [Instr.blr r] ++ exit).length := by
      rw [List.length_append, List.length_append, List.length_singleton]
    rw [hcode, hindex]
    exact List.getElem?_concat_length
  refine ⟨?_, hcall, ?_⟩
  · have hblock := @run_block callee code [] entry ([.blr r] ++ exit ++ [.ret]) (by simp [hcode])
      hentry (exit.length + 2) s
    rw [List.length_nil, Nat.zero_add] at hblock
    rw [hlength, hblock]
  · have hblock := @run_block callee code (entry ++ [.blr r]) exit [.ret] hcode hexit 1
      (callee (t.get r) t)
    rw [List.length_append, List.length_singleton] at hblock
    rw [run_call hcall rfl, Nat.add_comm exit.length 1, hblock, run_leave hret rfl]
    rfl

/-- More fuel does not change where a run ends. -/
theorem run_mono {e : Exit} (h : run callee code fuel pc s = some e) (n : Nat) :
    run callee code (fuel + n) pc s = some e := by
  induction fuel generalizing pc s with
  | zero => cases h
  | succ fuel ih =>
    rw [run, Option.bind_eq_some_iff] at h
    obtain ⟨i, hi, h⟩ := h
    rw [Nat.succ_add, run, hi, Option.bind_some]
    cases hc : i.control s with
    | next =>
      rw [hc] at h
      exact ih h
    | jump l =>
      rw [hc] at h
      obtain ⟨pc', hpc', h⟩ := Option.bind_eq_some_iff.mp h
      exact Option.bind_eq_some_iff.mpr ⟨pc', hpc', ih h⟩
    | leave target =>
      rw [hc] at h
      exact h
    | call target =>
      rw [hc] at h
      exact ih h

end Run

/-! ## Registers kept on the stack -/

namespace Instr

/-- Pairs of registers are pushed. -/
def pushAll (pairs : List (Fin 31 × Fin 31)) : List Instr :=
  pairs.map fun pair ↦ .push (.x pair.1) (.x pair.2)

/-- Pairs of registers are popped, the last one first. -/
def popAll (pairs : List (Fin 31 × Fin 31)) : List Instr :=
  pairs.reverse.map fun pair ↦ .pop (.x pair.1) (.x pair.2)

@[simp] theorem pushAll_nil : pushAll [] = [] := rfl

@[simp] theorem pushAll_cons (pair : Fin 31 × Fin 31) (pairs : List (Fin 31 × Fin 31)) :
    pushAll (pair :: pairs) = .push (.x pair.1) (.x pair.2) :: pushAll pairs := rfl

@[simp] theorem popAll_nil : popAll [] = [] := rfl

theorem popAll_cons (pair : Fin 31 × Fin 31) (pairs : List (Fin 31 × Fin 31)) :
    popAll (pair :: pairs) = popAll pairs ++ [.pop (.x pair.1) (.x pair.2)] := by
  rw [popAll, popAll, List.reverse_cons, List.map_append]
  rfl

variable (pairs : List (Fin 31 × Fin 31)) (s : State)

@[simp] theorem exec_pushAll_x : (exec (pushAll pairs) s).x = s.x := by
  induction pairs generalizing s with
  | nil => rfl
  | cons pair pairs ih => exact ih _

@[simp] theorem exec_pushAll_v : (exec (pushAll pairs) s).v = s.v := by
  induction pairs generalizing s with
  | nil => rfl
  | cons pair pairs ih => exact ih _

@[simp] theorem exec_pushAll_sp :
    (exec (pushAll pairs) s).sp = s.sp - BitVec.ofNat 64 (16 * pairs.length) := by
  induction pairs generalizing s with
  | nil => exact (BitVec.sub_zero s.sp).symm
  | cons pair pairs ih =>
    rw [pushAll_cons, exec_cons, ih, effect, State.store_sp, State.store_sp, State.set_sp_sp,
      List.length_cons, Nat.mul_add, BitVec.ofNat_add, BitVec.sub_sub, BitVec.add_comm]
    rfl

/-- A push writes below the stack pointer. -/
theorem effect_push_mem (first second : Fin 31) :
    Set.EqOn (effect s (.push (.x first) (.x second))).mem s.mem
      (ByteMemory.block (s.sp - 16) 16)ᶜ := by
  intro b hb
  have hb : ¬(b - (s.sp - 16)).toNat < 16 := hb
  rw [effect, State.store_mem, State.store_mem, ByteMemory.store_of_not_mem,
    ByteMemory.store_of_not_mem, State.set_mem]
  · intro h
    have h : (b - (s.sp - 16)).toNat < 8 := h
    omega
  · intro h
    have h : (b - (s.sp - 16 + 8)).toNat < 8 := h
    bv_omega

/-- What is pushed goes below the stack pointer. -/
theorem exec_pushAll_mem (h : 16 * pairs.length ≤ 2 ^ 64) :
    Set.EqOn (exec (pushAll pairs) s).mem s.mem
      (ByteMemory.block (s.sp - BitVec.ofNat 64 (16 * pairs.length)) (16 * pairs.length))ᶜ := by
  induction pairs generalizing s with
  | nil => exact fun _ _ ↦ rfl
  | cons pair pairs ih =>
    intro b hb
    have hb : ¬(b - (s.sp - BitVec.ofNat 64 (16 * (pairs.length + 1)))).toNat <
      16 * (pairs.length + 1) := hb
    rw [List.length_cons] at h
    have hpush : b ∉ ByteMemory.block (s.sp - 16) 16 := by
      intro hmem
      have hmem : (b - (s.sp - 16)).toNat < 16 := hmem
      bv_omega
    rw [pushAll_cons, exec_cons, ih _ (by omega)]
    · exact effect_push_mem s pair.1 pair.2 hpush
    · intro hmem
      rw [effect, State.store_sp, State.store_sp, State.set_sp_sp] at hmem
      have hmem : (b - (s.sp - 16 - BitVec.ofNat 64 (16 * pairs.length))).toNat <
        16 * pairs.length := hmem
      bv_omega

theorem effect_push_word (first second : Fin 31) :
    (effect s (.push (.x first) (.x second))).mem.word (s.sp - 16) = s.x first ∧
      (effect s (.push (.x first) (.x second))).mem.word (s.sp - 16 + 8) = s.x second := by
  constructor
  · rw [effect, State.store_mem, ByteMemory.word_store_of_disjoint]
    · exact ByteMemory.word_store _ _ _
    · exact (ByteMemory.disjoint_block_block_add (s.sp - 16) (by decide) (by decide)).symm
  · exact ByteMemory.word_store _ _ _

variable {pairs s} {t : State}

/-- Pops leave the other registers alone. -/
theorem exec_popAll_x_of_forall_ne {n : Fin 31} (h : ∀ pair ∈ pairs, n ≠ pair.1 ∧ n ≠ pair.2) :
    (exec (popAll pairs) t).x n = t.x n := by
  induction pairs with
  | nil => rfl
  | cons pair pairs ih =>
    obtain ⟨⟨h1, h2⟩, h⟩ := List.forall_mem_cons.mp h
    rw [popAll_cons, exec_append, exec_cons, exec_nil, effect_pop_x, if_neg h2, if_neg h1, ih h]

/-- Pops after pushes of the same pairs give back the registers and the stack, if what was pushed is
still there. -/
theorem exec_popAll (hlength : 16 * pairs.length ≤ 2 ^ 64)
    (hsp : t.sp = (exec (pushAll pairs) s).sp)
    (hmem : Set.EqOn t.mem (exec (pushAll pairs) s).mem
      (ByteMemory.block t.sp (16 * pairs.length))) :
    (exec (popAll pairs) t).sp = s.sp ∧ (exec (popAll pairs) t).mem = t.mem ∧
      (exec (popAll pairs) t).v = t.v ∧
      ∀ n, (∃ pair ∈ pairs, n = pair.1 ∨ n = pair.2) → (exec (popAll pairs) t).x n = s.x n := by
  induction pairs generalizing s with
  | nil => exact ⟨hsp, rfl, rfl, nofun⟩
  | cons pair pairs ih =>
    rw [List.length_cons] at hlength hmem
    rw [pushAll_cons, exec_cons] at hsp hmem
    have hbelow := exec_pushAll_mem pairs (effect s (.push (.x pair.1) (.x pair.2))) (by omega)
    generalize hs' : effect s (.push (.x pair.1) (.x pair.2)) = s' at hsp hmem hbelow
    have hs'sp : s'.sp = s.sp - 16 := by
      rw [← hs']
      rfl
    obtain ⟨husp, humem, huv, hux⟩ := ih (by omega) hsp
      (hmem.mono (ByteMemory.block_subset_block t.sp (by omega)))
    rw [exec_pushAll_sp, hs'sp] at hsp
    rw [hs'sp] at hbelow
    -- the two words of the pair are above what the other pairs have pushed
    have hword (offset : BitVec 64) (h : offset = 0 ∨ offset = 8) :
        t.mem.word (s.sp - 16 + offset) = s'.mem.word (s.sp - 16 + offset) := by
      apply ByteMemory.word_congr_of_eqOn
      intro b hb
      have hb : (b - (s.sp - 16 + offset)).toNat < 8 := hb
      rw [hmem, hbelow]
      · intro hin
        have hin : (b - (s.sp - 16 - BitVec.ofNat 64 (16 * pairs.length))).toNat <
          16 * pairs.length := hin
        rcases h with rfl | rfl <;> bv_omega
      · show (b - t.sp).toNat < 16 * (pairs.length + 1)
        rw [hsp]
        rcases h with rfl | rfl <;> bv_omega
    obtain ⟨hfirst, hsecond⟩ := effect_push_word s pair.1 pair.2
    rw [hs'] at hfirst hsecond
    have hfirst' := hword 0 (.inl rfl)
    rw [show s.sp - 16 + 0 = s.sp - 16 from BitVec.add_zero _, hfirst] at hfirst'
    have hsecond' := hword 8 (.inr rfl)
    rw [hsecond] at hsecond'
    rw [popAll_cons, exec_append]
    generalize exec (popAll pairs) t = u at husp humem huv hux
    refine ⟨?_, humem, huv, ?_⟩
    · show u.sp + 16 = s.sp
      rw [husp, hs'sp, BitVec.sub_add_cancel]
    · intro n hn
      rw [exec_cons, exec_nil, effect_pop_x, humem, husp, hs'sp, hfirst', hsecond']
      by_cases h2 : n = pair.2
      · rw [if_pos h2, h2]
      by_cases h1 : n = pair.1
      · rw [if_neg h2, if_pos h1, h1]
      · rw [if_neg h2, if_neg h1, hux n ?_, ← hs']
        · rfl
        · obtain ⟨pair', hpair', hn⟩ := hn
          rcases List.mem_cons.mp hpair' with rfl | hmem'
          · exact absurd hn (not_or.mpr ⟨h1, h2⟩)
          · exact ⟨pair', hmem', hn⟩

end Instr

/-! ## Encoding -/

namespace Instr

/-- What the instruction takes in the code, with the literal that it loads. -/
def bytes : Instr → Nat
  | label _ => 0
  | ldrImm .. => 12
  | _ => 4

/-- The immediate can be encoded. Loads and stores have an unsigned twelve-bit offset in units of
their width, additions and subtractions an unsigned twelve-bit operand that may be shifted by
twelve. -/
def Encodable : Instr → Prop
  | ldr r _ offset | str r _ offset => offset % r.bytes = 0 ∧ offset / r.bytes < 4096
  | addImm _ _ value | subImm _ _ value => value < 4096 ∨ value % 4096 = 0 ∧ value / 4096 < 4096
  | _ => True

/-- What a block takes. -/
def codeBytes : List Instr → Nat
  | [] => 0
  | i :: block => i.bytes + codeBytes block

@[simp] theorem codeBytes_append (block block' : List Instr) :
    codeBytes (block ++ block') = codeBytes block + codeBytes block' := by
  induction block with
  | nil => exact (Nat.zero_add _).symm
  | cons i block ih => rw [List.cons_append, codeBytes, codeBytes, ih, Nat.add_assoc]

/-- An offset in units of eight bytes suits every register. -/
theorem encodable_offset {r : Reg} {n : Nat} (h : n < 2048) :
    8 * n % r.bytes = 0 ∧ 8 * n / r.bytes < 4096 := by
  have hbytes : r.bytes = 4 ∨ r.bytes = 8 := by
    cases r <;> simp [Reg.bytes]
  rcases hbytes with hbytes | hbytes <;> rw [hbytes] <;> omega

end Instr

end Arm64

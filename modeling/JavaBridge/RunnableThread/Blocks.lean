import JavaBridge.Library.Loop
import JavaBridge.RunnableThread.Callback
import Mathlib.Data.List.Sort
import Mathlib.Logic.Relation

/-!
# The basic blocks of `ExceptionClear`

The transition is a copy of ART's `ExceptionClear`, whose blocks are collected first: from the entry
and from every branch target on, instructions are read up to the next unconditional branch or
return. A target in a block that is there already is passed over. What is read from an address does
not depend on where the reading began.

Main results:

* `IsRun.mem_addresses`: a block has what is come to from its begin without a branch.
* `IsRun.apart_iff`: two blocks are apart unless one of them runs on into the other.
-/

namespace JavaBridge.RunnableThread

variable {θ : Type}

/-! ## Instructions -/

inductive Arm64Insn : Type
  | b (target : Nat)
  | bCond (cond target : Nat)
  | cbz (reg target : Nat)
  | cbnz (reg target : Nat)
  | tbz (reg bit target : Nat)
  | tbnz (reg bit target : Nat)
  | ret
  | str (rt rn : Nat) (offset : Int)
  | ldr (rt rn : Nat) (offset : Int)
  | blr (rn : Nat)
  | other

namespace Arm64Insn

def branchTarget : Arm64Insn → Option Nat
  | b target | bCond _ target | cbz _ target | cbnz _ target | tbz _ _ target | tbnz _ _ target =>
    some target
  | _ => none

def endsBlock : Arm64Insn → Bool
  | b _ | ret => true
  | _ => false

end Arm64Insn

/-- What is read at each address: nothing, or an instruction of four bytes, or one whose operands
are not what they should be. Branches go by multiples of four. -/
structure Decoder (θ : Type) where
  decode : Nat → Option (Except (Error θ) Arm64Insn)
  aligned : ∀ a insn target, decode a = some (.ok insn) → insn.branchTarget = some target →
    target % 4 = a % 4

/-! ## Control flow -/

section

variable (decoder : Decoder θ) (nextFunction : Nat)

/-- Control goes on from one instruction to the one after it, which is not of the next function. -/
def FallsThrough (a a' : Nat) : Prop :=
  (∃ insn, decoder.decode a = some (.ok insn) ∧ insn.endsBlock = false) ∧
    a' = a + 4 ∧ a' ≠ nextFunction ∧ (decoder.decode a').isSome

def Branches (a target : Nat) : Prop :=
  ∃ insn, decoder.decode a = some (.ok insn) ∧ insn.branchTarget = some target

/-- One address is come to from another without a branch. -/
def Straight : Nat → Nat → Prop :=
  Relation.ReflTransGen (FallsThrough decoder nextFunction)

/-- The addresses that are come to from the entry. -/
def Reachable (entry : Nat) : Nat → Prop :=
  Relation.ReflTransGen (fun a a' ↦ FallsThrough decoder nextFunction a a' ∨ Branches decoder a a')
    entry

/-- What some instruction that is come to from the entry branches to. -/
def IsTarget (entry target : Nat) : Prop :=
  ∃ a, Reachable decoder nextFunction entry a ∧ Branches decoder a target

end

section

variable {decoder : Decoder θ} {nextFunction : Nat}

theorem FallsThrough.eq {a a' : Nat} (h : FallsThrough decoder nextFunction a a') : a' = a + 4 :=
  h.2.1

theorem FallsThrough.rightUnique : Relator.RightUnique (FallsThrough decoder nextFunction) := by
  intro a b c hb hc
  exact hb.eq.trans hc.eq.symm

theorem Branches.mod_eq {a target : Nat} (h : Branches decoder a target) : target % 4 = a % 4 := by
  obtain ⟨insn, hinsn, htarget⟩ := h
  exact decoder.aligned a insn target hinsn htarget

namespace Straight

variable {a b c : Nat}

theorem le (h : Straight decoder nextFunction a b) : a ≤ b := by
  induction h with
  | refl => exact le_rfl
  | tail _ hstep ih =>
    rw [hstep.eq]
    exact Nat.le_add_right_of_le ih

theorem mod_eq (h : Straight decoder nextFunction a b) : b % 4 = a % 4 := by
  induction h with
  | refl => rfl
  | tail _ hstep ih =>
    rw [hstep.eq, Nat.add_mod_right]
    exact ih

theorem reachable {entry : Nat} (h : Straight decoder nextFunction a b)
    (ha : Reachable decoder nextFunction entry a) : Reachable decoder nextFunction entry b := by
  induction h with
  | refl => exact ha
  | tail _ hstep ih => exact ih.tail (.inl hstep)

/-- The addresses in between, four bytes apart, are on the way. -/
theorem between (h : Straight decoder nextFunction a c) (hab : a ≤ b) (hbc : b ≤ c)
    (hmod : b % 4 = a % 4) : Straight decoder nextFunction a b := by
  induction h with
  | refl =>
    obtain rfl := Nat.le_antisymm hab hbc
    exact .refl
  | tail hac hstep ih =>
    have hc := hstep.eq
    rcases Nat.eq_or_lt_of_le hbc with rfl | hlt
    · exact hac.tail hstep
    · have hcmod := mod_eq hac
      exact ih (by omega)

/-- Of two ways from one address, one goes on where the other stops. -/
theorem total (hb : Straight decoder nextFunction a b) (hc : Straight decoder nextFunction a c) :
    Straight decoder nextFunction b c ∨ Straight decoder nextFunction c b :=
  Relation.ReflTransGen.total_of_right_unique FallsThrough.rightUnique hb hc

end Straight

theorem Reachable.mod_eq {entry a : Nat} (h : Reachable decoder nextFunction entry a) :
    a % 4 = entry % 4 := by
  induction h with
  | refl => rfl
  | tail _ hstep ih =>
    rcases hstep with hstep | hstep
    · rw [hstep.eq, Nat.add_mod_right, ih]
    · exact hstep.mod_eq.trans ih

end

/-! ## The collector -/

structure Arm64Block where
  begin : Nat
  stop : Nat
  deriving DecidableEq

/-- The loop variables: what has been collected, and the block that is being read with the address
after its last instruction. -/
structure Collector where
  blocks : List Arm64Block
  branchTargets : List Nat
  pending : List Nat
  reading : Option (Nat × Nat)

namespace Collector

def start (entry : Nat) : Collector := ⟨[], [], [entry], none⟩

variable (s : Collector)

/-- The address is in a finished block. -/
def inside (a : Nat) : Bool := s.blocks.any fun block ↦ block.begin ≤ a && a < block.stop

/-- `blocks.insert(begin, block)`. -/
def insertBlock (block : Arm64Block) : Collector :=
  { s with blocks := s.blocks.filter (·.begin ≠ block.begin) ++ [block] }

/-- The target of an instruction is noted, and pending from then on. -/
def noteTarget : Option Nat → Collector
  | none => s
  | some target =>
    { s with
      branchTargets := s.branchTargets.insert target
      pending := (s.pending ++ [target]).insertionSort (· ≤ ·) }

end Collector

abbrev Collected (θ : Type) := Except (Error θ) (List Arm64Block × List Nat)

section

variable (decoder : Decoder θ) (feature : String) (entry nextFunction : Nat)

def finishBlock (begin stop : Nat) (s : Collector) : Collector ⊕ Collected θ :=
  if stop = begin then
    .inr (unsupported feature "unable to parse empty ART ExceptionClear block")
  else .inl { s.insertBlock ⟨begin, stop⟩ with reading := none }

/-- A round of the inner loop. -/
def readInsn (begin address : Nat) (s : Collector) : Collector ⊕ Collected θ :=
  match decoder.decode address with
  | none => finishBlock feature begin address s
  | some decoded =>
    if address = nextFunction then finishBlock feature begin address s
    else
      match decoded with
      | .error error => .inr (.error error)
      | .ok insn =>
        let s := s.noteTarget insn.branchTarget
        if insn.endsBlock then finishBlock feature begin (address + 4) s
        else .inl { s with reading := some (begin, address + 4) }

/-- A round of the outer loop, up to the inner one. -/
def nextBlock (s : Collector) : Collector ⊕ Collected θ :=
  match s.pending with
  | [] =>
    if s.blocks.any (·.begin = entry) then .inr (.ok (s.blocks, s.branchTargets))
    else .inr (unsupported feature "unable to parse ART ExceptionClear entry block")
  | current :: pending =>
    if s.inside current then .inl { s with pending }
    else .inl { s with pending, reading := some (current, current) }

def collectStep (s : Collector) : Collector ⊕ Collected θ :=
  match s.reading with
  | none => nextBlock feature entry s
  | some (begin, address) => readInsn decoder feature nextFunction begin address s

/-- The blocks and the branch targets, unless it takes more than a number of rounds. -/
def collectArm64Blocks (fuel : Nat) : Option (Collected θ) :=
  Loop.run (collectStep decoder feature entry nextFunction) fuel (.start entry)

end

/-! ## The code that is written -/

/-- The addresses of the instructions of a block. -/
def Arm64Block.addresses (block : Arm64Block) : List Nat :=
  (List.range ((block.stop - block.begin) / 4)).map (block.begin + 4 * ·)

/-- The blocks by their begins, the entry block before all others. -/
def blocksOrdered (entry : Nat) (blocks : List Arm64Block) : List Arm64Block :=
  let sorted := blocks.insertionSort (·.begin ≤ ·.begin)
  match sorted.findIdx? (·.begin = entry) with
  | none => sorted
  | some entryIndex => sorted[entryIndex]?.toList ++ sorted.eraseIdx entryIndex

/-- The instructions in the order in which they are written. -/
def emitted (entry : Nat) (blocks : List Arm64Block) : List Nat :=
  (blocksOrdered entry blocks).flatMap Arm64Block.addresses

/-- The labels, each before the instruction at its address. -/
def labels (entry : Nat) (blocks : List Arm64Block) (branchTargets : List Nat) : List Nat :=
  (emitted entry blocks).filter (· ∈ branchTargets)

/-! ## Runs -/

theorem Arm64Block.mem_addresses {block : Arm64Block} (hmod : block.stop % 4 = block.begin % 4)
    {a : Nat} :
    a ∈ block.addresses ↔ block.begin ≤ a ∧ a < block.stop ∧ a % 4 = block.begin % 4 := by
  rw [addresses, List.mem_map]
  constructor
  · intro h
    obtain ⟨i, hi, rfl⟩ := h
    have hi := List.mem_range.mp hi
    omega
  · intro h
    obtain ⟨hbegin, hstop, ha⟩ := h
    refine ⟨(a - block.begin) / 4, List.mem_range.mpr ?_, ?_⟩
    · omega
    · omega

theorem Arm64Block.nodup_addresses (block : Arm64Block) : block.addresses.Nodup := by
  apply List.Nodup.map _ List.nodup_range
  intro i j h
  exact Nat.eq_of_mul_eq_mul_left (by decide) (Nat.add_left_cancel h)

/-- One of the blocks stops before the other one begins. -/
def Arm64Block.Apart (block block' : Arm64Block) : Prop :=
  block.stop ≤ block'.begin ∨ block'.stop ≤ block.begin

instance : DecidableRel Arm64Block.Apart := fun block block' ↦
  inferInstanceAs (Decidable (block.stop ≤ block'.begin ∨ block'.stop ≤ block.begin))

instance : Std.Symm Arm64Block.Apart where
  symm _ _ h := h.symm

section

variable (decoder : Decoder θ) (nextFunction : Nat)

/-- The block goes on as far as control does without a branch. -/
def IsRun (block : Arm64Block) : Prop :=
  ∃ last, block.stop = last + 4 ∧ Straight decoder nextFunction block.begin last ∧
    ∀ a, ¬FallsThrough decoder nextFunction last a

end

namespace IsRun

variable {decoder : Decoder θ} {nextFunction : Nat} {block block' : Arm64Block}

theorem begin_lt_stop (h : IsRun decoder nextFunction block) : block.begin < block.stop := by
  obtain ⟨last, hstop, hlast, -⟩ := h
  rw [hstop]
  exact hlast.le.trans_lt (Nat.lt_add_of_pos_right (by decide))

theorem stop_mod_eq (h : IsRun decoder nextFunction block) : block.stop % 4 = block.begin % 4 := by
  obtain ⟨last, hstop, hlast, -⟩ := h
  rw [hstop, Nat.add_mod_right, hlast.mod_eq]

theorem straight_iff (h : IsRun decoder nextFunction block) {a : Nat} :
    Straight decoder nextFunction block.begin a ↔
      block.begin ≤ a ∧ a < block.stop ∧ a % 4 = block.begin % 4 := by
  obtain ⟨last, hstop, hlast, hend⟩ := h
  rw [hstop]
  constructor
  · intro ha
    refine ⟨ha.le, ?_, ha.mod_eq⟩
    rcases ha.total hlast with hto | hfrom
    · exact hto.le.trans_lt (Nat.lt_add_of_pos_right (by decide))
    · -- nothing is come to from the last instruction but itself
      rcases hfrom.cases_head with rfl | ⟨c, hc, -⟩
      · exact Nat.lt_add_of_pos_right (by decide)
      · exact absurd hc (hend c)
  · intro ha
    obtain ⟨hbegin, hlt, hmod⟩ := ha
    have hlastmod := hlast.mod_eq
    exact hlast.between hbegin (by omega) hmod

theorem mem_addresses (h : IsRun decoder nextFunction block) {a : Nat} :
    a ∈ block.addresses ↔ Straight decoder nextFunction block.begin a := by
  rw [Arm64Block.mem_addresses h.stop_mod_eq, h.straight_iff]

/-- Two runs are apart unless one of them runs on into the other. -/
theorem apart_iff (h : IsRun decoder nextFunction block) (h' : IsRun decoder nextFunction block')
    (hmod : block.begin % 4 = block'.begin % 4) :
    block.Apart block' ↔ ¬Straight decoder nextFunction block.begin block'.begin ∧
      ¬Straight decoder nextFunction block'.begin block.begin := by
  rw [h.straight_iff, h'.straight_iff, Arm64Block.Apart]
  have hlt := h.begin_lt_stop
  have hlt' := h'.begin_lt_stop
  omega

theorem disjoint_addresses (h : IsRun decoder nextFunction block)
    (h' : IsRun decoder nextFunction block') (hapart : block.Apart block') :
    List.Disjoint block.addresses block'.addresses := by
  intro a ha ha'
  obtain ⟨hbegin, hstop, -⟩ := h.straight_iff.mp (h.mem_addresses.mp ha)
  obtain ⟨hbegin', hstop', -⟩ := h'.straight_iff.mp (h'.mem_addresses.mp ha')
  rcases hapart with hle | hle
  · exact absurd (hstop.trans_le hle) (Nat.not_lt_of_le hbegin')
  · exact absurd (hstop'.trans_le hle) (Nat.not_lt_of_le hbegin)

end IsRun

end JavaBridge.RunnableThread

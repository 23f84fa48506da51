import JavaBridge.RunnableThread.Blocks
import Mathlib.Data.List.Pairwise

/-!
# What the blocks cover

When the collector is done, its blocks hold what can be reached from the entry and nothing else, and
its branch targets are those of the instructions in them. What is written from blocks that are apart
has every instruction and every label once.

Main results:

* `Collects.collectStep`: the invariant of the collector.
* `collectArm64Blocks_covers`: the blocks are what can be reached.
* `Collects.coversOnce`: the instructions and the labels are written once if the blocks are apart.
-/

namespace JavaBridge.RunnableThread

variable {θ : Type}

/-! ## The invariant -/

section

variable (decoder : Decoder θ) (entry nextFunction : Nat) (s : Collector)

/-- The branches of the instructions from one address up to another have been noted. -/
def Noted (branchTargets : List Nat) (begin address : Nat) : Prop :=
  ∀ a target, Straight decoder nextFunction begin a → a < address → Branches decoder a target →
    target ∈ branchTargets

/-- The block that is being read has come to an address. -/
structure Reading (begin address : Nat) : Prop where
  reachable : Reachable decoder nextFunction entry begin
  /-- Nothing has been read, or an instruction after which control goes on. -/
  last : address = begin ∨ ∃ last insn, address = last + 4 ∧
    Straight decoder nextFunction begin last ∧ decoder.decode last = some (.ok insn) ∧
    insn.endsBlock = false
  noted : Noted decoder nextFunction s.branchTargets begin address
  new : ∀ block ∈ s.blocks, ¬Straight decoder nextFunction block.begin begin

structure Collects : Prop where
  run : ∀ block ∈ s.blocks, IsRun decoder nextFunction block
  reachable : ∀ block ∈ s.blocks, Reachable decoder nextFunction entry block.begin
  noted : ∀ block ∈ s.blocks,
    Noted decoder nextFunction s.branchTargets block.begin block.stop
  target : ∀ target ∈ s.branchTargets, IsTarget decoder nextFunction entry target
  pending : ∀ a ∈ s.pending, Reachable decoder nextFunction entry a
  /-- What is to be collected is waiting, or in a block, or being read. -/
  seen : ∀ a, a = entry ∨ a ∈ s.branchTargets →
    a ∈ s.pending ∨ (∃ block ∈ s.blocks, Straight decoder nextFunction block.begin a) ∨
      ∃ address, s.reading = some (a, address)
  reading : ∀ begin address, s.reading = some (begin, address) →
    Reading decoder entry nextFunction s begin address

end

namespace Collector

variable (s : Collector) (target : Option Nat)

@[simp] theorem noteTarget_blocks : (s.noteTarget target).blocks = s.blocks := by
  cases target with
  | none => rfl
  | some t => rfl

@[simp] theorem noteTarget_reading : (s.noteTarget target).reading = s.reading := by
  cases target with
  | none => rfl
  | some t => rfl

variable {s target} {a : Nat}

theorem mem_noteTarget_branchTargets :
    a ∈ (s.noteTarget target).branchTargets ↔ target = some a ∨ a ∈ s.branchTargets := by
  cases target with
  | none =>
    rw [noteTarget]
    exact (or_iff_right (Option.some_ne_none a).symm).symm
  | some t =>
    rw [noteTarget, List.mem_insert_iff, Option.some_inj, eq_comm]

theorem mem_noteTarget_pending :
    a ∈ (s.noteTarget target).pending ↔ target = some a ∨ a ∈ s.pending := by
  cases target with
  | none =>
    rw [noteTarget]
    exact (or_iff_right (Option.some_ne_none a).symm).symm
  | some t =>
    rw [noteTarget, List.mem_insertionSort, List.mem_append, List.mem_singleton, Option.some_inj,
      eq_comm, or_comm]

end Collector

variable {decoder : Decoder θ} {entry nextFunction : Nat} {s s' : Collector}

theorem Collects.start : Collects decoder entry nextFunction (.start entry) where
  run := by
    intro block h
    cases h
  reachable := by
    intro block h
    cases h
  noted := by
    intro block h
    cases h
  target := by
    intro target h
    cases h
  pending := by
    intro a h
    rw [List.mem_singleton.mp h]
    exact .refl
  seen := by
    intro a h
    rcases h with rfl | h
    · exact .inl (List.mem_singleton_self a)
    · cases h
  reading := by
    intro begin address h
    cases h

theorem IsTarget.reachable {target : Nat} (h : IsTarget decoder nextFunction entry target) :
    Reachable decoder nextFunction entry target := by
  obtain ⟨a, ha, hbranch⟩ := h
  exact ha.tail (.inr hbranch)

/-- The block stops after an instruction that ends blocks. -/
theorem isRun_of_endsBlock {begin address : Nat} {insn : Arm64Insn}
    (hstraight : Straight decoder nextFunction begin address)
    (hinsn : decoder.decode address = some (.ok insn)) (hends : insn.endsBlock = true) :
    IsRun decoder nextFunction ⟨begin, address + 4⟩ := by
  refine ⟨address, rfl, hstraight, ?_⟩
  intro a hfall
  obtain ⟨⟨insn', hinsn', hgoes⟩, -⟩ := hfall
  obtain rfl := Except.ok.inj (Option.some.inj (hinsn.symm.trans hinsn'))
  rw [hends] at hgoes
  cases hgoes

namespace Reading

variable {begin address : Nat}

theorem insertBlock_blocks (h : Reading decoder entry nextFunction s begin address) (stop : Nat) :
    (s.insertBlock ⟨begin, stop⟩).blocks = s.blocks ++ [⟨begin, stop⟩] := by
  apply congrArg (· ++ _)
  apply List.filter_eq_self.mpr
  intro block hblock
  apply decide_eq_true
  intro heq
  apply h.new block hblock
  rw [heq]
  exact .refl

/-- An instruction is there and of this function. -/
theorem straight (h : Reading decoder entry nextFunction s begin address)
    (hnext : address ≠ nextFunction) (hsome : (decoder.decode address).isSome) :
    Straight decoder nextFunction begin address := by
  rcases h.last with rfl | ⟨last, insn, rfl, hlast, hinsn, hends⟩
  · exact .refl
  · exact hlast.tail ⟨⟨insn, hinsn, hends⟩, rfl, hnext, hsome⟩

/-- The block stops where no instruction is read, or one of the next function. -/
theorem isRun (h : Reading decoder entry nextFunction s begin address) (hne : address ≠ begin)
    (hstop : decoder.decode address = none ∨ address = nextFunction) :
    IsRun decoder nextFunction ⟨begin, address⟩ := by
  rcases h.last with rfl | ⟨last, insn, rfl, hlast, -⟩
  · exact absurd rfl hne
  · refine ⟨last, rfl, hlast, ?_⟩
    intro a hfall
    obtain ⟨-, rfl, hnext, hsome⟩ := hfall
    rcases hstop with hnone | rfl
    · rw [hnone] at hsome
      cases hsome
    · exact hnext rfl

/-- With the target of the instruction, the branches up to the next one are noted. -/
theorem noted_add (h : Reading decoder entry nextFunction s begin address) {insn : Arm64Insn}
    (hstraight : Straight decoder nextFunction begin address)
    (hinsn : decoder.decode address = some (.ok insn)) :
    Noted decoder nextFunction (s.noteTarget insn.branchTarget).branchTargets begin
      (address + 4) := by
  intro a target ha hlt hbranch
  apply Collector.mem_noteTarget_branchTargets.mpr
  have hmod := ha.mod_eq.trans hstraight.mod_eq.symm
  rcases Nat.lt_or_ge a address with hlt | hge
  · exact .inr (h.noted a target ha hlt hbranch)
  · obtain rfl : a = address := by omega
    obtain ⟨insn', hinsn', htarget⟩ := hbranch
    obtain rfl := Except.ok.inj (Option.some.inj (hinsn.symm.trans hinsn'))
    exact .inl htarget

end Reading

namespace Collects

theorem mod_eq (h : Collects decoder entry nextFunction s) {block : Arm64Block}
    (hblock : block ∈ s.blocks) {a : Nat} (ha : Reachable decoder nextFunction entry a) :
    a % 4 = block.begin % 4 :=
  ha.mod_eq.trans (h.reachable block hblock).mod_eq.symm

theorem inside_iff (h : Collects decoder entry nextFunction s) {a : Nat}
    (ha : Reachable decoder nextFunction entry a) :
    s.inside a = true ↔ ∃ block ∈ s.blocks, Straight decoder nextFunction block.begin a := by
  rw [Collector.inside, List.any_eq_true]
  apply exists_congr
  intro block
  apply and_congr_right
  intro hblock
  rw [(h.run block hblock).straight_iff, Bool.and_eq_true, decide_eq_true_iff, decide_eq_true_iff]
  exact and_congr_right fun _ ↦ (and_iff_left (h.mod_eq hblock ha)).symm

/-- What is popped and what stays pending can be reached. -/
theorem reachable_of_pending (h : Collects decoder entry nextFunction s) {current : Nat}
    {pending : List Nat} (hpending : s.pending = current :: pending) :
    Reachable decoder nextFunction entry current ∧
      ∀ a ∈ pending, Reachable decoder nextFunction entry a := by
  have hall := h.pending
  rw [hpending] at hall
  exact List.forall_mem_cons.mp hall

/-- What is to be collected is no longer pending if it was popped. -/
theorem seen_of_pending (h : Collects decoder entry nextFunction s) {current : Nat}
    {pending : List Nat} (hpending : s.pending = current :: pending) {a : Nat}
    (ha : a = entry ∨ a ∈ s.branchTargets) :
    a = current ∨ a ∈ pending ∨ (∃ block ∈ s.blocks, Straight decoder nextFunction block.begin a) ∨
      ∃ address, s.reading = some (a, address) := by
  have hseen := h.seen a ha
  rw [hpending, List.mem_cons, or_assoc] at hseen
  exact hseen

/-- A popped address is in a block already. -/
theorem skip (h : Collects decoder entry nextFunction s) {current : Nat} {pending : List Nat}
    (hpending : s.pending = current :: pending) (hinside : s.inside current = true) :
    Collects decoder entry nextFunction { s with pending } := by
  obtain ⟨hcurrent, hrest⟩ := h.reachable_of_pending hpending
  refine ⟨h.run, h.reachable, h.noted, h.target, hrest, ?_, ?_⟩
  · intro a ha
    rcases h.seen_of_pending hpending ha with rfl | hseen
    · exact .inr (.inl ((h.inside_iff hcurrent).mp hinside))
    · exact hseen
  · intro begin address hreading
    have hread := h.reading begin address hreading
    exact ⟨hread.reachable, hread.last, hread.noted, hread.new⟩

/-- A popped address begins a block. -/
theorem take (h : Collects decoder entry nextFunction s) {current : Nat} {pending : List Nat}
    (hidle : s.reading = none) (hpending : s.pending = current :: pending)
    (hinside : s.inside current = false) :
    Collects decoder entry nextFunction { s with pending, reading := some (current, current) } := by
  obtain ⟨hcurrent, hrest⟩ := h.reachable_of_pending hpending
  refine ⟨h.run, h.reachable, h.noted, h.target, hrest, ?_, ?_⟩
  · intro a ha
    rcases h.seen_of_pending hpending ha with rfl | hmem | hblock | ⟨address, hreading⟩
    · exact .inr (.inr ⟨a, rfl⟩)
    · exact .inl hmem
    · exact .inr (.inl hblock)
    · rw [hidle] at hreading
      cases hreading
  · intro begin address hreading
    obtain ⟨rfl, rfl⟩ := Prod.mk.inj (Option.some.inj hreading)
    refine ⟨hcurrent, .inl rfl, ?_, ?_⟩
    · intro a target ha hlt
      exact absurd hlt (Nat.not_lt_of_le ha.le)
    · intro block hblock hstraight
      rw [(h.inside_iff hcurrent).mpr ⟨block, hblock, hstraight⟩] at hinside
      cases hinside

/-- The target of an instruction that is come to is noted. -/
theorem noteTarget (h : Collects decoder entry nextFunction s) {a : Nat} {insn : Arm64Insn}
    (ha : Reachable decoder nextFunction entry a) (hinsn : decoder.decode a = some (.ok insn)) :
    Collects decoder entry nextFunction (s.noteTarget insn.branchTarget) where
  run := by
    rw [Collector.noteTarget_blocks]
    exact h.run
  reachable := by
    rw [Collector.noteTarget_blocks]
    exact h.reachable
  noted := by
    rw [Collector.noteTarget_blocks]
    intro block hblock x target hx hlt hbranch
    exact Collector.mem_noteTarget_branchTargets.mpr
      (.inr (h.noted block hblock x target hx hlt hbranch))
  target := by
    intro target htarget
    rcases Collector.mem_noteTarget_branchTargets.mp htarget with hnew | hold
    · exact ⟨a, ha, insn, hinsn, hnew⟩
    · exact h.target target hold
  pending := by
    intro x hx
    rcases Collector.mem_noteTarget_pending.mp hx with hnew | hold
    · exact ha.tail (.inr ⟨insn, hinsn, hnew⟩)
    · exact h.pending x hold
  seen := by
    intro x hx
    rw [Collector.mem_noteTarget_pending, Collector.noteTarget_blocks, Collector.noteTarget_reading]
    rw [Collector.mem_noteTarget_branchTargets, or_left_comm] at hx
    rcases hx with hnew | hold
    · exact .inl (.inl hnew)
    · exact (h.seen x hold).imp_left .inr
  reading := by
    rw [Collector.noteTarget_reading]
    intro begin address hreading
    have := h.reading begin address hreading
    refine ⟨this.reachable, this.last, ?_, ?_⟩
    · intro x target hx hlt hbranch
      exact Collector.mem_noteTarget_branchTargets.mpr (.inr (this.noted x target hx hlt hbranch))
    · rw [Collector.noteTarget_blocks]
      exact this.new

/-- The block that is being read is finished. -/
theorem finish (h : Collects decoder entry nextFunction s) {begin address stop : Nat}
    (hreading : s.reading = some (begin, address))
    (hrun : IsRun decoder nextFunction ⟨begin, stop⟩)
    (hnoted : Noted decoder nextFunction s.branchTargets begin stop) :
    Collects decoder entry nextFunction { s.insertBlock ⟨begin, stop⟩ with reading := none } := by
  have hbegin := h.reading begin address hreading
  have hblocks := hbegin.insertBlock_blocks stop
  have hmem : ∀ block, block ∈ (s.insertBlock ⟨begin, stop⟩).blocks →
      block ∈ s.blocks ∨ block = ⟨begin, stop⟩ := by
    intro block hblock
    rw [hblocks, List.mem_append, List.mem_singleton] at hblock
    exact hblock
  constructor
  case run =>
    intro block hblock
    rcases hmem block hblock with hblock | rfl
    · exact h.run block hblock
    · exact hrun
  case reachable =>
    intro block hblock
    rcases hmem block hblock with hblock | rfl
    · exact h.reachable block hblock
    · exact hbegin.reachable
  case noted =>
    intro block hblock
    rcases hmem block hblock with hblock | rfl
    · exact h.noted block hblock
    · exact hnoted
  case target => exact h.target
  case pending => exact h.pending
  case seen =>
    intro a ha
    change _ ∨ (∃ block ∈ (s.insertBlock ⟨begin, stop⟩).blocks, _) ∨ _
    rw [hblocks]
    rcases h.seen a ha with hmem | ⟨block, hblock, hstraight⟩ | ⟨address', hreading'⟩
    · exact .inl hmem
    · exact .inr (.inl ⟨block, List.mem_append_left _ hblock, hstraight⟩)
    · rw [hreading] at hreading'
      obtain ⟨rfl, -⟩ := Prod.mk.inj (Option.some.inj hreading')
      exact .inr (.inl ⟨⟨begin, stop⟩, List.mem_append_right _ (List.mem_singleton_self _), .refl⟩)
  case reading =>
    intro begin' address' hreading'
    cases hreading'

/-- The reading goes on. -/
theorem goOn (h : Collects decoder entry nextFunction s) {begin address address' : Nat}
    (hreading : s.reading = some (begin, address))
    (hnext : Reading decoder entry nextFunction s begin address') :
    Collects decoder entry nextFunction { s with reading := some (begin, address') } where
  run := h.run
  reachable := h.reachable
  noted := h.noted
  target := h.target
  pending := h.pending
  seen := by
    intro a ha
    rcases h.seen a ha with hmem | hblock | ⟨address'', hreading'⟩
    · exact .inl hmem
    · exact .inr (.inl hblock)
    · rw [hreading] at hreading'
      obtain ⟨rfl, -⟩ := Prod.mk.inj (Option.some.inj hreading')
      exact .inr (.inr ⟨address', rfl⟩)
  reading := by
    intro begin' address'' hreading'
    obtain ⟨rfl, rfl⟩ := Prod.mk.inj (Option.some.inj hreading')
    exact ⟨hnext.reachable, hnext.last, hnext.noted, hnext.new⟩

end Collects

/-! ## The rounds -/

theorem finishBlock_eq_inl {feature : String} {begin stop : Nat}
    (h : finishBlock feature begin stop s = (.inl s' : _ ⊕ Collected θ)) :
    stop ≠ begin ∧ s' = { s.insertBlock ⟨begin, stop⟩ with reading := none } := by
  rw [finishBlock] at h
  split at h
  case isTrue => cases h
  case isFalse hne => exact ⟨hne, (Sum.inl.inj h).symm⟩

theorem finishBlock_ne_ok {feature : String} {begin stop : Nat}
    {collected : List Arm64Block × List Nat} :
    finishBlock feature begin stop s ≠ (.inr (.ok collected) : _ ⊕ Collected θ) := by
  intro h
  rw [finishBlock] at h
  split at h
  case isTrue => cases h
  case isFalse => cases h

/-- What a round of the inner loop does. -/
theorem readInsn_cases {feature : String} {begin address : Nat}
    (h : readInsn decoder feature nextFunction begin address s = .inl s') :
    ((decoder.decode address = none ∨ address = nextFunction) ∧ address ≠ begin ∧
      s' = { s.insertBlock ⟨begin, address⟩ with reading := none }) ∨
    ∃ insn, decoder.decode address = some (.ok insn) ∧ address ≠ nextFunction ∧
      (insn.endsBlock = true ∧ s' = { (s.noteTarget insn.branchTarget).insertBlock
          ⟨begin, address + 4⟩ with reading := none } ∨
        insn.endsBlock = false ∧ s' = { s.noteTarget insn.branchTarget with
          reading := some (begin, address + 4) }) := by
  rw [readInsn] at h
  cases hdecode : decoder.decode address with
  | none =>
    rw [hdecode] at h
    obtain ⟨hne, hs'⟩ := finishBlock_eq_inl h
    exact .inl ⟨.inl rfl, hne, hs'⟩
  | some decoded =>
    rw [hdecode] at h
    dsimp only at h
    split at h
    case isTrue hnext =>
      obtain ⟨hne, hs'⟩ := finishBlock_eq_inl h
      exact .inl ⟨.inr hnext, hne, hs'⟩
    case isFalse hnext =>
      cases decoded with
      | error error => cases h
      | ok insn =>
        dsimp only at h
        refine .inr ⟨insn, rfl, hnext, ?_⟩
        split at h
        case isTrue hends =>
          obtain ⟨-, hs'⟩ := finishBlock_eq_inl h
          exact .inl ⟨hends, hs'⟩
        case isFalse hends =>
          exact .inr ⟨Bool.eq_false_of_not_eq_true hends, (Sum.inl.inj h).symm⟩

theorem readInsn_ne_ok {feature : String} {begin address : Nat}
    {collected : List Arm64Block × List Nat} :
    readInsn decoder feature nextFunction begin address s ≠ .inr (.ok collected) := by
  intro h
  rw [readInsn] at h
  cases hdecode : decoder.decode address with
  | none =>
    rw [hdecode] at h
    exact finishBlock_ne_ok h
  | some decoded =>
    rw [hdecode] at h
    dsimp only at h
    split at h
    case isTrue => exact finishBlock_ne_ok h
    case isFalse =>
      cases decoded with
      | error error => cases h
      | ok insn =>
        dsimp only at h
        split at h
        case isTrue => exact finishBlock_ne_ok h
        case isFalse => cases h

/-- What a round of the outer loop does. -/
theorem nextBlock_cases {feature : String}
    (h : nextBlock feature entry s = (.inl s' : _ ⊕ Collected θ)) :
    ∃ current pending, s.pending = current :: pending ∧
      (s.inside current = true ∧ s' = { s with pending } ∨ s.inside current = false ∧
        s' = { s with pending, reading := some (current, current) }) := by
  rw [nextBlock] at h
  split at h
  case h_1 =>
    split at h
    case isTrue => cases h
    case isFalse => cases h
  case h_2 current pending hpending =>
    refine ⟨current, pending, hpending, ?_⟩
    split at h
    case isTrue hinside => exact .inl ⟨hinside, (Sum.inl.inj h).symm⟩
    case isFalse hinside =>
      exact .inr ⟨Bool.eq_false_of_not_eq_true hinside, (Sum.inl.inj h).symm⟩

/-- The collector is done when nothing is pending. -/
theorem nextBlock_eq_ok {feature : String} {blocks : List Arm64Block} {branchTargets : List Nat}
    (h : nextBlock feature entry s = (.inr (.ok (blocks, branchTargets)) : _ ⊕ Collected θ)) :
    s.pending = [] ∧ s.blocks = blocks ∧ s.branchTargets = branchTargets := by
  rw [nextBlock] at h
  split at h
  case h_1 hpending =>
    split at h
    case isTrue =>
      obtain ⟨hblocks, htargets⟩ := Prod.mk.inj (Except.ok.inj (Sum.inr.inj h))
      exact ⟨hpending, hblocks, htargets⟩
    case isFalse => cases h
  case h_2 =>
    split at h
    case isTrue => cases h
    case isFalse => cases h

namespace Collects

/-- A round of the inner loop notes the target of the instruction, if there is one, and then
finishes the block or goes on. -/
theorem round {feature : String} {begin address : Nat}
    (h : Collects decoder entry nextFunction s) (hreading : s.reading = some (begin, address))
    (hstep : readInsn decoder feature nextFunction begin address s = .inl s') :
    ∃ u, Collects decoder entry nextFunction u ∧ u.reading = some (begin, address) ∧
      (u = s ∨ ∃ insn, decoder.decode address = some (.ok insn) ∧
        Straight decoder nextFunction begin address ∧ u = s.noteTarget insn.branchTarget) ∧
      ((∃ stop, IsRun decoder nextFunction ⟨begin, stop⟩ ∧
        Noted decoder nextFunction u.branchTargets begin stop ∧
        s' = { u.insertBlock ⟨begin, stop⟩ with reading := none }) ∨
      ∃ address', Reading decoder entry nextFunction u begin address' ∧
        s' = { u with reading := some (begin, address') }) := by
  have hread := h.reading begin address hreading
  rcases readInsn_cases hstep with ⟨hstop, hne, rfl⟩ | ⟨insn, hinsn, hnext, hs'⟩
  · exact ⟨s, h, hreading, .inl rfl, .inl ⟨address, hread.isRun hne hstop, hread.noted, rfl⟩⟩
  · have hstraight := hread.straight hnext (by rw [hinsn]; rfl)
    have hnoted := hread.noted_add hstraight hinsn
    have hnote := h.noteTarget (hstraight.reachable hread.reachable) hinsn
    have hreading' := (Collector.noteTarget_reading s insn.branchTarget).trans hreading
    refine ⟨_, hnote, hreading', .inr ⟨insn, hinsn, hstraight, rfl⟩, ?_⟩
    rcases hs' with ⟨hends, rfl⟩ | ⟨hends, rfl⟩
    · exact .inl ⟨_, isRun_of_endsBlock hstraight hinsn hends, hnoted, rfl⟩
    · refine .inr ⟨address + 4, ?_, rfl⟩
      refine ⟨hread.reachable, .inr ⟨address, insn, rfl, hstraight, hinsn, hends⟩, hnoted, ?_⟩
      exact (hnote.reading begin address hreading').new

/-- **Every round of the collector keeps the invariant.** -/
theorem collectStep {feature : String} (h : Collects decoder entry nextFunction s)
    (hstep : collectStep decoder feature entry nextFunction s = .inl s') :
    Collects decoder entry nextFunction s' := by
  rw [RunnableThread.collectStep] at hstep
  split at hstep
  case h_1 hidle =>
    obtain ⟨current, pending, hpending, hs'⟩ := nextBlock_cases hstep
    rcases hs' with ⟨hinside, rfl⟩ | ⟨hinside, rfl⟩
    · exact h.skip hpending hinside
    · exact h.take hidle hpending hinside
  case h_2 begin address hreading =>
    obtain ⟨u, hu, hreading', -, hs'⟩ := h.round hreading hstep
    rcases hs' with ⟨stop, hrun, hnoted, rfl⟩ | ⟨address', hread, rfl⟩
    · exact hu.finish hreading' hrun hnoted
    · exact hu.goOn hreading' hread

variable {blocks : List Arm64Block} {branchTargets : List Nat}

theorem collectStep_eq_ok {feature : String}
    (hstep : RunnableThread.collectStep decoder feature entry nextFunction s =
      .inr (.ok (blocks, branchTargets))) :
    s = ⟨blocks, branchTargets, [], none⟩ := by
  rw [RunnableThread.collectStep] at hstep
  split at hstep
  case h_1 hidle =>
    obtain ⟨hpending, hblocks, htargets⟩ := nextBlock_eq_ok hstep
    cases s
    cases hidle
    cases hpending
    cases hblocks
    cases htargets
    rfl
  case h_2 => exact absurd hstep readInsn_ne_ok

/-! ## What is collected -/

theorem of_ends {feature : String}
    (h : Loop.Ends (RunnableThread.collectStep decoder feature entry nextFunction) (.start entry)
      (.ok (blocks, branchTargets))) :
    Collects decoder entry nextFunction ⟨blocks, branchTargets, [], none⟩ := by
  refine Loop.Ends.post (I := Collects decoder entry nextFunction)
    (Q := fun b ↦ b = .ok (blocks, branchTargets) →
      Collects decoder entry nextFunction ⟨blocks, branchTargets, [], none⟩) ?_ ?_ h .start rfl
  · intro s t hs hstep
    exact hs.collectStep hstep
  · intro s b hs hstep hb
    rw [hb] at hstep
    rw [collectStep_eq_ok hstep] at hs
    exact hs

variable (h : Collects decoder entry nextFunction ⟨blocks, branchTargets, [], none⟩)
include h

theorem covered {a : Nat} (ha : a = entry ∨ a ∈ branchTargets) :
    ∃ block ∈ blocks, Straight decoder nextFunction block.begin a := by
  rcases h.seen a ha with hmem | hblock | ⟨address, hreading⟩
  · cases hmem
  · exact hblock
  · cases hreading

/-- **The instructions of the blocks are those that are come to from the entry.** -/
theorem reachable_iff {a : Nat} :
    (∃ block ∈ blocks, a ∈ block.addresses) ↔ Reachable decoder nextFunction entry a := by
  constructor
  · intro ha
    obtain ⟨block, hblock, ha⟩ := ha
    exact ((h.run block hblock).mem_addresses.mp ha).reachable (h.reachable block hblock)
  · intro ha
    suffices hstraight : ∃ block ∈ blocks, Straight decoder nextFunction block.begin a by
      obtain ⟨block, hblock, hstraight⟩ := hstraight
      exact ⟨block, hblock, (h.run block hblock).mem_addresses.mpr hstraight⟩
    induction ha with
    | refl => exact h.covered (.inl rfl)
    | tail _ hedge ih =>
      obtain ⟨block, hblock, hstraight⟩ := ih
      rcases hedge with hfall | hbranch
      · exact ⟨block, hblock, hstraight.tail hfall⟩
      · apply h.covered
        have hlt := ((h.run block hblock).straight_iff.mp hstraight).2.1
        exact .inr (h.noted block hblock _ _ hstraight hlt hbranch)

theorem mem_branchTargets_iff {target : Nat} :
    target ∈ branchTargets ↔ IsTarget decoder nextFunction entry target := by
  constructor
  · exact h.target target
  · intro htarget
    obtain ⟨a, ha, hbranch⟩ := htarget
    obtain ⟨block, hblock, ha⟩ := h.reachable_iff.mpr ha
    have hstraight := (h.run block hblock).mem_addresses.mp ha
    have hlt := ((h.run block hblock).straight_iff.mp hstraight).2.1
    exact h.noted block hblock a target hstraight hlt hbranch

end Collects

/-- **What is collected is what can be reached**, whether the blocks are apart or not. -/
theorem collectArm64Blocks_covers {feature : String} {fuel : Nat} {blocks : List Arm64Block}
    {branchTargets : List Nat} (h : collectArm64Blocks decoder feature entry nextFunction fuel =
      some (.ok (blocks, branchTargets))) :
    (∀ a, (∃ block ∈ blocks, a ∈ block.addresses) ↔ Reachable decoder nextFunction entry a) ∧
      ∀ target, target ∈ branchTargets ↔ IsTarget decoder nextFunction entry target := by
  have hcollects := Collects.of_ends (Loop.ends_of_run h)
  constructor
  · intro a
    exact hcollects.reachable_iff
  · intro target
    exact hcollects.mem_branchTargets_iff

/-! ## The code that is written -/

theorem perm_blocksOrdered (blocks : List Arm64Block) :
    (blocksOrdered entry blocks).Perm blocks := by
  apply List.Perm.trans _ (List.perm_insertionSort (·.begin ≤ ·.begin) blocks)
  rw [blocksOrdered]
  split
  case h_1 => exact .refl _
  case h_2 entryIndex hfind =>
    obtain ⟨hlt, -⟩ := List.findIdx?_eq_some_iff_getElem.mp hfind
    rw [List.getElem?_eq_getElem hlt, Option.toList_some, List.eraseIdx_eq_take_drop_succ,
      List.singleton_append]
    apply List.perm_middle.symm.trans
    rw [List.getElem_cons_drop, List.take_append_drop]

section

variable {blocks : List Arm64Block} {a : Nat}

theorem mem_emitted : a ∈ emitted entry blocks ↔ ∃ block ∈ blocks, a ∈ block.addresses := by
  rw [emitted, List.mem_flatMap]
  apply exists_congr
  intro block
  rw [(perm_blocksOrdered blocks).mem_iff]

theorem nodup_emitted (hrun : ∀ block ∈ blocks, IsRun decoder nextFunction block)
    (hapart : blocks.Pairwise Arm64Block.Apart) : (emitted entry blocks).Nodup := by
  have hperm : (blocksOrdered entry blocks).Perm blocks := perm_blocksOrdered blocks
  apply List.nodup_flatMap.mpr
  constructor
  · intro block _
    exact block.nodup_addresses
  · have hdisjoint : blocks.Pairwise (Function.onFun List.Disjoint Arm64Block.addresses) := by
      apply hapart.imp_of_mem
      intro block block' hblock hblock' h
      exact (hrun block hblock).disjoint_addresses (hrun block' hblock') h
    apply hdisjoint.perm hperm.symm
    intro block block' h
    exact List.disjoint_symm h

end

/-- Every instruction and every label of the function is written once. -/
structure CoversOnce (decoder : Decoder θ) (entry nextFunction : Nat) (blocks : List Arm64Block)
    (branchTargets : List Nat) : Prop where
  apart : blocks.Pairwise Arm64Block.Apart
  reachable : ∀ a, (∃ block ∈ blocks, a ∈ block.addresses) ↔ Reachable decoder nextFunction entry a
  target : ∀ target, IsTarget decoder nextFunction entry target →
    ∃! block, block ∈ blocks ∧ target ∈ block.addresses
  emitted : ∀ a, Reachable decoder nextFunction entry a → (emitted entry blocks).count a = 1
  label : ∀ target, IsTarget decoder nextFunction entry target →
    (labels entry blocks branchTargets).count target = 1

namespace Collects

variable {blocks : List Arm64Block} {branchTargets : List Nat}

/-- Blocks that are apart are all that is missing. -/
theorem coversOnce (h : Collects decoder entry nextFunction ⟨blocks, branchTargets, [], none⟩)
    (hapart : blocks.Pairwise Arm64Block.Apart) :
    CoversOnce decoder entry nextFunction blocks branchTargets := by
  have hnodup : (RunnableThread.emitted entry blocks).Nodup := nodup_emitted h.run hapart
  have hemitted : ∀ a, Reachable decoder nextFunction entry a →
      a ∈ RunnableThread.emitted entry blocks := by
    intro a ha
    exact mem_emitted.mpr (h.reachable_iff.mpr ha)
  constructor
  case apart => exact hapart
  case reachable =>
    intro a
    exact h.reachable_iff
  case target =>
    intro target htarget
    obtain ⟨block, hblock, hmem⟩ := h.reachable_iff.mpr htarget.reachable
    refine ⟨block, ⟨hblock, hmem⟩, ?_⟩
    rintro block' ⟨hblock', hmem'⟩
    by_contra hne
    have hdisjoint := (h.run block' hblock').disjoint_addresses (h.run block hblock)
      (hapart.forall hblock' hblock hne)
    exact hdisjoint hmem' hmem
  case emitted =>
    intro a ha
    exact List.count_eq_one_of_mem hnodup (hemitted a ha)
  case label =>
    intro target htarget
    apply List.count_eq_one_of_mem (hnodup.filter _)
    apply List.mem_filter.mpr
    exact ⟨hemitted target htarget.reachable, decide_eq_true (h.mem_branchTargets_iff.mpr htarget)⟩

end Collects

end JavaBridge.RunnableThread

import JavaBridge.RunnableThread.Coverage

/-!
# Blocks that run into others

An address that is popped is looked up in the finished blocks, and what is then read from it is not:
where it runs on into a finished block, that block's instructions are in two. A branch back to a
place before the block does this. With branches forward only, addresses are popped in ascending
order.

Main results:

* `Collects.separate_collectStep`: when a round keeps the blocks apart.
* `collectArm64Blocks_coversOnce_iff`: when a run does.
* `clear_of_forward`: it does if all branches go forward.
-/

namespace JavaBridge.RunnableThread

variable {θ : Type} {decoder : Decoder θ} {entry nextFunction : Nat} {s s' : Collector}

/-! ## A round -/

section

variable (decoder : Decoder θ) (nextFunction : Nat) (s : Collector)

/-- The address that is popped does not run on into a finished block. -/
def Clear : Prop :=
  s.reading = none → ∀ current pending, s.pending = current :: pending → s.inside current = false →
    ∀ block ∈ s.blocks, ¬Straight decoder nextFunction current block.begin

/-- The finished blocks are apart, and the one that is being read will be apart from them. -/
def Separate : Prop :=
  s.blocks.Pairwise Arm64Block.Apart ∧ ∀ begin address, s.reading = some (begin, address) →
    ∀ block ∈ s.blocks, ¬Straight decoder nextFunction begin block.begin

end

theorem separate_of_idle (h : s.reading = none) :
    Separate decoder nextFunction s ↔ s.blocks.Pairwise Arm64Block.Apart := by
  apply and_iff_left
  intro begin address hreading
  rw [h] at hreading
  cases hreading

theorem separate_of_reading {begin address : Nat} (h : s.reading = some (begin, address)) :
    Separate decoder nextFunction s ↔ s.blocks.Pairwise Arm64Block.Apart ∧
      ∀ block ∈ s.blocks, ¬Straight decoder nextFunction begin block.begin := by
  apply and_congr_right
  intro _
  constructor
  · intro hall
    exact hall begin address h
  · intro hall begin' address' h'
    obtain ⟨rfl, -⟩ := Prod.mk.inj (Option.some.inj (h.symm.trans h'))
    exact hall

theorem clear_of_reading {begin address : Nat} (h : s.reading = some (begin, address)) :
    Clear decoder nextFunction s := by
  intro hidle
  rw [h] at hidle
  cases hidle

namespace Collects

/-- The finished block is apart from the others if it does not run on into them. -/
theorem separate_finish (h : Collects decoder entry nextFunction s) {begin address stop : Nat}
    (hreading : s.reading = some (begin, address))
    (hrun : IsRun decoder nextFunction ⟨begin, stop⟩) :
    Separate decoder nextFunction { s.insertBlock ⟨begin, stop⟩ with reading := none } ↔
      Separate decoder nextFunction s := by
  have hread := h.reading begin address hreading
  rw [separate_of_idle rfl, separate_of_reading hreading]
  change (s.insertBlock ⟨begin, stop⟩).blocks.Pairwise _ ↔ _
  rw [hread.insertBlock_blocks, List.pairwise_append]
  apply and_congr_right
  intro _
  rw [and_iff_right (List.pairwise_singleton _ _)]
  apply forall₂_congr
  intro block hblock
  rw [List.forall_mem_singleton, (h.run block hblock).apart_iff hrun
    (h.mod_eq hblock hread.reachable).symm]
  exact and_iff_right (hread.new block hblock)

/-- **A round keeps the blocks apart just if the address that it pops is clear of them.** -/
theorem separate_collectStep {feature : String} (h : Collects decoder entry nextFunction s)
    (hstep : RunnableThread.collectStep decoder feature entry nextFunction s = .inl s') :
    Separate decoder nextFunction s' ↔
      Separate decoder nextFunction s ∧ Clear decoder nextFunction s := by
  rw [RunnableThread.collectStep] at hstep
  split at hstep
  case h_1 hidle =>
    obtain ⟨current, pending, hpending, hs'⟩ := nextBlock_cases hstep
    rw [separate_of_idle hidle]
    rcases hs' with ⟨hinside, rfl⟩ | ⟨hinside, rfl⟩
    · rw [separate_of_idle (s := { s with pending }) hidle]
      symm
      apply and_iff_left
      intro _ current' pending' hpending' hoff
      obtain ⟨rfl, -⟩ := List.cons.inj (hpending.symm.trans hpending')
      rw [hinside] at hoff
      cases hoff
    · rw [separate_of_reading rfl]
      apply and_congr_right
      intro _
      constructor
      · intro hall _ current' pending' hpending' _
        obtain ⟨rfl, -⟩ := List.cons.inj (hpending.symm.trans hpending')
        exact hall
      · intro hclear
        exact hclear hidle current pending hpending hinside
  case h_2 begin address hreading =>
    rw [and_iff_left (clear_of_reading hreading)]
    obtain ⟨u, hu, hreading', hnote, hs'⟩ := h.round hreading hstep
    have hblocks : u.blocks = s.blocks := by
      rcases hnote with rfl | ⟨insn, -, -, rfl⟩
      · rfl
      · exact Collector.noteTarget_blocks s insn.branchTarget
    have hsame : Separate decoder nextFunction u ↔ Separate decoder nextFunction s := by
      rw [separate_of_reading hreading', separate_of_reading hreading, hblocks]
    rw [← hsame]
    rcases hs' with ⟨stop, hrun, -, rfl⟩ | ⟨address', -, rfl⟩
    · exact hu.separate_finish hreading' hrun
    · rw [separate_of_reading rfl, separate_of_reading hreading']

end Collects

/-! ## Branches forward -/

/-- Every branch of the function goes to a later address. -/
def Forward (decoder : Decoder θ) (entry nextFunction : Nat) : Prop :=
  ∀ a target, Reachable decoder nextFunction entry a → Branches decoder a target → a < target

/-- What is pending comes after every begin so far, and the lowest address first. -/
structure Ascending (s : Collector) : Prop where
  sorted : s.pending.Pairwise (· ≤ ·)
  finished : ∀ block ∈ s.blocks, ∀ a ∈ s.pending, block.begin ≤ a
  reading : ∀ begin address, s.reading = some (begin, address) →
    (∀ block ∈ s.blocks, block.begin ≤ begin) ∧ ∀ a ∈ s.pending, begin ≤ a

namespace Ascending

theorem start : Ascending (.start entry) where
  sorted := List.pairwise_singleton _ _
  finished := by
    intro block hblock
    cases hblock
  reading := by
    intro begin address hreading
    cases hreading

variable (h : Ascending s)
include h

theorem skip {current : Nat} {pending : List Nat} (hpending : s.pending = current :: pending) :
    Ascending { s with pending } := by
  have hmem : ∀ a ∈ pending, a ∈ s.pending := by
    intro a ha
    rw [hpending]
    exact List.mem_cons_of_mem _ ha
  have hsorted := h.sorted
  rw [hpending] at hsorted
  refine ⟨hsorted.of_cons, ?_, ?_⟩
  · intro block hblock a ha
    exact h.finished block hblock a (hmem a ha)
  · intro begin address hreading
    obtain ⟨hblocks, hrest⟩ := h.reading begin address hreading
    exact ⟨hblocks, fun a ha ↦ hrest a (hmem a ha)⟩

theorem take {current : Nat} {pending : List Nat} (hpending : s.pending = current :: pending) :
    Ascending { s with pending, reading := some (current, current) } := by
  have hskip := h.skip hpending
  refine ⟨hskip.sorted, hskip.finished, ?_⟩
  intro begin address hreading
  obtain ⟨rfl, -⟩ := Prod.mk.inj (Option.some.inj hreading)
  have hsorted := h.sorted
  rw [hpending] at hsorted
  refine ⟨?_, fun a ha ↦ List.rel_of_pairwise_cons hsorted ha⟩
  intro block hblock
  apply h.finished block hblock
  rw [hpending]
  exact List.mem_cons_self

theorem noteTarget {begin address : Nat} (hreading : s.reading = some (begin, address))
    {target : Option Nat} (hforward : ∀ t, target = some t → begin ≤ t) :
    Ascending (s.noteTarget target) := by
  obtain ⟨hblocks, hrest⟩ := h.reading begin address hreading
  have hpending : ∀ a ∈ (s.noteTarget target).pending, begin ≤ a := by
    intro a ha
    rcases Collector.mem_noteTarget_pending.mp ha with hnew | hold
    · exact hforward a hnew
    · exact hrest a hold
  constructor
  case sorted =>
    cases target with
    | none => exact h.sorted
    | some t => exact List.pairwise_insertionSort _ _
  case finished =>
    intro block hblock a ha
    rw [Collector.noteTarget_blocks] at hblock
    exact (hblocks block hblock).trans (hpending a ha)
  case reading =>
    intro begin' address' hreading'
    rw [Collector.noteTarget_reading, hreading] at hreading'
    obtain ⟨rfl, rfl⟩ := Prod.mk.inj (Option.some.inj hreading')
    rw [Collector.noteTarget_blocks]
    exact ⟨hblocks, hpending⟩

theorem finish {begin address stop : Nat} (hreading : s.reading = some (begin, address)) :
    Ascending { s.insertBlock ⟨begin, stop⟩ with reading := none } where
  sorted := h.sorted
  finished := by
    intro block hblock a ha
    rcases List.mem_append.mp hblock with hold | hnew
    · exact h.finished block (List.mem_of_mem_filter hold) a ha
    · rw [List.mem_singleton.mp hnew]
      exact (h.reading begin address hreading).2 a ha
  reading := by
    intro begin' address' hreading'
    cases hreading'

theorem goOn {begin address address' : Nat} (hreading : s.reading = some (begin, address)) :
    Ascending { s with reading := some (begin, address') } where
  sorted := h.sorted
  finished := h.finished
  reading := by
    intro begin' address'' hreading'
    obtain ⟨rfl, -⟩ := Prod.mk.inj (Option.some.inj hreading')
    exact h.reading begin address hreading

/-- Addresses are popped in ascending order if all branches go forward. -/
theorem collectStep {feature : String} (hcollects : Collects decoder entry nextFunction s)
    (hforward : Forward decoder entry nextFunction)
    (hstep : collectStep decoder feature entry nextFunction s = .inl s') : Ascending s' := by
  rw [RunnableThread.collectStep] at hstep
  split at hstep
  case h_1 hidle =>
    obtain ⟨current, pending, hpending, hs'⟩ := nextBlock_cases hstep
    rcases hs' with ⟨hinside, rfl⟩ | ⟨hinside, rfl⟩
    · exact h.skip hpending
    · exact h.take hpending
  case h_2 begin address hreading =>
    obtain ⟨u, -, hreading', hnote, hs'⟩ := hcollects.round hreading hstep
    have hu : Ascending u := by
      rcases hnote with rfl | ⟨insn, hinsn, hstraight, rfl⟩
      · exact h
      · apply h.noteTarget hreading
        intro t htarget
        have hread := hcollects.reading begin address hreading
        have hlt := hforward address t (hstraight.reachable hread.reachable) ⟨insn, hinsn, htarget⟩
        exact hstraight.le.trans hlt.le
    rcases hs' with ⟨stop, -, -, rfl⟩ | ⟨address', -, rfl⟩
    · exact hu.finish hreading'
    · exact hu.goOn hreading'

theorem clear (hcollects : Collects decoder entry nextFunction s) :
    Clear decoder nextFunction s := by
  intro _ current pending hpending hoff block hblock hstraight
  have hcurrent : current ∈ s.pending := by
    rw [hpending]
    exact List.mem_cons_self
  have heq := Nat.le_antisymm hstraight.le (h.finished block hblock current hcurrent)
  have hinside := (hcollects.inside_iff (hcollects.pending current hcurrent)).mpr
    ⟨block, hblock, heq ▸ .refl⟩
  rw [hinside] at hoff
  cases hoff

end Ascending

/-- **With branches forward only, no address that is popped runs on into a finished block.** -/
theorem clear_of_forward {feature : String} (hforward : Forward decoder entry nextFunction)
    (h : Loop.Visits (collectStep decoder feature entry nextFunction) (.start entry) s) :
    Clear decoder nextFunction s := by
  obtain ⟨hcollects, hascending⟩ := h.invariant
    (I := fun s ↦ Collects decoder entry nextFunction s ∧ Ascending s)
    (fun s t hs hstep ↦ ⟨hs.1.collectStep hstep, hs.2.collectStep hs.1 hforward hstep⟩)
    ⟨.start, .start⟩
  exact hascending.clear hcollects

/-! ## Tables -/

theorem mem_of_lookup {table : List (Nat × Arm64Insn)} {a : Nat} {insn : Arm64Insn}
    (h : (table.lookup a).map .ok = some (.ok insn : Except (Error θ) Arm64Insn)) :
    (a, insn) ∈ table := by
  obtain ⟨insn', hlookup, hinsn⟩ := Option.map_eq_some_iff.mp h
  obtain rfl := Except.ok.inj hinsn
  obtain ⟨before, after, rfl, -⟩ := List.lookup_eq_some_iff.mp hlookup
  exact List.mem_append_right _ List.mem_cons_self

/-- The instructions of a table. -/
def Decoder.ofTable (table : List (Nat × Arm64Insn))
    (h : ∀ e ∈ table, ∀ target ∈ e.2.branchTarget, target % 4 = e.1 % 4) : Decoder θ where
  decode a := (table.lookup a).map .ok
  aligned := by
    intro a insn target hdecode htarget
    exact h (a, insn) (mem_of_lookup hdecode) target htarget

theorem Forward.ofTable {table : List (Nat × Arm64Insn)}
    {h : ∀ e ∈ table, ∀ target ∈ e.2.branchTarget, target % 4 = e.1 % 4}
    (hforward : ∀ e ∈ table, ∀ target ∈ e.2.branchTarget, e.1 < target) :
    Forward (.ofTable table h : Decoder θ) entry nextFunction := by
  rintro a target - ⟨insn, hdecode, htarget⟩
  exact hforward (a, insn) (mem_of_lookup hdecode) target htarget

/-- Two ways to return. -/
def choiceDecoder : Decoder Unit :=
  .ofTable [(0x1000, .cbz 0 0x1008), (0x1004, .ret), (0x1008, .other), (0x100c, .ret)] (by decide)

/-- A loop that is entered at its condition, which is at the end. -/
def loopDecoder : Decoder Unit :=
  .ofTable [(0x1000, .b 0x1010), (0x1004, .other), (0x1008, .other), (0x100c, .other),
    (0x1010, .cbnz 0 0x1004), (0x1014, .ret)] (by decide)

/-! ## The law of the collector -/

/-- **The blocks have every instruction once just if no address that is popped runs on into a block
that is finished.** -/
theorem collectArm64Blocks_coversOnce_iff (decoder : Decoder θ) (feature : String)
    (entry nextFunction fuel : Nat) (blocks : List Arm64Block) (branchTargets : List Nat)
    (h : collectArm64Blocks decoder feature entry nextFunction fuel =
      some (.ok (blocks, branchTargets))) :
    CoversOnce decoder entry nextFunction blocks branchTargets ↔
      ∀ s, Loop.Visits (collectStep decoder feature entry nextFunction) (.start entry) s →
        Clear decoder nextFunction s := by
  have hstart : Separate decoder nextFunction (.start entry) :=
    (separate_of_idle rfl).mpr List.Pairwise.nil
  refine Iff.trans (Loop.Ends.iff_forall_visits (I := Collects decoder entry nextFunction)
    (P := Separate decoder nextFunction) ?_ ?_ (Loop.ends_of_run h) .start) (and_iff_right hstart)
  · intro s t hs hstep
    exact ⟨hs.collectStep hstep, hs.separate_collectStep hstep⟩
  · intro s hs hstep
    obtain rfl := Collects.collectStep_eq_ok hstep
    rw [separate_of_idle rfl]
    constructor
    · intro _ current pending hpending
      cases hpending
    · constructor
      · exact CoversOnce.apart
      · exact hs.coversOnce

theorem collectArm64Blocks_choice_coversOnce :
    CoversOnce choiceDecoder 0x1000 0x1010 [⟨0x1000, 0x1008⟩, ⟨0x1008, 0x1010⟩] [0x1008] := by
  apply (collectArm64Blocks_coversOnce_iff choiceDecoder "" 0x1000 0x1010 20 _ _ rfl).mpr
  intro s hs
  exact clear_of_forward (Forward.ofTable (by decide)) hs

theorem collectArm64Blocks_loop_not_coversOnce :
    collectArm64Blocks loopDecoder "" 0x1000 0x1018 20 =
      some (.ok ([⟨0x1000, 0x1004⟩, ⟨0x1010, 0x1018⟩, ⟨0x1004, 0x1018⟩], [0x1004, 0x1010])) ∧
    (emitted 0x1000 [⟨0x1000, 0x1004⟩, ⟨0x1010, 0x1018⟩, ⟨0x1004, 0x1018⟩]).count 0x1010 = 2 ∧
    (labels 0x1000 [⟨0x1000, 0x1004⟩, ⟨0x1010, 0x1018⟩, ⟨0x1004, 0x1018⟩]
      [0x1004, 0x1010]).count 0x1010 = 2 ∧
    ¬CoversOnce loopDecoder 0x1000 0x1018
      [⟨0x1000, 0x1004⟩, ⟨0x1010, 0x1018⟩, ⟨0x1004, 0x1018⟩] [0x1004, 0x1010] := by
  refine ⟨rfl, by decide, by decide, ?_⟩
  intro h
  have hapart := h.apart
  revert hapart
  decide

end JavaBridge.RunnableThread

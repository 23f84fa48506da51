import JavaBridge.RunnableThread.Apart
import JavaBridge.RunnableThread.Transition

/-!
# The copies of the instructions

The copies are in the order of control as far as that goes without branches, and whatever is
branched to has a label before a copy. Nothing goes wrong while they are written: an instruction of
a block was read when the block was collected.

Main results:

* `exists_copy_of_label`: a label is before a copy of the instruction at its address.
* `Follows.emitted`: the copies are in the order of control.
* `isCopied_copies`: what holds of the copies of collected blocks.
* `writeThreadTransition_collected`: the transition is written if the callback is called in it.
-/

namespace JavaBridge.RunnableThread

variable {θ : Type}

/-! ## Labels -/

section

variable {gum : Gum} {exceptionOffset : Int} {branchTargets : List Nat}

theorem isLabel_of_mem_body {copy : Copy} {item : Item}
    (h : item ∈ copy.body gum exceptionOffset) : item.isLabel = false := by
  rw [Copy.body] at h
  split at h
  case h_7 =>
    split at h
    all_goals
      simp only [List.mem_cons, List.not_mem_nil, or_false] at h
    · rcases h with rfl | rfl | rfl | rfl <;> rfl
    · rw [h]
      rfl
  case h_8 =>
    split at h
    all_goals
      simp only [List.mem_cons, List.not_mem_nil, or_false] at h
    · rcases h with rfl | rfl <;> rfl
    · rw [h]
      rfl
  all_goals
    rw [List.mem_singleton.mp h]
    rfl

/-- A label is before a copy of the instruction at its address. -/
theorem exists_copy_of_label {all : List Copy} {q l : Nat}
    (h : (all.flatMap (Copy.code gum exceptionOffset branchTargets))[q]? = some (.label l)) :
    ∃ before copy after, all = before ++ copy :: after ∧ copy.address = l ∧
      q = (before.flatMap (Copy.code gum exceptionOffset branchTargets)).length := by
  induction all generalizing q with
  | nil => cases h
  | cons copy all ih =>
    rw [List.flatMap_cons, List.getElem?_append] at h
    split at h
    case isTrue hlt =>
      -- in the code of the first copy, which has no label but its own
      rw [Copy.code] at h
      by_cases ha : copy.address ∈ branchTargets
      · rw [if_pos ha, List.singleton_append, List.getElem?_cons] at h
        split at h
        case isTrue hq =>
          refine ⟨[], copy, all, rfl, ?_, hq⟩
          exact Item.label.inj (Option.some.inj h)
        case isFalse =>
          have hlabel := isLabel_of_mem_body (List.mem_of_getElem? h)
          cases hlabel
      · rw [if_neg ha, List.nil_append] at h
        have hlabel := isLabel_of_mem_body (List.mem_of_getElem? h)
        cases hlabel
    case isFalse hge =>
      obtain ⟨before, copy', after, rfl, haddress, hq⟩ := ih h
      refine ⟨copy :: before, copy', after, rfl, haddress, ?_⟩
      rw [List.flatMap_cons, List.length_append, ← hq]
      omega

theorem exists_label_of_copy {all : List Copy} {copy : Copy} (hcopy : copy ∈ all)
    (h : copy.address ∈ branchTargets) :
    .label copy.address ∈ all.flatMap (Copy.code gum exceptionOffset branchTargets) := by
  rw [List.mem_flatMap]
  refine ⟨copy, hcopy, ?_⟩
  rw [Copy.code, if_pos h]
  exact List.mem_cons_self

end

/-! ## The order of the copies -/

/-- What comes after each element of a list, if anything has to by a relation, is next to it. -/
def Follows {α : Type} (R : α → α → Prop) : List α → Prop
  | [] => True
  | a :: l => (∀ b, R a b → l.head? = some b) ∧ Follows R l

namespace Follows

variable {α β : Type} {R : α → α → Prop}

theorem append {l l' : List α} (h : Follows R l) (h' : Follows R l') : Follows R (l ++ l') := by
  induction l with
  | nil => exact h'
  | cons a l ih =>
    obtain ⟨hhead, htail⟩ := h
    refine ⟨?_, ih htail⟩
    intro b hb
    show (l ++ l').head? = some b
    rw [List.head?_append, hhead b hb]
    rfl

theorem flatMap {f : β → List α} {l : List β} (h : ∀ b ∈ l, Follows R (f b)) :
    Follows R (l.flatMap f) := by
  induction l with
  | nil => trivial
  | cons b l ih =>
    obtain ⟨hhead, htail⟩ := List.forall_mem_cons.mp h
    rw [List.flatMap_cons]
    exact hhead.append (ih htail)

/-- Elements that go up in steps, up to one behind which nothing has to come. -/
theorem map_range' {f : Nat → α} {start n : Nat}
    (h : ∀ i, i + 1 < start + n → ∀ b, R (f i) b → b = f (i + 1))
    (hlast : ∀ i, i + 1 = start + n → ∀ b, ¬R (f i) b) :
    Follows R ((List.range' start n).map f) := by
  induction n generalizing start with
  | zero => trivial
  | succ n ih =>
    rw [List.range'_succ, List.map_cons]
    refine ⟨?_, ih (fun i hi ↦ h i (by omega)) (fun i hi ↦ hlast i (by omega))⟩
    intro b hb
    cases n with
    | zero => exact absurd hb (hlast start rfl b)
    | succ n =>
      rw [List.range'_succ, List.map_cons, List.head?_cons, h start (by omega) b hb]

theorem of_map {f : β → α} {before after : List β} {x : β} {b : α}
    (h : Follows R ((before ++ x :: after).map f)) (hb : R (f x) b) :
    ∃ y after', after = y :: after' ∧ f y = b := by
  induction before with
  | nil =>
    have hhead := h.1 b hb
    cases after with
    | nil => cases hhead
    | cons y after => exact ⟨y, after, rfl, Option.some.inj hhead⟩
  | cons _ before ih => exact ih h.2

end Follows

section

variable {decoder : Decoder θ} {nextFunction : Nat}

theorem IsRun.follows {block : Arm64Block} (h : IsRun decoder nextFunction block) :
    Follows (FallsThrough decoder nextFunction) block.addresses := by
  obtain ⟨last, hstop, hstraight, hlast⟩ := h
  have hle := hstraight.le
  have hmod := hstraight.mod_eq
  rw [Arm64Block.addresses, List.range_eq_range']
  apply Follows.map_range'
  · intro i _ b hb
    rw [hb.eq, Nat.mul_succ, Nat.add_assoc]
  · intro i hi b hb
    have hi : block.begin + 4 * i = last := by omega
    rw [hi] at hb
    exact hlast b hb

/-- What is written is in the order of control, as far as that goes without branches. -/
theorem Follows.emitted {entry : Nat} {blocks : List Arm64Block}
    (h : ∀ block ∈ blocks, IsRun decoder nextFunction block) :
    Follows (FallsThrough decoder nextFunction) (emitted entry blocks) := by
  apply Follows.flatMap
  intro block hblock
  exact (h block ((perm_blocksOrdered blocks).mem_iff.mp hblock)).follows

end

/-! ## Collected blocks -/

/-- The instruction before an address has been read. -/
def LastRead (decoder : Decoder θ) (stop : Nat) : Prop :=
  ∃ last insn, stop = last + 4 ∧ decoder.decode last = some (.ok insn)

/-- Every block has been read up to its end, and the one that is being read so far. -/
structure ReadUp (decoder : Decoder θ) (s : Collector) : Prop where
  blocks : ∀ block ∈ s.blocks, LastRead decoder block.stop
  reading : ∀ begin address, s.reading = some (begin, address) →
    address = begin ∨ LastRead decoder address

section

variable {decoder : Decoder θ} {entry nextFunction : Nat} {feature : String} {s s' : Collector}

theorem ReadUp.finish (h : ReadUp decoder s) {begin stop : Nat} (hstop : LastRead decoder stop) :
    ReadUp decoder { s.insertBlock ⟨begin, stop⟩ with reading := none } where
  blocks := by
    intro block hblock
    rcases List.mem_append.mp hblock with hold | hnew
    · exact h.blocks block (List.mem_of_mem_filter hold)
    · rw [List.mem_singleton.mp hnew]
      exact hstop
  reading := by
    intro begin address hreading
    cases hreading

theorem ReadUp.collectStep (h : ReadUp decoder s)
    (hstep : collectStep decoder feature entry nextFunction s = .inl s') : ReadUp decoder s' := by
  rw [RunnableThread.collectStep] at hstep
  split at hstep
  case h_1 hidle =>
    obtain ⟨current, pending, -, hs'⟩ := nextBlock_cases hstep
    rcases hs' with ⟨-, rfl⟩ | ⟨-, rfl⟩
    · exact ⟨h.blocks, h.reading⟩
    · refine ⟨h.blocks, ?_⟩
      intro begin address hreading
      obtain ⟨rfl, rfl⟩ := Prod.mk.inj (Option.some.inj hreading)
      exact .inl rfl
  case h_2 begin address hreading =>
    rcases readInsn_cases hstep with ⟨-, hne, rfl⟩ | ⟨insn, hinsn, -, hs'⟩
    · exact h.finish ((h.reading begin address hreading).resolve_left hne)
    · have hnote : ReadUp decoder (s.noteTarget insn.branchTarget) := by
        refine ⟨?_, ?_⟩
        · rw [Collector.noteTarget_blocks]
          exact h.blocks
        · rw [Collector.noteTarget_reading]
          exact h.reading
      have hlast : LastRead decoder (address + 4) := ⟨address, insn, rfl, hinsn⟩
      rcases hs' with ⟨-, rfl⟩ | ⟨-, rfl⟩
      · exact hnote.finish hlast
      · refine ⟨hnote.blocks, ?_⟩
        intro begin' address' hreading'
        obtain ⟨rfl, rfl⟩ := Prod.mk.inj (Option.some.inj hreading')
        exact .inr hlast

variable {fuel : Nat} {blocks : List Arm64Block} {branchTargets : List Nat}

/-- Every instruction of a collected block has been read. -/
theorem readable_emitted (h : collectArm64Blocks decoder feature entry nextFunction fuel =
    some (.ok (blocks, branchTargets))) : Readable decoder (emitted entry blocks) := by
  have hcollects := Collects.of_ends (Loop.ends_of_run h)
  have hread : ∀ block ∈ blocks, LastRead decoder block.stop := by
    refine Loop.Ends.post (I := ReadUp decoder)
      (Q := fun b ↦ b = .ok (blocks, branchTargets) → ∀ block ∈ blocks, LastRead decoder block.stop)
      ?_ ?_ (Loop.ends_of_run h) ?_ rfl
    · intro s t hs hstep
      exact hs.collectStep hstep
    · intro s b hs hstep hb
      rw [hb] at hstep
      rw [Collects.collectStep_eq_ok hstep] at hs
      exact hs.blocks
    · refine ⟨?_, ?_⟩
      · intro block hblock
        cases hblock
      · intro begin address hreading
        cases hreading
  intro a ha
  obtain ⟨block, hblock, ha⟩ := mem_emitted.mp ha
  have hrun := hcollects.run block hblock
  have hstraight := hrun.mem_addresses.mp ha
  obtain ⟨last, hstop, hlast, hend⟩ := hrun
  have hto : Straight decoder nextFunction a last := by
    rcases hstraight.total hlast with hto | hfrom
    · exact hto
    · rcases hfrom.cases_head with rfl | ⟨c, hc, -⟩
      · exact .refl
      · exact absurd hc (hend c)
  rcases hto.cases_head with rfl | ⟨c, ⟨⟨insn, hinsn, -⟩, -⟩, -⟩
  · -- the last instruction of the block, after which control may go on to what is not of it
    obtain ⟨last, insn, hstop', hinsn⟩ := hread block hblock
    obtain rfl := Nat.add_right_cancel (hstop.symm.trans hstop')
    exact ⟨insn, hinsn⟩
  · exact ⟨insn, hinsn⟩

/-- The entry block is there. -/
theorem exists_entry_block (h : collectArm64Blocks decoder feature entry nextFunction fuel =
    some (.ok (blocks, branchTargets))) : ∃ block ∈ blocks, block.begin = entry := by
  refine Loop.Ends.post (I := fun _ ↦ True)
    (Q := fun b ↦ b = .ok (blocks, branchTargets) → ∃ block ∈ blocks, block.begin = entry)
    ?_ ?_ (Loop.ends_of_run h) trivial rfl
  · intro s t _ _
    trivial
  · intro s b _ hstep hb
    rw [hb] at hstep
    obtain rfl := Collects.collectStep_eq_ok hstep
    rw [collectStep, nextBlock] at hstep
    dsimp only at hstep
    split at hstep
    case isTrue hany =>
      obtain ⟨block, hblock, hbegin⟩ := List.any_eq_true.mp hany
      exact ⟨block, hblock, of_decide_eq_true hbegin⟩
    case isFalse => cases hstep

/-- The entry is written first. -/
theorem head?_emitted (h : collectArm64Blocks decoder feature entry nextFunction fuel =
    some (.ok (blocks, branchTargets))) : (emitted entry blocks).head? = some entry := by
  obtain ⟨block, hblock, hbegin⟩ := exists_entry_block h
  rw [emitted, blocksOrdered]
  split
  case h_1 hfind =>
    have hno := List.findIdx?_eq_none_iff.mp hfind block ((List.mem_insertionSort _).mpr hblock)
    rw [decide_eq_false_iff_not] at hno
    exact absurd hbegin hno
  case h_2 entryIndex hfind =>
    obtain ⟨hlt, hentry, -⟩ := List.findIdx?_eq_some_iff_getElem.mp hfind
    have hmem : (blocks.insertionSort (·.begin ≤ ·.begin))[entryIndex] ∈ blocks :=
      (List.mem_insertionSort _).mp (List.getElem_mem hlt)
    have hrun := (Collects.of_ends (Loop.ends_of_run h)).run _ hmem
    rw [List.getElem?_eq_getElem hlt, Option.toList_some, List.singleton_append, List.flatMap_cons]
    generalize (blocks.insertionSort (·.begin ≤ ·.begin))[entryIndex] = first at *
    obtain rfl := of_decide_eq_true hentry
    have hbegins := hrun.begin_lt_stop
    have hmod := hrun.stop_mod_eq
    obtain ⟨n, hn⟩ := Nat.exists_eq_add_one_of_ne_zero
      (show (first.stop - first.begin) / 4 ≠ 0 by omega)
    rw [Arm64Block.addresses, hn, List.range_succ_eq_map]
    rfl

/-- What is known of the copies of collected blocks. -/
structure IsCopied (decoder : Decoder θ) (entry nextFunction : Nat) (branchTargets : List Nat)
    (all : List Copy) : Prop where
  head : (all.map Copy.address).head? = some entry
  decode : ∀ copy ∈ all, decoder.decode copy.address = some (.ok copy.insn)
  aligned : ∀ copy ∈ all, copy.address % 4 = entry % 4
  follows : Follows (FallsThrough decoder nextFunction) (all.map Copy.address)
  target : ∀ copy ∈ all, ∀ target, copy.insn.branchTarget = some target →
    target ∈ branchTargets ∧ ∃ copy' ∈ all, copy'.address = target

variable {gum : Gum} {exceptionOffset : Int}

theorem isCopied_copies (h : collectArm64Blocks decoder feature entry nextFunction fuel =
    some (.ok (blocks, branchTargets))) :
    IsCopied decoder entry nextFunction branchTargets
      (copies gum exceptionOffset decoder entry (blocks, branchTargets)) := by
  have hread := readable_emitted h
  have hcollects := Collects.of_ends (Loop.ends_of_run h)
  have haddresses : (copies gum exceptionOffset decoder entry (blocks, branchTargets)).map
      Copy.address = emitted entry blocks := map_address_copiesFrom hread
  have hreachable {a : Nat} :
      a ∈ emitted entry blocks ↔ Reachable decoder nextFunction entry a := by
    rw [mem_emitted]
    exact hcollects.reachable_iff
  have hcopy {copy : Copy}
      (hcopy : copy ∈ copies gum exceptionOffset decoder entry (blocks, branchTargets)) :
      Reachable decoder nextFunction entry copy.address := by
    rw [← hreachable, ← haddresses]
    exact List.mem_map_of_mem hcopy
  constructor
  case head =>
    rw [haddresses]
    exact head?_emitted h
  case decode =>
    intro copy hcopy
    exact decode_of_mem_copiesFrom hread hcopy
  case aligned =>
    intro copy hmem
    exact (hcopy hmem).mod_eq
  case follows =>
    rw [haddresses]
    exact Follows.emitted hcollects.run
  case target =>
    intro copy hmem target htarget
    have hbranch : Branches decoder copy.address target :=
      ⟨copy.insn, decode_of_mem_copiesFrom hread hmem, htarget⟩
    have htarget : IsTarget decoder nextFunction entry target := ⟨_, hcopy hmem, hbranch⟩
    refine ⟨hcollects.mem_branchTargets_iff.mpr htarget, ?_⟩
    have hemitted := hreachable.mpr htarget.reachable
    rw [← haddresses] at hemitted
    exact List.mem_map.mp hemitted

/-- **The writer never comes to an instruction that it cannot relocate**: the transition is written
if the callback is called in one of the copies, and otherwise `ExceptionClear` is not supported. -/
theorem writeThreadTransition_collected (gum : Gum) (exceptionOffset : Int)
    (decoder : Decoder θ) (feature : String) (entry nextFunction fuel : Nat)
    (collected : List Arm64Block × List Nat)
    (h : collectArm64Blocks decoder feature entry nextFunction fuel = some (.ok collected)) :
    (writeThreadTransition gum exceptionOffset decoder feature entry collected).map Writer.code =
      if ∃ copy ∈ copies gum exceptionOffset decoder entry collected,
          copy.isCore gum exceptionOffset then
        .ok (prologue gum ++ (copies gum exceptionOffset decoder entry collected).flatMap
          (Copy.code gum exceptionOffset collected.2))
      else unsupported feature "unable to parse ART ExceptionClear runnable thread transition" := by
  rw [map_code_writeThreadTransition (readable_emitted h)]
  exact if_congr List.any_eq_true rfl rfl

end

/-- Clears the exception where a register is not zero. -/
def clearDecoder : Decoder Unit :=
  .ofTable [(0x1000, .cbz 1 0x1008), (0x1004, .str 31 2 144), (0x1008, .ret)] (by decide)

/-- No registers are kept. -/
def bareGum : Gum where
  isArm64ZeroRegister reg := reg = 31
  general reg := if h : reg < 31 then some ⟨reg, h⟩ else none
  pushAllX := []
  popAllX := []
  pushedBytes := 0

/-- The transition is written where the exception is at `144`, and not where it is at `152`. -/
theorem writeThreadTransition_clear :
    (writeThreadTransition bareGum 144 clearDecoder "" 0x1000
        ([⟨0x1000, 0x100c⟩], [0x1008])).map Writer.code =
      .ok (prologue bareGum ++ [.cbzLabel 1 0x1008, .plain (.push (.x 0) .lr), .movX0 2,
        .blImm invokeCallback, .plain (.pop (.x 0) .lr), .label 0x1008, .ret]) ∧
    (writeThreadTransition bareGum 152 clearDecoder "" 0x1000
        ([⟨0x1000, 0x100c⟩], [0x1008])).map Writer.code =
      unsupported "" "unable to parse ART ExceptionClear runnable thread transition" := by
  have hwritten (exceptionOffset : Int) := writeThreadTransition_collected bareGum exceptionOffset
    clearDecoder "" 0x1000 0x2000 20 ([⟨0x1000, 0x100c⟩], [0x1008]) rfl
  constructor
  · rw [hwritten, if_pos (by decide)]
    rfl
  · rw [hwritten, if_neg (by decide)]

end JavaBridge.RunnableThread

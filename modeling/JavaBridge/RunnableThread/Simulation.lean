import JavaBridge.RunnableThread.CopyOrder
import JavaBridge.RunnableThread.TransitionRun

/-!
# The transition does what `ExceptionClear` does

`ExceptionClear` runs here with the callback called where the writer replaces an instruction, on
states `σ` in which it does not matter where code is. The transition runs on the processor's states,
of which `abs` makes states of `σ`. That the relocated instructions and the callback mean the same
on both is what is asked of the relocator and of the calling convention.

Main results:

* `Before.answers`: each step of `ExceptionClear` is some steps of the transition.
* `writeThreadTransition_simulates`: the transition ends where `ExceptionClear` does.
-/

namespace JavaBridge.RunnableThread

variable {θ σ : Type}

/-! ## `ExceptionClear` with the callback -/

/-- What the instructions of `ExceptionClear` do. -/
structure Meaning (σ : Type) where
  holds : Nat → σ → Bool
  isZero : Nat → σ → Bool
  bit : Nat → Nat → σ → Bool
  /-- `none` where control does not come back to the next instruction. -/
  exec : Nat → σ → Option σ
  /-- Where a return goes, if the link register has what the caller has put there. -/
  link : σ → Option (BitVec 64)
  /-- The callback in the place of a store to the thread in a register. -/
  stored : Nat → σ → σ
  /-- The callback in the place of the call of the real `ExceptionClear`. -/
  called : σ → σ

section

variable (gum : Gum) (exceptionOffset : Int) (decoder : Decoder θ) (nextFunction : Nat)
  (meaning : Meaning σ) (replaced : Nat → Bool)

/-- Control goes on with the next instruction, unless that is not of `ExceptionClear`. -/
def goOn (a : Nat) (s : σ) : Nat × σ ⊕ Exit σ :=
  if a + 4 ≠ nextFunction ∧ (decoder.decode (a + 4)).isSome then .inl (a + 4, s) else .inr .outside

def hookedBranch (taken : Bool) (target a : Nat) (s : σ) : Nat × σ ⊕ Exit σ :=
  if taken then .inl (target, s) else goOn decoder nextFunction a s

def hook (insn : Arm64Insn) (s : σ) : σ :=
  match insn with
  | .str _ rn _ => meaning.stored rn s
  | _ => meaning.called s

/-- A step of `ExceptionClear`, with the callback in the place of the stores and calls that the
writer replaces. -/
def hookedStep : Nat × σ → Nat × σ ⊕ Exit σ
  | (a, s) =>
    match decoder.decode a with
    | some (.ok insn) =>
      match insn with
      | .b target => .inl (target, s)
      | .bCond cond target =>
        hookedBranch decoder nextFunction (meaning.holds cond s) target a s
      | .cbz reg target =>
        hookedBranch decoder nextFunction (meaning.isZero reg s) target a s
      | .cbnz reg target =>
        hookedBranch decoder nextFunction (!meaning.isZero reg s) target a s
      | .tbz reg bit target =>
        hookedBranch decoder nextFunction (!meaning.bit reg bit s) target a s
      | .tbnz reg bit target =>
        hookedBranch decoder nextFunction (meaning.bit reg bit s) target a s
      | .ret => (meaning.link s).elim (.inr .outside) fun target ↦ .inr (.returned target s)
      | insn =>
        if Copy.isCore gum exceptionOffset ⟨a, insn, replaced a⟩ then
          goOn decoder nextFunction a (hook meaning insn s)
        else (meaning.exec a s).elim (.inr (.gone a s)) (goOn decoder nextFunction a)
    | _ => .inr .outside

end

/-- What the processor does is what the instructions mean. -/
structure Refines (gum : Gum) (processor : Processor) {code : List Item}
    (place : Placement code) (meaning : Meaning σ) (abs : Cpu → σ) : Prop where
  holds : ∀ cond u, processor.holds cond u = meaning.holds cond (abs u)
  isZero : ∀ reg u, processor.isZero reg u = meaning.isZero reg (abs u)
  bit : ∀ reg bit u, processor.bit reg bit u = meaning.bit reg bit (abs u)
  /-- A relocated instruction does what it did where it was. -/
  relocated : ∀ a u, (processor.relocated a u).map abs = meaning.exec a (abs u)
  /-- The caller has not been in the transition. -/
  link : ∀ u target, meaning.link (abs u) = some target →
    u.state.x 30 = target ∧ place.back target = none
  keepsRegisters : gum.KeepsRegisters
  /-- The callback keeps to the calling convention. -/
  keepsFrame : processor.KeepsFrame gum.savedBytes
  /-- What is below the stack pointer does not matter. -/
  stored : ∀ reg u e w, CalledAround processor gum.savedBytes (threadOf gum reg u) u e w →
    abs w = meaning.stored reg (abs u)
  /-- Nor does which call the callback returns to. -/
  called : ∀ u p, code[p]? = some .callCallback →
    abs (processor.callback
      ((u.set 0 (u.state.mem.word (u.state.x 0 + 8))).set 30 (place.link p))) =
        meaning.called (abs u)

/-! ## Steps -/

/-- The code with the copies. -/
def transition (gum : Gum) (exceptionOffset : Int) (branchTargets : List Nat)
    (all : List Copy) : List Item :=
  prologue gum ++ all.flatMap (Copy.code gum exceptionOffset branchTargets)

section

variable {gum : Gum} {exceptionOffset : Int} {branchTargets : List Nat}

/-- Positions of the transition that are before a copy of the instruction at an address. -/
def Before (gum : Gum) (exceptionOffset : Int) (branchTargets : List Nat)
    (all : List Copy) (a p : Nat) : Prop :=
  ∃ before copy after, all = before ++ copy :: after ∧ copy.address = a ∧
    p = (transition gum exceptionOffset branchTargets before).length

theorem Before.next {before after : List Copy} {copy copy' : Copy} :
    Before gum exceptionOffset branchTargets (before ++ copy :: copy' :: after) copy'.address
      ((transition gum exceptionOffset branchTargets before).length +
        (copy.code gum exceptionOffset branchTargets).length) := by
  refine ⟨before ++ [copy], copy', after, ?_, rfl, ?_⟩
  · rw [List.append_assoc, List.singleton_append]
  · rw [transition, transition, List.flatMap_append, List.flatMap_singleton, ← List.append_assoc]
    exact List.length_append.symm

theorem isLabel_of_mem_subroutine (hgum : gum.KeepsRegisters) {item : Item}
    (h : item ∈ subroutine gum) : item.isLabel = false := by
  obtain ⟨hpushes, hpops⟩ := List.forall_mem_append.mp hgum.straight
  simp only [subroutine, List.mem_append, List.mem_singleton] at h
  rcases h with (((rfl | hpush) | rfl) | hpop) | rfl
  · rfl
  · exact (hpushes item hpush).2
  · rfl
  · exact (hpops item hpop).2
  · rfl

theorem label_prologue (hgum : gum.KeepsRegisters) {p l : Nat}
    (h : (prologue gum)[p]? = some (.label l)) :
    p = (subroutine gum).length ∧ l = PERFORM_TRANSITION := by
  rw [prologue, List.getElem?_append] at h
  split at h
  case isTrue =>
    have hlabel := isLabel_of_mem_subroutine hgum (List.mem_of_getElem? h)
    cases hlabel
  case isFalse hge =>
    rw [List.getElem?_singleton] at h
    split at h
    case isTrue hp =>
      refine ⟨by omega, ?_⟩
      exact (Item.label.inj (Option.some.inj h)).symm
    case isFalse => cases h

/-- A label of the transition is the one of the prologue, or before a copy. -/
theorem label_transition (hgum : gum.KeepsRegisters) {all : List Copy} {p l : Nat}
    (h : (transition gum exceptionOffset branchTargets all)[p]? = some (.label l)) :
    (p = (subroutine gum).length ∧ l = PERFORM_TRANSITION) ∨
      Before gum exceptionOffset branchTargets all l p := by
  rw [transition, List.getElem?_append] at h
  split at h
  case isTrue => exact .inl (label_prologue hgum h)
  case isFalse hge =>
    obtain ⟨before, copy, after, hall, haddress, hp⟩ := exists_copy_of_label h
    refine .inr ⟨before, copy, after, hall, haddress, ?_⟩
    rw [transition, List.length_append, ← hp]
    omega

variable {all : List Copy} {place : Placement (transition gum exceptionOffset branchTargets all)}

theorem performTransition_ne {a : Nat} (h : a % 4 = 0) : a ≠ PERFORM_TRANSITION := by
  rintro rfl
  cases h

/-- Where the copies begin. -/
theorem label_performTransition (hgum : gum.KeepsRegisters)
    (haligned : ∀ copy ∈ all, copy.address % 4 = 0) :
    place.label PERFORM_TRANSITION = some (subroutine gum).length := by
  obtain ⟨p, hp⟩ := Option.isSome_iff_exists.mp (place.label_isSome PERFORM_TRANSITION
    (List.mem_append_left _ (List.mem_append_right _ (List.mem_singleton_self _))))
  rcases label_transition hgum (place.label_eq_some _ _ hp) with ⟨rfl, -⟩ | hbefore
  · exact hp
  · obtain ⟨before, copy, after, hall, haddress, -⟩ := hbefore
    have hcopy : copy ∈ all := by
      rw [hall]
      exact List.mem_append_right _ List.mem_cons_self
    exact absurd haddress (performTransition_ne (haligned copy hcopy))

/-- What is branched to is placed before a copy. -/
theorem exists_label (hgum : gum.KeepsRegisters)
    (haligned : ∀ copy ∈ all, copy.address % 4 = 0) {target : Nat}
    (htarget : target ∈ branchTargets) (hcopy : ∃ copy ∈ all, copy.address = target) :
    ∃ p, place.label target = some p ∧
      Before gum exceptionOffset branchTargets all target p := by
  obtain ⟨copy, hcopy, rfl⟩ := hcopy
  obtain ⟨p, hp⟩ := Option.isSome_iff_exists.mp (place.label_isSome copy.address
    (List.mem_append_right _ (exists_label_of_copy hcopy htarget)))
  refine ⟨p, hp, ?_⟩
  rcases label_transition hgum (place.label_eq_some _ _ hp) with ⟨-, hlabel⟩ | hbefore
  · exact absurd hlabel (performTransition_ne (haligned copy hcopy))
  · exact hbefore

end

/-! ## A step -/

section

variable {gum : Gum} {exceptionOffset : Int} {branchTargets : List Nat}
  {all : List Copy} {processor : Processor}
  {place : Placement (transition gum exceptionOffset branchTargets all)}
  {abs : Cpu → σ}

/-- The transition is where `ExceptionClear` is. -/
def Matches (gum : Gum) (exceptionOffset : Int) (branchTargets : List Nat)
    (all : List Copy) (abs : Cpu → σ) (c : Nat × σ) (d : Nat × Cpu) : Prop :=
  Before gum exceptionOffset branchTargets all c.1 d.1 ∧ abs d.2 = c.2

/-- The transition does what `ExceptionClear` does in a step. -/
def Answers (processor : Processor)
    (place : Placement (transition gum exceptionOffset branchTargets all)) (abs : Cpu → σ)
    (d : Nat × Cpu) : Nat × σ ⊕ Exit σ → Prop
  | .inl c => ∃ d', Loop.Passes (transitionStep gum processor place) d d' ∧
      Matches gum exceptionOffset branchTargets all abs c d'
  | .inr e => e = .outside ∨
      ∃ e', Loop.Ends (transitionStep gum processor place) d e' ∧ e'.map abs = e

theorem Answers.of_visits {d d' : Nat × Cpu} {c : Nat × σ ⊕ Exit σ}
    (hvisits : Loop.Visits (transitionStep gum processor place) d d')
    (h : Answers processor place abs d' c) : Answers processor place abs d c := by
  cases c with
  | inl c =>
    obtain ⟨d'', hpasses, hmatches⟩ := h
    exact ⟨d'', hvisits.trans_passes hpasses, hmatches⟩
  | inr e =>
    rcases h with hopen | ⟨e', hends, he⟩
    · exact .inl hopen
    · exact .inr ⟨e', hvisits.ends hends, he⟩

/-- The code up to the body of a copy. -/
def upTo (gum : Gum) (exceptionOffset : Int) (branchTargets : List Nat)
    (before : List Copy) (copy : Copy) : List Item :=
  transition gum exceptionOffset branchTargets before ++
    if copy.address ∈ branchTargets then [.label copy.address] else []

variable {before after : List Copy} {copy : Copy}

theorem transition_eq (hall : all = before ++ copy :: after) :
    transition gum exceptionOffset branchTargets all =
      upTo gum exceptionOffset branchTargets before copy ++ copy.body gum exceptionOffset ++
        after.flatMap (Copy.code gum exceptionOffset branchTargets) := by
  rw [hall, transition, upTo, transition, List.flatMap_append, List.flatMap_cons, Copy.code]
  simp only [List.append_assoc]

/-- Past the label of a copy. -/
theorem visits_upTo (hall : all = before ++ copy :: after) (u : Cpu) :
    Loop.Visits (transitionStep gum processor place)
      ((transition gum exceptionOffset branchTargets before).length, u)
      ((upTo gum exceptionOffset branchTargets before copy).length, u) := by
  by_cases htarget : copy.address ∈ branchTargets
  · have hvisits := @visits_block gum processor _ place
      (transition gum exceptionOffset branchTargets before) [.label copy.address]
      (copy.body gum exceptionOffset ++
        after.flatMap (Copy.code gum exceptionOffset branchTargets))
      (by rw [transition_eq hall, upTo, if_pos htarget, ← List.append_assoc])
      (by simp [Item.straight]) u
    rw [upTo, if_pos htarget, List.length_append]
    exact hvisits
  · rw [upTo, if_neg htarget, List.append_nil]
    exact .here _

variable {θ : Type} {decoder : Decoder θ} {entry nextFunction : Nat} {u w : Cpu}

/-- Control goes on to the next copy. -/
theorem answers_goOn (hcopied : IsCopied decoder entry nextFunction branchTargets all)
    (hall : all = before ++ copy :: after) (hends : copy.insn.endsBlock = false) {s : σ}
    (hs : abs w = s)
    (hpasses : Loop.Passes (transitionStep gum processor place)
      ((upTo gum exceptionOffset branchTargets before copy).length, u)
      ((upTo gum exceptionOffset branchTargets before copy).length +
        (copy.body gum exceptionOffset).length, w)) :
    Answers processor place abs ((upTo gum exceptionOffset branchTargets before copy).length, u)
      (goOn decoder nextFunction copy.address s) := by
  rw [goOn]
  split
  case isTrue hnext =>
    have hcopy : copy ∈ all := by
      rw [hall]
      exact List.mem_append_right _ List.mem_cons_self
    have hfall : FallsThrough decoder nextFunction copy.address (copy.address + 4) :=
      ⟨⟨copy.insn, hcopied.decode copy hcopy, hends⟩, rfl, hnext⟩
    have hfollows := hcopied.follows
    rw [hall] at hfollows
    obtain ⟨copy', after', rfl, haddress⟩ := hfollows.of_map hfall
    refine ⟨_, hpasses, ?_, hs⟩
    rw [hall, ← haddress, upTo, List.length_append, Nat.add_assoc, ← List.length_append,
      ← Copy.code]
    exact .next
  case isFalse => exact .inl rfl

theorem getElem?_transition (hall : all = before ++ copy :: after) {item : Item}
    (hbody : copy.body gum exceptionOffset = [item]) :
    (transition gum exceptionOffset branchTargets all)[
      (upTo gum exceptionOffset branchTargets before copy).length]? = some item := by
  rw [transition_eq hall, hbody]
  simp

/-- A branch goes to the copy at its target, or control goes on to the next copy. -/
theorem answers_branch (hgum : gum.KeepsRegisters)
    (hcopied : IsCopied decoder entry nextFunction branchTargets all)
    (hentry : entry % 4 = 0) (hall : all = before ++ copy :: after) {target : Nat} {taken : Bool}
    (htarget : copy.insn.branchTarget = some target)
    (hends : taken = false → copy.insn.endsBlock = false)
    (hlength : (copy.body gum exceptionOffset).length = 1)
    (hstep : transitionStep gum processor place
      ((upTo gum exceptionOffset branchTargets before copy).length, u) =
        branch place taken target (upTo gum exceptionOffset branchTargets before copy).length u) :
    Answers processor place abs ((upTo gum exceptionOffset branchTargets before copy).length, u)
      (hookedBranch decoder nextFunction taken target copy.address (abs u)) := by
  have hcopy : copy ∈ all := by
    rw [hall]
    exact List.mem_append_right _ List.mem_cons_self
  cases taken with
  | true =>
    obtain ⟨hmem, htarget⟩ := hcopied.target copy hcopy target htarget
    obtain ⟨p, hp, hbefore⟩ := @exists_label gum exceptionOffset branchTargets all place hgum
      (fun copy hcopy ↦ (hcopied.aligned copy hcopy).trans hentry) target hmem htarget
    refine ⟨(p, u), ⟨(p, u), ?_, .here _⟩, hbefore, rfl⟩
    rw [hstep, branch, hp]
    rfl
  | false =>
    apply answers_goOn hcopied hall (hends rfl) rfl
    rw [hlength]
    exact ⟨_, hstep, .here _⟩

end

section

variable {gum : Gum} {exceptionOffset : Int} {branchTargets : List Nat}
  {all : List Copy} {processor : Processor}
  {place : Placement (transition gum exceptionOffset branchTargets all)}
  {abs : Cpu → σ} {meaning : Meaning σ} {before after : List Copy} {copy : Copy}
  {decoder : Decoder θ} {entry nextFunction : Nat} {u : Cpu}

theorem answers_relocated (hrefines : Refines gum processor place meaning abs)
    (hcopied : IsCopied decoder entry nextFunction branchTargets all)
    (hall : all = before ++ copy :: after) (hends : copy.insn.endsBlock = false)
    (hbody : copy.body gum exceptionOffset = [.relocated copy.address]) :
    Answers processor place abs ((upTo gum exceptionOffset branchTargets before copy).length, u)
      ((meaning.exec copy.address (abs u)).elim (.inr (.gone copy.address (abs u)))
        (goOn decoder nextFunction copy.address)) := by
  have hitem : (transition gum exceptionOffset branchTargets all)[
      (upTo gum exceptionOffset branchTargets before copy).length]? =
        some (.relocated copy.address) := getElem?_transition hall hbody
  rw [← hrefines.relocated]
  cases hw : processor.relocated copy.address u with
  | none =>
    refine .inr ⟨.gone copy.address u, .leave ?_, rfl⟩
    rw [transitionStep, hitem]
    dsimp only
    rw [hw]
    rfl
  | some w =>
    apply answers_goOn hcopied hall hends rfl
    refine ⟨_, ?_, .here _⟩
    rw [transitionStep, hitem, hbody]
    dsimp only
    rw [hw]
    rfl

variable {replaced : Nat → Bool}

/-- **Each step of `ExceptionClear` is some steps of the transition.** -/
theorem Before.answers (hrefines : Refines gum processor place meaning abs)
    (hcopied : IsCopied decoder entry nextFunction branchTargets all) (hentry : entry % 4 = 0)
    (hreplaced : ∀ copy ∈ all, copy.replaced = replaced copy.address) {a p : Nat}
    (h : Before gum exceptionOffset branchTargets all a p) (u : Cpu) :
    Answers processor place abs (p, u)
      (hookedStep gum exceptionOffset decoder nextFunction meaning replaced (a, abs u)) := by
  obtain ⟨before, copy, after, hall, rfl, rfl⟩ := h
  apply Answers.of_visits (visits_upTo hall u)
  have hcopy : copy ∈ all := by
    rw [hall]
    exact List.mem_append_right _ List.mem_cons_self
  rw [hookedStep, hcopied.decode copy hcopy, ← hreplaced copy hcopy]
  obtain ⟨a, insn, r⟩ := copy
  cases insn with
  | b target =>
    show Answers _ _ _ _ (hookedBranch decoder nextFunction true target a (abs u))
    apply answers_branch hrefines.keepsRegisters hcopied hentry hall rfl (fun h ↦ by cases h) rfl
    rw [transitionStep, getElem?_transition hall rfl]
  | bCond cond target =>
    dsimp only
    rw [← hrefines.holds]
    apply answers_branch hrefines.keepsRegisters hcopied hentry hall rfl (fun _ ↦ rfl) rfl
    rw [transitionStep, getElem?_transition hall rfl]
  | cbz reg target =>
    dsimp only
    rw [← hrefines.isZero]
    apply answers_branch hrefines.keepsRegisters hcopied hentry hall rfl (fun _ ↦ rfl) rfl
    rw [transitionStep, getElem?_transition hall rfl]
  | cbnz reg target =>
    dsimp only
    rw [← hrefines.isZero]
    apply answers_branch hrefines.keepsRegisters hcopied hentry hall rfl (fun _ ↦ rfl) rfl
    rw [transitionStep, getElem?_transition hall rfl]
  | tbz reg bit target =>
    dsimp only
    rw [← hrefines.bit]
    apply answers_branch hrefines.keepsRegisters hcopied hentry hall rfl (fun _ ↦ rfl) rfl
    rw [transitionStep, getElem?_transition hall rfl]
  | tbnz reg bit target =>
    dsimp only
    rw [← hrefines.bit]
    apply answers_branch hrefines.keepsRegisters hcopied hentry hall rfl (fun _ ↦ rfl) rfl
    rw [transitionStep, getElem?_transition hall rfl]
  | ret =>
    dsimp only
    cases hlink : meaning.link (abs u) with
    | none => exact .inl rfl
    | some target =>
      obtain ⟨hx, hback⟩ := hrefines.link u target hlink
      refine .inr ⟨.returned target u, .leave ?_, rfl⟩
      rw [transitionStep, getElem?_transition hall rfl]
      dsimp only
      rw [hx, hback]
      rfl
  | str rt rn offset =>
    show Answers _ _ _ _ (if isCoreStore gum exceptionOffset rt offset = true then _ else _)
    cases hcore : isCoreStore gum exceptionOffset rt offset with
    | true =>
      -- the callback in the place of the store
      have hbody : Copy.body gum exceptionOffset ⟨a, .str rt rn offset, r⟩ =
          [.plain (.push (.x 0) .lr), .movX0 rn, .blImm invokeCallback, .plain (.pop (.x 0) .lr)] :=
        if_pos hcore
      obtain ⟨e, w, hcalled, hpasses⟩ := visits_coreStore hrefines.keepsRegisters rfl
        ((transition_eq hall).trans (by rw [hbody])) hrefines.keepsFrame u
      rw [if_pos rfl]
      apply answers_goOn hcopied hall rfl (hrefines.stored rn u e w hcalled)
      rw [hbody]
      exact hpasses
    | false =>
      rw [if_neg Bool.false_ne_true]
      apply answers_relocated hrefines hcopied hall rfl
      exact if_neg (by rw [hcore]; exact Bool.false_ne_true)
  | ldr rt rn offset =>
    show Answers _ _ _ _ (if false = true then _ else _)
    rw [if_neg Bool.false_ne_true]
    exact answers_relocated hrefines hcopied hall rfl rfl
  | blr rn =>
    show Answers _ _ _ _ (if r = true then _ else _)
    cases r with
    | true =>
      -- the callback in the place of the call, with the thread of the environment
      obtain ⟨p, hp, hpasses⟩ := @passes_realCall gum processor _ place _ _ (transition_eq hall) u
      rw [if_pos rfl]
      exact answers_goOn hcopied hall rfl (hrefines.called u p hp) hpasses
    | false =>
      rw [if_neg Bool.false_ne_true]
      exact answers_relocated hrefines hcopied hall rfl rfl
  | other =>
    show Answers _ _ _ _ (if false = true then _ else _)
    rw [if_neg Bool.false_ne_true]
    exact answers_relocated hrefines hcopied hall rfl rfl

end

/-! ## The whole transition -/

/-- Over the subroutine to the copy of the entry. -/
theorem visits_start {gum : Gum} (hgum : gum.KeepsRegisters) {exceptionOffset : Int}
    {branchTargets : List Nat} {all : List Copy} {processor : Processor}
    {place : Placement (transition gum exceptionOffset branchTargets all)} {decoder : Decoder θ}
    {entry nextFunction : Nat} (hcopied : IsCopied decoder entry nextFunction branchTargets all)
    (hentry : entry % 4 = 0) (u : Cpu) :
    ∃ p, Loop.Visits (transitionStep gum processor place) (0, u) (p, u) ∧
      Before gum exceptionOffset branchTargets all entry p := by
  have hlabel := @label_performTransition gum exceptionOffset branchTargets all place hgum
    fun copy hcopy ↦ (hcopied.aligned copy hcopy).trans hentry
  have hhead := hcopied.head
  have hbranch : transitionStep gum processor place (0, u) =
      .inl ((subroutine gum).length, u) := by
    have hitem : (transition gum exceptionOffset branchTargets all)[0]? =
      some (.bLabel PERFORM_TRANSITION) := rfl
    rw [transitionStep, hitem]
    dsimp only
    rw [branch, hlabel]
    rfl
  have hover : transitionStep gum processor place ((subroutine gum).length, u) =
      .inl ((subroutine gum).length + 1, u) :=
    @transitionStep_of_straight gum processor _ place _ u (.label PERFORM_TRANSITION)
      (getElem?_of_eq _ (List.append_assoc _ _ _)) rfl
  cases all with
  | nil => cases hhead
  | cons copy after =>
    refine ⟨(subroutine gum).length + 1, .next hbranch (.next hover (.here _)), [], copy, after,
      rfl, Option.some.inj hhead, ?_⟩
    rw [transition, List.flatMap_nil, List.append_nil, prologue, List.length_append]
    rfl

/-- The calls that are replaced. -/
def replacedAt (all : List Copy) (a : Nat) : Bool :=
  all.any fun copy ↦ copy.address = a && copy.replaced

/-- What is written once is replaced in one way. -/
theorem replaced_eq_of_nodup {all : List Copy} (h : (all.map Copy.address).Nodup) :
    ∀ copy ∈ all, ∀ copy' ∈ all, copy.address = copy'.address → copy.replaced = copy'.replaced := by
  intro copy hcopy copy' hcopy' haddress
  rw [List.inj_on_of_nodup_map h hcopy hcopy' haddress]

/-- **The transition ends where `ExceptionClear` does, and nowhere else**, if no call is in it twice
and replaced in one place only. -/
theorem writeThreadTransition_simulates (gum : Gum) (exceptionOffset : Int)
    (decoder : Decoder θ) (feature : String) (entry nextFunction fuel : Nat)
    (collected : List Arm64Block × List Nat) (code : List Item)
    (hcollected : collectArm64Blocks decoder feature entry nextFunction fuel = some (.ok collected))
    (hentry : entry % 4 = 0)
    (hcode : (writeThreadTransition gum exceptionOffset decoder feature entry collected).map
      Writer.code = .ok code)
    (hsame : ∀ copy ∈ copies gum exceptionOffset decoder entry collected,
      ∀ copy' ∈ copies gum exceptionOffset decoder entry collected,
        copy.address = copy'.address → copy.replaced = copy'.replaced)
    (processor : Processor) (place : Placement code) (meaning : Meaning σ) (abs : Cpu → σ)
    (hrefines : Refines gum processor place meaning abs) (u : Cpu) :
    (∀ e, Loop.Ends (hookedStep gum exceptionOffset decoder nextFunction meaning
        (replacedAt (copies gum exceptionOffset decoder entry collected))) (entry, abs u) e →
      e = .outside ∨ ∃ e', Loop.Ends (transitionStep gum processor place) (0, u) e' ∧
        e'.map abs = e) ∧
    (∀ e', Loop.Ends (transitionStep gum processor place) (0, u) e' →
      ∃ e, Loop.Ends (hookedStep gum exceptionOffset decoder nextFunction meaning
          (replacedAt (copies gum exceptionOffset decoder entry collected))) (entry, abs u) e ∧
        (e = .outside ∨ e'.map abs = e)) := by
  obtain ⟨blocks, branchTargets⟩ := collected
  have hcopied := @isCopied_copies _ _ _ _ _ _ _ _ gum exceptionOffset hcollected
  rw [map_code_writeThreadTransition (readable_emitted hcollected)] at hcode
  generalize copies gum exceptionOffset decoder entry (blocks, branchTargets) = all at *
  split at hcode
  case isFalse => cases hcode
  case isTrue =>
    obtain rfl := Except.ok.inj hcode
    change Placement (transition gum exceptionOffset branchTargets all) at place
    have hreplaced : ∀ copy ∈ all, copy.replaced = replacedAt all copy.address := by
      intro copy hcopy
      rw [Bool.eq_iff_iff, replacedAt, List.any_eq_true]
      constructor
      · intro h
        exact ⟨copy, hcopy, by simp [h]⟩
      · rintro ⟨copy', hcopy', h⟩
        obtain ⟨haddress, h⟩ := Bool.and_eq_true_iff.mp h
        rw [← h]
        exact hsame copy hcopy copy' hcopy' (of_decide_eq_true haddress).symm
    have hstep (c : Nat × σ) (d : Nat × Cpu)
        (h : Matches gum exceptionOffset branchTargets all abs c d) :
        Answers processor place abs d
          (hookedStep gum exceptionOffset decoder nextFunction meaning (replacedAt all) c) := by
      obtain ⟨a, s⟩ := c
      obtain ⟨hbefore, rfl⟩ := h
      exact hbefore.answers hrefines hcopied hentry hreplaced d.2
    have hnext (c c' : Nat × σ) (d : Nat × Cpu)
        (hc : hookedStep gum exceptionOffset decoder nextFunction meaning (replacedAt all) c =
          .inl c') (h : Matches gum exceptionOffset branchTargets all abs c d) :
        ∃ d', Loop.Passes (transitionStep gum processor place) d d' ∧
          Matches gum exceptionOffset branchTargets all abs c' d' := by
      have hanswers := hstep c d h
      rw [hc] at hanswers
      exact hanswers
    have hleave (c : Nat × σ) (e : Exit σ) (d : Nat × Cpu)
        (hc : hookedStep gum exceptionOffset decoder nextFunction meaning (replacedAt all) c =
          .inr e) (h : Matches gum exceptionOffset branchTargets all abs c d) :
        e = .outside ∨ ∃ e', Loop.Ends (transitionStep gum processor place) d e' ∧
          e'.map abs = e := by
      have hanswers := hstep c d h
      rw [hc] at hanswers
      exact hanswers
    obtain ⟨p, hstart, hbefore⟩ :=
      @visits_start θ gum hrefines.keepsRegisters exceptionOffset branchTargets all processor place
        _ _ _ hcopied hentry u
    have hmatches :
        Matches gum exceptionOffset branchTargets all abs (entry, abs u) (p, u) := ⟨hbefore, rfl⟩
    constructor
    · intro e he
      rcases he.simulated hnext hleave hmatches with hopen | ⟨e', he', hmap⟩
      · exact .inl hopen
      · exact .inr ⟨e', hstart.ends he', hmap⟩
    · intro e' he'
      obtain ⟨fuel', hfuel'⟩ := Loop.exists_run_of_ends he'
      obtain ⟨fuel'', -, hrun⟩ := hstart.run hfuel'
      exact (Loop.ends_of_run hrun).simulates hnext hleave hmatches

/-! ## Counting the calls of the callback -/

/-- The callback counts its calls in a vector register. -/
def countingProcessor : Processor where
  holds _ _ := false
  isZero _ u := u.state.x 1 = 0
  bit _ _ _ := false
  relocated _ u := some u
  callback u := { u with state := u.state.set (.d 0) (u.state.v 0 + 1) }

/-- What counts: a register, the number of calls, and a return address that is not of the code. -/
structure Counted where
  x1 : BitVec 64
  calls : BitVec 64
  link : Option (BitVec 64)

def countingMeaning : Meaning Counted where
  holds _ _ := false
  isZero _ s := s.x1 = 0
  bit _ _ _ := false
  exec _ s := some s
  link s := s.link
  stored _ s := { s with calls := s.calls + 1 }
  called s := { s with calls := s.calls + 1, link := none }

def counted (code : List Item) (u : Cpu) : Counted where
  x1 := u.state.x 1
  calls := u.state.v 0
  link := if (u.state.x 30).toNat ≤ code.length then none else some (u.state.x 30)

theorem refines_counting (code : List Item) (h : code.length < 2 ^ 64) :
    Refines plainGum countingProcessor (.ofCode code h) countingMeaning (counted code) where
  holds _ _ := rfl
  isZero _ _ := rfl
  bit _ _ _ := rfl
  relocated _ _ := rfl
  link := by
    intro u target hlink
    change ite _ _ _ = _ at hlink
    split at hlink
    case isTrue => cases hlink
    case isFalse hgt =>
      obtain rfl := Option.some.inj hlink
      refine ⟨rfl, ?_⟩
      have hnone : code[(u.state.x 30).toNat - 1]? = none := List.getElem?_eq_none (by omega)
      dsimp only [Placement.ofCode]
      rw [hnone]
  keepsRegisters := keepsRegisters_plainGum
  keepsFrame := by
    intro e
    exact ⟨rfl, fun _ _ ↦ rfl⟩
  stored := by
    intro reg u e w hcalled
    have hv : w.state.v 0 = u.state.v 0 + 1 := by
      rw [hcalled.v_eq, ← hcalled.vectors]
      rfl
    rw [counted, hcalled.x_eq, hv]
    rfl
  called := by
    intro u p hp
    obtain ⟨hlt, -⟩ := List.getElem?_eq_some_iff.mp hp
    have hlink : (BitVec.ofNat 64 (p + 1)).toNat ≤ code.length := by
      rw [BitVec.toNat_ofNat]
      omega
    exact congrArg (Counted.mk _ _) (if_pos hlink)

theorem writeThreadTransition_clear_simulates :
    ∃ u, Loop.Ends (transitionStep plainGum countingProcessor (.ofCode
        (transition plainGum 144 [0x1008] [⟨0x1000, .cbz 1 0x1008, false⟩,
          ⟨0x1004, .str 31 2 144, false⟩, ⟨0x1008, .ret, false⟩]) (by decide)))
      (0, ⟨⟨fun n ↦ if n = 30 then 0xff00 else 1, 0x8000, fun _ ↦ 0, false, fun _ ↦ 0⟩, 0⟩)
      (.returned 0xff00 u) ∧ u.state.v 0 = 1 := by
  have h := (writeThreadTransition_simulates plainGum 144 clearDecoder "" 0x1000 0x2000 20
    ([⟨0x1000, 0x100c⟩], [0x1008]) _ rfl (by decide) rfl (replaced_eq_of_nodup (by decide))
    countingProcessor _ countingMeaning _ (refines_counting _ (by decide))
    ⟨⟨fun n ↦ if n = 30 then 0xff00 else 1, 0x8000, fun _ ↦ 0, false, fun _ ↦ 0⟩, 0⟩).1
    (.returned 0xff00 ⟨1, 1, some 0xff00⟩)
    (@Loop.ends_of_run _ _ _ 5 _ _ rfl)
  rcases h with h | ⟨e, he, hmap⟩
  · cases h
  · cases e with
    | returned target u =>
      obtain ⟨rfl, hu⟩ := Exit.returned.inj hmap
      exact ⟨u, he, congrArg Counted.calls hu⟩
    | gone address u => cases hmap
    | outside => cases hmap

end JavaBridge.RunnableThread

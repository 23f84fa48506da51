import JavaBridge.RunnableThread.Transition

/-!
# Running the transition

What the processor does with the code of the transition. A branch goes to where its label has been
placed, a call leaves its return address in the link register, and a return goes to a return address
of the code or leaves it.

The subroutine of the prologue calls the callback with all general registers and the flags on the
stack. Where it is called in the place of a store, it looks to the code around it as if only memory
and vector registers had changed.

Main results:

* `visits_block`: a block without branches runs as the fold of its effects.
* `visits_subroutine`: the subroutine of the prologue.
* `visits_coreStore`: what runs in the place of the store of the exception.
* `passes_realCall`: what runs in the place of the call of the real `ExceptionClear`.
-/

namespace JavaBridge.RunnableThread

open Arm64 (Instr Reg)

/-! ## Steps -/

/-- How the processor tells conditions, and what the instructions that are copied do: `none` where
control does not come back to the next one. -/
structure Processor where
  holds : Nat → Cpu → Bool
  isZero : Nat → Cpu → Bool
  bit : Nat → Nat → Cpu → Bool
  relocated : Nat → Cpu → Option Cpu
  /-- `on_runnable_thread_transition_complete`, up to its return. -/
  callback : Cpu → Cpu

/-- Where the writer has placed labels, and the return addresses of the calls. -/
structure Placement (code : List Item) where
  label : Nat → Option Nat
  label_eq_some : ∀ l p, label l = some p → code[p]? = some (.label l)
  label_isSome : ∀ l, .label l ∈ code → (label l).isSome
  /-- The address behind a position. -/
  link : Nat → BitVec 64
  /-- The position of a return address of the code. -/
  back : BitVec 64 → Option Nat
  back_link : ∀ p position, code[p]? = some (.blImm position) → back (link p) = some (p + 1)

/-- The item is the label. -/
def Item.places (l : Nat) : Item → Bool
  | label l' => l = l'
  | _ => false

theorem Item.places_iff {l : Nat} {item : Item} : item.places l = true ↔ item = .label l := by
  cases item with
  | label l' =>
    rw [places, decide_eq_true_iff, label.injEq, eq_comm]
  | _ =>
    constructor
    · intro h
      cases h
    · intro h
      cases h

/-- Code at its positions. -/
def Placement.ofCode (code : List Item) (h : code.length < 2 ^ 64) : Placement code where
  label l := code.findIdx? (Item.places l)
  label_eq_some := by
    intro l p hp
    obtain ⟨hlt, hplaces, -⟩ := List.findIdx?_eq_some_iff_getElem.mp hp
    rw [List.getElem?_eq_getElem hlt, Item.places_iff.mp hplaces]
  label_isSome := by
    intro l hl
    rw [List.findIdx?_isSome, List.any_eq_true]
    exact ⟨_, hl, Item.places_iff.mpr rfl⟩
  link p := BitVec.ofNat 64 (p + 1)
  back target :=
    match code[target.toNat - 1]? with
    | some (.blImm _) => some target.toNat
    | _ => none
  back_link := by
    intro p position hp
    obtain ⟨hlt, -⟩ := List.getElem?_eq_some_iff.mp hp
    rw [BitVec.toNat_ofNat, Nat.mod_eq_of_lt (by omega), Nat.add_sub_cancel, hp]

/-- How a run ends: by a return, or in an instruction after which control does not come back, or
where there is no more code. -/
inductive Exit (σ : Type)
  | returned (target : BitVec 64) (s : σ)
  | gone (address : Nat) (s : σ)
  | outside

def Exit.map {σ τ : Type} (f : σ → τ) : Exit σ → Exit τ
  | .returned target s => .returned target (f s)
  | .gone address s => .gone address (f s)
  | .outside => .outside

namespace Cpu

def set (u : Cpu) (n : Fin 31) (value : BitVec 64) : Cpu :=
  { u with state := u.state.set (.x n) value }

@[simp] theorem set_nzcv (u : Cpu) (n : Fin 31) (value : BitVec 64) :
    (u.set n value).nzcv = u.nzcv := rfl

@[simp] theorem set_x (u : Cpu) (n m : Fin 31) (value : BitVec 64) :
    (u.set n value).state.x m = if m = n then value else u.state.x m :=
  Arm64.State.set_x_x u.state n m value

@[simp] theorem set_sp (u : Cpu) (n : Fin 31) (value : BitVec 64) :
    (u.set n value).state.sp = u.state.sp := rfl

@[simp] theorem set_mem (u : Cpu) (n : Fin 31) (value : BitVec 64) :
    (u.set n value).state.mem = u.state.mem := rfl

@[simp] theorem set_v (u : Cpu) (n : Fin 31) (value : BitVec 64) :
    (u.set n value).state.v = u.state.v := rfl

end Cpu

section

variable (gum : Gum) (processor : Processor)

namespace Item

/-- What an item without a branch does. -/
def effect (u : Cpu) : Item → Cpu
  | plain i => { u with state := i.effect u.state }
  | movX0 reg => u.set 0 ((gum.general reg).elim u.state.sp u.state.x)
  | movRegNzcv dst => u.set dst u.nzcv
  | movNzcvReg src => { u with nzcv := u.state.x src }
  | _ => u

def straight : Item → Bool
  | label _ | movX0 _ | movRegNzcv _ | movNzcvReg _ => true
  | plain i => i.straight
  | _ => false

def exec (block : List Item) (u : Cpu) : Cpu := block.foldl (effect gum) u

@[simp] theorem exec_nil (u : Cpu) : exec gum [] u = u := rfl

@[simp] theorem exec_cons (i : Item) (block : List Item) (u : Cpu) :
    exec gum (i :: block) u = exec gum block (i.effect gum u) := rfl

theorem exec_append (block block' : List Item) (u : Cpu) :
    exec gum (block ++ block') u = exec gum block' (exec gum block u) := List.foldl_append

theorem exec_map_plain (block : List Instr) (u : Cpu) :
    exec gum (block.map plain) u = { u with state := Instr.exec block u.state } := by
  induction block generalizing u with
  | nil => rfl
  | cons i block ih => exact ih _

end Item

variable {code : List Item} (place : Placement code)

/-- A branch, taken if `taken`. -/
def branch (taken : Bool) (l pc : Nat) (u : Cpu) : Nat × Cpu ⊕ Exit Cpu :=
  if taken then (place.label l).elim (.inr .outside) fun p ↦ .inl (p, u) else .inl (pc + 1, u)

/-- A step of the transition. -/
def transitionStep : Nat × Cpu → Nat × Cpu ⊕ Exit Cpu
  | (pc, u) =>
    match code[pc]? with
    | none => .inr .outside
    | some item =>
      match item with
      | .bLabel l => branch place true l pc u
      | .bCondLabel cond l => branch place (processor.holds cond u) l pc u
      | .cbzLabel reg l => branch place (processor.isZero reg u) l pc u
      | .cbnzLabel reg l => branch place (!processor.isZero reg u) l pc u
      | .tbzLabel reg bit l => branch place (!processor.bit reg bit u) l pc u
      | .tbnzLabel reg bit l => branch place (processor.bit reg bit u) l pc u
      | .blImm position => .inl (position, u.set 30 (place.link pc))
      | .callCallback => .inl (pc + 1, processor.callback (u.set 30 (place.link pc)))
      | .relocated address =>
        (processor.relocated address u).elim (.inr (.gone address u)) fun u' ↦ .inl (pc + 1, u')
      | .ret =>
        (place.back (u.state.x 30)).elim (.inr (.returned (u.state.x 30) u)) fun p ↦ .inl (p, u)
      | item => .inl (pc + 1, item.effect gum u)

variable {gum processor place} {pc : Nat} {u : Cpu} {item : Item}

theorem transitionStep_of_straight (hitem : code[pc]? = some item) (h : item.straight = true) :
    transitionStep gum processor place (pc, u) = .inl (pc + 1, item.effect gum u) := by
  rw [transitionStep, hitem]
  cases item <;> first | rfl | cases h

theorem getElem?_of_eq {before : List Item} (after : List Item)
    (h : code = before ++ item :: after) : code[before.length]? = some item := by
  rw [h, List.getElem?_append_right le_rfl, Nat.sub_self, List.getElem?_cons_zero]

/-- A block without branches runs as the fold of its effects. -/
theorem visits_block {before block after : List Item} (hcode : code = before ++ block ++ after)
    (hstraight : ∀ item ∈ block, item.straight = true) (u : Cpu) :
    Loop.Visits (transitionStep gum processor place) (before.length, u)
      (before.length + block.length, Item.exec gum block u) := by
  induction block generalizing before u with
  | nil => exact .here _
  | cons item block ih =>
    have hitem : code[before.length]? = some item :=
      getElem?_of_eq _ (hcode.trans (List.append_assoc _ _ _))
    obtain ⟨hhead, htail⟩ := List.forall_mem_cons.mp hstraight
    have hrest := @ih (before ++ [item]) (by simp [hcode]) htail (item.effect gum u)
    rw [List.length_append, List.length_singleton, Nat.add_assoc, Nat.add_comm 1] at hrest
    exact .next (transitionStep_of_straight hitem hhead) hrest

end

/-! ## The callback -/

namespace Gum

/-- The general registers and the flags are kept on the stack, and taken back from it. -/
structure KeepsRegisters (gum : Gum) : Prop where
  straight : ∀ item ∈ gum.pushAllX ++ gum.popAllX, item.straight = true ∧ item.isLabel = false
  pushedBytes_lt : gum.pushedBytes + 16 < 2 ^ 64
  push_x0 : ∀ u : Cpu, (Item.exec gum gum.pushAllX u).state.x 0 = u.state.x 0
  push_sp : ∀ u : Cpu, (Item.exec gum gum.pushAllX u).state.sp =
    u.state.sp - BitVec.ofNat 64 gum.pushedBytes
  push_v : ∀ u : Cpu, (Item.exec gum gum.pushAllX u).state.v = u.state.v
  push_nzcv : ∀ u : Cpu, (Item.exec gum gum.pushAllX u).nzcv = u.nzcv
  push_mem : ∀ u : Cpu, Set.EqOn (Item.exec gum gum.pushAllX u).state.mem u.state.mem
    (ByteMemory.block (u.state.sp - BitVec.ofNat 64 gum.pushedBytes) gum.pushedBytes)ᶜ
  pop : ∀ u t : Cpu, t.state.sp = u.state.sp - BitVec.ofNat 64 gum.pushedBytes →
    Set.EqOn t.state.mem (Item.exec gum gum.pushAllX u).state.mem
      (ByteMemory.block t.state.sp gum.pushedBytes) →
    (Item.exec gum gum.popAllX t).state.x = u.state.x ∧
      (Item.exec gum gum.popAllX t).state.sp = u.state.sp ∧
      (Item.exec gum gum.popAllX t).nzcv = u.nzcv ∧
      (Item.exec gum gum.popAllX t).state.v = t.state.v ∧
      (Item.exec gum gum.popAllX t).state.mem = t.state.mem

/-- The bytes that are on the stack at the callback, in the place of a store. -/
def savedBytes (gum : Gum) : Nat := gum.pushedBytes + 16

end Gum

/-- The callback gives the stack back, and does not write to what its caller has on it. -/
def Processor.KeepsFrame (processor : Processor) (savedBytes : Nat) : Prop :=
  ∀ e, (processor.callback e).state.sp = e.state.sp ∧
    Set.EqOn (processor.callback e).state.mem e.state.mem (ByteMemory.block e.state.sp savedBytes)

/-- The callback has been called, in a state `e` in which nothing is lost of `u` but what is below
the stack pointer, and all registers are back in `w`. -/
structure CalledAround (processor : Processor) (saved : Nat) (thread : BitVec 64) (u e w : Cpu) :
    Prop where
  thread : e.state.x 0 = thread
  stack : e.state.sp = u.state.sp - BitVec.ofNat 64 saved
  vectors : e.state.v = u.state.v
  flags : e.nzcv = u.nzcv
  memory : Set.EqOn e.state.mem u.state.mem
    (ByteMemory.block (u.state.sp - BitVec.ofNat 64 saved) saved)ᶜ
  x_eq : w.state.x = u.state.x
  sp_eq : w.state.sp = u.state.sp
  nzcv_eq : w.nzcv = u.nzcv
  v_eq : w.state.v = (processor.callback e).state.v
  mem_eq : w.state.mem = (processor.callback e).state.mem

section

variable {gum : Gum} {processor : Processor} {code : List Item} {place : Placement code}
  {pc : Nat} {u : Cpu}

/-- The subroutine around the callback. -/
theorem calledAround_subroutine (hgum : gum.KeepsRegisters)
    (hframe : processor.KeepsFrame gum.savedBytes) (u : Cpu) (link : BitVec 64) :
    CalledAround processor gum.pushedBytes (u.state.x 0) u
      ((Item.exec gum gum.pushAllX u).set 30 link)
      (Item.exec gum gum.popAllX
        (processor.callback ((Item.exec gum gum.pushAllX u).set 30 link))) := by
  have hsp := hgum.push_sp u
  generalize he : (Item.exec gum gum.pushAllX u).set 30 link = e
  have hesp : e.state.sp = u.state.sp - BitVec.ofNat 64 gum.pushedBytes := by
    rw [← he, Cpu.set_sp, hsp]
  have hemem : e.state.mem = (Item.exec gum gum.pushAllX u).state.mem := by
    rw [← he, Cpu.set_mem]
  obtain ⟨hcsp, hcmem⟩ := hframe e
  obtain ⟨hx, hpop, hnzcv, hv, hmem⟩ := hgum.pop u (processor.callback e) (hcsp.trans hesp) (by
    rw [hcsp, ← hemem]
    exact hcmem.mono (ByteMemory.block_subset_block _ (Nat.le_add_right _ _)))
  exact {
    thread := by
      rw [← he, Cpu.set_x, if_neg (by decide), hgum.push_x0]
    stack := hesp
    vectors := by
      rw [← he, Cpu.set_v, hgum.push_v]
    flags := by
      rw [← he, Cpu.set_nzcv, hgum.push_nzcv]
    memory := by
      rw [hemem]
      exact hgum.push_mem u
    x_eq := hx
    sp_eq := hpop
    nzcv_eq := hnzcv
    v_eq := hv
    mem_eq := hmem }

/-- What `mov x0, reg` finds behind a push. -/
def threadOf (gum : Gum) (reg : Nat) (u : Cpu) : BitVec 64 :=
  (gum.general reg).elim (u.state.sp - 16) u.state.x

/-- The subroutine between a push and a pop of `x0` and the link register. -/
theorem CalledAround.coreStore (hgum : gum.KeepsRegisters)
    (hframe : processor.KeepsFrame gum.savedBytes) {rn : Nat} {link : BitVec 64} {e w : Cpu} :
    let b := (Item.exec gum [.plain (.push (.x 0) .lr), .movX0 rn] u).set 30 link
    CalledAround processor gum.pushedBytes (b.state.x 0) b e w →
      CalledAround processor gum.savedBytes (threadOf gum rn u) u e
        (Item.exec gum [.plain (.pop (.x 0) .lr)] w) := by
  intro b h
  have hlt := hgum.pushedBytes_lt
  have hsaved : gum.savedBytes = gum.pushedBytes + 16 := rfl
  generalize gum.pushedBytes = n at *
  generalize hp : Instr.exec (Instr.pushAll [(0, 30)]) u.state = p
  have hb : b = (Cpu.set ⟨p, u.nzcv⟩ 0 ((gum.general rn).elim p.sp p.x)).set 30 link := by
    rw [← hp]
    rfl
  have hpx : p.x = u.state.x := by
    rw [← hp, Instr.exec_pushAll_x]
  have hpsp : p.sp = u.state.sp - 16 := by
    rw [← hp, Instr.exec_pushAll_sp]
    rfl
  have hpmem : Set.EqOn p.mem u.state.mem (ByteMemory.block (u.state.sp - 16) 16)ᶜ := by
    rw [← hp]
    exact Instr.exec_pushAll_mem [(0, 30)] u.state (by decide)
  have hbsp : b.state.sp = u.state.sp - 16 := by
    rw [hb, Cpu.set_sp, Cpu.set_sp, hpsp]
  have hbmem : b.state.mem = p.mem := by
    rw [hb, Cpu.set_mem, Cpu.set_mem]
  have hesp := h.stack
  have hmemory := h.memory
  rw [hbsp] at hesp hmemory
  rw [hbmem] at hmemory
  obtain ⟨hcsp, hcmem⟩ := hframe e
  rw [hesp, hsaved] at hcmem
  obtain ⟨hosp, homem, hov, hox⟩ := @Instr.exec_popAll [(0, 30)] u.state w.state (by decide)
    (by rw [h.sp_eq, hbsp, ← hpsp, hp]) (by
      intro a ha
      rw [h.sp_eq, hbsp] at ha
      have ha : (a - (u.state.sp - 16)).toNat < 16 := ha
      have hin : a ∈ ByteMemory.block (u.state.sp - 16 - BitVec.ofNat 64 n) (n + 16) := by
        show (a - (u.state.sp - 16 - BitVec.ofNat 64 n)).toNat < n + 16
        bv_omega
      have hnot : a ∉ ByteMemory.block (u.state.sp - 16 - BitVec.ofNat 64 n) n := by
        intro hmem
        have hmem : (a - (u.state.sp - 16 - BitVec.ofNat 64 n)).toNat < n := hmem
        bv_omega
      rw [h.mem_eq, hcmem hin, hmemory hnot, hp])
  have hother (n : Fin 31) (h0 : n ≠ 0) (h30 : n ≠ 30) :
      (Instr.exec (Instr.popAll [(0, 30)]) w.state).x n = w.state.x n :=
    Instr.exec_popAll_x_of_forall_ne fun pair hpair ↦ by
      rw [List.mem_singleton.mp hpair]
      exact ⟨h0, h30⟩
  show CalledAround _ _ _ _ _ ⟨Instr.exec (Instr.popAll [(0, 30)]) w.state, w.nzcv⟩
  exact {
    thread := by
      rw [h.thread, hb, Cpu.set_x, if_neg (by decide), Cpu.set_x, if_pos rfl, hpsp, hpx]
      rfl
    stack := by
      rw [hesp, hsaved]
      bv_omega
    vectors := by
      rw [h.vectors, hb, Cpu.set_v, Cpu.set_v, ← hp, Instr.exec_pushAll_v]
    flags := by
      rw [h.flags, hb, Cpu.set_nzcv, Cpu.set_nzcv]
    memory := by
      intro a ha
      have ha : ¬(a - (u.state.sp - BitVec.ofNat 64 gum.savedBytes)).toNat < gum.savedBytes := ha
      rw [hsaved] at ha
      rw [hmemory, hpmem]
      · intro hmem
        have hmem : (a - (u.state.sp - 16)).toNat < 16 := hmem
        bv_omega
      · intro hmem
        have hmem : (a - (u.state.sp - 16 - BitVec.ofNat 64 n)).toNat < n := hmem
        bv_omega
    x_eq := by
      funext n
      by_cases hn : n = 0 ∨ n = 30
      · exact hox n ⟨(0, 30), List.mem_singleton_self _, hn⟩
      · obtain ⟨h0, h30⟩ := not_or.mp hn
        show (Instr.exec _ _).x n = _
        rw [hother n h0 h30, h.x_eq, hb, Cpu.set_x, if_neg h30, Cpu.set_x, if_neg h0, hpx]
    sp_eq := hosp
    nzcv_eq := by
      rw [h.nzcv_eq, hb, Cpu.set_nzcv, Cpu.set_nzcv]
    v_eq := hov.trans h.v_eq
    mem_eq := homem.trans h.mem_eq }

/-! ## The code around the callback -/

/-- From the subroutine's first instruction to behind the `bl`. -/
theorem visits_subroutine (hgum : gum.KeepsRegisters) {rest : List Item}
    (hcode : code = prologue gum ++ rest) {position : Nat}
    (hbl : code[position]? = some (.blImm invokeCallback))
    (hframe : processor.KeepsFrame gum.savedBytes) (hlink : u.state.x 30 = place.link position) :
    ∃ e w, CalledAround processor gum.pushedBytes (u.state.x 0) u e w ∧
      Loop.Visits (transitionStep gum processor place) (invokeCallback, u) (position + 1, w) := by
  obtain ⟨hpushes, hpops⟩ := List.forall_mem_append.mp hgum.straight
  -- up to the call of the callback, and up to the return
  generalize hn : ([.bLabel PERFORM_TRANSITION] ++ gum.pushAllX : List Item).length = n
  generalize hm : ([.bLabel PERFORM_TRANSITION] ++ gum.pushAllX ++ [.callCallback] ++
    gum.popAllX : List Item).length = m
  have hcall : code[n]? = some .callCallback := by
    rw [← hn]
    apply getElem?_of_eq (gum.popAllX ++ [.ret, .label PERFORM_TRANSITION] ++ rest)
    rw [hcode, prologue, subroutine]
    simp only [List.append_assoc, List.cons_append, List.nil_append]
  have hret : code[m]? = some .ret := by
    rw [← hm]
    apply getElem?_of_eq (.label PERFORM_TRANSITION :: rest)
    rw [hcode, prologue, subroutine]
    simp only [List.append_assoc, List.cons_append, List.nil_append]
  have hpush := @visits_block gum processor code place [.bLabel PERFORM_TRANSITION] gum.pushAllX
    ([.callCallback] ++ gum.popAllX ++ [.ret, .label PERFORM_TRANSITION] ++ rest)
    (by rw [hcode, prologue, subroutine]; simp) (fun item hitem ↦ (hpushes item hitem).1) u
  have hcalled := calledAround_subroutine hgum hframe u (place.link n)
  generalize he : (Item.exec gum gum.pushAllX u).set 30 (place.link n) = e at hcalled
  have hpop := @visits_block gum processor code place
    ([.bLabel PERFORM_TRANSITION] ++ gum.pushAllX ++ [.callCallback]) gum.popAllX
    ([.ret, .label PERFORM_TRANSITION] ++ rest)
    (by rw [hcode, prologue, subroutine]; simp) (fun item hitem ↦ (hpops item hitem).1)
    (processor.callback e)
  generalize Item.exec gum gum.popAllX (processor.callback e) = w at hcalled hpop
  rw [← List.length_append] at hpop
  have hlast : transitionStep gum processor place (m, w) = .inl (position + 1, w) := by
    -- the link register is what the call of the subroutine has left in it
    rw [transitionStep, hret]
    show (place.back (w.state.x 30)).elim _ _ = _
    rw [hcalled.x_eq, hlink, place.back_link position invokeCallback hbl]
    rfl
  have hcallback : transitionStep gum processor place (n, Item.exec gum gum.pushAllX u) =
      .inl (n + 1, processor.callback e) := by
    rw [transitionStep, hcall, ← he]
  rw [← List.length_append, hn] at hpush
  rw [hm, List.length_append, hn] at hpop
  exact ⟨e, w, hcalled, hpush.trans (.next hcallback (hpop.trans (.next hlast (.here _))))⟩

/-- What runs in the place of the store of the exception. -/
theorem visits_coreStore (hgum : gum.KeepsRegisters) {rest before after : List Item} {rn : Nat}
    (hprologue : code = prologue gum ++ rest)
    (hcode : code = before ++ [.plain (.push (.x 0) .lr), .movX0 rn, .blImm invokeCallback,
      .plain (.pop (.x 0) .lr)] ++ after) (hframe : processor.KeepsFrame gum.savedBytes) (u : Cpu) :
    ∃ e w, CalledAround processor gum.savedBytes (threadOf gum rn u) u e w ∧
      Loop.Passes (transitionStep gum processor place) (before.length, u)
        (before.length + 4, w) := by
  have hbl : code[before.length + 2]? = some (.blImm invokeCallback) := by
    rw [hcode]
    simp
  have hbefore := @visits_block gum processor code place before
    [.plain (.push (.x 0) .lr), .movX0 rn]
    ([.blImm invokeCallback, .plain (.pop (.x 0) .lr)] ++ after)
    (by rw [hcode]; simp only [List.append_assoc, List.cons_append, List.nil_append])
    (by simp [Item.straight, Instr.straight]) u
  obtain ⟨e, w, hcalled, hsubroutine⟩ := @visits_subroutine gum processor code place
    ((Item.exec gum [.plain (.push (.x 0) .lr), .movX0 rn] u).set 30
      (place.link (before.length + 2)))
    hgum rest hprologue (before.length + 2) hbl hframe (by rw [Cpu.set_x, if_pos rfl])
  have hafter := @visits_block gum processor code place
    (before ++ [.plain (.push (.x 0) .lr), .movX0 rn, .blImm invokeCallback])
    [.plain (.pop (.x 0) .lr)] after
    (by rw [hcode]; simp only [List.append_assoc, List.cons_append, List.nil_append])
    (by simp [Item.straight, Instr.straight]) w
  refine ⟨e, _, hcalled.coreStore hgum hframe, hbefore.trans_passes ⟨_, ?_, hsubroutine.trans ?_⟩⟩
  · show transitionStep gum processor place (before.length + 2, _) = _
    rw [transitionStep, hbl]
  · rw [List.length_append] at hafter
    exact hafter

/-- What runs in the place of the call of the real `ExceptionClear`. -/
theorem passes_realCall {before after : List Item}
    (hcode : code = before ++ [.plain (.ldr (.x 0) (.x 0) JNIENV_EXT_SELF_OFFSET), .callCallback] ++
      after) (u : Cpu) :
    ∃ p, code[p]? = some .callCallback ∧
      Loop.Passes (transitionStep gum processor place) (before.length, u) (before.length + 2,
        processor.callback
          ((u.set 0 (u.state.mem.word (u.state.x 0 + 8))).set 30 (place.link p))) := by
  have hload := @visits_block gum processor code place before
    [.plain (.ldr (.x 0) (.x 0) JNIENV_EXT_SELF_OFFSET)] (.callCallback :: after)
    (by rw [hcode]; simp only [List.append_assoc, List.cons_append, List.nil_append])
    (by simp [Item.straight, Instr.straight]) u
  have hcall : code[before.length + 1]? = some .callCallback := by
    rw [hcode]
    simp
  refine ⟨before.length + 1, hcall, hload.trans_passes ⟨_, ?_, .here _⟩⟩
  show transitionStep gum processor place (before.length + 1, _) = _
  rw [transitionStep, hcall]
  rfl

end

/-! ## Registers in pairs -/

/-- The general registers but for the link register, which goes last and with the flags. -/
def pairs : List (Fin 31 × Fin 31) :=
  [(0, 1), (2, 3), (4, 5), (6, 7), (8, 9), (10, 11), (12, 13), (14, 15), (16, 17), (18, 19),
    (20, 21), (22, 23), (24, 25), (26, 27), (28, 29)]

/-- Registers that are pushed in pairs. -/
def plainGum : Gum where
  isArm64ZeroRegister reg := reg = 31
  general reg := if h : reg < 31 then some ⟨reg, h⟩ else none
  pushAllX := (Instr.pushAll pairs).map .plain ++ [.movRegNzcv 15, .plain (.push (.x 30) (.x 15))]
  popAllX := [.plain (.pop (.x 30) (.x 15)), .movNzcvReg 15] ++ (Instr.popAll pairs).map .plain
  pushedBytes := 256

theorem exec_pushAllX (u : Cpu) : Item.exec plainGum plainGum.pushAllX u =
    ⟨Instr.exec (Instr.pushAll [(30, 15)])
      ((Instr.exec (Instr.pushAll pairs) u.state).set (.x 15) u.nzcv), u.nzcv⟩ := by
  show Item.exec plainGum (_ ++ _) u = _
  rw [Item.exec_append, Item.exec_map_plain]
  rfl

theorem exec_popAllX (t : Cpu) : Item.exec plainGum plainGum.popAllX t =
    ⟨Instr.exec (Instr.popAll pairs) (Instr.exec (Instr.popAll [(30, 15)]) t.state),
      (Instr.exec (Instr.popAll [(30, 15)]) t.state).x 15⟩ := by
  show Item.exec plainGum (_ ++ _) t = _
  rw [Item.exec_append, Item.exec_map_plain]
  rfl

theorem ne_of_mem_pairs : ∀ pair ∈ pairs, (30 : Fin 31) ≠ pair.1 ∧ (30 : Fin 31) ≠ pair.2 := by
  simp [pairs]

theorem mem_pairs {n : Fin 31} (h : n ≠ 30) : ∃ pair ∈ pairs, n = pair.1 ∨ n = pair.2 := by
  revert n
  decide

/-- What is on the stack below the link register and the flags. -/
theorem exec_pushAll_pairs_mem (u : Cpu) : Set.EqOn (Instr.exec (Instr.pushAll [(30, 15)])
      ((Instr.exec (Instr.pushAll pairs) u.state).set (.x 15) u.nzcv)).mem
    (Instr.exec (Instr.pushAll pairs) u.state).mem
    (ByteMemory.block (u.state.sp - 240 - 16) 16)ᶜ := by
  have hsp : (Instr.exec (Instr.pushAll pairs) u.state).sp = u.state.sp - 240 := by
    rw [Instr.exec_pushAll_sp]
    rfl
  rw [← hsp]
  exact Instr.exec_pushAll_mem [(30, 15)] _ (by decide)

theorem keepsRegisters_plainGum : plainGum.KeepsRegisters where
  straight := by decide
  pushedBytes_lt := by decide
  push_x0 u := by
    rw [exec_pushAllX]
    show (Instr.exec _ _).x 0 = _
    rw [Instr.exec_pushAll_x, Arm64.State.set_x_x, if_neg (by decide), Instr.exec_pushAll_x]
  push_sp u := by
    rw [exec_pushAllX]
    show (Instr.exec _ _).sp = _
    rw [Instr.exec_pushAll_sp, Arm64.State.set_x_sp, Instr.exec_pushAll_sp, BitVec.sub_sub]
    rfl
  push_v u := by
    rw [exec_pushAllX]
    show (Instr.exec _ _).v = _
    rw [Instr.exec_pushAll_v, Arm64.State.set_x_v, Instr.exec_pushAll_v]
  push_nzcv u := by
    rw [exec_pushAllX]
  push_mem u := by
    rw [exec_pushAllX]
    intro b hb
    have hb : ¬(b - (u.state.sp - 256)).toNat < 256 := hb
    show (Instr.exec _ _).mem b = _
    rw [exec_pushAll_pairs_mem, Instr.exec_pushAll_mem pairs u.state (by decide)]
    · intro h
      have h : (b - (u.state.sp - 240)).toNat < 240 := h
      bv_omega
    · intro h
      have h : (b - (u.state.sp - 240 - 16)).toNat < 16 := h
      bv_omega
  pop u t hsp hmem := by
    rw [exec_pushAllX] at hmem
    rw [exec_popAllX]
    have hsp : t.state.sp = u.state.sp - 240 - 16 := by
      rw [hsp, BitVec.sub_sub]
      rfl
    have hpmem := exec_pushAll_pairs_mem u
    have hspp : (Instr.exec (Instr.pushAll pairs) u.state).sp = u.state.sp - 240 := by
      rw [Instr.exec_pushAll_sp]
      rfl
    have hsx := @Instr.exec_pushAll_x pairs u.state
    generalize hs : Instr.exec (Instr.pushAll pairs) u.state = s at *
    -- the link register with the flags, and then the others
    obtain ⟨hisp, himem, hiv, hix⟩ := @Instr.exec_popAll [(30, 15)] (s.set (.x 15) u.nzcv) t.state
      (by decide) (by rw [hsp, Instr.exec_pushAll_sp, Arm64.State.set_x_sp, hspp]; rfl)
      (hmem.mono (ByteMemory.block_subset_block _ (by decide)))
    generalize Instr.exec (Instr.popAll [(30, 15)]) t.state = i at *
    have hi15 : i.x 15 = u.nzcv := by
      rw [hix 15 ⟨(30, 15), List.mem_singleton_self _, .inr rfl⟩, Arm64.State.set_x_x, if_pos rfl]
    have hi30 : i.x 30 = u.state.x 30 := by
      rw [hix 30 ⟨(30, 15), List.mem_singleton_self _, .inl rfl⟩, Arm64.State.set_x_x,
        if_neg (by decide), hsx]
    obtain ⟨hosp, homem, hov, hox⟩ := @Instr.exec_popAll pairs u.state i (by decide)
      (by rw [hs]; exact hisp) (by
        intro b hb
        rw [hisp, Arm64.State.set_x_sp, hspp] at hb
        have hb : (b - (u.state.sp - 240)).toNat < 240 := hb
        have hin : b ∈ ByteMemory.block (u.state.sp - 240 - 16) 256 := by
          show (b - (u.state.sp - 240 - 16)).toNat < 256
          bv_omega
        have hnot : b ∉ ByteMemory.block (u.state.sp - 240 - 16) 16 := by
          intro h
          have h : (b - (u.state.sp - 240 - 16)).toNat < 16 := h
          bv_omega
        rw [← hsp] at hin
        rw [himem, hmem hin]
        show (Instr.exec _ _).mem b = _
        rw [hpmem hnot, hs])
    have h30 : (Instr.exec (Instr.popAll pairs) i).x 30 = i.x 30 :=
      Instr.exec_popAll_x_of_forall_ne ne_of_mem_pairs
    refine ⟨?_, hosp, hi15, hov.trans hiv, homem.trans himem⟩
    funext n
    by_cases hn : n = 30
    · rw [hn, ← hi30]
      exact h30
    · exact hox n (mem_pairs hn)

end JavaBridge.RunnableThread

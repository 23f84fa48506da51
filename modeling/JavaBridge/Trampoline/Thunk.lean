import JavaBridge.Trampoline.Capture

/-!
# Running the closure thunk

The thunk from its first instruction to its `ret`. The compiled dispatcher is a parameter: a function
on the machine state that follows the AAPCS64 and does to the frame it is given what
`dispatch_closure_invocation` says (`CompiledDispatcher`). The code is run as it was written: that it
may not fit the page it is written to is no matter here, but in `CodeSize`.

Main results:

* `enterFrame_spec`: the header of the frame and the saved frame record.
* `leaveFrame_spec`: the return register, the frame record and the stack pointer on return.
* `thunk_refines`: the dispatcher finds the env, the target and exactly the arguments of the call,
  and the caller finds what it returned.
-/

universe u

namespace JavaBridge.Trampoline

open Arm64

variable {θ : Type u}

/-! ## The surroundings -/

/-- A JNI call of the method: its arguments lie by the convention, and the stack has room below for
the frame record and the invocation frame. -/
structure JniCall (frameSize : Nat) (tys : List JavaType) (args : List (JavaValue RawJavaObject))
    (s : State) : Prop where
  placed : Placed s s.sp [] tys args
  room : frameSize + 16 < s.sp.toNat

/-- `dispatch_closure_invocation` as machine code that follows the AAPCS64, called on a frame of
`frameSize` bytes at the bottom of the stack. -/
structure CompiledDispatcher (θ : Type u) (states : BitVec 64 → ClosureReplacementState)
    (frameSize : Nat) where
  address : BitVec 64
  call : State → State
  sp : ∀ t, (call t).sp = t.sp
  calleeSaved : ∀ t (n : Fin 31), 19 ≤ n.val → n.val ≤ 28 → (call t).x n = t.x n
  vectorSaved : ∀ t (n : Fin 32), 8 ≤ n.val → n.val ≤ 15 → (call t).v n = t.v n
  /-- It leaves the frame record above the frame alone. -/
  frameRecord : ∀ t, t.x 0 = t.sp → ∀ i, i = frameSize ∨ i = frameSize + 8 →
    (call t).mem.word (t.sp + BitVec.ofNat 64 i) = t.mem.word (t.sp + BitVec.ofNat 64 i)
  /-- It leaves in `return_value` what the dispatcher returns. -/
  returns : ∀ t, t.x 0 = t.sp → ∀ value,
    dispatchClosureInvocation (θ := θ) states t.mem (t.x 0) = some value →
    (call t).mem.load (t.x 0 + BitVec.ofNat 64 (frameOffset .returnValue)) (returnBytes value) =
      returnBits value

/-- The register that a value of the type is returned in. -/
def returnRegister : JavaType → Reg
  | .float | .double => .d 0
  | _ => .x 0

/-! ## Entering -/

/-- The header of a frame at `base` and the frame record above it, for a call made in `s`. -/
structure Header (frameSize : Nat) (state : BitVec 64) (count : Nat) (base : BitVec 64)
    (s : State) (mem : ByteMemory) : Prop where
  state : frameWord mem base .state = state
  env : frameWord mem base .env = s.x 0
  target : frameWord mem base .target = s.x 1
  arguments : frameWord mem base .arguments = base + BitVec.ofNat 64 closureArgumentsOffset
  argumentCount : frameWord mem base .argumentCount = BitVec.ofNat 64 count
  fp : mem.word (base + BitVec.ofNat 64 frameSize) = s.x 29
  lr : mem.word (base + BitVec.ofNat 64 (frameSize + 8)) = s.x 30

/-- On the way from `s` to `t` the frame was allocated at `base` and its header filled. -/
structure Entered (frameSize : Nat) (state : BitVec 64) (count : Nat) (base : BitVec 64)
    (s t : State) : Prop where
  sp : t.sp = base
  x : ∀ n, n ≠ 16 → t.x n = s.x n
  v : t.v = s.v
  header : Header frameSize state count base s t.mem
  above : ∀ i n, frameSize + 16 + i + n ≤ 2 ^ 64 →
    t.mem.load (base + BitVec.ofNat 64 (frameSize + 16 + i)) n =
      s.mem.load (base + BitVec.ofNat 64 (frameSize + 16 + i)) n

/-- The captures leave the header and the frame record alone. -/
theorem Header.writes {frameSize : Nat} {state : BitVec 64} {count : Nat} {s t u : State}
    (h : Header frameSize state count t.sp s t.mem)
    (hwrites : Writes closureArgumentsOffset frameSize t u)
    (hframe : frameSize ≤ MAX_INVOCATION_FRAME_SIZE) :
    Header frameSize state count t.sp s u.mem := by
  rw [closureArgumentsOffset] at hwrites
  rw [MAX_INVOCATION_FRAME_SIZE] at hframe
  have hfield : ∀ field, frameWord u.mem t.sp field = frameWord t.mem t.sp field := fun field ↦
    hwrites.word (i := frameOffset field) (by cases field <;> decide)
      (.inl (by cases field <;> decide))
  have hrecord : ∀ i, i = frameSize ∨ i = frameSize + 8 →
      u.mem.word (t.sp + BitVec.ofNat 64 i) = t.mem.word (t.sp + BitVec.ofNat 64 i) := fun i hi ↦
    hwrites.word (by omega) (.inr (by omega))
  exact ⟨(hfield _).trans h.state, (hfield _).trans h.env, (hfield _).trans h.target,
    (hfield _).trans h.arguments, (hfield _).trans h.argumentCount,
    (hrecord _ (.inl rfl)).trans h.fp, (hrecord _ (.inr rfl)).trans h.lr⟩

theorem Writes.storeImmediate (s : State) (value : BitVec 64) {slot : Nat}
    (h : slot + 8 ≤ 2 ^ 64) :
    Writes slot (slot + 8) s (Instr.exec (storeImmediate value slot) s) :=
  (Writes.scratch slot (slot + 8) s value).trans (Writes.storeRegister _ (.x 16) h)

theorem word_storeRegister (s : State) (n : Fin 31) (slot : Nat) :
    (Instr.exec (storeRegister (.x n) slot) s).mem.word (s.sp + BitVec.ofNat 64 slot) = s.x n :=
  ByteMemory.word_store ..

theorem word_storeImmediate (s : State) (value : BitVec 64) (slot : Nat) :
    (Instr.exec (storeImmediate value slot) s).mem.word (s.sp + BitVec.ofNat 64 slot) = value :=
  word_storeRegister (s.set (.x 16) value) 16 slot

/-- The frame record is pushed and the frame allocated. -/
theorem allocate_spec {frameSize : Nat} (hframe : frameSize ≤ MAX_INVOCATION_FRAME_SIZE)
    {base : BitVec 64} {s : State} (hbase : s.sp = base + BitVec.ofNat 64 (frameSize + 16)) :
    let t := Instr.exec [.push .fp .lr, .subImm .sp .sp frameSize] s
    t.sp = base ∧ t.x = s.x ∧ t.v = s.v ∧
      t.mem.word (base + BitVec.ofNat 64 frameSize) = s.x 29 ∧
      t.mem.word (base + BitVec.ofNat 64 (frameSize + 8)) = s.x 30 ∧
      ∀ i n, frameSize + 16 + i + n ≤ 2 ^ 64 →
        t.mem.load (base + BitVec.ofNat 64 (frameSize + 16 + i)) n =
          s.mem.load (base + BitVec.ofNat 64 (frameSize + 16 + i)) n := by
  rw [MAX_INVOCATION_FRAME_SIZE] at hframe
  have hrecord : s.sp - 16 = base + BitVec.ofNat 64 frameSize := by
    rw [hbase, BitVec.ofNat_add, ← BitVec.add_assoc]
    exact BitVec.add_sub_cancel _ _
  have hsecond : base + BitVec.ofNat 64 frameSize + 8 = base + BitVec.ofNat 64 (frameSize + 8) := by
    rw [BitVec.ofNat_add, ← BitVec.add_assoc]
    rfl
  intro t
  have hmem : t.mem = (s.mem.store (base + BitVec.ofNat 64 frameSize) 8 (s.x 29).toNat).store
      (base + BitVec.ofNat 64 (frameSize + 8)) 8 (s.x 30).toNat := by
    rw [← hsecond, ← hrecord]
    rfl
  refine ⟨?_, rfl, rfl, ?_, ?_, ?_⟩
  · show s.sp - 16 - BitVec.ofNat 64 frameSize = base
    rw [hrecord, BitVec.add_sub_cancel]
  · rw [hmem, ByteMemory.word, ByteMemory.load_store_of_apart _ _
      (ByteMemory.apart_add base (by omega) (by omega) (.inr (by omega)))]
    exact ByteMemory.word_store ..
  · rw [hmem]
    exact ByteMemory.word_store ..
  · intro i n hi
    rw [hmem, ByteMemory.load_store_of_apart _ _
        (ByteMemory.apart_add base (by omega) hi (.inl (by omega))),
      ByteMemory.load_store_of_apart _ _
        (ByteMemory.apart_add base (by omega) hi (.inl (by omega)))]

theorem enterFrame_spec {frameSize : Nat} (hle : closureArgumentsOffset ≤ frameSize)
    (hframe : frameSize ≤ MAX_INVOCATION_FRAME_SIZE) (state : BitVec 64) (count : Nat)
    {base : BitVec 64} {s : State} (hbase : s.sp = base + BitVec.ofNat 64 (frameSize + 16)) :
    Entered frameSize state count base s (Instr.exec (enterFrame frameSize state count) s) := by
  rw [closureArgumentsOffset] at hle
  have hsize : frameSize ≤ 4096 := hframe
  obtain ⟨hsp, hx, hv, hfp, hlr, habove⟩ := allocate_spec hframe hbase
  let a := Instr.exec [.push .fp .lr, .subImm .sp .sp frameSize] s
  -- one block for each field, the lowest first
  let b₁ := Instr.exec (storeImmediate state 0) a
  let b₂ := Instr.exec (storeRegister (.x 0) 8) b₁
  let b₃ := Instr.exec (storeRegister (.x 1) 16) b₂
  let c := b₃.set (.x 16) (b₃.sp + BitVec.ofNat 64 closureArgumentsOffset)
  let b₄ := Instr.exec (storeRegister (.x 16) 24) c
  let b₅ := Instr.exec (storeImmediate (BitVec.ofNat 64 count) 32) b₄
  have hexec : Instr.exec (enterFrame frameSize state count) s = b₅ := rfl
  have h₁ : Writes 0 8 a b₁ := Writes.storeImmediate a state (by decide)
  have h₂ : Writes 8 16 b₁ b₂ := Writes.storeRegister b₁ (.x 0) (by decide)
  have h₃ : Writes 16 24 b₂ b₃ := Writes.storeRegister b₂ (.x 1) (by decide)
  have h₄ : Writes 24 32 b₃ b₄ :=
    (Writes.scratch 24 32 b₃ _).trans (Writes.storeRegister _ (.x 16) (by decide))
  have h₅ : Writes 32 40 b₄ b₅ := Writes.storeImmediate b₄ _ (by decide)
  have h₃₅ : Writes 24 40 b₃ b₅ :=
    (h₄.mono (by decide) (by decide)).trans (h₅.mono (by decide) (by decide))
  have h₂₅ : Writes 16 40 b₂ b₅ :=
    (h₃.mono (by decide) (by decide)).trans (h₃₅.mono (by decide) (by decide))
  have h₁₅ : Writes 8 40 b₁ b₅ :=
    (h₂.mono (by decide) (by decide)).trans (h₂₅.mono (by decide) (by decide))
  have h : Writes 0 40 a b₅ :=
    (h₁.mono (by decide) (by decide)).trans (h₁₅.mono (by decide) (by decide))
  have hb₁ : b₁.sp = base := h₁.sp.trans hsp
  have hb₂ : b₂.sp = base := h₂.sp.trans hb₁
  have hb₃ : b₃.sp = base := h₃.sp.trans hb₂
  have hb₄ : b₄.sp = base := h₄.sp.trans hb₃
  rw [hexec]
  refine ⟨h.sp.trans hsp, fun n hn ↦ by rw [h.x n hn, hx], by rw [h.v, hv], ?header, ?above⟩
  case header =>
    constructor
    case state =>
      have hword := h₁₅.word (i := 0) (by decide) (.inl (by decide))
      rw [hb₁] at hword
      exact hword.trans (hsp ▸ word_storeImmediate a state 0)
    case env =>
      have hword := h₂₅.word (i := 8) (by decide) (.inl (by decide))
      rw [hb₂] at hword
      refine hword.trans ((hb₁ ▸ word_storeRegister b₁ 0 8).trans ?_)
      rw [h₁.x 0 (by decide), hx]
    case target =>
      have hword := h₃₅.word (i := 16) (by decide) (.inl (by decide))
      rw [hb₃] at hword
      refine hword.trans ((hb₂ ▸ word_storeRegister b₂ 1 16).trans ?_)
      rw [h₂.x 1 (by decide), h₁.x 1 (by decide), hx]
    case arguments =>
      have hword := h₅.word (i := 24) (by decide) (.inl (by decide))
      rw [hb₄] at hword
      have hc : c.sp = base := (State.set_x_sp b₃ 16 _).trans hb₃
      have hcx : c.x 16 = base + BitVec.ofNat 64 closureArgumentsOffset := by
        rw [State.set_x_x, if_pos rfl, hb₃]
      have hstored := word_storeRegister c 16 24
      rw [hc, hcx] at hstored
      exact hword.trans hstored
    case argumentCount => exact hb₄ ▸ word_storeImmediate b₄ _ 32
    case fp =>
      have hword := h.word (i := frameSize) (by omega) (.inr (by omega))
      rw [show a.sp = base from hsp] at hword
      exact hword.trans hfp
    case lr =>
      have hword := h.word (i := frameSize + 8) (by omega) (.inr (by omega))
      rw [show a.sp = base from hsp] at hword
      exact hword.trans hlr
  case above =>
    intro i n hi
    have hload := h.load (frameSize + 16 + i) n hi (.inr (by omega))
    rw [show a.sp = base from hsp] at hload
    exact hload.trans (habove i n hi)

/-! ## Leaving -/

theorem toNat_setWidth_low {n : Nat} (h : n < 256 ^ 4) :
    (((BitVec.ofNat 64 n).setWidth 32).setWidth 64).toNat = n := by
  rw [BitVec.toNat_setWidth, BitVec.toNat_setWidth, BitVec.toNat_ofNat]
  omega

/-- The return register holds the low bytes of the return value, and only it is written. -/
theorem loadReturnValue_spec (ty : JavaType) {base : BitVec 64} {s : State} (hsp : s.sp = base)
    (offset : Nat) :
    let t := Instr.exec (loadReturnValue (ClosureValueLayout.forType ty) offset) s
    t.sp = base ∧ t.mem = s.mem ∧ (∀ n, n ≠ 0 → t.x n = s.x n) ∧ (∀ n, n ≠ 0 → t.v n = s.v n) ∧
      (t.get (returnRegister ty)).toNat % 256 ^ laneBytes ty =
        s.mem.load (base + BitVec.ofNat 64 offset) (laneBytes ty) := by
  subst hsp
  let a := s.sp + BitVec.ofNat 64 offset
  have hx : ∀ (value : BitVec 64) (n : Fin 31), n ≠ 0 → Function.update s.x 0 value n = s.x n :=
    fun value n hn ↦ Function.update_of_ne hn ..
  have hv : ∀ (value : BitVec 64) (n : Fin 32), n ≠ 0 → Function.update s.v 0 value n = s.v n :=
    fun value n hn ↦ Function.update_of_ne hn ..
  have hlow : ∀ k, k ≤ 4 →
      (((BitVec.ofNat 64 (s.mem.load a 4)).setWidth 32).setWidth 64).toNat % 256 ^ k =
        s.mem.load a k := by
    intro k hk
    rw [toNat_setWidth_low (s.mem.load_lt a 4), s.mem.load_mod a hk]
  have hwhole : ∀ k, k ≤ 8 →
      (BitVec.ofNat 64 (s.mem.load a 8)).toNat % 256 ^ k = s.mem.load a k := by
    intro k hk
    show (s.mem.word a).toNat % 256 ^ k = _
    rw [s.mem.word_toNat, s.mem.load_mod a hk]
  cases ty with
  | void => exact ⟨rfl, rfl, fun _ _ ↦ rfl, fun _ _ ↦ rfl, Nat.mod_one _⟩
  | boolean | byte => exact ⟨rfl, rfl, hx _, fun _ _ ↦ rfl, hlow 1 (by decide)⟩
  | char | short => exact ⟨rfl, rfl, hx _, fun _ _ ↦ rfl, hlow 2 (by decide)⟩
  | int => exact ⟨rfl, rfl, hx _, fun _ _ ↦ rfl, hlow 4 (by decide)⟩
  | long | object | array => exact ⟨rfl, rfl, hx _, fun _ _ ↦ rfl, hwhole 8 (by decide)⟩
  | float => exact ⟨rfl, rfl, fun _ _ ↦ rfl, hv _, hlow 4 (by decide)⟩
  | double => exact ⟨rfl, rfl, fun _ _ ↦ rfl, hv _, hwhole 8 (by decide)⟩

/-- From the return of the call on. -/
theorem leaveFrame_spec (frameSize : Nat) (ty : JavaType) {base : BitVec 64} {s : State}
    (hsp : s.sp = base) :
    let t := Instr.exec (leaveFrame frameSize (ClosureValueLayout.forType ty)) s
    t.sp = base + BitVec.ofNat 64 (frameSize + 16) ∧
      t.x 29 = s.mem.word (base + BitVec.ofNat 64 frameSize) ∧
      t.x 30 = s.mem.word (base + BitVec.ofNat 64 (frameSize + 8)) ∧
      (∀ n : Fin 31, 19 ≤ n.val → n.val ≤ 28 → t.x n = s.x n) ∧
      (∀ n, n ≠ 0 → t.v n = s.v n) ∧
      (t.get (returnRegister ty)).toNat % 256 ^ laneBytes ty =
        s.mem.load (base + BitVec.ofNat 64 (frameOffset .returnValue)) (laneBytes ty) := by
  obtain ⟨hbase, hmem, hx, hv, hreturn⟩ := loadReturnValue_spec ty hsp (frameOffset .returnValue)
  simp only [leaveFrame, Instr.exec_append]
  generalize Instr.exec (loadReturnValue (ClosureValueLayout.forType ty)
    (frameOffset .returnValue)) s = a at hbase hmem hx hv hreturn
  have hsecond : a.sp + BitVec.ofNat 64 frameSize + 8 =
      base + BitVec.ofNat 64 (frameSize + 8) := by
    rw [hbase, BitVec.ofNat_add, ← BitVec.add_assoc]
    rfl
  have hpopped : ∀ n : Fin 31,
      (Instr.exec [.addImm .sp .sp frameSize, .pop .fp .lr] a).x n =
        if n = 30 then a.mem.word (a.sp + BitVec.ofNat 64 frameSize + 8)
        else if n = 29 then a.mem.word (a.sp + BitVec.ofNat 64 frameSize) else a.x n :=
    fun n ↦ Instr.effect_pop_x (a.set .sp (a.sp + BitVec.ofNat 64 frameSize)) 29 30 n
  refine ⟨?_, ?_, ?_, fun n hlo hhi ↦ ?_, hv, ?_⟩
  · show a.sp + BitVec.ofNat 64 frameSize + 16 = _
    rw [hbase, BitVec.ofNat_add, ← BitVec.add_assoc]
    rfl
  · rw [hpopped, if_neg (by decide), if_pos rfl, hmem, hbase]
  · rw [hpopped, if_pos rfl, hmem, hsecond]
  · have h30 : n ≠ 30 := fun h ↦ absurd (h ▸ hhi) (by decide)
    have h29 : n ≠ 29 := fun h ↦ absurd (h ▸ hhi) (by decide)
    have h0 : n ≠ 0 := fun h ↦ absurd (h ▸ hlo) (by decide)
    rw [hpopped, if_neg h30, if_neg h29, hx n h0]
  · rw [← hreturn]
    cases ty <;> rfl

/-! ## The whole thunk -/

theorem returnBits_lt {value : RawJavaReturn (BitVec 64)} {ty : JavaType}
    (h : value.matchesType ty = true) : returnBits value < 256 ^ laneBytes ty := by
  cases value <;> cases ty <;> first | exact Bool.noConfusion h | exact Nat.one_pos | exact BitVec.isLt _

section Thunk

variable {states : BitVec 64 → ClosureReplacementState} {frameSize : Nat}
  (dispatcher : CompiledDispatcher θ states frameSize) (code : List Instr)

/-- The thunk's only callee is the dispatcher. -/
def runThunk (fuel pc : Nat) (s : State) : Option Exit :=
  Arm64.run (fun target t ↦ if target = dispatcher.address then dispatcher.call t else t) code fuel
    pc s

/-- Started in `s`, the thunk calls the dispatcher in `t` on a frame that reads as the call. -/
structure Calls (state : BitVec 64) (args : List (JavaValue RawJavaObject)) (s t : State) :
    Prop where
  reached : ∃ fuel pc, runThunk dispatcher code code.length 0 s =
      runThunk dispatcher code (fuel + 1) pc t ∧ code[pc]? = some (.blr (.x 16))
  target : t.x 16 = dispatcher.address
  frame : t.x 0 = t.sp
  contents : readFrame states t.mem (t.x 0) = (⟨state, s.x 0, s.x 1, .ok args⟩ : FrameContents θ)

/-- Started in `s`, the thunk returns to its caller as the AAPCS64 asks, with the return value that
the call in `t` left in the return register of `ty`. -/
structure Returns (ty : JavaType) (s t : State) (e : Exit) : Prop where
  run : runThunk dispatcher code code.length 0 s = some e
  target : e.target = s.x 30
  sp : e.state.sp = s.sp
  fp : e.state.x 29 = s.x 29
  calleeSaved : ∀ n : Fin 31, 19 ≤ n.val → n.val ≤ 28 → e.state.x n = s.x n
  vectorSaved : ∀ n : Fin 32, 8 ≤ n.val → n.val ≤ 15 → e.state.v n = s.v n
  value : (e.state.get (returnRegister ty)).toNat % 256 ^ laneBytes ty =
    (dispatcher.call t).mem.load (t.x 0 + BitVec.ofNat 64 (frameOffset .returnValue))
      (laneBytes ty)

end Thunk

theorem straight_enterFrame (frameSize : Nat) (state : BitVec 64) (count : Nat) :
    ∀ i ∈ enterFrame frameSize state count, i.straight = true :=
  List.all_eq_true.mp rfl

theorem straight_passFrame (dispatcher : BitVec 64) :
    ∀ i ∈ passFrame dispatcher, i.straight = true :=
  List.all_eq_true.mp rfl

theorem straight_leaveFrame (frameSize : Nat) (ty : JavaType) :
    ∀ i ∈ leaveFrame frameSize (ClosureValueLayout.forType ty), i.straight = true := by
  cases ty <;> exact List.all_eq_true.mp rfl

/-- What the entry pushed and filled lies below the caller's stack arguments. -/
theorem Entered.contentAt_eq {frameSize : Nat} {state : BitVec 64} {count : Nat} {base : BitVec 64}
    {s t : State} (h : Entered frameSize state count base s t)
    (hframe : frameSize ≤ MAX_INVOCATION_FRAME_SIZE)
    (hbase : s.sp = base + BitVec.ofNat 64 (frameSize + 16)) (earlier : List JavaType)
    (cls : ClosureRegisterClass) (hearlier : earlier.length ≤ 506) :
    contentAt t (t.sp + BitVec.ofNat 64 (frameSize + 16)) (jniPlace earlier cls) =
      contentAt s s.sp (jniPlace earlier cls) := by
  rw [MAX_INVOCATION_FRAME_SIZE] at hframe
  rcases jniPlace_cases earlier cls with
    ⟨n, -, hn, -, hplace⟩ | ⟨n, -, -, hplace⟩ | hplace
  · rw [hplace, contentAt, h.x _ (fin_ofNat_ne hn), contentAt]
  · rw [hplace, contentAt, h.v, contentAt]
  · have hspilled := spilled_le earlier
    rw [hplace, contentAt, contentAt, h.sp, hbase, BitVec.add_assoc, ← BitVec.ofNat_add,
      h.above _ 8 (by omega)]

/-- The thunk up to the call: a JNI call of the method is handed to the dispatcher. -/
theorem entry_spec {frameSize : Nat} {tys : List JavaType}
    {args : List (JavaValue RawJavaObject)} {s : State} (hcall : JniCall frameSize tys args s)
    (htys : JavaType.void ∉ tys) (hlength : tys.length ≤ 506)
    (hsize : closureArgumentsOffset + 8 * tys.length ≤ frameSize)
    (hframe : frameSize ≤ MAX_INVOCATION_FRAME_SIZE) (state address : BitVec 64) :
    ∃ blocks, captureArguments frameSize 0 (jniLayout [] tys) = some blocks ∧
      (∀ i ∈ blocks, i.straight = true) ∧
      ∃ base t, t = Instr.exec (enterFrame frameSize state tys.length ++ blocks ++
          passFrame address) s ∧
        s.sp = base + BitVec.ofNat 64 (frameSize + 16) ∧ t.sp = base ∧ t.x 0 = base ∧
        t.x 16 = address ∧ (∀ n, n ≠ 0 → n ≠ 16 → t.x n = s.x n) ∧ t.v = s.v ∧
        Header frameSize state tys.length base s t.mem ∧
        CarryAll tys args
          (jvaluesAt t.mem (base + BitVec.ofNat 64 closureArgumentsOffset) tys.length) := by
  obtain ⟨blocks, hblocks, hstraight, hspec⟩ := captureArguments_spec hframe htys 0 []
    (by omega) (by rw [List.length_nil]; omega)
  let base := s.sp - BitVec.ofNat 64 (frameSize + 16)
  have hbase : s.sp = base + BitVec.ofNat 64 (frameSize + 16) :=
    (BitVec.sub_add_cancel _ _).symm
  have hentered := enterFrame_spec (Nat.le_trans (Nat.le_add_right ..) hsize) hframe state
    tys.length hbase
  obtain ⟨hwrites, hcarry⟩ := hspec (Instr.exec (enterFrame frameSize state tys.length) s)
  refine ⟨blocks, hblocks, hstraight, base, _, rfl, hbase, ?_⟩
  simp only [Instr.exec_append]
  generalize Instr.exec (enterFrame frameSize state tys.length) s = a at hentered hwrites hcarry ⊢
  have hplaced : Placed a (a.sp + BitVec.ofNat 64 (frameSize + 16)) [] tys args :=
    hcall.placed.congr (hentered.contentAt_eq hframe hbase) (by rw [List.length_nil]; omega)
  have hcarried := hcarry args hplaced
  have hheader := hentered.header
  rw [← hentered.sp] at hheader
  have hkept := hheader.writes hwrites hframe
  generalize Instr.exec blocks a = b at hwrites hcarried hkept ⊢
  have hsp : b.sp = base := hwrites.sp.trans hentered.sp
  rw [hentered.sp] at hkept
  refine ⟨hsp, hsp, rfl, fun n h0 h16 ↦ ?_, hwrites.v.trans hentered.v, hkept, ?_⟩
  · rw [passFrame, Instr.exec_cons, Instr.exec_cons, Instr.exec_nil, Instr.effect, State.set_x_x,
      if_neg h16, Instr.effect, State.set_x_x, if_neg h0, hwrites.x n h16, hentered.x n h16]
  · have hmem : (Instr.exec (passFrame address) b).mem = b.mem := rfl
    rw [hentered.sp] at hcarried
    rw [hmem, jvaluesAt, List.range_eq_range']
    simpa only [BitVec.ofNat_add, BitVec.add_assoc] using hcarried

/-- The dispatcher reads the call off the frame it is handed. -/
theorem readFrame_eq {states : BitVec 64 → ClosureReplacementState} {frameSize : Nat}
    {state base : BitVec 64} {tys : List JavaType} {args : List (JavaValue RawJavaObject)}
    {s : State} {mem : ByteMemory} (hsignature : (states state).signature.arguments = tys)
    (htys : JavaType.void ∉ tys) (hlength : tys.length ≤ 506)
    (harguments : base + BitVec.ofNat 64 closureArgumentsOffset ≠ 0)
    (hheader : Header frameSize state tys.length base s mem)
    (hcarry : CarryAll tys args
      (jvaluesAt mem (base + BitVec.ofNat 64 closureArgumentsOffset) tys.length)) :
    readFrame states mem base = (⟨state, s.x 0, s.x 1, .ok args⟩ : FrameContents θ) := by
  have hcount : (BitVec.ofNat 64 tys.length).toNat = tys.length := by
    rw [BitVec.toNat_ofNat, Nat.mod_eq_of_lt (by omega)]
  rw [readFrame, hheader.state, hheader.env, hheader.target, hheader.arguments,
    hheader.argumentCount, hcount, hsignature]
  simp only [if_neg fun h : _ ∧ _ ↦ harguments h.1,
    closureArgumentsFromJvalues_of_carryAll htys hcarry]

/-- **The thunk captures its arguments and returns what the dispatcher left**: for a signature that
is accepted, a JNI call whose arguments lie by the convention reaches the dispatcher with a frame
that reads as the env, the target and exactly these arguments, and returns to its caller with the
low bytes of `return_value` in the return register, which are the value that the callback's
invocation returned. -/
theorem thunk_refines {kind : MethodKind} {signature : MethodSignature} {operation : String}
    (hvalid : validateClosureReplacementSignature (θ := θ) kind signature operation = .ok ()) :
    ∃ layout frameSize, closureReplacementLayout (θ := θ) kind signature = .ok layout ∧
      closureInvocationFrameSize layout = some frameSize ∧
      ∀ (states : BitVec 64 → ClosureReplacementState) (state : BitVec 64), state ≠ 0 →
        (states state).signature = signature →
        ∀ (dispatcher : CompiledDispatcher θ states frameSize) (s : State)
          (args : List (JavaValue RawJavaObject)), JniCall frameSize signature.arguments args s →
          ∃ code t e, writeClosureTrampoline state dispatcher.address layout = some code ∧
            Calls dispatcher code state args s t ∧
            Returns dispatcher code signature.returnType s t e ∧
            ∀ value, (states state).invoke (s.x 0) (s.x 1) args = value →
              value.matchesType signature.returnType = true →
              (e.state.get (returnRegister signature.returnType)).toNat %
                256 ^ laneBytes signature.returnType = returnBits value := by
  obtain ⟨hreturn, hvoid, hlength⟩ := validateClosureReplacementSignature_eq_ok.mp hvalid
  let layout : ClosureReplacementLayout :=
    ⟨jniLayout [] signature.arguments, ClosureValueLayout.forType signature.returnType⟩
  have hlayout : closureReplacementLayout (θ := θ) kind signature = .ok layout :=
    closureReplacementLayout_eq_ok.mpr ⟨hreturn, hvoid, rfl⟩
  have hcount : layout.arguments.length = signature.arguments.length := length_jniLayout ..
  let frameSize := (48 + layout.arguments.length * 8 + 15) / 16 * 16
  have hframeSize : closureInvocationFrameSize layout = some frameSize :=
    closureInvocationFrameSize_eq_some.mpr ⟨by omega, rfl⟩
  have hsize : closureArgumentsOffset + 8 * signature.arguments.length ≤ frameSize := by
    rw [closureArgumentsOffset]
    omega
  have hframe : frameSize ≤ MAX_INVOCATION_FRAME_SIZE := by
    rw [MAX_INVOCATION_FRAME_SIZE]
    omega
  refine ⟨layout, frameSize, hlayout, hframeSize, ?_⟩
  intro states state hstate hsignature dispatcher s args hcall
  have hroom := hcall.room
  obtain ⟨blocks, hblocks, hstraight, base, t, ht, hbase, hsp, hx0, hx16, hx, hv, hheader, hcarry⟩ :=
    entry_spec hcall hvoid hlength hsize hframe state dispatcher.address
  have hbaseNat : base.toNat + (frameSize + 16) = s.sp.toNat := by
    rw [hbase, BitVec.toNat_add, BitVec.toNat_ofNat] at hroom ⊢
    omega
  have hbaseNe : base ≠ 0 := by
    rintro rfl
    simp at hbaseNat
    omega
  have hargumentsNe : base + BitVec.ofNat 64 closureArgumentsOffset ≠ 0 := by
    intro h
    have hzero := congrArg BitVec.toNat h
    rw [BitVec.toNat_add, closureArgumentsOffset] at hzero
    simp at hzero
    omega
  let entry := enterFrame frameSize state signature.arguments.length ++ blocks ++
    passFrame dispatcher.address
  let exit := leaveFrame frameSize (ClosureValueLayout.forType signature.returnType)
  let code := entry ++ [.blr (.x 16)] ++ exit ++ [.ret]
  have hcode : writeClosureTrampoline state dispatcher.address layout = some code := by
    rw [writeClosureTrampoline, hframeSize, Option.bind_some, hblocks, hcount]
    rfl
  have hentry : ∀ i ∈ entry, i.straight = true := by
    intro i hi
    rcases List.mem_append.mp hi with hi | hi
    · rcases List.mem_append.mp hi with hi | hi
      · exact straight_enterFrame _ _ _ i hi
      · exact hstraight i hi
    · exact straight_passFrame _ i hi
  let callee := fun target t ↦ if target = dispatcher.address then dispatcher.call t else t
  have hexec : Instr.exec entry s = t := ht.symm
  have hcallee : callee (t.get (.x 16)) t = dispatcher.call t := if_pos hx16
  obtain ⟨hreach, hblr, hrun⟩ := @run_around_call callee code entry exit (.x 16) rfl hentry
    (straight_leaveFrame frameSize signature.returnType) s
  rw [hexec] at hreach hrun
  rw [hcallee] at hrun
  have hframeAt : t.x 0 = t.sp := hx0.trans hsp.symm
  have hcontents : readFrame states t.mem (t.x 0) =
      (⟨state, s.x 0, s.x 1, .ok args⟩ : FrameContents θ) := by
    rw [hx0]
    exact readFrame_eq (by rw [hsignature]) hvoid hlength hargumentsNe hheader hcarry
  -- the dispatcher leaves the frame record alone
  have hrecord := dispatcher.frameRecord t hframeAt
  rw [hsp] at hrecord
  obtain ⟨hlsp, hl29, hl30, hlx, hlv, hlvalue⟩ := leaveFrame_spec frameSize
    signature.returnType ((dispatcher.sp t).trans hsp)
  refine ⟨code, t, _, hcode, ⟨⟨_, _, hreach, hblr⟩, hx16, hframeAt, hcontents⟩,
    ⟨hreach.trans hrun, ?target, ?sp, ?fp, ?calleeSaved, ?vectorSaved, ?value⟩, ?_⟩
  case target => exact hl30.trans ((hrecord _ (.inr rfl)).trans hheader.lr)
  case sp => exact hlsp.trans hbase.symm
  case fp => exact hl29.trans ((hrecord _ (.inl rfl)).trans hheader.fp)
  case calleeSaved =>
    intro n hlo hhi
    have h0 : n ≠ 0 := fun h ↦ absurd (h ▸ hlo) (by decide)
    have h16 : n ≠ 16 := fun h ↦ absurd (h ▸ hlo) (by decide)
    exact (hlx n hlo hhi).trans ((dispatcher.calleeSaved t n hlo hhi).trans (hx n h0 h16))
  case vectorSaved =>
    intro n hlo hhi
    have h0 : n ≠ 0 := fun h ↦ absurd (h ▸ hlo) (by decide)
    exact (hlv n h0).trans ((dispatcher.vectorSaved t n hlo hhi).trans (congrFun hv n))
  case value => rw [hx0]; exact hlvalue
  · intro value hvalue hmatches
    have hstateField : frameWord t.mem (t.x 0) .state ≠ 0 := by
      rw [hx0, hheader.state]
      exact hstate
    have hdispatch : dispatchClosureInvocation (θ := θ) states t.mem (t.x 0) = some value := by
      rw [dispatchClosureInvocation, if_neg (hx0.trans_ne hbaseNe), if_neg hstateField]
      simp only [hcontents, hvalue]
    have hbits := dispatcher.returns t hframeAt value hdispatch
    rw [hx0] at hbits
    refine hlvalue.trans ?_
    rw [← ByteMemory.load_mod _ _ (laneBytes_le_returnBytes hmatches), hbits,
      Nat.mod_eq_of_lt (returnBits_lt hmatches)]

/-! ## A call with spilled arguments -/

theorem returnBits_lt_returnBytes (value : RawJavaReturn (BitVec 64)) :
    returnBits value < 256 ^ returnBytes value := by
  cases value <;> first | exact BitVec.isLt _ | exact Nat.pos_of_ne_zero (by decide)

/-- The frame record is not where the return value is. -/
theorem word_store_returnValue {frameSize i : Nat} {t : State}
    (hle : closureArgumentsOffset ≤ frameSize) (hframe : frameSize ≤ MAX_INVOCATION_FRAME_SIZE)
    (hx : t.x 0 = t.sp) (hi : i = frameSize ∨ i = frameSize + 8) (value : BitVec 64) :
    (t.store (t.x 0 + BitVec.ofNat 64 (frameOffset .returnValue)) 8 value).mem.word
        (t.sp + BitVec.ofNat 64 i) = t.mem.word (t.sp + BitVec.ofNat 64 i) := by
  rw [closureArgumentsOffset] at hle
  rw [MAX_INVOCATION_FRAME_SIZE] at hframe
  rw [State.store_mem, hx, ByteMemory.word, ByteMemory.load_store_of_apart, ByteMemory.word]
  exact ByteMemory.apart_add t.sp (by decide) (by omega) (.inl (by rw [frameOffset]; omega))

/-- A return value is read back as it was stored. -/
theorem load_store_returnBits (t : State) (a : BitVec 64) (value : RawJavaReturn (BitVec 64)) :
    (t.store a 8 (BitVec.ofNat 64 (returnBits value))).mem.load a (returnBytes value) =
      returnBits value := by
  have hbytes : returnBytes value ≤ 8 := by cases value <;> simp [returnBytes]
  have hlt := returnBits_lt_returnBytes value
  have hpow : 256 ^ returnBytes value ≤ 2 ^ 64 :=
    Nat.pow_le_pow_right (n := 256) (by decide) hbytes
  rw [State.store_mem, ByteMemory.load_store_prefix _ _ _ (by decide) hbytes, BitVec.toNat_ofNat,
    Nat.mod_eq_of_lt (Nat.lt_of_lt_of_le hlt hpow), Nat.mod_eq_of_lt hlt]

/-- A dispatcher that does nothing but what its frame asks for. -/
def CompiledDispatcher.plain (θ : Type u) (states : BitVec 64 → ClosureReplacementState)
    {frameSize : Nat} (hle : closureArgumentsOffset ≤ frameSize)
    (hframe : frameSize ≤ MAX_INVOCATION_FRAME_SIZE) : CompiledDispatcher θ states frameSize where
  address := 0x5000
  call t :=
    match dispatchClosureInvocation (θ := θ) states t.mem (t.x 0) with
    | none => t
    | some value =>
      t.store (t.x 0 + BitVec.ofNat 64 (frameOffset .returnValue)) 8
        (BitVec.ofNat 64 (returnBits value))
  sp t := by split <;> rfl
  calleeSaved t n _ _ := by split <;> rfl
  vectorSaved t n _ _ := by split <;> rfl
  frameRecord t hx i hi := by
    split
    · rfl
    · exact word_store_returnValue hle hframe hx hi _
  returns t _ value hvalue := by
    rw [hvalue]
    exact load_store_returnBits t _ value

/-- `(IZDLjava/lang/Object;JJJI)I`: six general arguments and one in `v0` before one on the stack. -/
def mixedSignature : MethodSignature where
  arguments := [.int, .boolean, .double, .object "java/lang/Object", .long, .long, .long, .int]
  returnType := .int

def mixedArgs : List (JavaValue RawJavaObject) :=
  [.int 7, .boolean true, .double 0x3ff0000000000000, .null, .long 1, .long 2, .long 3, .int 42]

/-- The upper bytes of `x2`, `x3` and the stack slot hold what the caller left there. -/
def mixedCall : State where
  x n := match n.val with
    | 0 => 0x100
    | 1 => 0x200
    | 2 => 0xabcd00000007
    | 3 => 0xff01
    | 5 => 1
    | 6 => 2
    | 7 => 3
    | _ => 0
  sp := 0x100000
  v n := if n = 0 then 0x3ff0000000000000 else 0
  equal := false
  mem := ByteMemory.store (fun _ ↦ 0) 0x100000 8 0xee0000002a

def mixedStates : BitVec 64 → ClosureReplacementState :=
  fun _ ↦ ⟨mixedSignature, fun _ _ args ↦ .int (BitVec.ofNat 32 args.length)⟩

theorem thunk_refines_mixed :
    ∃ (frameSize : Nat) (dispatcher : CompiledDispatcher Unit mixedStates frameSize)
      (code : List Instr) (t : State) (e : Exit),
      Calls dispatcher code 0x7000 mixedArgs mixedCall t ∧
        Returns dispatcher code .int mixedCall t e ∧
          (e.state.get (.x 0)).toNat % 256 ^ 4 = 8 := by
  obtain ⟨layout, frameSize, hlayout, hsize, h⟩ := @thunk_refines Unit .staticMethod
    mixedSignature "test" (validateClosureReplacementSignature_eq_ok.mpr (by decide))
  obtain ⟨-, -, rfl⟩ := closureReplacementLayout_eq_ok.mp hlayout
  obtain ⟨-, rfl⟩ := closureInvocationFrameSize_eq_some.mp hsize
  obtain ⟨code, t, e, -, hcalls, hreturns, hvalue⟩ := h mixedStates 0x7000 (by decide) rfl
    (CompiledDispatcher.plain Unit mixedStates (by decide) (by decide)) mixedCall mixedArgs
    ⟨by decide, by decide⟩
  exact ⟨_, _, code, t, e, hcalls, hreturns, hvalue _ rfl rfl⟩

end JavaBridge.Trampoline

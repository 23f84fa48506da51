import JavaBridge.Trampoline.Writer

/-!
# The thunk captures its arguments

A hooked method's clone calls the thunk as a JNI function: `x0` holds the env, `x1` the class or the
receiver, and the arguments lie where `jniPlace` says. A register or a stack slot holds a value in
as many low bytes as its lane has; what lies above them is left open (`Placed`).

Main results:

* `captureArguments_spec`: the capture blocks copy every argument into its slot and write nothing
  else.
* `Writes`: the frame condition that carries the proof. A block writes `x16` and the part of the
  stack frame between two offsets.
-/

universe u

namespace JavaBridge.Trampoline

open Arm64

variable {θ : Type u}

/-! ## The convention's state -/

/-- What lies at a location, on entry with the stack arguments at `stack`. -/
def contentAt (s : State) (stack : BitVec 64) : ClosureArgumentLocation → Nat
  | .generalRegister register => (s.x (Fin.ofNat 31 register)).toNat
  | .floatRegister register => (s.v (Fin.ofNat 32 register)).toNat
  | .stack offset => s.mem.load (stack + BitVec.ofNat 64 offset) 8

/-- The values lie where the convention places arguments of their types behind `earlier`. -/
def Placed (s : State) (stack : BitVec 64) :
    List JavaType → List JavaType → List (JavaValue RawJavaObject) → Prop
  | _, [], [] => True
  | earlier, ty :: tys, v :: vs =>
    (v.matchesType ty = true ∧
      contentAt s stack (jniPlace earlier (argumentClass ty)) % 256 ^ laneBytes ty = valueBits v) ∧
      Placed s stack (earlier ++ [ty]) tys vs
  | _, _, _ => False

instance decidablePlaced (s : State) (stack : BitVec 64) :
    ∀ earlier tys vs, Decidable (Placed s stack earlier tys vs)
  | _, [], [] => isTrue trivial
  | earlier, ty :: tys, _ :: vs =>
    have := decidablePlaced s stack (earlier ++ [ty]) tys vs
    inferInstanceAs (Decidable ((_ ∧ _) ∧ _))
  | _, [], _ :: _ => isFalse id
  | _, _ :: _, [] => isFalse id

theorem spilled_le (tys : List JavaType) : spilled tys ≤ 2 * tys.length := by
  have hgeneral : classCount .general tys ≤ tys.length := List.countP_le_length
  have hfloat : classCount .float tys ≤ tys.length := List.countP_le_length
  rw [spilled]
  omega

/-! ## What a block writes -/

/-- From `s` to `t` only `x16` and the frame between the offsets `lo` and `hi` are written. -/
structure Writes (lo hi : Nat) (s t : State) : Prop where
  sp : t.sp = s.sp
  x : ∀ n, n ≠ 16 → t.x n = s.x n
  v : t.v = s.v
  load : ∀ i n, i + n ≤ 2 ^ 64 → i + n ≤ lo ∨ hi ≤ i →
    t.mem.load (s.sp + BitVec.ofNat 64 i) n = s.mem.load (s.sp + BitVec.ofNat 64 i) n

namespace Writes

variable {lo hi : Nat} {s t u : State}

theorem mono (h : Writes lo hi s t) {lo' hi' : Nat} (hlo : lo' ≤ lo) (hhi : hi ≤ hi') :
    Writes lo' hi' s t :=
  ⟨h.sp, h.x, h.v, fun i n hi hn ↦ h.load i n hi (hn.imp (Nat.le_trans · hlo) (Nat.le_trans hhi))⟩

theorem trans (h : Writes lo hi s t) (h' : Writes lo hi t u) : Writes lo hi s u where
  sp := h'.sp.trans h.sp
  x n hn := (h'.x n hn).trans (h.x n hn)
  v := h'.v.trans h.v
  load i n hi hn := by
    have hnext := h'.load i n hi hn
    rw [h.sp] at hnext
    rw [hnext, h.load i n hi hn]

theorem word (h : Writes lo hi s t) {i : Nat} (hi' : i + 8 ≤ 2 ^ 64) (hn : i + 8 ≤ lo ∨ hi ≤ i) :
    t.mem.word (s.sp + BitVec.ofNat 64 i) = s.mem.word (s.sp + BitVec.ofNat 64 i) := by
  rw [ByteMemory.word, h.load i 8 hi' hn, ByteMemory.word]

/-- A value in `x16` is written nowhere. -/
theorem scratch (lo hi : Nat) (s : State) (value : BitVec 64) :
    Writes lo hi s (s.set (.x 16) value) where
  sp := rfl
  x n hn := (State.set_x_x s 16 n value).trans (if_neg hn)
  v := rfl
  load _ _ _ _ := rfl

theorem storeRegister (s : State) (r : Reg) {slot : Nat} (h : slot + r.bytes ≤ 2 ^ 64) :
    Writes slot (slot + r.bytes) s (Instr.exec (storeRegister r slot) s) where
  sp := rfl
  x _ _ := rfl
  v := rfl
  load i n hi hn := by
    apply ByteMemory.load_store_of_apart
    exact ByteMemory.apart_add s.sp h hi (hn.symm.imp id id)

end Writes

/-- The low bytes of a stored register. -/
theorem load_storeRegister (s : State) (r : Reg) (slot : Nat) {k : Nat} (hk : k ≤ r.bytes)
    (hr : r.bytes ≤ 8) :
    (Instr.exec (storeRegister r slot) s).mem.load (s.sp + BitVec.ofNat 64 slot) k =
      (s.get r).toNat % 256 ^ k :=
  ByteMemory.load_store_prefix s.mem _ _ (by omega) hk

/-! ## One argument -/

theorem fin_ofNat_eq {n register : Nat} [NeZero n] (h : register < n) :
    Fin.ofNat n register = ⟨register, h⟩ := Fin.ext (Nat.mod_eq_of_lt h)

theorem jniPlace_cases (earlier : List JavaType) (cls : ClosureRegisterClass) :
    (∃ n, 2 ≤ n ∧ n < 8 ∧ cls = .general ∧ jniPlace earlier cls = .generalRegister n) ∨
      (∃ n, n < 8 ∧ cls = .float ∧ jniPlace earlier cls = .floatRegister n) ∨
        jniPlace earlier cls = .stack (8 * spilled earlier) := by
  cases cls with
  | general =>
    rw [jniPlace]
    split
    · next h => exact .inl ⟨_, by omega, by omega, rfl, rfl⟩
    · exact .inr (.inr rfl)
  | float =>
    rw [jniPlace]
    split
    · next h => exact .inr (.inl ⟨_, h, rfl, rfl⟩)
    · exact .inr (.inr rfl)

/-- No argument register is the scratch register. -/
theorem fin_ofNat_ne {n : Nat} (h : n < 8) : Fin.ofNat 31 n ≠ 16 := by
  rw [fin_ofNat_eq (n := 31) (by omega)]
  intro he
  have hval : n = 16 := congrArg Fin.val he
  omega

/-- `r` is wide enough for the type's lane and holds what lies at the location. -/
structure RegisterFor (ty : JavaType) (location : ClosureArgumentLocation) (r : Reg) : Prop where
  lane : laneBytes ty ≤ r.bytes
  bytes_le : r.bytes ≤ 8
  content : ∀ s stack,
    (s.get r).toNat % 256 ^ laneBytes ty = contentAt s stack location % 256 ^ laneBytes ty

theorem registerFor_w {ty : JavaType} {n : Nat} (hn : n < 8) (hlane : laneBytes ty ≤ 4) :
    RegisterFor ty (.generalRegister n) (.w ⟨n, hn.trans_le (Nat.le_of_ble_eq_true rfl)⟩) where
  lane := hlane
  bytes_le := by simp [Reg.bytes]
  content s _ := by
    rw [State.get_toNat_mod s (.w _) _ hlane, contentAt, fin_ofNat_eq (n := 31) (by omega)]

theorem registerFor_x {ty : JavaType} {n : Nat} (hn : n < 8) :
    RegisterFor ty (.generalRegister n) (.x ⟨n, hn.trans_le (Nat.le_of_ble_eq_true rfl)⟩) where
  lane := laneBytes_le ty
  bytes_le := Nat.le_refl 8
  content s _ := by rw [State.get_x, contentAt, fin_ofNat_eq (n := 31) (by omega)]

theorem registerFor_s {ty : JavaType} {n : Nat} (hn : n < 8) (hlane : laneBytes ty ≤ 4) :
    RegisterFor ty (.floatRegister n) (.s ⟨n, hn.trans_le (Nat.le_of_ble_eq_true rfl)⟩) where
  lane := hlane
  bytes_le := by simp [Reg.bytes]
  content s _ := by
    rw [State.get_toNat_mod s (.s _) _ hlane, contentAt, fin_ofNat_eq (n := 32) (by omega)]

theorem registerFor_d {ty : JavaType} {n : Nat} (hn : n < 8) :
    RegisterFor ty (.floatRegister n) (.d ⟨n, hn.trans_le (Nat.le_of_ble_eq_true rfl)⟩) where
  lane := laneBytes_le ty
  bytes_le := Nat.le_refl 8
  content s _ := by rw [State.get_d, contentAt, fin_ofNat_eq (n := 32) (by omega)]

theorem argumentRegister_general {ty : JavaType} (hty : ty ≠ .void)
    (hclass : argumentClass ty = .general) {n : Nat} (hn : n < 8) :
    ∃ r, argumentRegister (ClosureValueLayout.forType ty) (.generalRegister n) = some r ∧
      RegisterFor ty (.generalRegister n) r := by
  cases ty with
  | void => exact absurd rfl hty
  | boolean | byte | char | short | int =>
    exact ⟨_, dif_pos hn, registerFor_w hn (by simp [laneBytes])⟩
  | long | object | array => exact ⟨_, dif_pos hn, registerFor_x hn⟩
  | float | double => cases hclass

theorem argumentRegister_float {ty : JavaType} (hclass : argumentClass ty = .float) {n : Nat}
    (hn : n < 8) :
    ∃ r, argumentRegister (ClosureValueLayout.forType ty) (.floatRegister n) = some r ∧
      RegisterFor ty (.floatRegister n) r := by
  cases ty with
  | float => exact ⟨_, dif_pos hn, registerFor_s hn (by simp [laneBytes])⟩
  | double => exact ⟨_, dif_pos hn, registerFor_d hn⟩
  | _ => cases hclass

/-- A block that copies an argument of type `ty` from `location` into the slot at `slot`. -/
structure Captures (frameSize slot : Nat) (ty : JavaType) (location : ClosureArgumentLocation)
    (block : List Instr) : Prop where
  straight : ∀ i ∈ block, i.straight = true
  writes : ∀ s, Writes slot (slot + 8) s (Instr.exec block s)
  value : ∀ s, (Instr.exec block s).mem.load (s.sp + BitVec.ofNat 64 slot) (laneBytes ty) =
    contentAt s (s.sp + BitVec.ofNat 64 (frameSize + 16)) location % 256 ^ laneBytes ty

theorem captures_storeRegister {frameSize slot : Nat} {ty : JavaType}
    {location : ClosureArgumentLocation} {r : Reg} (hslot : slot + 8 ≤ 2 ^ 64)
    (h : RegisterFor ty location r) :
    Captures frameSize slot ty location (storeRegister r slot) where
  straight i hi := by
    rw [List.mem_singleton.mp hi]
    rfl
  writes s := by
    have hbytes := h.bytes_le
    exact (Writes.storeRegister s r (by omega)).mono (Nat.le_refl slot) (by omega)
  value s := by rw [load_storeRegister s r slot h.lane h.bytes_le, h.content]

/-- A stack argument goes through `x16`. -/
theorem captures_stack {frameSize slot offset : Nat} {ty : JavaType} (hslot : slot + 8 ≤ 2 ^ 64) :
    Captures frameSize slot ty (.stack offset)
      (.ldr (.x 16) .sp (frameSize + 16 + offset) :: storeRegister (.x 16) slot) where
  straight i hi := by
    rcases List.mem_cons.mp hi with rfl | hi
    · rfl
    · rw [List.mem_singleton.mp hi]
      rfl
  writes s :=
    (Writes.scratch slot (slot + 8) s _).trans (Writes.storeRegister _ (.x 16) hslot)
  value s := by
    let t := Instr.effect s (.ldr (.x 16) .sp (frameSize + 16 + offset))
    have hloaded : t.get (.x 16) =
        s.mem.word (s.sp + BitVec.ofNat 64 (frameSize + 16) + BitVec.ofNat 64 offset) := by
      rw [BitVec.add_assoc, ← BitVec.ofNat_add]
      rfl
    have hstored := load_storeRegister t (.x 16) slot (laneBytes_le ty) (Nat.le_refl 8)
    rw [hloaded, ByteMemory.word_toNat] at hstored
    exact hstored

/-- The block of one argument copies it into its slot. -/
theorem captureArgument_spec (frameSize index : Nat) (earlier : List JavaType) {ty : JavaType}
    (hty : ty ≠ .void) (hslot : closureArgumentsOffset + 8 * index + 8 ≤ 2 ^ 64) :
    ∃ block, captureArgument frameSize index
        ⟨ty, ClosureValueLayout.forType ty, jniPlace earlier (argumentClass ty)⟩ = some block ∧
      Captures frameSize (closureArgumentsOffset + 8 * index) ty
        (jniPlace earlier (argumentClass ty)) block := by
  rcases jniPlace_cases earlier (argumentClass ty) with
    ⟨n, -, hn, hclass, hplace⟩ | ⟨n, hn, hclass, hplace⟩ | hplace
  · obtain ⟨r, hr, hfor⟩ := argumentRegister_general hty hclass hn
    rw [hplace]
    exact ⟨storeRegister r _, congrArg (Option.map fun r ↦ storeRegister r _) hr,
      captures_storeRegister hslot hfor⟩
  · obtain ⟨r, hr, hfor⟩ := argumentRegister_float hclass hn
    rw [hplace]
    exact ⟨storeRegister r _, congrArg (Option.map fun r ↦ storeRegister r _) hr,
      captures_storeRegister hslot hfor⟩
  · rw [hplace]
    exact ⟨_, rfl, captures_stack hslot⟩

/-! ## All of them -/

/-- A block that leaves the argument registers and the caller's stack arguments alone does not move
an argument. -/
theorem Writes.contentAt_eq {lo hi frameSize : Nat} {s t : State} (h : Writes lo hi s t)
    (hhi : hi ≤ frameSize) (hframe : frameSize ≤ MAX_INVOCATION_FRAME_SIZE)
    (earlier : List JavaType) (cls : ClosureRegisterClass) (hearlier : earlier.length ≤ 506) :
    contentAt t (t.sp + BitVec.ofNat 64 (frameSize + 16)) (jniPlace earlier cls) =
      contentAt s (s.sp + BitVec.ofNat 64 (frameSize + 16)) (jniPlace earlier cls) := by
  rw [MAX_INVOCATION_FRAME_SIZE] at hframe
  rcases jniPlace_cases earlier cls with
    ⟨n, -, hn, -, hplace⟩ | ⟨n, -, -, hplace⟩ | hplace
  · rw [hplace, contentAt, h.x _ (fin_ofNat_ne hn), contentAt]
  · rw [hplace, contentAt, h.v, contentAt]
  · have hspilled := spilled_le earlier
    rw [hplace, contentAt, contentAt, h.sp,
      BitVec.add_assoc, ← BitVec.ofNat_add, h.load _ 8 (by omega) (.inr (by omega))]

/-- Arguments stay placed where what lies at every location of the convention does. -/
theorem Placed.congr {s t : State} {stack stack' : BitVec 64}
    (h : ∀ (earlier : List JavaType) cls, earlier.length ≤ 506 →
      contentAt t stack' (jniPlace earlier cls) = contentAt s stack (jniPlace earlier cls))
    {earlier tys : List JavaType} {vs : List (JavaValue RawJavaObject)}
    (hlength : earlier.length + tys.length ≤ 506) (hplaced : Placed s stack earlier tys vs) :
    Placed t stack' earlier tys vs := by
  induction tys generalizing earlier vs with
  | nil => cases vs <;> exact hplaced
  | cons ty tys ih =>
    rw [List.length_cons] at hlength
    match vs, hplaced with
    | v :: vs, ⟨⟨hv, hbits⟩, hrest⟩ =>
      have hcontent := h earlier (argumentClass ty) (by omega)
      refine ⟨⟨hv, by rw [hcontent, hbits]⟩, ih ?_ hrest⟩
      rw [List.length_append, List.length_singleton]
      omega

/-- **The captures**: the blocks of arguments that lie where the convention places them fill the
slots from `index` on with `jvalue`s that carry the arguments, and write nothing else. -/
theorem captureArguments_spec {frameSize : Nat} (hframe : frameSize ≤ MAX_INVOCATION_FRAME_SIZE)
    {tys : List JavaType} (htys : JavaType.void ∉ tys) :
    ∀ (index : Nat) (earlier : List JavaType),
      closureArgumentsOffset + 8 * (index + tys.length) ≤ frameSize →
      earlier.length + tys.length ≤ 506 →
      ∃ blocks, captureArguments frameSize index (jniLayout earlier tys) = some blocks ∧
        (∀ i ∈ blocks, i.straight = true) ∧ ∀ s : State,
          Writes (closureArgumentsOffset + 8 * index) frameSize s (Instr.exec blocks s) ∧
          ∀ vs, Placed s (s.sp + BitVec.ofNat 64 (frameSize + 16)) earlier tys vs →
            CarryAll tys vs ((List.range' index tys.length).map fun i ↦
              (Instr.exec blocks s).mem.word
                (s.sp + BitVec.ofNat 64 (closureArgumentsOffset + 8 * i))) := by
  rw [MAX_INVOCATION_FRAME_SIZE] at hframe
  induction tys with
  | nil =>
    intro index earlier _ _
    refine ⟨[], rfl, List.forall_mem_nil _,
      fun s ↦ ⟨⟨rfl, fun _ _ ↦ rfl, rfl, fun _ _ _ _ ↦ rfl⟩, ?_⟩⟩
    intro vs hplaced
    cases vs with
    | nil => trivial
    | cons v vs => exact hplaced.elim
  | cons ty tys ih =>
    intro index earlier hslots hlength
    rw [List.mem_cons, not_or] at htys
    rw [List.length_cons] at hslots hlength
    obtain ⟨block, hblock, hcaptures⟩ := captureArgument_spec frameSize index earlier
      (Ne.symm htys.1) (by omega)
    obtain ⟨blocks, hblocks, hstraight, hspec⟩ := ih htys.2 (index + 1) (earlier ++ [ty])
      (by omega) (by
        rw [List.length_append, List.length_singleton]
        omega)
    refine ⟨block ++ blocks, ?_, ?_, fun s ↦ ?_⟩
    · rw [jniLayout, captureArguments, hblock, Option.bind_some, hblocks]
      rfl
    · intro i hi
      exact (List.mem_append.mp hi).elim (hcaptures.straight i) (hstraight i)
    · have hwrites := hcaptures.writes s
      obtain ⟨hrest, hcarry⟩ := hspec (Instr.exec block s)
      rw [Instr.exec_append]
      refine ⟨(hwrites.mono (Nat.le_refl _) (by omega)).trans (hrest.mono (by omega) (Nat.le_refl _)),
        ?_⟩
      intro vs hplaced
      cases vs with
      | nil => exact hplaced.elim
      | cons v vs =>
        obtain ⟨⟨hv, hbits⟩, htail⟩ := hplaced
        have hmoved := htail.congr (hwrites.contentAt_eq (by omega) hframe)
          (by rw [List.length_append, List.length_singleton]; omega)
        have hcarried := hcarry vs hmoved
        rw [hwrites.sp] at hcarried
        refine ⟨⟨hv, ?_⟩, hcarried⟩
        -- the slot that the first block filled is left alone by the others
        have hkept := hrest.load (closureArgumentsOffset + 8 * index) 8 (by omega)
          (.inl (by omega))
        rw [hwrites.sp] at hkept
        rw [ByteMemory.word_toNat, hkept, ByteMemory.load_mod _ _ (laneBytes_le ty),
          hcaptures.value s, hbits]

end JavaBridge.Trampoline

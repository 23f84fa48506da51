import JavaBridge.Library.ByteMemory
import JavaBridge.Value

/-!
# The invocation frame

What a closure thunk leaves on its stack for `dispatch_closure_invocation`: six fields of eight
bytes, of which `arguments` points to as many `jvalue`s as `argumentCount` says. A `jvalue` is a
union whose members all lie in its lowest bytes.

Main results:

* `javaValueFromJvalue_of_bits`: a `jvalue` whose low bytes are those of a value of the type is read
  as that value.
* `closureArgumentsFromJvalues_of_carryAll`: so is a list of them.
-/

universe u

namespace JavaBridge.Trampoline

variable {θ : Type u}

/-! ## Lanes -/

/-- How many bytes of a `jvalue` or a register carry a value of the type. -/
def laneBytes : JavaType → Nat
  | .void => 0
  | .boolean | .byte => 1
  | .char | .short => 2
  | .int | .float => 4
  | .long | .double | .object _ | .array _ => 8

theorem laneBytes_le (ty : JavaType) : laneBytes ty ≤ 8 := by
  cases ty <;> simp [laneBytes]

/-- Raw JNI object reference, null apart. -/
structure RawJavaObject where
  raw : BitVec 64
  raw_ne : raw ≠ 0
  deriving DecidableEq

/-- The number that a value is in the low bytes of its lane. -/
def valueBits : JavaValue RawJavaObject → Nat
  | .void => 0
  | .boolean value => value.toNat
  | .byte value => value.toNat
  | .char value => value.toNat
  | .short value => value.toNat
  | .int value => value.toNat
  | .long value => value.toNat
  | .float bits => bits.toNat
  | .double bits => bits.toNat
  | .object none => 0
  | .object (some value) => value.raw.toNat

/-- The number that a return is in the low bytes of its lane. -/
def returnBits : RawJavaReturn (BitVec 64) → Nat
  | .void => 0
  | .boolean value => value.toNat
  | .byte value => value.toNat
  | .char value => value.toNat
  | .short value => value.toNat
  | .int value => value.toNat
  | .long value => value.toNat
  | .float bits => bits.toNat
  | .double bits => bits.toNat
  | .object value => value.toNat

/-- How many bytes of the `jvalue` a return sets: `zero_jvalue` sets all of them. -/
def returnBytes : RawJavaReturn (BitVec 64) → Nat
  | .void => 8
  | .boolean _ | .byte _ => 1
  | .char _ | .short _ => 2
  | .int _ | .float _ => 4
  | .long _ | .double _ | .object _ => 8

theorem laneBytes_le_returnBytes {value : RawJavaReturn (BitVec 64)} {ty : JavaType}
    (h : value.matchesType ty = true) : laneBytes ty ≤ returnBytes value := by
  cases value <;> cases ty <;> first | exact Bool.noConfusion h | simp [laneBytes, returnBytes]

/-! ## Reading the arguments -/

abbrev Jvalue := BitVec 64

def referenceArgument (value : BitVec 64) : JavaValue RawJavaObject :=
  if h : value = 0 then .null else .object (some ⟨value, h⟩)

def javaValueFromJvalue (ty : JavaType) (value : Jvalue) :
    Except (Error θ) (JavaValue RawJavaObject) :=
  match ty with
  | .void => .error (.invalidArgumentType 0 "non-void argument" "void")
  | .boolean => .ok (.boolean (value.setWidth 8 ≠ 0))
  | .byte => .ok (.byte (value.setWidth 8))
  | .char => .ok (.char (value.setWidth 16))
  | .short => .ok (.short (value.setWidth 16))
  | .int => .ok (.int (value.setWidth 32))
  | .long => .ok (.long value)
  | .float => .ok (.float (value.setWidth 32))
  | .double => .ok (.double value)
  | .object _ | .array _ => .ok (referenceArgument value)

def closureArgumentsFromJvalues (signatureArguments : List JavaType) (values : List Jvalue) :
    Except (Error θ) (List (JavaValue RawJavaObject)) :=
  if signatureArguments.length ≠ values.length then
    .error (.invalidArguments signatureArguments.length values.length)
  else (signatureArguments.zip values).mapM fun p ↦ javaValueFromJvalue p.1 p.2

theorem referenceArgument_of_bits {value : Jvalue} {object : Option RawJavaObject}
    (h : value.toNat = valueBits (.object object)) : referenceArgument value = .object object := by
  cases object with
  | none =>
    have hzero : value = 0 := BitVec.eq_of_toNat_eq h
    rw [referenceArgument, dif_pos hzero]
  | some object =>
    have hraw : value = object.raw := BitVec.eq_of_toNat_eq h
    subst hraw
    rw [referenceArgument, dif_neg object.raw_ne]

theorem setWidth_of_mod {w : Nat} {value : Jvalue} (x : BitVec w)
    (h : value.toNat % 2 ^ w = x.toNat) : value.setWidth w = x :=
  BitVec.eq_of_toNat_eq ((BitVec.toNat_setWidth ..).trans h)

/-- The low bytes of a `jvalue` decide how it is read. -/
theorem javaValueFromJvalue_of_bits {ty : JavaType} {value : Jvalue}
    {v : JavaValue RawJavaObject} (hv : v.matchesType ty = true) (hty : ty ≠ .void)
    (h : value.toNat % 256 ^ laneBytes ty = valueBits v) :
    javaValueFromJvalue (θ := θ) ty value = .ok v := by
  have hwhole : value.toNat % 256 ^ 8 = value.toNat := Nat.mod_eq_of_lt value.isLt
  cases ty with
  | void => exact absurd rfl hty
  | boolean =>
    cases v with
    | boolean b =>
      have hlow : (value.setWidth 8).toNat = b.toNat := (BitVec.toNat_setWidth ..).trans h
      cases b with
      | false =>
        have hzero : value.setWidth 8 = 0 := BitVec.eq_of_toNat_eq hlow
        rw [javaValueFromJvalue, hzero]
        rfl
      | true =>
        have hone : value.setWidth 8 = 1 := BitVec.eq_of_toNat_eq hlow
        rw [javaValueFromJvalue, hone]
        rfl
    | _ => cases hv
  | byte =>
    cases v with
    | byte x => exact congrArg (fun y ↦ Except.ok (JavaValue.byte y)) (setWidth_of_mod x h)
    | _ => cases hv
  | char =>
    cases v with
    | char x => exact congrArg (fun y ↦ Except.ok (JavaValue.char y)) (setWidth_of_mod x h)
    | _ => cases hv
  | short =>
    cases v with
    | short x => exact congrArg (fun y ↦ Except.ok (JavaValue.short y)) (setWidth_of_mod x h)
    | _ => cases hv
  | int =>
    cases v with
    | int x => exact congrArg (fun y ↦ Except.ok (JavaValue.int y)) (setWidth_of_mod x h)
    | _ => cases hv
  | long =>
    cases v with
    | long x =>
      exact congrArg (fun y ↦ Except.ok (JavaValue.long y))
        (BitVec.eq_of_toNat_eq (hwhole.symm.trans h))
    | _ => cases hv
  | float =>
    cases v with
    | float x => exact congrArg (fun y ↦ Except.ok (JavaValue.float y)) (setWidth_of_mod x h)
    | _ => cases hv
  | double =>
    cases v with
    | double x =>
      exact congrArg (fun y ↦ Except.ok (JavaValue.double y))
        (BitVec.eq_of_toNat_eq (hwhole.symm.trans h))
    | _ => cases hv
  | object name =>
    cases v with
    | object x => exact congrArg Except.ok (referenceArgument_of_bits (hwhole.symm.trans h))
    | _ => cases hv
  | array element =>
    cases v with
    | object x => exact congrArg Except.ok (referenceArgument_of_bits (hwhole.symm.trans h))
    | _ => cases hv

/-- A `jvalue` that carries `v` as a value of type `ty`. -/
def Carries (ty : JavaType) (v : JavaValue RawJavaObject) (value : Jvalue) : Prop :=
  v.matchesType ty = true ∧ value.toNat % 256 ^ laneBytes ty = valueBits v

/-- The `jvalue`s carry the values, one by one. -/
def CarryAll : List JavaType → List (JavaValue RawJavaObject) → List Jvalue → Prop
  | [], [], [] => True
  | ty :: tys, v :: vs, value :: values => Carries ty v value ∧ CarryAll tys vs values
  | _, _, _ => False

theorem mapM_javaValueFromJvalue {tys : List JavaType} {vs : List (JavaValue RawJavaObject)}
    {values : List Jvalue} (htys : JavaType.void ∉ tys) (h : CarryAll tys vs values) :
    tys.length = values.length ∧
      (tys.zip values).mapM (fun p ↦ javaValueFromJvalue (θ := θ) p.1 p.2) = .ok vs := by
  induction tys generalizing vs values with
  | nil =>
    match vs, values, h with
    | [], [], _ => exact ⟨rfl, rfl⟩
  | cons ty tys ih =>
    match vs, values, h with
    | v :: vs, value :: values, ⟨⟨hv, hbits⟩, hrest⟩ =>
      rw [List.mem_cons, not_or] at htys
      obtain ⟨hlength, hmap⟩ := ih htys.2 hrest
      refine ⟨congrArg (· + 1) hlength, ?_⟩
      rw [List.zip_cons_cons, List.mapM_cons,
        javaValueFromJvalue_of_bits hv (Ne.symm htys.1) hbits, hmap]
      rfl

theorem closureArgumentsFromJvalues_of_carryAll {tys : List JavaType}
    {vs : List (JavaValue RawJavaObject)} {values : List Jvalue} (htys : JavaType.void ∉ tys)
    (h : CarryAll tys vs values) :
    closureArgumentsFromJvalues (θ := θ) tys values = .ok vs := by
  obtain ⟨hlength, hmap⟩ := mapM_javaValueFromJvalue (θ := θ) htys h
  rw [closureArgumentsFromJvalues, if_neg (not_not_intro hlength), hmap]

/-! ## The frame -/

inductive FrameField
  | state
  | env
  | target
  | arguments
  | argumentCount
  | returnValue
  deriving DecidableEq

/-- `offset_of!` in the `#[repr(C)]` frame. -/
def frameOffset : FrameField → Nat
  | .state => 0
  | .env => 8
  | .target => 16
  | .arguments => 24
  | .argumentCount => 32
  | .returnValue => 40

/-- What the dispatcher takes of a `ClosureReplacementState`. -/
structure ClosureReplacementState where
  signature : MethodSignature
  /-- `invoke` on the env, the target and the arguments. -/
  invoke : BitVec 64 → BitVec 64 → List (JavaValue RawJavaObject) → RawJavaReturn (BitVec 64)

/-- What the dispatcher reads off a frame. -/
structure FrameContents (θ : Type u) where
  state : BitVec 64
  env : BitVec 64
  target : BitVec 64
  arguments : Except (Error θ) (List (JavaValue RawJavaObject))

section Dispatch

variable (states : BitVec 64 → ClosureReplacementState) (mem : ByteMemory) (frame : BitVec 64)

def frameWord (field : FrameField) : BitVec 64 :=
  mem.word (frame + BitVec.ofNat 64 (frameOffset field))

/-- `slice::from_raw_parts`. -/
def jvaluesAt (arguments : BitVec 64) (count : Nat) : List Jvalue :=
  (List.range count).map fun i ↦ mem.word (arguments + BitVec.ofNat 64 (8 * i))

def readFrame : FrameContents θ where
  state := frameWord mem frame .state
  env := frameWord mem frame .env
  target := frameWord mem frame .target
  arguments :=
    let arguments := frameWord mem frame .arguments
    let count := (frameWord mem frame .argumentCount).toNat
    if arguments = 0 ∧ count ≠ 0 then .error (.nullReturn "closure replacement arguments")
    else
      closureArgumentsFromJvalues (states (frameWord mem frame .state)).signature.arguments
        (jvaluesAt mem arguments count)

/-- The return that `dispatch_closure_invocation` leaves in `return_value`: none where the frame is
null, and `zero_jvalue` where the state is. -/
def dispatchClosureInvocation : Option (RawJavaReturn (BitVec 64)) :=
  if frame = 0 then none
  else if frameWord mem frame .state = 0 then some .void
  else
    let contents : FrameContents θ := readFrame states mem frame
    let state := states contents.state
    match contents.arguments with
    | .ok arguments => some (state.invoke contents.env contents.target arguments)
    | .error _ => some (defaultReturn 0 state.signature.returnType)

end Dispatch

end JavaBridge.Trampoline

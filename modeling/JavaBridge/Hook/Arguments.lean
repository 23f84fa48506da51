import JavaBridge.Hook.Exceptions
import Mathlib.Data.List.Forall2

/-!
# Arguments of calls

How the arguments of a call become Java values: a Rust string becomes a new Java string, everything
else is coerced to the lane of its parameter. No class is looked at here.

Main results:

* `wp_prepareCallArgs`, `PreparedFrom.matchesType`: there is one prepared value for each parameter, of
  the parameter's lane.
* `steady_prepareCallArgs`: preparing arguments leaves the pending exception as it was, or fails
  with it and takes it.
-/

namespace JavaBridge.Hook

open Fallible Thread

variable {ω R M : Type}

/-! ## Coercion -/

/-- The conversions between `jfloat` and `jdouble`, and the text of a `jdouble`. -/
structure Floats where
  toDouble : BitVec 32 → BitVec 64
  toFloat : BitVec 64 → BitVec 32
  display : BitVec 64 → String

inductive JavaValueCoercionError
  | type (actual : String)
  | value (actual : String)
  deriving DecidableEq

def narrowIntValue (value : BitVec 32) (min max : Int) (expected : String) :
    Except JavaValueCoercionError (BitVec 32) :=
  if min ≤ value.toInt ∧ value.toInt ≤ max then .ok value
  else .error (.value ("int " ++ toString value.toInt ++ " outside " ++ expected ++ " range"))

/-- The bits of `f32::MAX as f64`. -/
def floatMax : BitVec 64 := 0x47EFFFFFE0000000#64

def doubleToFloatValue (floats : Floats) (value : BitVec 64) :
    Except JavaValueCoercionError (BitVec 32) :=
  -- Magnitudes of finite doubles are ordered as their bits are.
  if value.extractLsb' 52 11 ≠ 0x7FF#11 ∧ value &&& 0x7FFFFFFFFFFFFFFF#64 ≤ floatMax then
    .ok (floats.toFloat value)
  else
    .error (.value ("double " ++ floats.display value ++ " is not finite or outside float range"))

def coerceJavaValue (floats : Floats) (value : JavaValue R) (expected : JavaType) :
    Except JavaValueCoercionError (JavaValue R) :=
  if value.matchesType expected then .ok value
  else
    match value, expected with
    | .int value, .byte =>
      (narrowIntValue value (-0x80) 0x7F "byte").map fun value ↦ .byte (value.setWidth 8)
    | .int value, .char =>
      (narrowIntValue value 0 0xFFFF "char").map fun value ↦ .char (value.setWidth 16)
    | .int value, .short =>
      (narrowIntValue value (-0x8000) 0x7FFF "short").map fun value ↦ .short (value.setWidth 16)
    | .int value, .long => .ok (.long (value.signExtend 64))
    | .float value, .double => .ok (.double (floats.toDouble value))
    | .double value, .float => (doubleToFloatValue floats value).map .float
    | value, _ => .error (.type value.typeName)

def coerceJavaCallValue (floats : Floats) (value : JavaValue R) (expected : JavaType)
    (index : Nat) : Except (Error R) (JavaValue R) :=
  (coerceJavaValue floats value expected).mapError fun
    | .type actual => .invalidArgumentType index expected.descriptor actual
    | .value actual => .invalidArgumentValue index expected.descriptor actual

def coerceJavaReturnValue (floats : Floats) (value : JavaValue R) (expected : JavaType)
    (operation : String) : Except (Error R) (JavaValue R) :=
  (coerceJavaValue floats value expected).mapError fun
    | .type actual | .value actual => .invalidReturnType operation expected.jniReturnName actual

theorem matchesType_of_coerceJavaValue {floats : Floats} {value value' : JavaValue R}
    {expected : JavaType} (h : coerceJavaValue floats value expected = .ok value') :
    value'.matchesType expected = true := by
  unfold coerceJavaValue at h
  split at h
  · next hmatches => exact Except.ok.inj h ▸ hmatches
  · split at h
    all_goals first
      | contradiction
      | (cases h; rfl)
      | (obtain ⟨_, -, rfl⟩ := map_eq_ok.1 h; rfl)

/-- Coercion leaves references alone. -/
theorem coerceJavaValue_eq_object {floats : Floats} {value : JavaValue R} {expected : JavaType}
    {reference : Option R} (h : coerceJavaValue floats value expected = .ok (.object reference)) :
    value = .object reference := by
  unfold coerceJavaValue at h
  split at h
  · exact Except.ok.inj h
  · split at h
    all_goals first
      | contradiction
      | cases h
      | (obtain ⟨_, -, h⟩ := map_eq_ok.1 h; cases h)

theorem isJavaException_of_coerceJavaCallValue {floats : Floats} {value : JavaValue R}
    {expected : JavaType} {index : Nat} {e : Error R}
    (h : coerceJavaCallValue floats value expected index = .error e) :
    e.isJavaException = false := by
  obtain ⟨e, -, rfl⟩ := mapError_eq_error.1 h
  cases e <;> rfl

/-! ## Preparation -/

variable (jni : Jni ω R M) (floats : Floats)

/-- An argument of a call. Every other type of argument is passed as one of these. -/
inductive JavaOverloadArg (R : Type)
  | value (value : JavaValue R)
  | rustString (text : String)
  deriving DecidableEq

/-- An argument ready for the call, with the local reference made for it. -/
structure PreparedJavaCallArg (R : Type) where
  value : JavaValue R
  localRef : Option R

def acceptsRustString : JavaType → Bool
  | .object name =>
    name == "java/lang/String" || name == "java/lang/Object" || name == "java/lang/CharSequence"
  | _ => false

def newStringUtfRaw (text : String) : JniM ω R M R := do
  let text ← cString text
  let string ← (jni.newStringUtf text).run
  checkPendingException jni "JNIEnv::NewStringUTF"
  match string with
  | none => throw (.nullReturn "JNIEnv::NewStringUTF")
  | some string => pure string

def prepareCallValue (value : JavaValue R) (expected : JavaType) (index : Nat) :
    JniM ω R M (PreparedJavaCallArg R) := do
  let value ← MonadExcept.ofExcept (coerceJavaCallValue floats value expected index)
  pure ⟨value, none⟩

def prepareCallRustString (text : String) (expected : JavaType) (index : Nat) :
    JniM ω R M (PreparedJavaCallArg R) :=
  if !acceptsRustString expected then
    throw (.invalidArgumentType index expected.descriptor "string")
  else do
    let localRef ← newStringUtfRaw jni text
    pure ⟨.object (some localRef), some localRef⟩

namespace JavaOverloadArg

def intoJavaCallArg (arg : JavaOverloadArg R) (expected : JavaType) (index : Nat) :
    JniM ω R M (PreparedJavaCallArg R) :=
  match arg with
  | .value v => prepareCallValue floats v expected index
  | .rustString text => prepareCallRustString jni text expected index

end JavaOverloadArg

structure PreparedJavaCallArgs (R : Type) where
  values : List (JavaValue R)
  localRefs : List R
  deriving DecidableEq

namespace PreparedJavaCallArgs

def push (args : PreparedJavaCallArgs R) (arg : PreparedJavaCallArg R) : PreparedJavaCallArgs R :=
  ⟨args.values ++ [arg.value], args.localRefs ++ arg.localRef.toList⟩

/-- `Drop for PreparedJavaCallArgs`. -/
def drop (args : PreparedJavaCallArgs R) : Thread ω R M → Thread ω R M :=
  Thread.deleteLocalRefs args.localRefs

end PreparedJavaCallArgs

/-- The loop of `prepare_call_args`. What has been prepared is dropped where an argument fails. -/
def prepareEach (prepared : PreparedJavaCallArgs R) :
    Nat → List (JavaOverloadArg R × JavaType) → JniM ω R M (PreparedJavaCallArgs R)
  | _, [] => pure prepared
  | index, (arg, expected) :: args => do
    let arg ← onError prepared.drop (arg.intoJavaCallArg jni floats expected index)
    prepareEach (prepared.push arg) (index + 1) args

/-- `into_java_call_args`, which all containers of arguments share. -/
def prepareCallArgs (args : List (JavaOverloadArg R)) (expected : List JavaType) :
    JniM ω R M (PreparedJavaCallArgs R) :=
  if args.length ≠ expected.length then throw (.invalidArguments expected.length args.length)
  else prepareEach jni floats ⟨[], []⟩ 0 (args.zip expected)

/-! ## What is prepared -/

variable {jni floats}

theorem steady_newStringUtfRaw (text : String) : Steady (newStringUtfRaw jni text) := by
  refine (steady_cString text).bind fun text ↦ ?_
  refine Steady.run_checkPendingException jni fun string ↦ ?_
  cases string
  · exact .throw rfl
  · exact .pure _

theorem steady_intoJavaCallArg (arg : JavaOverloadArg R) (expected : JavaType) (index : Nat) :
    Steady (arg.intoJavaCallArg jni floats expected index) := by
  cases arg with
  | value value =>
    refine (steady_ofExcept fun e he ↦ ?_).bind fun value ↦ .pure _
    exact isJavaException_of_coerceJavaCallValue he
  | rustString text =>
    show Steady (prepareCallRustString jni text expected index)
    unfold prepareCallRustString
    split
    · exact .throw rfl
    · exact (steady_newStringUtfRaw text).bind fun localRef ↦ .pure _

theorem steady_prepareEach (prepared : PreparedJavaCallArgs R) (index : Nat)
    (args : List (JavaOverloadArg R × JavaType)) :
    Steady (prepareEach jni floats prepared index args) := by
  induction args generalizing prepared index with
  | nil => exact .pure prepared
  | cons arg args ih =>
    refine Steady.bind ?_ fun arg ↦ ih (prepared.push arg) (index + 1)
    exact (steady_intoJavaCallArg arg.1 arg.2 index).onError fun t ↦ .deleteLocalRefs _ t

theorem steady_prepareCallArgs (args : List (JavaOverloadArg R)) (expected : List JavaType) :
    Steady (prepareCallArgs jni floats args expected) := by
  unfold prepareCallArgs
  split
  · exact .throw rfl
  · exact steady_prepareEach _ _ _

/-- The value can come of preparing the argument for a parameter of the type. -/
inductive PreparedFrom (jni : Jni ω R M) (floats : Floats) :
    JavaValue R → JavaOverloadArg R × JavaType → Prop
  | value {v v' : JavaValue R} {expected : JavaType} (h : coerceJavaValue floats v expected = .ok v') :
    PreparedFrom jni floats v' (.value v, expected)
  | rustString {text : String} {expected : JavaType} {world : ω} {string : R}
    (haccepts : acceptsRustString expected = true) (hnul : '\x00' ∉ text.toList)
    (h : (jni.newStringUtf text world).1 = some string) :
    PreparedFrom jni floats (.object (some string)) (.rustString text, expected)

theorem PreparedFrom.matchesType {v : JavaValue R} {arg : JavaOverloadArg R × JavaType}
    (h : PreparedFrom jni floats v arg) : v.matchesType arg.2 = true := by
  cases h with
  | value h => exact matchesType_of_coerceJavaValue h
  | @rustString _ expected _ _ haccepts _ _ =>
    cases expected <;> first | rfl | cases haccepts

theorem wp_newStringUtfRaw {text : String} {s : Thread ω R M} :
    wp (newStringUtfRaw jni text)
      (fun string _ ↦ '\x00' ∉ text.toList ∧ ∃ world, (jni.newStringUtf text world).1 = some string)
      (fun _ _ ↦ True) s := by
  simp only [newStringUtfRaw, cString, wp_bind]
  rw [wp_ite]
  refine ⟨fun _ ↦ trivial, fun hnul ↦ ?_⟩
  simp only [wp_pure, wp_run]
  refine wp_checkPendingException jni (fun _ ↦ ?_) fun _ _ _ _ ↦ trivial
  cases h : (jni.newStringUtf text s.world).1
  · trivial
  · exact ⟨hnul, s.world, h⟩

theorem wp_intoJavaCallArg {arg : JavaOverloadArg R} {expected : JavaType} {index : Nat}
    {s : Thread ω R M} :
    wp (arg.intoJavaCallArg jni floats expected index)
      (fun prepared _ ↦ PreparedFrom jni floats prepared.value (arg, expected)) (fun _ _ ↦ True) s := by
  cases arg with
  | value v =>
    show wp (prepareCallValue floats v expected index) _ _ s
    simp only [prepareCallValue, wp_bind, wp_ofExcept, wp_pure]
    exact ⟨fun a ha ↦ .value (mapError_eq_ok.1 ha), fun _ _ ↦ trivial⟩
  | rustString text =>
    show wp (prepareCallRustString jni text expected index) _ _ s
    simp only [prepareCallRustString, wp_ite, wp_bind, wp_pure]
    refine ⟨fun _ ↦ trivial, fun haccepts ↦ ?_⟩
    refine wp_mono wp_newStringUtfRaw ?_ fun _ _ _ ↦ trivial
    rintro string _ ⟨hnul, _, h⟩
    exact .rustString (by simpa using haccepts) hnul h

theorem wp_prepareEach {prepared : PreparedJavaCallArgs R} {index : Nat}
    {args : List (JavaOverloadArg R × JavaType)} {s : Thread ω R M} :
    wp (prepareEach jni floats prepared index args)
      (fun result _ ↦ ∃ values, result.values = prepared.values ++ values ∧
        List.Forall₂ (PreparedFrom jni floats) values args)
      (fun _ _ ↦ True) s := by
  induction args generalizing prepared index s with
  | nil => exact ⟨[], (List.append_nil _).symm, .nil⟩
  | cons arg args ih =>
    simp only [prepareEach, wp_bind, wp_onError]
    refine wp_mono wp_intoJavaCallArg (fun value t hvalue ↦ ?_) fun _ _ _ ↦ trivial
    refine wp_mono ih ?_ fun _ _ _ ↦ trivial
    rintro result u ⟨values, hresult, hvalues⟩
    refine ⟨value.value :: values, ?_, .cons hvalue hvalues⟩
    rw [hresult, PreparedJavaCallArgs.push, List.append_assoc, List.singleton_append]

/-- There is one prepared value for each parameter. -/
theorem wp_prepareCallArgs {args : List (JavaOverloadArg R)} {expected : List JavaType}
    {s : Thread ω R M} :
    wp (prepareCallArgs jni floats args expected)
      (fun result _ ↦ args.length = expected.length ∧
        List.Forall₂ (PreparedFrom jni floats) result.values (args.zip expected))
      (fun _ _ ↦ True) s := by
  simp only [prepareCallArgs, wp_ite, wp_throw]
  refine ⟨fun _ ↦ trivial, fun hlength ↦ ?_⟩
  refine wp_mono wp_prepareEach ?_ fun _ _ _ ↦ trivial
  rintro result _ ⟨values, hresult, hvalues⟩
  rw [List.nil_append] at hresult
  exact ⟨by simpa using hlength, hresult ▸ hvalues⟩

end JavaBridge.Hook

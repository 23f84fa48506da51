import JavaBridge.Hook.Invoke

/-!
# Runtime checks of references

Where a reference goes to Java, its class can be checked at run time: `JavaMethod::call` checks its
arguments, a method hook the value that its callback returns. `find holder name` stands for
`Java::find_class` in the class loader of `holder`.

Main results:

* `keeps_validateReferenceCallArgs`: arguments that fit their parameters are not rejected.
* `wp_validateReferenceReturn`: a reference that passes is an instance of the return class.
-/

namespace JavaBridge.Hook

open Fallible Thread

variable {ω R M α : Type} (jni : Jni ω R M) (floats : Floats) (display : Error R → String)

/-- `Java::find_class` in the class loader of a class. It leaves no exception pending. -/
abbrev FindClass (ω R : Type) := (holder : R) → (name : String) → ω → Except (Error R) R × ω

variable (find : FindClass ω R)

def findClass (holder : R) (name : String) : JniM ω R M R := fun s ↦
  match find holder name s.world with
  | (.ok found, world) => .ok found { s with world }
  | (.error error, world) => .error error { s with world }

/-! ## Arguments of ordinary calls -/

def dispatchClassLookupName : JavaType → String
  | .object name => name.map fun c ↦ if c = '/' then '.' else c
  | ty => ty.descriptor

def classForDispatchType (holder : R) (ty : JavaType) : JniM ω R M R :=
  findClass find holder (dispatchClassLookupName ty)

/-- `Env::is_instance_of`. -/
def isInstanceOf (object holder : R) : JniM ω R M Bool := do
  let result ← (jni.isInstanceOf object holder).run
  checkPendingException jni "JNIEnv::IsInstanceOf"
  pure result

def isReferenceValueAssignable (holder : R) (expected : JavaType) :
    JavaValue R → JniM ω R M Bool
  | .object (some object) =>
    if !expected.isReference then pure true
    else do
      let expectedClass ← classForDispatchType find holder expected
      isInstanceOf jni object expectedClass
  | _ => pure true

/-- The loop of `validate_reference_call_args`. -/
def validateEach (holder : R) : Nat → List (JavaType × JavaValue R) → JniM ω R M Unit
  | _, [] => pure ()
  | index, (expected, value) :: values => do
    if ← isReferenceValueAssignable jni find holder expected value then
      validateEach holder (index + 1) values
    else throw (.invalidArgumentType index expected.descriptor value.typeName)

def validateReferenceCallArgs (holder : R) (expected : List JavaType)
    (values : List (JavaValue R)) : JniM ω R M Unit :=
  validateEach jni find holder 0 (expected.zip values)

namespace JavaMethod

/-- The arguments that `JavaMethod::call` hands to the JNI, for a method of `holder`. -/
def callArgs (holder : R) (signature : MethodSignature) (args : List (JavaOverloadArg R)) :
    JniM ω R M (PreparedJavaCallArgs R) := do
  let args ← prepareCallArgs jni floats args signature.arguments
  onError args.drop (validateReferenceCallArgs jni find holder signature.arguments args.values)
  pure args

end JavaMethod

/-! ## The safe interface of a hook -/

namespace JavaHookReturn

/-- `JavaHookReturn::from_raw`. -/
def fromRaw : RawJavaReturn (Option R) → JavaValue R
  | .void => .void
  | .boolean value => .boolean (value != 0)
  | .byte value => .byte value
  | .char value => .char value
  | .short value => .short value
  | .int value => .int value
  | .long value => .long value
  | .float value => .float value
  | .double value => .double value
  | .object value => .object value

/-- `JavaHookReturn::into_raw`. -/
def intoRaw : JavaValue R → RawJavaReturn (Option R)
  | .void => .void
  | .boolean value => .boolean (if value then 1 else 0)
  | .byte value => .byte value
  | .char value => .char value
  | .short value => .short value
  | .int value => .int value
  | .long value => .long value
  | .float value => .float value
  | .double value => .double value
  | .object value => .object value

end JavaHookReturn

namespace JavaHookContext

def callOriginalRaw (invocation : ReplacementInvocation R) (args : List (JavaOverloadArg R)) :
    JniM ω R M (JavaValue R) := do
  let original ← invocation.callOriginal jni floats display args
  pure (JavaHookReturn.fromRaw original)

/-- `JavaHookContext::call_original`, where `fromHookReturn` extracts the typed return value. -/
def callOriginal (fromHookReturn : JavaValue R → JniM ω R M α)
    (invocation : ReplacementInvocation R) (args : List (JavaOverloadArg R)) : JniM ω R M α := do
  let value ← callOriginalRaw jni floats display invocation args
  fromHookReturn value

end JavaHookContext

/-! ## Values that hooks return -/

/-- The return class that a method hook looks up when it is installed. -/
def resolveReferenceReturnClass (holder : R) (returnType : JavaType) : JniM ω R M (Option R) :=
  if !returnType.isReference then pure none
  else do
    let found ← findClass find holder returnType.descriptor
    pure (some found)

/-- `Env::get_object_class`. -/
def getObjectClass (object : R) : JniM ω R M R := do
  let jclass ← (jni.getObjectClass object).run
  checkPendingException jni "JNIEnv::GetObjectClass"
  match jclass with
  | none => throw (.nullReturn "JNI local reference")
  | some jclass => pure jclass

/-- `displayRef` is the text of a reference. -/
def validateReferenceReturn (displayRef : R → String) (env : Option Unit) (returnClass : Option R)
    (returnType : JavaType) (value : JavaValue R) : JniM ω R M (JavaValue R) :=
  match returnClass, value with
  | some returnClass, .object (some object) =>
    match env with
    | none => throw (.nullReturn "closure replacement JNIEnv")
    | some () => do
      if ← isInstanceOf jni object returnClass then pure value
      else
        let actual ← getObjectClass jni object
        throw (.invalidObjectType "closure replacement return" returnType.jniReturnName
          (displayRef actual ++ " is not " ++ returnType.descriptor))
  | _, _ => pure value

/-- A callback of the safe interface. -/
abbrev HookCallback (ω R M : Type) :=
  ReplacementInvocation R → EStateM (Failure R) (Thread ω R M) (JavaValue R)

/-- The callback that `install_method_hook` installs. -/
def methodHook (displayRef : R → String) (returnClass : Option R) (returnType : JavaType)
    (callback : HookCallback ω R M) : ClosureReplacementState.Callback ω R M := fun invocation ↦ do
  let value ← callback invocation
  let hookReturn ← EStateM.adaptExcept Failure.error
    (validateReferenceReturn jni displayRef invocation.env returnClass returnType value)
  pure (JavaHookReturn.intoRaw hookReturn)

/-- The callback that `install_constructor_hook` installs. -/
def constructorHook (returnType : JavaType) (callback : HookCallback ω R M) :
    ClosureReplacementState.Callback ω R M := fun invocation ↦ do
  let value ← callback invocation
  let value ← MonadExcept.ofExcept
    ((coerceJavaReturnValue floats value returnType "closure replacement return").mapError
      Failure.error)
  pure (JavaHookReturn.intoRaw value)

/-! ## What the checks decide -/

/-- The classes and objects of the runtime, by their references. -/
structure Hierarchy (R : Type) where
  /-- The class of the type in the class loader of `holder`. -/
  declared : (holder : R) → (type : JavaType) → Except (Error R) R
  isInstance : (object jclass : R) → Bool

namespace Hierarchy

variable (h : Hierarchy R)

/-- The object is an instance of the class of the type in the class loader of `holder`. -/
def IsA (holder : R) (type : JavaType) (object : R) : Prop :=
  ∃ found, h.declared holder type = .ok found ∧ h.isInstance object found = true

/-- A reference in the place of the type is an instance of its class. -/
def Fits (holder : R) (value : JavaValue R) (type : JavaType) : Prop :=
  ∀ object, value = .object (some object) → h.IsA holder type object

end Hierarchy

/-- The runtime looks classes up and tells instances as the hierarchy has them. -/
structure Obeys (h : Hierarchy R) : Prop where
  find_name : ∀ holder type world, type.isReference = true →
    (find holder (dispatchClassLookupName type) world).1 = h.declared holder type
  find_descriptor : ∀ holder type world, type.isReference = true →
    (find holder type.descriptor world).1 = h.declared holder type
  isInstanceOf : ∀ object jclass world,
    (jni.isInstanceOf object jclass world).1 = h.isInstance object jclass
  /-- A new string is an instance of every class that takes a Rust string. -/
  newStringUtf : ∀ text world string, (jni.newStringUtf text world).1 = some string →
    ∀ holder type, acceptsRustString type = true → h.IsA holder type string
  /-- What survives a local frame is a reference to the same object. -/
  popLocalFrame : ∀ object world promoted,
    (jni.popLocalFrame (some object) world).1 = some promoted →
      h.isInstance promoted = h.isInstance object
  popLocalFrame_none : ∀ world, (jni.popLocalFrame none world).1 = none

/-- The error says what is wrong with an argument list. -/
def IsArgumentError : Error R → Prop
  | .invalidArguments _ _ | .invalidArgumentType _ _ _ | .invalidArgumentValue _ _ _ => True
  | _ => False

section Checks

variable {jni floats find} {h : Hierarchy R} {s : Thread ω R M} {holder : R}

theorem wp_isInstanceOf (hobeys : Obeys jni find h) {object jclass : R} :
    wp (isInstanceOf jni object jclass) (fun result _ ↦ result = h.isInstance object jclass)
      (fun e _ ↦ e.isJavaException = true) s := by
  simp only [isInstanceOf, wp_bind, wp_run, wp_pure]
  refine wp_checkPendingException jni (fun _ ↦ ?_) fun _ _ _ _ ↦ rfl
  exact hobeys.isInstanceOf object jclass s.world

theorem wp_findClass {name : String} {Q : R → Thread ω R M → Prop}
    {E : Error R → Thread ω R M → Prop}
    (hok : ∀ found t, (find holder name s.world).1 = .ok found → Q found t)
    (herror : ∀ e t, (find holder name s.world).1 = .error e → E e t) :
    wp (findClass find holder name) Q E s := by
  unfold findClass wp
  rcases hfind : find holder name s.world with ⟨result, world⟩
  rw [hfind] at hok herror
  cases result with
  | ok found => simpa only [hfind] using hok found _ rfl
  | error e => simpa only [hfind] using herror e _ rfl

theorem wp_isReferenceValueAssignable (hobeys : Obeys jni find h) {value : JavaValue R}
    {expected : JavaType} (hfits : h.Fits holder value expected) :
    wp (isReferenceValueAssignable jni find holder expected value) (fun result _ ↦ result = true)
      (fun e _ ↦ ¬IsArgumentError e) s := by
  unfold isReferenceValueAssignable
  split
  · next object =>
    obtain ⟨jclass, hjclass, hinstance⟩ := hfits object rfl
    rw [wp_ite]
    refine ⟨fun _ ↦ rfl, fun hreference ↦ ?_⟩
    have hname := hobeys.find_name holder expected s.world (by simpa using hreference)
    rw [wp_bind]
    refine wp_findClass (fun found t hfound ↦ ?_) fun e t he ↦ ?_
    · rw [hname, hjclass] at hfound
      obtain rfl := Except.ok.inj hfound
      refine wp_mono (wp_isInstanceOf hobeys) (fun _ _ hresult ↦ hresult.trans hinstance) ?_
      intro e _ he hargument
      cases e <;> first | exact hargument | cases he
    · rw [hname, hjclass] at he
      cases he
  · rfl

theorem keeps_validateEach (hobeys : Obeys jni find h) {values : List (JavaType × JavaValue R)}
    (hfits : ∀ p ∈ values, h.Fits holder p.2 p.1) (index : Nat) :
    Keeps (fun _ ↦ True) (fun e ↦ ¬IsArgumentError e) (fun _ ↦ True)
      (validateEach jni find holder index values : JniM ω R M Unit) := by
  induction values generalizing index with
  | nil => exact .pure trivial
  | cons p values ih =>
    obtain ⟨hp, hvalues⟩ := List.forall_mem_cons.1 hfits
    refine Keeps.bind (A := fun result ↦ result = true) (fun s _ ↦ ?_) fun result hresult ↦ ?_
    · exact wp_mono (wp_isReferenceValueAssignable hobeys hp) (fun _ _ h ↦ ⟨trivial, h⟩)
        fun _ _ h ↦ h
    · rw [if_pos hresult]
      exact ih hvalues (index + 1)

/-- Arguments that fit their parameters are not rejected. -/
theorem keeps_validateReferenceCallArgs (hobeys : Obeys jni find h) {expected : List JavaType}
    {values : List (JavaValue R)} (hfits : List.Forall₂ (h.Fits holder) values expected) :
    Keeps (fun _ ↦ True) (fun e ↦ ¬IsArgumentError e) (fun _ ↦ True)
      (validateReferenceCallArgs jni find holder expected values : JniM ω R M Unit) :=
  keeps_validateEach hobeys (fun _ hp ↦ List.forall₂_zip hfits.flip hp) 0

/-- The class that a method hook checks its returns against. -/
theorem wp_resolveReferenceReturnClass (hobeys : Obeys jni find h) {returnType : JavaType} :
    wp (resolveReferenceReturnClass find holder returnType)
      (fun returnClass _ ↦ if returnType.isReference then
          ∃ found, returnClass = some found ∧ h.declared holder returnType = .ok found
        else returnClass = none)
      (fun _ _ ↦ True) s := by
  unfold resolveReferenceReturnClass
  cases hreference : returnType.isReference
  · rfl
  · simp only [Bool.not_true, Bool.false_eq_true, if_false, wp_bind, wp_pure, if_true]
    refine wp_findClass (fun found t hfound ↦ ?_) fun _ _ _ ↦ trivial
    exact ⟨found, rfl, (hobeys.find_descriptor _ _ _ hreference).symm.trans hfound⟩

/-- A reference that passes is an instance of the return class. -/
theorem wp_validateReferenceReturn (hobeys : Obeys jni find h) {displayRef : R → String}
    {env : Option Unit} {returnClass : R} {returnType : JavaType} {object : R} :
    wp (validateReferenceReturn jni displayRef env (some returnClass) returnType
        (.object (some object)))
      (fun value _ ↦ value = .object (some object) ∧ h.isInstance object returnClass = true)
      (fun _ _ ↦ True) s := by
  unfold validateReferenceReturn
  cases env with
  | none => trivial
  | some _ =>
    simp only [wp_bind]
    refine wp_mono (wp_isInstanceOf hobeys) (fun result t hresult ↦ ?_) fun _ _ _ ↦ trivial
    rw [wp_ite]
    refine ⟨fun hinstance ↦ ⟨rfl, hresult.symm.trans hinstance⟩, fun _ ↦ ?_⟩
    simp only [wp_bind, wp_throw]
    exact wp_mono wp_true (fun _ _ _ ↦ trivial) fun _ _ _ ↦ trivial

end Checks

end JavaBridge.Hook

import JavaBridge.Hook.TypeCheck
import JavaBridge.Java.CallArgs

/-!
# Operations on members

Constructors, methods and fields of a class that have been selected: how they are run, from the
check of the receiver to the JNI function, with their arguments attached around the rest.

Main results:

* `borrows_validateReferenceCallArgs`, `borrows_setStaticField` and the others: what an operation
  does with prepared values only borrows them.
* `Operation.conservesUnless`: an operation leaves a temporary reference behind only where its first
  string is made while an exception is pending.
* `temporaries_deleted_once_iff`: in every other operation, whether it fails or not, each reference
  that was made for a Rust string is deleted once, after its last use, and nothing else is.
-/

namespace JavaBridge.Java.Members

open Fallible Custody
open Hook (Floats JavaOverloadArg dispatchClassLookupName)

/-! ## Members -/

/-- What an operation looks at of a method's metadata. -/
structure JavaMethodMetadata where
  name : String
  kind : MethodKind
  signature : MethodSignature

structure JavaConstructor (S : Type) where
  holder : RawClass S
  metadata : JavaMethodMetadata

structure JavaMethod (S : Type) where
  holder : RawClass S
  metadata : JavaMethodMetadata

structure JavaField (S : Type) where
  holder : RawClass S
  metadata : JavaFieldMetadata

/-- A receiver: `()`, or a reference to an object, which may be null. -/
inductive Receiver (S : Type)
  | unit
  | object (object : Option S)

section

variable {ω S M V α : Type} (vm : Jvm ω S M V) (floats : Floats)

/-! ## Functions of raw classes -/

/-- Runs a member through the JNI. The checks of a member id's own kind are left out, since the id was
looked up with that kind. -/
def invoke (jniCall : JniCall S M) : SessionM ω S V := do
  use jniCall.references
  call (vm.invoke jniCall)

/-- The loop of `validate_arguments`. -/
def validateEachArgument {θ R : Type} :
    Nat → List (JavaType × JavaValue R) → Except (Error θ) Unit
  | _, [] => .ok ()
  | index, (expected, actual) :: args =>
    if actual.matchesType expected then validateEachArgument (index + 1) args
    else .error (.invalidArgumentType index expected.descriptor actual.typeName)

/-- `MethodSignature::validate_arguments`. -/
def validateArguments {θ R : Type} (signature : MethodSignature) (args : List (JavaValue R)) :
    Except (Error θ) Unit :=
  if signature.arguments.length ≠ args.length then
    .error (.invalidArguments signature.arguments.length args.length)
  else validateEachArgument 0 (signature.arguments.zip args)

def validateFieldValue {θ R : Type} (field : FieldId M) (value : JavaValue R) :
    Except (Error θ) Unit :=
  if value.matchesType field.ty then .ok ()
  else .error (.invalidArgumentType 0 field.ty.descriptor value.typeName)

def isInstanceOf (object : Ref S) (holder : RawClass S) : SessionM ω S Bool := do
  use [object]
  let result ← ask (vm.isInstanceOf object holder.global)
  checkPendingException vm "JNIEnv::IsInstanceOf"
  pure result

def getObjectClass (object : Ref S) : SessionM ω S S := do
  use [object]
  call (vm.getObjectClass object)

namespace RawClass

/-- A method is looked up, its arguments are checked, and it is called. -/
def callWith (holder : RawClass S) (kind : MethodKind) (name signature : String)
    (args : List (JavaValue (Ref S))) (jniCall : M → JniCall S M) : SessionM ω S V :=
  withAttached vm do
    let method ← call (vm.cachedMethod holder kind name signature)
    MonadExcept.ofExcept (validateArguments method.signature args)
    invoke vm (jniCall method.raw)

def newObject (holder : RawClass S) (signature : String) (args : List (JavaValue (Ref S))) :
    SessionM ω S V :=
  callWith vm holder .constructor "<init>" signature args
    fun method ↦ .newObject holder.global method args

def callMethod (holder : RawClass S) (object : Option S) (name signature : String)
    (args : List (JavaValue (Ref S))) : SessionM ω S V :=
  callWith vm holder .instanceMethod name signature args
    fun method ↦ .callMethod object method args

def callStatic (holder : RawClass S) (name signature : String)
    (args : List (JavaValue (Ref S))) : SessionM ω S V :=
  callWith vm holder .staticMethod name signature args
    fun method ↦ .callStatic holder.global method args

def getField (holder : RawClass S) (object : Option S) (name ty : String) : SessionM ω S V :=
  withAttached vm do
    let field ← call (vm.cachedField holder .instanceField name ty)
    invoke vm (.getField object field.raw)

def getStaticField (holder : RawClass S) (name ty : String) : SessionM ω S V :=
  withAttached vm do
    let field ← call (vm.cachedField holder .staticField name ty)
    invoke vm (.getStaticField holder.global field.raw)

def setField (holder : RawClass S) (object : Option S) (name ty : String)
    (value : JavaValue (Ref S)) : SessionM ω S Unit :=
  withAttached vm do
    let field ← call (vm.cachedField holder .instanceField name ty)
    MonadExcept.ofExcept (validateFieldValue field value)
    let _ ← invoke vm (.setField object field.raw value)
    pure ()

def setStaticField (holder : RawClass S) (name ty : String) (value : JavaValue (Ref S)) :
    SessionM ω S Unit :=
  withAttached vm do
    let field ← call (vm.cachedField holder .staticField name ty)
    MonadExcept.ofExcept (validateFieldValue field value)
    let _ ← invoke vm (.setStaticField holder.global field.raw value)
    pure ()

def isInstance (holder : RawClass S) (object : Ref S) : SessionM ω S Bool :=
  withAttached vm (isInstanceOf vm object holder)

end RawClass

/-! ## Checks -/

def classForDispatchType (holder : RawClass S) (ty : JavaType) : SessionM ω S (RawClass S) :=
  withAttached vm (call (vm.findClass holder (dispatchClassLookupName ty)))

def isReferenceValueAssignable (holder : RawClass S) (expected : JavaType) :
    JavaValue (Ref S) → SessionM ω S Bool
  | .object (some object) =>
    if !expected.isReference then pure true
    else do
      let expectedClass ← classForDispatchType vm holder expected
      withAttached vm (isInstanceOf vm object expectedClass)
  | _ => pure true

/-- The loop of `validate_reference_call_args`. -/
def validateEach (holder : RawClass S) :
    Nat → List (JavaType × JavaValue (Ref S)) → SessionM ω S Unit
  | _, [] => pure ()
  | index, (expected, value) :: values => do
    if ← isReferenceValueAssignable vm holder expected value then
      validateEach holder (index + 1) values
    else throw (.invalidArgumentType index expected.descriptor value.typeName)

def validateReferenceCallArgs (holder : RawClass S) (expected : List JavaType)
    (values : List (JavaValue (Ref S))) : SessionM ω S Unit :=
  validateEach vm holder 0 (expected.zip values)

def validateReferenceFieldValue (holder : RawClass S) (expected : JavaType)
    (value : JavaValue (Ref S)) (operation : String) : SessionM ω S Unit := do
  if ← isReferenceValueAssignable vm holder expected value then pure ()
  else throw (.invalidFieldValueType operation expected.descriptor value.typeName)

def validateSelectedReceiver (holder : RawClass S) (object : Option S) (operation : String) :
    SessionM ω S Unit :=
  match object with
  | none => throw (.nullReturn operation)
  | some object => do
    if ← RawClass.isInstance vm holder (.supplied object) then pure ()
    else withAttached vm do
      let actual ← getObjectClass vm (.supplied object)
      throw (.invalidObjectType operation "selected member declaring class"
        (vm.address actual ++ " is not " ++ holder.name))

/-! ## Operations -/

namespace JavaConstructor

def newObject (selected : JavaConstructor S) (args : JavaCallArgs S) : SessionM ω S V :=
  withArgs vm floats selected.metadata.signature.arguments args fun values ↦ do
    validateReferenceCallArgs vm selected.holder selected.metadata.signature.arguments values
    RawClass.newObject vm selected.holder selected.metadata.signature.descriptor values

end JavaConstructor

namespace JavaMethod

/-- The arm of a static method, which both kinds of receiver share. -/
def callStatic (method : JavaMethod S) (args : JavaCallArgs S) : SessionM ω S V :=
  withArgs vm floats method.metadata.signature.arguments args fun values ↦ do
    validateReferenceCallArgs vm method.holder method.metadata.signature.arguments values
    RawClass.callStatic vm method.holder method.metadata.name method.metadata.signature.descriptor
      values

def callInstance (method : JavaMethod S) (object : Option S) (args : JavaCallArgs S) :
    SessionM ω S V := do
  validateSelectedReceiver vm method.holder object "JavaMethod::call receiver"
  withArgs vm floats method.metadata.signature.arguments args fun values ↦ do
    validateReferenceCallArgs vm method.holder method.metadata.signature.arguments values
    RawClass.callMethod vm method.holder object method.metadata.name
      method.metadata.signature.descriptor values

/-- `JavaMethodReceiver::call`. -/
def call (method : JavaMethod S) (receiver : Receiver S) (args : JavaCallArgs S) :
    SessionM ω S V :=
  match receiver with
  | .unit =>
    if method.metadata.kind ≠ .staticMethod then throw (.wrongMethodKind "JavaMethod::call")
    else callStatic vm floats method args
  | .object object =>
    match method.metadata.kind with
    | .instanceMethod => callInstance vm floats method object args
    | .staticMethod => callStatic vm floats method args
    | .constructor => throw (.wrongMethodKind "JavaMethod::call")

end JavaMethod

namespace JavaField

/-- `JavaFieldReceiver::get`. -/
def get (field : JavaField S) (receiver : Receiver S) : SessionM ω S V :=
  match receiver with
  | .unit =>
    if field.metadata.kind ≠ .staticField then throw (.wrongFieldKind "JavaField::get")
    else RawClass.getStaticField vm field.holder field.metadata.name field.metadata.ty.descriptor
  | .object object =>
    if field.metadata.kind ≠ .instanceField then throw (.wrongFieldKind "JavaField::get")
    else do
      validateSelectedReceiver vm field.holder object "JavaField::get receiver"
      RawClass.getField vm field.holder object field.metadata.name field.metadata.ty.descriptor

/-- What both kinds of receiver do with a value. Its local reference is deleted once the field has
been written, or could not be. -/
def setWith (field : JavaField S) (value : JavaOverloadArg S)
    (write : JavaValue (Ref S) → SessionM ω S Unit) : SessionM ω S Unit :=
  withAttached vm do
    let value ← intoJavaFieldValue vm floats value field.metadata.ty "JavaField::set"
    defer value.deleteLocalRef do
      validateReferenceFieldValue vm field.holder field.metadata.ty value.value "JavaField::set"
      write value.value

/-- `JavaFieldReceiver::set`. -/
def set (field : JavaField S) (receiver : Receiver S) (value : JavaOverloadArg S) :
    SessionM ω S Unit :=
  match receiver with
  | .unit =>
    if field.metadata.kind ≠ .staticField then throw (.wrongFieldKind "JavaField::set")
    else setWith vm floats field value
      (RawClass.setStaticField vm field.holder field.metadata.name field.metadata.ty.descriptor)
  | .object object =>
    if field.metadata.kind ≠ .instanceField then throw (.wrongFieldKind "JavaField::set")
    else do
      validateSelectedReceiver vm field.holder object "JavaField::set receiver"
      setWith vm floats field value
        (RawClass.setField vm field.holder object field.metadata.name field.metadata.ty.descriptor)

end JavaField

/-- An operation of a selected member. -/
inductive Operation (S : Type)
  | newObject (selected : JavaConstructor S) (args : JavaCallArgs S)
  | call (method : JavaMethod S) (receiver : Receiver S) (args : JavaCallArgs S)
  | get (field : JavaField S) (receiver : Receiver S)
  | set (field : JavaField S) (receiver : Receiver S) (value : JavaOverloadArg S)

/-- The operation, with what it returns if it returns anything. -/
def Operation.run : Operation S → SessionM ω S (Option V)
  | .newObject selected args => do return some (← selected.newObject vm floats args)
  | .call method receiver args => do return some (← method.call vm floats receiver args)
  | .get field receiver => do return some (← field.get vm receiver)
  | .set field receiver value => do
    field.set vm floats receiver value
    return none

/-- The first string that an operation makes without having looked for an exception before. An
operation on an object looks for one when it checks the object. -/
def Operation.firstString : Operation S → Option String
  | .newObject selected args => args.firstString floats selected.metadata.signature.arguments
  | .call method _ args =>
    if method.metadata.kind = .staticMethod then
      args.firstString floats method.metadata.signature.arguments
    else none
  | .set field .unit value =>
    if field.metadata.kind = .staticField then valueString value field.metadata.ty else none
  | .get .. | .set _ (.object _) _ => none

/-- That string is made while an exception is pending. -/
def Operation.Forgets (operation : Operation S) (world : ω) (thread : Vm.NativeThread) : Prop :=
  (Session.start world thread).Forgets vm (operation.firstString floats)

end

/-! ## What operations borrow -/

section Borrowing

variable {ω S M V α : Type} {vm : Jvm ω S M V} {floats : Floats} {borrowed : List (Ref S)}

theorem temporaries_references (jniCall : JniCall S M) :
    temporaries jniCall.references = temporaries (jniCall.values.filterMap JavaValue.reference) := by
  rw [temporaries, JniCall.references, List.filter_append]
  cases jniCall.target <;> rfl

theorem temporaries_subset {value : JavaValue (Ref S)} {values : List (JavaValue (Ref S))}
    (h : value ∈ values) :
    temporaries value.reference.toList ⊆ temporaries (values.filterMap JavaValue.reference) := by
  refine List.filter_subset _ ?_
  intro reference hreference
  exact List.mem_filterMap.2 ⟨value, h, Option.mem_toList.1 hreference⟩

theorem temporaries_singleton (value : JavaValue (Ref S)) :
    temporaries ([value].filterMap JavaValue.reference) ⊆ temporaries value.reference.toList := by
  cases h : value.reference <;> simp [h]

theorem borrows_invoke (jniCall : JniCall S M) :
    Borrows account (invoke vm jniCall)
      (temporaries (jniCall.values.filterMap JavaValue.reference)) := by
  rw [← temporaries_references]
  exact (borrows_use _).bind fun _ ↦ borrows_call _

theorem borrows_isInstanceOf (object : Ref S) (holder : RawClass S) :
    Borrows account (isInstanceOf vm object holder) (temporaries [object]) :=
  (borrows_use _).bind fun _ ↦ (borrows_ask _).bind fun _ ↦
    (borrows_checkPendingException _).bind fun _ ↦ .pure

theorem borrows_getObjectClass (object : Ref S) :
    Borrows account (getObjectClass vm object) (temporaries [object]) :=
  (borrows_use _).bind fun _ ↦ borrows_call _

theorem borrows_classForDispatchType (holder : RawClass S) (ty : JavaType) :
    Borrows account (classForDispatchType vm holder ty) borrowed :=
  borrows_withAttached (borrows_call _)

theorem borrows_isReferenceValueAssignable (holder : RawClass S) (expected : JavaType)
    (value : JavaValue (Ref S)) :
    Borrows account (isReferenceValueAssignable vm holder expected value)
      (temporaries value.reference.toList) := by
  unfold isReferenceValueAssignable
  split
  · next object =>
    split
    · exact .pure
    · refine (borrows_classForDispatchType holder expected).bind fun expectedClass ↦ ?_
      exact borrows_withAttached (borrows_isInstanceOf object expectedClass)
  · exact .pure

theorem borrows_validateEach (holder : RawClass S) (index : Nat)
    {values : List (JavaType × JavaValue (Ref S))}
    (h : ∀ p ∈ values, temporaries p.2.reference.toList ⊆ borrowed) :
    Borrows account (validateEach vm holder index values) borrowed := by
  induction values generalizing index with
  | nil => exact .pure
  | cons p values ih =>
    obtain ⟨hp, hvalues⟩ := List.forall_mem_cons.1 h
    refine ((borrows_isReferenceValueAssignable holder p.1 p.2).mono hp).bind fun assignable ↦ ?_
    cases assignable with
    | true => exact ih (index + 1) hvalues
    | false => exact .throw

theorem borrows_validateReferenceCallArgs (holder : RawClass S) (expected : List JavaType)
    (values : List (JavaValue (Ref S))) :
    Borrows account (validateReferenceCallArgs vm holder expected values)
      (temporaries (values.filterMap JavaValue.reference)) := by
  refine borrows_validateEach holder 0 ?_
  intro p hp
  exact temporaries_subset (List.of_mem_zip hp).2

theorem borrows_validateReferenceFieldValue (holder : RawClass S) (expected : JavaType)
    (value : JavaValue (Ref S)) (operation : String) :
    Borrows account (validateReferenceFieldValue vm holder expected value operation)
      (temporaries value.reference.toList) := by
  refine (borrows_isReferenceValueAssignable holder expected value).bind fun assignable ↦ ?_
  cases assignable with
  | true => exact .pure
  | false => exact .throw

theorem borrows_callWith (holder : RawClass S) (kind : MethodKind) (name signature : String)
    {args : List (JavaValue (Ref S))} {jniCall : M → JniCall S M}
    (h : ∀ method, (jniCall method).values = args) :
    Borrows account (RawClass.callWith vm holder kind name signature args jniCall)
      (temporaries (args.filterMap JavaValue.reference)) := by
  refine borrows_withAttached ((borrows_call _).bind fun method ↦ ?_)
  refine Borrows.ofExcept.bind fun _ ↦ ?_
  have hinvoke : Borrows account (invoke vm (jniCall method.raw)) _ := borrows_invoke _
  rwa [h] at hinvoke

/-- What is written to a field is held meanwhile. -/
theorem borrows_writeField (holder : RawClass S) (kind : FieldKind) (name ty : String)
    {value : JavaValue (Ref S)} (jniCall : M → JniCall S M)
    (h : ∀ field, (jniCall field).values = [value]) :
    Borrows account (withAttached vm do
        let field ← call (vm.cachedField holder kind name ty)
        MonadExcept.ofExcept (validateFieldValue field value)
        let _ ← invoke vm (jniCall field.raw)
        pure ())
      (temporaries value.reference.toList) := by
  refine borrows_withAttached ((borrows_call _).bind fun field ↦ ?_)
  refine Borrows.ofExcept.bind fun _ ↦ ?_
  have hinvoke : Borrows account (invoke vm (jniCall field.raw)) _ := borrows_invoke _
  rw [h] at hinvoke
  exact (hinvoke.mono (temporaries_singleton value)).bind fun _ ↦ .pure

theorem borrows_setField (holder : RawClass S) (object : Option S) (name ty : String)
    (value : JavaValue (Ref S)) :
    Borrows account (RawClass.setField vm holder object name ty value)
      (temporaries value.reference.toList) :=
  borrows_writeField holder .instanceField name ty (fun field ↦ .setField object field value)
    fun _ ↦ rfl

theorem borrows_setStaticField (holder : RawClass S) (name ty : String)
    (value : JavaValue (Ref S)) :
    Borrows account (RawClass.setStaticField vm holder name ty value)
      (temporaries value.reference.toList) :=
  borrows_writeField holder .staticField name ty
    (fun field ↦ .setStaticField holder.global field value) fun _ ↦ rfl

end Borrowing

/-! ## What operations leave behind -/

section Leaving

variable {ω S M V α : Type} {vm : Jvm ω S M V} {floats : Floats}

/-- A program that borrows nothing, with a guard of its own. -/
theorem conserves_of_borrows {body : SessionM ω S α} (h : Borrows account body []) :
    Conserves (withAttached vm body) := by
  refine conserves_withAttached ?_
  intro s rest hready hheld
  exact h s rest (List.nil_subset _) hready hheld

theorem conserves_validateSelectedReceiver (holder : RawClass S) (object : Option S)
    (operation : String) :
    Conserves (validateSelectedReceiver vm holder object operation) := by
  unfold validateSelectedReceiver
  cases object with
  | none => exact .throw
  | some object =>
    refine (conserves_of_borrows (borrows_isInstanceOf _ holder)).bind fun isInstance ↦ ?_
    cases isInstance with
    | true => exact .pure
    | false =>
      refine conserves_of_borrows ?_
      exact (borrows_getObjectClass (.supplied object)).bind fun _ ↦ .throw

/-- A receiver that is accepted has been checked, and no exception is pending. -/
theorem wp_validateSelectedReceiver (holder : RawClass S) (object : Option S) (operation : String)
    (s : Session ω S) :
    wp (validateSelectedReceiver vm holder object operation)
      (fun _ t ↦ vm.exceptionCheck t.world = false) (fun _ _ ↦ True) s := by
  unfold validateSelectedReceiver
  cases object with
  | none => trivial
  | some object =>
    have hchecked : wp (RawClass.isInstance vm holder (.supplied object))
        (fun _ t ↦ vm.exceptionCheck t.world = false) (fun _ _ ↦ True) s := by
      refine wp_withAttached_of_world (P := fun world ↦ vm.exceptionCheck world = false) fun t ↦ ?_
      rw [isInstanceOf, wp_bind, use, wp_modify, wp_bind, ask, wp_modifyGet, wp_bind]
      exact wp_checkPendingException id fun _ _ _ ↦ trivial
    rw [wp_bind]
    refine wp_mono hchecked ?_ fun _ _ _ ↦ trivial
    intro isInstance t ht
    cases isInstance with
    | true => exact ht
    | false =>
      refine wp_withAttached_of_world (P := fun world ↦ vm.exceptionCheck world = false) fun u ↦ ?_
      rw [wp_bind]
      exact wp_mono wp_true (fun _ _ _ ↦ trivial) fun _ _ _ ↦ trivial

/-- An operation on an object: its strings are made where no exception is pending. -/
theorem conservesUnless_of_receiver (hvm : vm.LeavesExceptions) {holder : RawClass S}
    {object : Option S} {operation : String} {string : Option String} {body : SessionM ω S α}
    (h : ConservesUnless (Session.Forgets vm string) body) :
    ConservesUnless (Session.Forgets vm none) (do
      validateSelectedReceiver vm holder object operation
      body) := by
  refine ConservesUnless.after (conserves_validateSelectedReceiver holder object operation)
    (fun _ ↦ h) (fun _ ↦ not_forgets_none) fun s ↦ ?_
  refine wp_mono (wp_validateSelectedReceiver holder object operation s) ?_ fun _ _ _ ↦ trivial
  rintro _ t ht ⟨-, hforgets⟩
  exact not_forgetsAny (hvm.attach t.world ht) hforgets

theorem conserves_getField (holder : RawClass S) (object : Option S) (name ty : String) :
    Conserves (RawClass.getField vm holder object name ty) :=
  conserves_of_borrows ((borrows_call _).bind fun field ↦ borrows_invoke (.getField object field.raw))

theorem conserves_getStaticField (holder : RawClass S) (name ty : String) :
    Conserves (RawClass.getStaticField vm holder name ty) :=
  conserves_of_borrows ((borrows_call _).bind fun field ↦
    borrows_invoke (.getStaticField holder.global field.raw))

theorem JavaConstructor.conservesUnless_newObject (hvm : vm.LeavesExceptions)
    (selected : JavaConstructor S) (args : JavaCallArgs S) :
    ConservesUnless
      (Session.Forgets vm (args.firstString floats selected.metadata.signature.arguments))
      (selected.newObject vm floats args) := by
  refine conservesUnless_withArgs hvm _ args fun values ↦ ?_
  exact (borrows_validateReferenceCallArgs _ _ values).bind fun _ ↦
    borrows_callWith _ _ _ _ fun _ ↦ rfl

namespace JavaMethod

theorem conservesUnless_callStatic (hvm : vm.LeavesExceptions) (method : JavaMethod S)
    (args : JavaCallArgs S) :
    ConservesUnless
      (Session.Forgets vm (args.firstString floats method.metadata.signature.arguments))
      (method.callStatic vm floats args) := by
  refine conservesUnless_withArgs hvm _ args fun values ↦ ?_
  exact (borrows_validateReferenceCallArgs _ _ values).bind fun _ ↦
    borrows_callWith _ _ _ _ fun _ ↦ rfl

theorem conservesUnless_callInstance (hvm : vm.LeavesExceptions) (method : JavaMethod S)
    (object : Option S) (args : JavaCallArgs S) :
    ConservesUnless (Session.Forgets vm none)
      (method.callInstance vm floats object args) := by
  refine conservesUnless_of_receiver hvm (conservesUnless_withArgs hvm _ args fun values ↦ ?_)
  exact (borrows_validateReferenceCallArgs _ _ values).bind fun _ ↦
    borrows_callWith _ _ _ _ fun _ ↦ rfl

theorem conservesUnless_call (hvm : vm.LeavesExceptions) (method : JavaMethod S)
    (receiver : Receiver S) (args : JavaCallArgs S) :
    ConservesUnless (Session.Forgets vm ((Operation.call method receiver args).firstString floats))
      (method.call vm floats receiver args) := by
  unfold call
  dsimp only [Operation.firstString]
  cases method.metadata.kind with
  | instanceMethod =>
    cases receiver with
    | unit => exact conservesUnless_throw
    | object object => exact conservesUnless_callInstance hvm method object args
  | staticMethod =>
    cases receiver with
    | unit => exact conservesUnless_callStatic hvm method args
    | object object => exact conservesUnless_callStatic hvm method args
  | constructor =>
    cases receiver with
    | unit => exact conservesUnless_throw
    | object object => exact conservesUnless_throw

end JavaMethod

namespace JavaField

theorem conserves_get (field : JavaField S) (receiver : Receiver S) :
    Conserves (field.get vm receiver) := by
  unfold get
  cases receiver with
  | unit =>
    dsimp only
    split
    · exact .throw
    · exact conserves_getStaticField _ _ _
  | object object =>
    dsimp only
    split
    · exact .throw
    · exact (conserves_validateSelectedReceiver _ _ _).bind fun _ ↦ conserves_getField _ _ _ _

/-- The value is written while its local reference is held. -/
theorem conservesUnless_setWith (hvm : vm.LeavesExceptions) (field : JavaField S)
    (value : JavaOverloadArg S) {write : JavaValue (Ref S) → SessionM ω S Unit}
    (hwrite : ∀ value, Borrows account (write value) (temporaries value.reference.toList)) :
    ConservesUnless (Session.Forgets vm (valueString value field.metadata.ty))
      (field.setWith vm floats value write) := by
  refine conservesUnless_withAttached ?_
  intro s rest hready hheld
  rw [wp_bind]
  refine wp_mono (wp_and (settlesUnless_intoJavaFieldValue hvm value _ _ s rest hready hheld)
    (keeps_intoJavaFieldValue value _ _ s trivial)) ?_ fun _ _ ht ↦ ht.1
  rintro value t ⟨⟨hnot, hready, hheld⟩, -, hcovered⟩
  have hbody : Borrows account (do
      validateReferenceFieldValue vm field.holder field.metadata.ty value.value "JavaField::set"
      write value.value) (temporaries value.value.reference.toList) :=
    (borrows_validateReferenceFieldValue _ _ _ _).bind fun _ ↦ hwrite value.value
  refine wp_mono ((hbody.mono hcovered).defer (releases_deleteEach value.localRef.toList) t rest
    hready hheld) (fun _ _ hu ↦ ⟨hnot, hu⟩) ?_
  intro _ u hu
  exact ⟨hu.1, [], iff_of_false (absurd rfl) hnot, hu.2⟩

theorem conservesUnless_set (hvm : vm.LeavesExceptions) (field : JavaField S)
    (receiver : Receiver S) (value : JavaOverloadArg S) :
    ConservesUnless (Session.Forgets vm ((Operation.set field receiver value).firstString floats))
      (field.set vm floats receiver value) := by
  unfold set
  cases receiver with
  | unit =>
    dsimp only [Operation.firstString]
    cases field.metadata.kind with
    | instanceField => exact conservesUnless_throw
    | staticField =>
      exact conservesUnless_setWith hvm field value fun value ↦ borrows_setStaticField _ _ _ value
  | object object =>
    dsimp only [Operation.firstString]
    split
    · exact conservesUnless_throw
    · refine conservesUnless_of_receiver hvm (conservesUnless_setWith hvm field value ?_)
      exact fun value ↦ borrows_setField _ _ _ _ value

end JavaField

theorem Operation.conservesUnless (hvm : vm.LeavesExceptions) (operation : Operation S) :
    ConservesUnless (Session.Forgets vm (operation.firstString floats))
      (operation.run vm floats) := by
  cases operation with
  | newObject selected args => exact (selected.conservesUnless_newObject hvm args).bind_pure
  | call method receiver args => exact (method.conservesUnless_call hvm receiver args).bind_pure
  | get field receiver =>
    exact .of_conserves ((field.conserves_get receiver).bind fun _ ↦ .pure)
      fun _ ↦ not_forgets_none
  | set field receiver value => exact (field.conservesUnless_set hvm receiver value).bind_pure

end Leaving

/-! ## The law -/

/-- Each reference that was made for a Rust string has been deleted, once, and nothing else has. At
every use it was alive, and it was gone before the thread was detached. -/
structure DeletedOnce {ω S : Type} (s : Session ω S) : Prop where
  perm : (deletions s.events).Perm (creations s.events)
  nodup : (creations s.events).Nodup
  supplied : ∀ object, .supplied object ∉ deletions s.events
  run : lifetimes.run [] s.events = some []

theorem Ref.temporary_injective {S : Type} :
    Function.Injective (Ref.temporary : Nat → Ref S) := fun _ _ h ↦ Ref.temporary.inj h

theorem Clean.deletedOnce {ω S : Type} {s : Session ω S} (h : Clean s) : DeletedOnce s where
  perm := h.holds
  nodup := by
    rw [h.tracked.creations_eq]
    exact List.nodup_range.map Ref.temporary_injective
  supplied object hmem := by
    have hcreated := h.holds.subset hmem
    change Ref.supplied object ∈ creations s.events at hcreated
    rw [h.tracked.creations_eq] at hcreated
    obtain ⟨n, -, hn⟩ := List.mem_map.1 hcreated
    cases hn
  run := by
    obtain ⟨live, hrun, hlive⟩ := h.tracked.exists_held h.holds
    have hnil : live = [] := List.map_eq_nil_iff.1 hlive.eq_nil
    rw [hrun, hnil]

/-- However an operation ends, and wherever it fails, each local reference that it made for a Rust
string has been deleted once, after the last JNI function that was given it: exactly unless its first
string is made while an exception is pending. -/
theorem temporaries_deleted_once_iff {ω S M V : Type} (vm : Jvm ω S M V) (floats : Floats)
    (hvm : vm.LeavesExceptions) (operation : Operation S) (world : ω) (thread : Vm.NativeThread) :
    wp (operation.run vm floats) (fun _ t ↦ DeletedOnce t) (fun _ t ↦ DeletedOnce t)
      (.start world thread) ↔ ¬operation.Forgets vm floats world thread := by
  have h : ConservesUnless _ (operation.run vm floats) := operation.conservesUnless hvm
  have hrun := h _ (clean_start world thread)
  rw [wp] at hrun ⊢
  split at hrun
  · exact iff_of_true hrun.2.deletedOnce hrun.1
  · exact ⟨fun ht hforgets ↦ hrun.2 hforgets ht.perm, fun hnot ↦ (hrun.1 hnot).deletedOnce⟩

def printSignature : MethodSignature :=
  ⟨[.object "java/lang/String", .object "java/lang/Object"], .void⟩

/-- A static method with a Rust string and an object of the caller. -/
def print : Operation Unit :=
  .call ⟨⟨"Log", ()⟩, ⟨"print", .staticMethod, printSignature⟩⟩ .unit
    (.tuple [.rustString "text", .value (.object (some ()))])

/-- A VM where every call succeeds. Its state says whether an exception is pending. -/
def lenientVm : Jvm Bool Unit Unit Unit where
  attach pending := (Vm.accepted, pending)
  newStringUtf _ pending := (true, pending)
  exceptionCheck pending := pending
  takePendingException _ := (("java.lang.Error", none), false)
  findClass _ name pending := (.ok ⟨name, ()⟩, pending)
  isInstanceOf _ _ pending := (true, pending)
  getObjectClass _ pending := (.ok (), pending)
  address _ := "0x1000"
  cachedMethod _ _ _ _ pending := (.ok ⟨(), printSignature⟩, pending)
  cachedField _ _ _ ty pending := (.ok ⟨(), .object ty⟩, pending)
  invoke _ pending := (.ok (), pending)

theorem leavesExceptions_lenientVm : lenientVm.LeavesExceptions where
  attach _ h := h
  newStringUtf _ _ _ := rfl

def noFloats : Floats := ⟨fun _ ↦ 0, fun _ ↦ 0, fun _ ↦ ""⟩

/-- An exception is pending, and the string is left. -/
theorem not_temporaries_deleted_once_print :
    lenientVm.LeavesExceptions ∧
      (outcome (print.run lenientVm noFloats) (.start true ⟨some ⟨0x1000, by decide⟩⟩)).2.events =
        [.created 0] ∧
      ¬wp (print.run lenientVm noFloats) (fun _ t ↦ DeletedOnce t) (fun _ t ↦ DeletedOnce t)
        (.start true ⟨some ⟨0x1000, by decide⟩⟩) := by
  have hevents : (outcome (print.run lenientVm noFloats)
      (.start true ⟨some ⟨0x1000, by decide⟩⟩)).2.events = [.created 0] := by
    decide +kernel
  refine ⟨leavesExceptions_lenientVm, hevents, ?_⟩
  -- the call itself is not to be run
  generalize print.run lenientVm noFloats = call at hevents ⊢
  intro h
  have hdeleted := ((wp_iff_outcome (P := fun _ t ↦ DeletedOnce t)).1 h).perm
  rw [hevents] at hdeleted
  exact absurd hdeleted.length_eq (by decide)

theorem temporaries_deleted_once_print :
    (outcome (print.run lenientVm noFloats) (.start false ⟨none⟩)).2.events =
        [.created 0, .used [.temporary 0], .used [.supplied ()],
          .used [.supplied (), .temporary 0, .supplied ()], .deleted (.temporary 0), .detached] ∧
      wp (print.run lenientVm noFloats) (fun _ t ↦ DeletedOnce t) (fun _ t ↦ DeletedOnce t)
        (.start false ⟨none⟩) := by
  constructor
  · decide +kernel
  · -- the call itself is not to be run
    generalize print = operation
    refine (temporaries_deleted_once_iff lenientVm noFloats leavesExceptions_lenientVm operation
      false ⟨none⟩).2 ?_
    rintro ⟨-, _, -, hpending, -⟩
    cases hpending

end JavaBridge.Java.Members

import JavaBridge.Descriptor
import JavaBridge.Hook.Arguments

/-!
# Calling the original

`call_original` of each kind of hook: the arguments are prepared, the method is looked up again, and
the original is called through the JNI.

Main results:

* `calls_callOriginal`: from any state, `call_original` either calls an original once, with prepared
  arguments and with nothing pending beforehand, or fails without a call. An exception that the
  original throws is reported and left pending; any other exception that is reported has been taken.
-/

namespace JavaBridge.Hook

open Fallible Thread

variable {ω R M : Type} (jni : Jni ω R M) (floats : Floats) (display : Error R → String)

def prepareOriginalCallArgsForEnv (signature : String) (args : List (JavaOverloadArg R)) :
    JniM ω R M (MethodSignature × PreparedJavaCallArgs R) := do
  let parsed ← MonadExcept.ofExcept (MethodSignature.parse signature)
  let args ← prepareCallArgs jni floats args parsed.arguments
  pure (parsed, args)

/-- Calls through the function of the family that the return type picks. -/
def callByReturn {κ : Type} (family : CallFamily ω R κ) (toCall : κ → Call R M) (call : κ) :
    JavaType → JniM ω R M (RawJavaReturn (Option R))
  | .void => do (family.void call).invoke (toCall call); pure .void
  | .boolean => do return .boolean (← (family.boolean call).invoke (toCall call))
  | .byte => do return .byte (← (family.byte call).invoke (toCall call))
  | .char => do return .char (← (family.char call).invoke (toCall call))
  | .short => do return .short (← (family.short call).invoke (toCall call))
  | .int => do return .int (← (family.int call).invoke (toCall call))
  | .long => do return .long (← (family.long call).invoke (toCall call))
  | .float => do return .float (← (family.float call).invoke (toCall call))
  | .double => do return .double (← (family.double call).invoke (toCall call))
  | .object _ | .array _ => do return .object (← (family.object call).invoke (toCall call))

def callOriginalStaticByReturn (holder : R) (method : M) (returnType : JavaType)
    (args : List (JavaValue R)) : JniM ω R M (RawJavaReturn (Option R)) := do
  let result ← callByReturn jni.callStaticMethodA .static ⟨holder, method, args⟩ returnType
  checkPendingExceptionPreserveRaw jni display "JNIEnv::CallStaticMethodA"
  pure result

def callOriginalInstanceByReturn (receiver : R) (method : M) (returnType : JavaType)
    (args : List (JavaValue R)) : JniM ω R M (RawJavaReturn (Option R)) := do
  let result ← callByReturn jni.callMethodA .virtual ⟨receiver, method, args⟩ returnType
  checkPendingExceptionPreserveRaw jni display "JNIEnv::CallMethodA"
  pure result

def callOriginalStaticMethod (env : Option Unit) (holder : Option R) (name signature : String)
    (args : List (JavaOverloadArg R)) : JniM ω R M (RawJavaReturn (Option R)) := do
  nonNullEnv env
  match holder with
  | none => throw (.nullReturn "replacement class")
  | some holder =>
    let (parsed, args) ← prepareOriginalCallArgsForEnv jni floats signature args
    defer args.drop do
      let name ← cString name
      let signature ← cString signature
      let method ← (jni.getStaticMethodId holder name signature).run
      checkPendingExceptionRaw jni "JNIEnv::GetStaticMethodID"
      match method with
      | none => throw (.nullReturn "JNIEnv::GetStaticMethodID")
      | some method =>
        callOriginalStaticByReturn jni display holder method parsed.returnType args.values

/-- The part of `call_original_instance_method` that holds the receiver's class. -/
def callOriginalInstanceOf (receiver jclass : R) (name signature : String)
    (args : List (JavaOverloadArg R)) : JniM ω R M (RawJavaReturn (Option R)) := do
  let (parsed, args) ← prepareOriginalCallArgsForEnv jni floats signature args
  defer args.drop do
    let name ← cString name
    let signature ← cString signature
    let method ← (jni.getMethodId jclass name signature).run
    checkPendingExceptionRaw jni "JNIEnv::GetMethodID"
    match method with
    | none => throw (.nullReturn "JNIEnv::GetMethodID")
    | some method =>
      callOriginalInstanceByReturn jni display receiver method parsed.returnType args.values

def callOriginalInstanceMethod (env : Option Unit) (receiver : Option R) (name signature : String)
    (args : List (JavaOverloadArg R)) : JniM ω R M (RawJavaReturn (Option R)) := do
  nonNullEnv env
  match receiver with
  | none => throw (.nullReturn "replacement receiver")
  | some receiver =>
    let jclass ← (jni.getObjectClass receiver).run
    checkPendingExceptionRaw jni "JNIEnv::GetObjectClass"
    match jclass with
    | none => throw (.nullReturn "JNIEnv::GetObjectClass")
    | some jclass =>
      defer (Thread.record (.deleteLocalRef jclass))
        (callOriginalInstanceOf jni floats display receiver jclass name signature args)

/-- The lookup and the call of `call_original_constructor_method`. -/
def callOriginalInit (receiver declaringClass : R) (signature : String)
    (args : List (JavaValue R)) : JniM ω R M (RawJavaReturn (Option R)) := do
  let name ← cString "<init>"
  let signature ← cString signature
  let method ← (jni.getMethodId declaringClass name signature).run
  checkPendingExceptionRaw jni "JNIEnv::GetMethodID(<init>)"
  match method with
  | none => throw (.nullReturn "JNIEnv::GetMethodID(<init>)")
  | some method =>
    let call : NonvirtualCall R M := ⟨receiver, declaringClass, method, args⟩
    (jni.callNonvirtualVoidMethodA call).invoke (.nonvirtual call)
    checkPendingExceptionPreserveRaw jni display "JNIEnv::CallNonvirtualVoidMethodA"
    pure .void

def callOriginalConstructorMethod (env : Option Unit) (receiver : Option R) (declaringClass : R)
    (signature : String) (args : List (JavaOverloadArg R)) :
    JniM ω R M (RawJavaReturn (Option R)) := do
  nonNullEnv env
  match receiver with
  | none => throw (.nullReturn "replacement receiver")
  | some receiver =>
    let (parsed, args) ← prepareOriginalCallArgsForEnv jni floats signature args
    defer args.drop do
      if parsed.returnType ≠ .void then
        throw (.invalidReturnType "ReplacementInvocation::call_original" "void"
          parsed.returnType.descriptor)
      else callOriginalInit jni display receiver declaringClass signature args.values

/-! ## Invocations -/

/-- The arguments of a hook's error handler. -/
structure JavaHookError where
  kind : MethodKind
  name : String
  signature : MethodSignature
  error : String

/-- What an invocation reads of the hook it belongs to. -/
structure ClosureReplacementState (R : Type) where
  targetClass : R
  kind : MethodKind
  name : String
  signature : MethodSignature
  /-- The error handler, where one is set: whether it panics. -/
  errorHandler : Option (JavaHookError → Bool)

structure ReplacementInvocation (R : Type) where
  state : ClosureReplacementState R
  env : Option Unit
  target : Option R
  arguments : List (JavaValue R)

namespace ReplacementInvocation

/-- Calls the replaced method's original implementation from this closure. -/
def callOriginal (invocation : ReplacementInvocation R) (args : List (JavaOverloadArg R)) :
    JniM ω R M (RawJavaReturn (Option R)) :=
  let signature := invocation.state.signature.descriptor
  match invocation.state.kind with
  | .staticMethod =>
    callOriginalStaticMethod jni floats display invocation.env invocation.target
      invocation.state.name signature args
  | .instanceMethod =>
    callOriginalInstanceMethod jni floats display invocation.env invocation.target
      invocation.state.name signature args
  | .constructor =>
    callOriginalConstructorMethod jni floats display invocation.env invocation.target
      invocation.state.targetClass signature args

end ReplacementInvocation

/-! ## What a call does -/

/-- How an attempt to call an original ends, where `P` holds of the call. -/
inductive CallOutcome (P : Call R M → Prop) (s : Thread ω R M) :
    Except (Error R) (RawJavaReturn (Option R)) → Thread ω R M → Prop
  | returned {value : RawJavaReturn (Option R)} {t : Thread ω R M} (call : Call R M) (hcall : P call)
    (hs : s.pending = none) (calls : t.calls = s.calls ++ [call]) (lastError : t.lastError = s.lastError)
    (pending : t.pending = none) : CallOutcome P s (.ok value) t
  | threw {operation summary : String} {t : Thread ω R M} (call : Call R M) (hcall : P call)
    (hs : s.pending = none) (calls : t.calls = s.calls ++ [call]) (lastError : t.lastError = s.lastError)
    (pending : t.pending ≠ none) : CallOutcome P s (.error (.javaException operation summary none)) t
  | failed {e : Error R} {t : Thread ω R M} (h : s.Failed e t) : CallOutcome P s (.error e) t

namespace CallOutcome

variable {P : Call R M → Prop} {s t u : Thread ω R M}
  {r : Except (Error R) (RawJavaReturn (Option R))}

theorem after_passed (h : s.Passed t) (h' : CallOutcome P t r u) : CallOutcome P s r u := by
  cases h' with
  | returned call hcall hs calls lastError pending =>
    exact .returned call hcall (h.pending ▸ hs) (calls.trans (by rw [h.calls]))
      (lastError.trans h.lastError) pending
  | threw call hcall hs calls lastError pending =>
    exact .threw call hcall (h.pending ▸ hs) (calls.trans (by rw [h.calls]))
      (lastError.trans h.lastError) pending
  | failed h' => exact .failed (h.failed h')

theorem mono {P' : Call R M → Prop} (h : CallOutcome P s r t) (hP : ∀ call, P call → P' call) :
    CallOutcome P' s r t := by
  cases h with
  | returned call hcall hs calls lastError pending =>
    exact .returned call (hP call hcall) hs calls lastError pending
  | threw call hcall hs calls lastError pending =>
    exact .threw call (hP call hcall) hs calls lastError pending
  | failed h => exact .failed h

theorem passed (h : CallOutcome P s r t) (h' : t.Passed u) : CallOutcome P s r u := by
  cases h with
  | returned call hcall hs calls lastError pending =>
    exact .returned call hcall hs (h'.calls.trans calls) (h'.lastError.trans lastError)
      (h'.pending.trans pending)
  | threw call hcall hs calls lastError pending =>
    exact .threw call hcall hs (h'.calls.trans calls) (h'.lastError.trans lastError)
      (h'.pending ▸ pending)
  | failed h => exact .failed (h.passed h')

/-- There is one call, or none. -/
theorem calls_eq (h : CallOutcome P s r t) :
    (∃ call, P call ∧ t.calls = s.calls ++ [call]) ∨ t.calls = s.calls := by
  cases h with
  | returned call hcall _ calls _ _ => exact .inl ⟨call, hcall, calls⟩
  | threw call hcall _ calls _ _ => exact .inl ⟨call, hcall, calls⟩
  | failed h => exact .inr h.calls

end CallOutcome

/-- From any state with nothing pending, the program ends as an attempt to call an original. -/
def CallsFromClear (P : Call R M → Prop) (x : JniM ω R M (RawJavaReturn (Option R))) : Prop :=
  ∀ s, s.pending = none →
    wp x (fun v t ↦ CallOutcome P s (.ok v) t) (fun e t ↦ CallOutcome P s (.error e) t) s

/-- From any state, the program ends as an attempt to call an original. -/
def Calls (P : Call R M → Prop) (x : JniM ω R M (RawJavaReturn (Option R))) : Prop :=
  ∀ s, wp x (fun v t ↦ CallOutcome P s (.ok v) t) (fun e t ↦ CallOutcome P s (.error e) t) s

namespace Calls

variable {P : Call R M → Prop} {α : Type} {x : JniM ω R M (RawJavaReturn (Option R))}

theorem fromClear (h : Calls P x) : CallsFromClear P x := fun s _ ↦ h s

theorem mono {P' : Call R M → Prop} (h : Calls P x) (hP : ∀ call, P call → P' call) :
    Calls P' x :=
  fun s ↦ wp_mono (h s) (fun _ _ ht ↦ ht.mono hP) fun _ _ ht ↦ ht.mono hP

theorem throw {e : Error R} (he : e.isJavaException = false) :
    Calls P (throw e : JniM ω R M (RawJavaReturn (Option R))) :=
  fun s ↦ .failed (Thread.failed_refl s he)

theorem steady_bind {y : JniM ω R M α} {f : α → JniM ω R M (RawJavaReturn (Option R))}
    (hy : Steady y) {A : α → Prop} (hA : ∀ s, wp y (fun a _ ↦ A a) (fun _ _ ↦ True) s)
    (hf : ∀ a, A a → Calls P (f a)) : Calls P (y >>= f) := by
  intro s
  rw [wp_bind]
  refine wp_mono (wp_and (hy s) (hA s)) (fun a t ⟨ht, ha⟩ ↦ ?_) fun e t ht ↦ .failed ht.1
  exact wp_mono (hf a ha t) (fun v u hu ↦ hu.after_passed ht) fun e u hu ↦ hu.after_passed ht

theorem defer {cleanup : Thread ω R M → Thread ω R M}
    (hc : ∀ t : Thread ω R M, t.Passed (cleanup t)) (hx : Calls P x) :
    Calls P (defer cleanup x) := by
  intro s
  rw [wp_defer]
  exact wp_mono (hx s) (fun v t ht ↦ ht.passed (hc t)) fun e t ht ↦ ht.passed (hc t)

/-- A lookup, and after it the check that takes an exception: what follows starts with nothing
pending. -/
theorem lookup {f : Native ω R α} {operation : String}
    {rest : α → JniM ω R M (RawJavaReturn (Option R))}
    (h : ∀ world, CallsFromClear P (rest (f world).1)) :
    Calls P (do let a ← f.run; checkPendingExceptionRaw jni operation; rest a) := by
  intro s
  simp only [wp_bind, wp_run]
  refine wp_run_checkPendingExceptionRaw jni (fun hnone ht ↦ ?_) fun e t ht ↦ .failed ht
  exact wp_mono (h _ _ (ht.pending.trans hnone)) (fun v u hu ↦ hu.after_passed ht)
    fun e u hu ↦ hu.after_passed ht

end Calls

/-- The call hands on arguments that were prepared for the parameters of the signature. -/
def Prepared (jni : Jni ω R M) (floats : Floats) (signature : String)
    (args : List (JavaOverloadArg R)) (values : List (JavaValue R)) : Prop :=
  ∃ parsed, MethodSignature.parse (θ := R) signature = .ok parsed ∧
    args.length = parsed.arguments.length ∧
    List.Forall₂ (PreparedFrom jni floats) values (args.zip parsed.arguments)

section Calls

variable {jni floats display} {s : Thread ω R M} {signature : String}
  {args : List (JavaOverloadArg R)}

theorem wp_callByReturn {κ : Type} {family : CallFamily ω R κ} {toCall : κ → Call R M} {call : κ}
    {returnType : JavaType} {Q : RawJavaReturn (Option R) → Thread ω R M → Prop}
    {E : Error R → Thread ω R M → Prop}
    (h : ∀ v t, t.calls = s.calls ++ [toCall call] → t.lastError = s.lastError → Q v t) :
    wp (callByReturn family toCall call returnType) Q E s := by
  cases returnType <;>
    · simp only [callByReturn, wp_bind, wp_invoke, wp_pure]
      exact h _ _ (by simp [Event.call?]) (by simp)

/-- The check after the call of an original. -/
theorem callOutcome_of_call (hthrow : jni.ThrowSucceeds) {P : Call R M → Prop} {c : Call R M}
    (hcall : P c) {operation : String} {v : RawJavaReturn (Option R)} {t : Thread ω R M}
    (hs : s.pending = none) (calls : t.calls = s.calls ++ [c])
    (lastError : t.lastError = s.lastError) :
    wp (do checkPendingExceptionPreserveRaw jni display operation; pure v)
      (fun v t ↦ CallOutcome P s (.ok v) t) (fun e t ↦ CallOutcome P s (.error e) t) t := by
  rw [wp_bind]
  refine wp_checkPendingExceptionPreserveRaw hthrow (fun hnone ↦ ?_) fun _ u hu hpending ht ↦ ?_
  · exact .returned c hcall hs calls lastError hnone
  · exact .threw c hcall hs (hu.calls.trans calls) (hu.lastError.trans lastError) (hpending ▸ ht)

theorem steady_prepareOriginalCallArgsForEnv :
    Steady (prepareOriginalCallArgsForEnv jni floats signature args) := by
  refine (steady_ofExcept fun e he ↦ ?_).bind fun parsed ↦
    (steady_prepareCallArgs args parsed.arguments).bind fun args ↦ .pure _
  obtain ⟨offset, message, rfl⟩ := MethodSignature.isAbout_of_parse he
  rfl

theorem wp_prepareOriginalCallArgsForEnv :
    wp (prepareOriginalCallArgsForEnv jni floats signature args)
      (fun result _ ↦ Prepared jni floats signature args result.2.values) (fun _ _ ↦ True) s := by
  simp only [prepareOriginalCallArgsForEnv, wp_bind, wp_ofExcept, wp_pure]
  refine ⟨fun parsed hparsed ↦ ?_, fun _ _ ↦ trivial⟩
  exact wp_mono wp_prepareCallArgs (fun result _ h ↦ ⟨parsed, hparsed, h⟩) fun _ _ _ ↦ trivial

theorem callsFromClear_callOriginalStaticByReturn (hthrow : jni.ThrowSucceeds)
    {P : Call R M → Prop} {holder : R} {method : M} {returnType : JavaType}
    {values : List (JavaValue R)} (hcall : P (.static ⟨holder, method, values⟩)) :
    CallsFromClear P
      (callOriginalStaticByReturn jni display holder method returnType values) := by
  intro s hs
  unfold callOriginalStaticByReturn
  rw [wp_bind]
  exact wp_callByReturn fun v t calls lastError ↦ callOutcome_of_call hthrow hcall hs calls lastError

theorem callsFromClear_callOriginalInstanceByReturn (hthrow : jni.ThrowSucceeds)
    {P : Call R M → Prop} {receiver : R} {method : M} {returnType : JavaType}
    {values : List (JavaValue R)} (hcall : P (.virtual ⟨receiver, method, values⟩)) :
    CallsFromClear P
      (callOriginalInstanceByReturn jni display receiver method returnType values) := by
  intro s hs
  unfold callOriginalInstanceByReturn
  rw [wp_bind]
  exact wp_callByReturn fun v t calls lastError ↦ callOutcome_of_call hthrow hcall hs calls lastError

/-- The text that a JNI function takes is checked first and then handed on. -/
theorem Calls.cString {P : Call R M → Prop} {text : String}
    {rest : String → JniM ω R M (RawJavaReturn (Option R))} (h : Calls P (rest text)) :
    Calls P (cString text >>= rest) := by
  refine steady_bind (steady_cString text) (A := fun result ↦ result = text) (fun s ↦ ?_) ?_
  · rw [Hook.cString, wp_ite]
    exact ⟨fun _ ↦ trivial, fun _ ↦ rfl⟩
  · rintro _ rfl
    exact h

theorem calls_callOriginalStaticMethod (hthrow : jni.ThrowSucceeds) {env : Option Unit}
    {holder : Option R} {name : String} :
    Calls (fun call ↦ Prepared jni floats signature args call.args)
      (callOriginalStaticMethod jni floats display env holder name signature args) := by
  refine .steady_bind (steady_nonNullEnv env) (A := fun _ ↦ True) (fun s ↦ ?_) fun _ _ ↦ ?_
  · cases env <;> trivial
  cases holder with
  | none => exact .throw rfl
  | some holder =>
    refine .steady_bind steady_prepareOriginalCallArgsForEnv
      (fun s ↦ wp_prepareOriginalCallArgsForEnv) fun ⟨parsed, prepared⟩ hprepared ↦ ?_
    refine Calls.defer (fun t ↦ .deleteLocalRefs _ t) ?_
    refine .cString (.cString ?_)
    refine Calls.lookup jni fun world ↦ ?_
    cases (jni.getStaticMethodId holder name signature world).1 with
    | none => exact (Calls.throw rfl).fromClear
    | some method => exact callsFromClear_callOriginalStaticByReturn hthrow hprepared

/-- The call is virtual, of the method that is found from the receiver's class upwards. -/
def LooksUpVirtual (jni : Jni ω R M) (receiver : Option R) (name signature : String)
    (call : Call R M) : Prop :=
  ∃ object jclass method world world', receiver = some object ∧
    (jni.getObjectClass object world).1 = some jclass ∧
    (jni.getMethodId jclass name signature world').1 = some method ∧
    call = .virtual ⟨object, method, call.args⟩

theorem calls_callOriginalInstanceMethod (hthrow : jni.ThrowSucceeds) {env : Option Unit}
    {receiver : Option R} {name : String} :
    Calls (fun call ↦ Prepared jni floats signature args call.args ∧
        LooksUpVirtual jni receiver name signature call)
      (callOriginalInstanceMethod jni floats display env receiver name signature args) := by
  refine .steady_bind (steady_nonNullEnv env) (A := fun _ ↦ True) (fun s ↦ ?_) fun _ _ ↦ ?_
  · cases env <;> trivial
  cases receiver with
  | none => exact .throw rfl
  | some receiver =>
    refine Calls.lookup jni fun world ↦ ?_
    cases hclass : (jni.getObjectClass receiver world).1 with
    | none => exact (Calls.throw rfl).fromClear
    | some jclass =>
      refine Calls.fromClear (Calls.defer (fun t ↦ .deleteLocalRef _ t) ?_)
      refine .steady_bind steady_prepareOriginalCallArgsForEnv
        (fun s ↦ wp_prepareOriginalCallArgsForEnv) fun ⟨parsed, prepared⟩ hprepared ↦ ?_
      refine Calls.defer (fun t ↦ .deleteLocalRefs _ t) ?_
      refine .cString (.cString ?_)
      refine Calls.lookup jni fun world' ↦ ?_
      cases hmethod : (jni.getMethodId jclass name signature world').1 with
      | none => exact (Calls.throw rfl).fromClear
      | some method =>
        exact callsFromClear_callOriginalInstanceByReturn hthrow
          ⟨hprepared, receiver, jclass, method, world, world', rfl, hclass, hmethod, rfl⟩

theorem calls_callOriginalConstructorMethod (hthrow : jni.ThrowSucceeds) {env : Option Unit}
    {receiver : Option R} {declaringClass : R} :
    Calls (fun call ↦ Prepared jni floats signature args call.args)
      (callOriginalConstructorMethod jni floats display env receiver declaringClass signature
        args) := by
  refine .steady_bind (steady_nonNullEnv env) (A := fun _ ↦ True) (fun s ↦ ?_) fun _ _ ↦ ?_
  · cases env <;> trivial
  cases receiver with
  | none => exact .throw rfl
  | some receiver =>
    refine .steady_bind steady_prepareOriginalCallArgsForEnv
      (fun s ↦ wp_prepareOriginalCallArgsForEnv) fun ⟨parsed, prepared⟩ hprepared ↦ ?_
    refine Calls.defer (fun t ↦ .deleteLocalRefs _ t) ?_
    split
    · exact .throw rfl
    refine .cString (.cString ?_)
    refine Calls.lookup jni fun world ↦ ?_
    cases (jni.getMethodId declaringClass "<init>" signature world).1 with
    | none => exact (Calls.throw rfl).fromClear
    | some method =>
      intro s hs
      rw [wp_bind, wp_invoke]
      exact callOutcome_of_call (c := .nonvirtual ⟨receiver, declaringClass, method, prepared.values⟩)
        hthrow hprepared hs (by simp [Event.call?]) (by simp)

/-- `call_original` calls an original once, with prepared arguments, or fails without a call. -/
theorem calls_callOriginal (hthrow : jni.ThrowSucceeds) (invocation : ReplacementInvocation R)
    (args : List (JavaOverloadArg R)) :
    Calls (fun call ↦ Prepared jni floats invocation.state.signature.descriptor args call.args)
      (invocation.callOriginal jni floats display args) := by
  unfold ReplacementInvocation.callOriginal
  cases invocation.state.kind
  · exact calls_callOriginalConstructorMethod hthrow
  · exact (calls_callOriginalInstanceMethod hthrow).mono fun _ hcall ↦ hcall.1
  · exact calls_callOriginalStaticMethod hthrow

theorem callOutcome_callOriginal (hthrow : jni.ThrowSucceeds) (invocation : ReplacementInvocation R)
    (args : List (JavaOverloadArg R)) (s : Thread ω R M) :
    CallOutcome
      (fun call ↦ Prepared jni floats invocation.state.signature.descriptor args call.args) s
      (outcome (invocation.callOriginal jni floats display args) s).1
      (outcome (invocation.callOriginal jni floats display args) s).2 :=
  wp_iff_outcome.1 (calls_callOriginal hthrow invocation args s)

end Calls

end JavaBridge.Hook

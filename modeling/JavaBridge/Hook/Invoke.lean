import JavaBridge.Hook.Original

/-!
# Invocations of a callback

`ClosureReplacementState::invoke`: what the thunk calls when Java enters a hooked method. The
callback is any program on the thread that returns a value, fails with an error, or panics.

Main results:

* `wp_invoke`: what an invocation returns, what it leaves pending, and when it has recorded an
  error.
-/

namespace JavaBridge.Hook

open Fallible Thread

variable {ω R M : Type} (jni : Jni ω R M) (display : Error R → String)

def CALLBACK_LOCAL_FRAME_CAPACITY : Nat := 8

namespace Thread

def setLastError (error : String) (s : Thread ω R M) : Thread ω R M :=
  { s with lastError := some error }

@[simp] theorem pending_setLastError (error : String) (s : Thread ω R M) :
    (s.setLastError error).pending = s.pending := rfl

@[simp] theorem world_setLastError (error : String) (s : Thread ω R M) :
    (s.setLastError error).world = s.world := rfl

end Thread

/-! ## The local frame of a callback -/

structure CallbackLocalFrame where
  active : Bool
  deriving DecidableEq

namespace CallbackLocalFrame

def pushLocalFrameRaw (capacity : Nat) : JniM ω R M Unit := do
  let result ← (jni.pushLocalFrame capacity).run
  checkPendingException jni "JNIEnv::PushLocalFrame"
  checkJniResult "JNIEnv::PushLocalFrame" result
  modify (Thread.record .pushLocalFrame)

def push (env : Option Unit) : JniM ω R M (Option CallbackLocalFrame) :=
  match env with
  | none => pure none
  | some () => do
    pushLocalFrameRaw jni CALLBACK_LOCAL_FRAME_CAPACITY
    pure (some ⟨true⟩)

/-- The JNI function `PopLocalFrame`, where the frame has not been popped yet. -/
def popWithSurvivor (frame : CallbackLocalFrame) (survivor : Option R) : JniM ω R M (Option R) :=
  fun s ↦
    if frame.active then
      let (promoted, world) := jni.popLocalFrame survivor s.world
      .ok promoted { s.record .popLocalFrame with world }
    else .ok survivor s

/-- `pop_return`, which uses the frame up. -/
def popReturn (frame : CallbackLocalFrame) (value : RawJavaReturn (Option R)) :
    JniM ω R M (RawJavaReturn (Option R)) :=
  match value with
  | .object object => do return .object (← frame.popWithSurvivor jni object)
  | other => do
    let _ ← frame.popWithSurvivor jni none
    pure other

/-- `Drop for CallbackLocalFrame`. -/
def drop (frame : Option CallbackLocalFrame) : JniM ω R M Unit :=
  match frame with
  | some frame => do let _ ← frame.popWithSurvivor jni none
  | none => pure ()

end CallbackLocalFrame

namespace ClosureReplacementState

variable (hook : ClosureReplacementState R)

/-! ## Errors -/

def recordError (error : String) : JniM ω R M Unit := do
  modify (Thread.setLastError error)
  match hook.errorHandler with
  | some handler =>
    if handler ⟨hook.kind, hook.name, hook.signature, error⟩ then
      modify (Thread.setLastError (error ++ "; replacement error handler panicked"))
    else pure ()
  | none => pure ()

def recordMessagePreservingPendingException (env : Option Unit) (error : String) :
    JniM ω R M Unit := do
  let pendingException ← match env with
    | some () => PendingJavaException.take
    | none => pure none
  recordError hook error
  match pendingException with
  | some exception =>
    match ← attempt (exception.rethrow jni) with
    | .error error =>
      recordError hook ("failed to restore pending Java exception: " ++ display error)
    | .ok () => pure ()
  | none => pure ()

/-- `JavaThrowable::throw`. -/
def throwThrowable (throwable : R) : JniM ω R M Unit := do
  let result ← throwRaw jni throwable
  checkJniResult "JNIEnv::Throw" result

def recordErrorPreservingJavaException (env : Option Unit) (error : Error R) :
    JniM ω R M Unit := do
  let message := display error
  match error.javaThrowable with
  | some throwable =>
    recordError hook message
    match env with
    | none => recordError hook "failed to restore Java exception: null JNIEnv"
    | some () =>
      match ← attempt (throwThrowable jni throwable) with
      | .error error => recordError hook ("failed to restore Java exception: " ++ display error)
      | .ok () => pure ()
  | none => recordMessagePreservingPendingException jni display hook env message

/-! ## `invoke` -/

def defaultReturn : RawJavaReturn (Option R) :=
  JavaBridge.defaultReturn none hook.signature.returnType

def finishInvocationReturn (frame : Option CallbackLocalFrame) (value : RawJavaReturn (Option R)) :
    JniM ω R M (RawJavaReturn (Option R)) :=
  match frame with
  | some frame => frame.popReturn jni value
  | none => pure value

/-- What `invoke` does with the callback's result. -/
def finishInvocation (env : Option Unit) (frame : Option CallbackLocalFrame) :
    Except (Failure R) (RawJavaReturn (Option R)) → JniM ω R M (RawJavaReturn (Option R))
  | .ok value =>
    match validateReturn hook.signature.returnType value with
    | .ok value => finishInvocationReturn jni frame value
    | .error error => do
      recordErrorPreservingJavaException jni display hook env error
      CallbackLocalFrame.drop jni frame
      pure hook.defaultReturn
  | .error (.error error) => do
    recordErrorPreservingJavaException jni display hook env error
    CallbackLocalFrame.drop jni frame
    pure hook.defaultReturn
  | .error (.panic _) => do
    recordMessagePreservingPendingException jni display hook env
      "closure replacement callback panicked"
    CallbackLocalFrame.drop jni frame
    pure hook.defaultReturn

/-- A hook's callback. -/
abbrev Callback (ω R M : Type) :=
  ReplacementInvocation R → EStateM (Failure R) (Thread ω R M) (RawJavaReturn (Option R))

/-- `invoke`, where `closing` is what the invocation guard has seen on entry. -/
def invoke (closing : Bool) (env : Option Unit) (target : Option R) (arguments : List (JavaValue R))
    (callback : Callback ω R M) : JniM ω R M (RawJavaReturn (Option R)) :=
  if closing then pure hook.defaultReturn
  else do
    match ← attempt (CallbackLocalFrame.push jni env) with
    | .error error =>
      recordErrorPreservingJavaException jni display hook env error
      pure hook.defaultReturn
    | .ok frame =>
      let result ← attempt (callback ⟨hook, env, target, arguments⟩)
      finishInvocation jni display hook env frame result

/-! ## What an invocation leaves -/

/-- The exception pending once the error has been recorded. -/
def pendingAfterError (env : Option Unit) (error : Error R) (pending : Option R) : Option R :=
  match error.javaThrowable, env with
  | some throwable, some () => some throwable
  | _, _ => pending

/-- The exception pending once the callback's result has been dealt with. -/
def pendingAfter (env : Option Unit) :
    Except (Failure R) (RawJavaReturn (Option R)) → Option R → Option R
  | .error (.error error), pending => pendingAfterError env error pending
  | .error (.panic _), pending | .ok _, pending => pending

/-- The callback's value as the caller of the hooked method sees it: a reference is carried into the
frame below. -/
def promoted (frame : Option CallbackLocalFrame) (world : ω) :
    RawJavaReturn (Option R) → RawJavaReturn (Option R)
  | .object object =>
    match frame with
    | some ⟨true⟩ => .object (jni.popLocalFrame object world).1
    | some ⟨false⟩ | none => .object object
  | other => other

/-- The value that the invocation returns. -/
def returned (frame : Option CallbackLocalFrame) (world : ω) :
    Except (Failure R) (RawJavaReturn (Option R)) → RawJavaReturn (Option R)
  | .ok value =>
    if value.matchesType hook.signature.returnType then promoted jni frame world value
    else hook.defaultReturn
  | .error _ => hook.defaultReturn

theorem matchesType_promoted {jni : Jni ω R M} {world : ω} {frame : Option CallbackLocalFrame}
    {v : RawJavaReturn (Option R)} {ty : JavaType} :
    (promoted jni frame world v).matchesType ty = v.matchesType ty := by
  rcases frame with _ | ⟨_ | _⟩ <;> cases v <;> cases ty <;> rfl

section Rules

variable {jni display hook} {s : Thread ω R M} {E : Error R → Thread ω R M → Prop}
  {env : Option Unit} {frame : Option CallbackLocalFrame}

theorem wp_recordError {error : String} {Q : Unit → Thread ω R M → Prop}
    (h : ∀ t, t.pending = s.pending → t.lastError.isSome = true → Q () t) :
    wp (recordError hook error) Q E s := by
  simp only [recordError, wp_bind, wp_modify]
  cases hook.errorHandler with
  | none => exact h _ rfl rfl
  | some handler =>
    simp only [wp_ite, wp_modify, wp_pure]
    exact ⟨fun _ ↦ h _ rfl rfl, fun _ ↦ h _ rfl rfl⟩

theorem wp_recordMessagePreservingPendingException (hthrow : jni.ThrowSucceeds) {error : String}
    {Q : Unit → Thread ω R M → Prop}
    (h : ∀ t, t.pending = s.pending → t.lastError.isSome = true → Q () t) :
    wp (recordMessagePreservingPendingException jni display hook env error) Q E s := by
  unfold recordMessagePreservingPendingException
  cases env with
  | none =>
    simp only [wp_bind, wp_pure]
    exact wp_recordError fun t ht herror ↦ h t ht herror
  | some _ =>
    simp only [wp_bind]
    refine wp_take fun t ht ↦ wp_recordError fun u hu herror ↦ ?_
    cases hpending : s.pending with
    | none => exact h u ((hu.trans ht.pending).trans hpending.symm) herror
    | some throwable =>
      simp only [Option.map_some, wp_bind, wp_attempt, wp_pure]
      refine wp_rethrow hthrow fun v hquiet hv ↦ h v (hv.trans hpending.symm) ?_
      rwa [hquiet.lastError]

theorem wp_throwThrowable (hthrow : jni.ThrowSucceeds) {throwable : R}
    {Q : Unit → Thread ω R M → Prop} (h : Q () (s.raise throwable)) :
    wp (throwThrowable jni throwable) Q E s := by
  simp only [throwThrowable, wp_bind]
  exact wp_throwRaw hthrow h

theorem wp_recordErrorPreservingJavaException (hthrow : jni.ThrowSucceeds) {error : Error R}
    {Q : Unit → Thread ω R M → Prop}
    (h : ∀ t, t.pending = pendingAfterError env error s.pending → t.lastError.isSome = true →
      Q () t) :
    wp (recordErrorPreservingJavaException jni display hook env error) Q E s := by
  unfold recordErrorPreservingJavaException
  unfold pendingAfterError at h
  cases hthrowable : error.javaThrowable with
  | none =>
    rw [hthrowable] at h
    exact wp_recordMessagePreservingPendingException hthrow h
  | some throwable =>
    rw [hthrowable] at h
    simp only [wp_bind]
    refine wp_recordError fun t ht herror ↦ ?_
    cases env with
    | none => exact wp_recordError fun u hu herror ↦ h u (hu.trans ht) herror
    | some _ =>
      simp only [wp_bind, wp_attempt, wp_pure]
      exact wp_throwThrowable hthrow (h _ rfl herror)

theorem wp_drop {Q : Unit → Thread ω R M → Prop}
    (h : ∀ t, t.pending = s.pending → t.lastError = s.lastError → Q () t) :
    wp (CallbackLocalFrame.drop jni frame) Q E s := by
  rcases frame with _ | ⟨_ | _⟩ <;> exact h _ rfl rfl

theorem wp_finishInvocationReturn {value : RawJavaReturn (Option R)}
    {Q : RawJavaReturn (Option R) → Thread ω R M → Prop}
    (h : ∀ t, t.pending = s.pending → Q (promoted jni frame s.world value) t) :
    wp (finishInvocationReturn jni frame value) Q E s := by
  rcases frame with _ | ⟨_ | _⟩ <;> cases value <;> exact h _ rfl

/-- The callback has returned a value of the lane of the return type. -/
def Accepted (hook : ClosureReplacementState R)
    (result : Except (Failure R) (RawJavaReturn (Option R))) : Prop :=
  ∃ value, result = .ok value ∧ value.matchesType hook.signature.returnType = true

/-- What is pending when an invocation is over, what it returns, and when it has recorded an
error. -/
theorem wp_finishInvocation (hthrow : jni.ThrowSucceeds)
    {result : Except (Failure R) (RawJavaReturn (Option R))}
    {Q : RawJavaReturn (Option R) → Thread ω R M → Prop}
    (h : ∀ t, t.pending = pendingAfter env result s.pending →
      (¬Accepted hook result → t.lastError.isSome = true) →
      Q (returned jni hook frame s.world result) t) :
    wp (finishInvocation jni display hook env frame result) Q E s := by
  rcases result with (error | message) | value
  · simp only [finishInvocation, wp_bind, wp_pure]
    refine wp_recordErrorPreservingJavaException hthrow fun t ht herror ↦ ?_
    exact wp_drop fun u hu hlast ↦ h u (hu.trans ht) fun _ ↦ hlast ▸ herror
  · simp only [finishInvocation, wp_bind, wp_pure]
    refine wp_recordMessagePreservingPendingException hthrow fun t ht herror ↦ ?_
    exact wp_drop fun u hu hlast ↦ h u (hu.trans ht) fun _ ↦ hlast ▸ herror
  · by_cases hlane : value.matchesType hook.signature.returnType = true
    · simp only [returned, if_pos hlane] at h
      simp only [finishInvocation, validateReturn, if_pos hlane]
      exact wp_finishInvocationReturn fun t ht ↦ h t ht fun hnot ↦ absurd ⟨value, rfl, hlane⟩ hnot
    · simp only [returned, if_neg hlane] at h
      simp only [finishInvocation, validateReturn, if_neg hlane, wp_bind, wp_pure]
      -- The error of a wrong lane has no throwable, so that what was pending stays so.
      refine wp_recordErrorPreservingJavaException hthrow fun t ht herror ↦ ?_
      exact wp_drop fun u hu hlast ↦ h u (hu.trans ht) fun _ ↦ hlast ▸ herror

/-- An invocation that does not get to the callback returns the default, and records an error unless
the hook is closing. -/
theorem wp_invoke (hthrow : jni.ThrowSucceeds) {closing : Bool} {target : Option R}
    {arguments : List (JavaValue R)} {callback : Callback ω R M}
    {Q : RawJavaReturn (Option R) → Thread ω R M → Prop}
    (hdefault : ∀ t, (closing = false → t.lastError.isSome = true) → Q hook.defaultReturn t)
    (hfinish : ∀ frame t result u v, outcome (CallbackLocalFrame.push jni env) s = (.ok frame, t) →
      outcome (callback ⟨hook, env, target, arguments⟩) t = (result, u) →
      v.pending = pendingAfter env result u.pending →
      (¬Accepted hook result → v.lastError.isSome = true) →
      Q (returned jni hook frame u.world result) v) :
    wp (invoke jni display hook closing env target arguments callback) Q E s := by
  unfold invoke
  rw [wp_ite]
  refine ⟨fun hclosing ↦ hdefault s fun hopen ↦ ?_, fun _ ↦ ?_⟩
  · rw [hopen] at hclosing
    cases hclosing
  · rw [wp_bind]
    rcases hpush : outcome (CallbackLocalFrame.push jni env) s with ⟨e | frame, t⟩
    · rw [wp_attempt_of_outcome hpush]
      simp only [wp_bind, wp_pure]
      exact wp_recordErrorPreservingJavaException hthrow fun u _ herror ↦ hdefault u fun _ ↦ herror
    · rw [wp_attempt_of_outcome hpush]
      simp only [wp_bind]
      rw [wp_attempt_of_outcome rfl]
      exact wp_finishInvocation hthrow (hfinish frame t _ _ · hpush rfl)

end Rules

end ClosureReplacementState

end JavaBridge.Hook

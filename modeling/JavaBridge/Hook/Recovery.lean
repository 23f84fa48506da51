import JavaBridge.Hook.Invoke
import JavaBridge.Library.Machine

/-!
# Recovering from an exception of the original

A callback as the actions it takes on its thread, one after another, and its result. What it does
next may depend on what it has seen, so that every adaptive callback is one of these in each of its
runs.

`call_original` reports an exception of the original to the callback and leaves it pending. A
callback that goes on from there takes the exception with it: the next `call_original` finds it, and
so does Java when the callback returns.

Main results:

* `sound_of_run`: the exceptions that `call_original` has reported and that are still pending are
  those of originals.
* `contained_iff`: where the callback has dealt with the exceptions of originals before it calls the
  original again, the invocation keeps them contained exactly when the callback has dealt with them
  at its end too.
-/

namespace JavaBridge.Hook

open Fallible Thread ClosureReplacementState

variable {ω R M : Type} (jni : Jni ω R M) (floats : Floats) (display : Error R → String)

/-- What a callback does on its thread. -/
inductive Action (R : Type)
  /-- A `call_original`, whose result the callback keeps or drops. -/
  | callOriginal (args : List (JavaOverloadArg R))
  /-- JNI calls of the callback's own that leave an exception pending. -/
  | raise (throwable : R)
  /-- `Env::exception_clear`. -/
  | clear

namespace Action

variable (invocation : ReplacementInvocation R)

def perform (s : Thread ω R M) : Action R → Thread ω R M
  | callOriginal args => (outcome (invocation.callOriginal jni floats display args) s).2
  | raise throwable => s.raise throwable
  | clear => s.clear

def performAll (actions : List (Action R)) (s : Thread ω R M) : Thread ω R M :=
  actions.foldl (perform jni floats display invocation) s

end Action

/-- The callback that takes these actions and comes to this result. -/
def callback (actions : List (Action R)) (result : Except (Failure R) (RawJavaReturn (Option R))) :
    Callback ω R M := fun invocation s ↦
  let t := Action.performAll jni floats display invocation actions s
  match result with
  | .ok value => .ok value t
  | .error failure => .error failure t

/-! ## Runs of a callback -/

/-- How far a callback has come. -/
structure Progress (ω R M : Type) where
  thread : Thread ω R M
  /-- The pending exception is one that a `call_original` has reported to the callback. -/
  reported : Bool
  /-- The pending exception is one that an original has thrown. -/
  thrown : Bool

def isJavaException (result : Except (Error R) (RawJavaReturn (Option R))) : Bool :=
  match result with
  | .ok _ => false
  | .error e => e.isJavaException

namespace Progress

def start (s : Thread ω R M) : Progress ω R M := ⟨s, false, false⟩

/-- The callback raised the pending exception itself, outside `call_original`. -/
def Own (p : Progress ω R M) : Prop := p.thread.pending.isSome = true ∧ p.reported = false

/-- After a `call_original` with this result. -/
def afterCall (p : Progress ω R M) (result : Except (Error R) (RawJavaReturn (Option R)))
    (t : Thread ω R M) : Progress ω R M where
  thread := t
  reported := t.pending.isSome && (p.reported || isJavaException result)
  thrown := t.pending.isSome && (p.thrown || t.calls.length != p.thread.calls.length)

/-- What is reported and still pending was thrown by an original. -/
structure Sound (p : Progress ω R M) : Prop where
  reported_eq : p.reported = p.thrown
  pending : p.thrown = true → p.thread.pending.isSome = true

theorem Sound.start (s : Thread ω R M) : (start s).Sound := ⟨rfl, nofun⟩

theorem Sound.afterCall {P : Call R M → Prop} {p : Progress ω R M}
    {result : Except (Error R) (RawJavaReturn (Option R))} {t : Thread ω R M}
    (h : p.Sound) (houtcome : CallOutcome P p.thread result t) : (p.afterCall result t).Sound := by
  refine ⟨?_, fun hthrown ↦ (Bool.and_eq_true_iff.1 hthrown).1⟩
  cases houtcome with
  | returned _ _ _ _ _ pending => simp [Progress.afterCall, pending]
  | threw _ _ _ calls _ pending =>
    simp [Progress.afterCall, calls, isJavaException, Error.isJavaException]
  | @failed e _ hfailed =>
    cases he : e.isJavaException with
    | true =>
      have hpending : t.pending = none := by rw [hfailed.pending, he, if_pos rfl]
      simp [Progress.afterCall, hpending]
    | false => simp [Progress.afterCall, isJavaException, he, hfailed.calls, h.reported_eq]

theorem Sound.own_iff {p : Progress ω R M} (h : p.Sound) :
    p.Own ↔ p.thread.pending.isSome = true ∧ p.thrown = false := by
  rw [Own, h.reported_eq]

end Progress

section Machine

variable (invocation : ReplacementInvocation R)

def act (p : Progress ω R M) : Action R → Progress ω R M
  | .callOriginal args =>
    let (result, t) := outcome (invocation.callOriginal jni floats display args) p.thread
    p.afterCall result t
  | .raise throwable => .start (p.thread.raise throwable)
  | .clear => .start p.thread.clear

def callbackMachine : Machine (Progress ω R M) (Action R) where
  Init p := p.reported = false ∧ p.thrown = false
  step p a := some (act jni floats display invocation p a)

variable {jni floats display invocation}

/-- Every action can be taken. -/
theorem run_eq (p : Progress ω R M) (actions : List (Action R)) :
    (callbackMachine jni floats display invocation).run p actions =
      some (actions.foldl (act jni floats display invocation) p) := by
  induction actions generalizing p with
  | nil => rfl
  | cons a actions ih => exact ih _

theorem thread_of_run {p q : Progress ω R M} {actions : List (Action R)}
    (h : (callbackMachine jni floats display invocation).run p actions = some q) :
    q.thread = Action.performAll jni floats display invocation actions p.thread := by
  induction actions generalizing p with
  | nil =>
    obtain rfl := Option.some.inj h
    rfl
  | cons a actions ih =>
    obtain ⟨u, hu, hrun⟩ := (callbackMachine jni floats display invocation).run_cons_eq_some.1 h
    obtain rfl := Option.some.inj hu
    rw [ih hrun]
    cases a <;> rfl

theorem sound_step (hthrow : jni.ThrowSucceeds) (p : Progress ω R M) (a : Action R)
    (q : Progress ω R M) (h : p.Sound)
    (hstep : (callbackMachine jni floats display invocation).step p a = some q) : q.Sound := by
  obtain rfl := Option.some.inj hstep
  cases a with
  | callOriginal args => exact h.afterCall (callOutcome_callOriginal hthrow invocation args p.thread)
  | raise throwable => exact .start _
  | clear => exact .start _

/-- In every run, what is reported and still pending was thrown by an original. -/
theorem sound_of_run (hthrow : jni.ThrowSucceeds) {s : Thread ω R M} {q : Progress ω R M}
    {actions : List (Action R)}
    (hrun : (callbackMachine jni floats display invocation).run (.start s) actions = some q) :
    q.Sound :=
  Machine.run_invariant (fun p a q hp _ hq ↦ sound_step hthrow p a q hp hq) (.start s)
    (Machine.along_true _ _) hrun

end Machine

/-! ## Containment -/

section Contained

variable (hook : ClosureReplacementState R) (env : Option Unit) (target : Option R)
  (arguments : List (JavaValue R))

/-- The callback's final result is an error that reports a Java exception. -/
def ReportsJavaException (result : Except (Failure R) (RawJavaReturn (Option R))) : Prop :=
  ∃ e, result = .error (.error e) ∧ e.isJavaException = true

/-- The exceptions that `call_original` reports stay in the callback. The callback has started at
`p`, come to `q` and ended with the result; the invocation has left `u` and returned `value`. -/
structure Contained (frame : Option CallbackLocalFrame) (p : Progress ω R M)
    (actions : List (Action R)) (q : Progress ω R M)
    (result : Except (Failure R) (RawJavaReturn (Option R))) (value : RawJavaReturn (Option R))
    (u : Thread ω R M) : Prop where
  /-- Java sees an exception just where the callback reports one, or has left one of its own. -/
  pending_iff : u.pending.isSome = true ↔ ReportsJavaException result ∨ q.Own
  /-- Java sees the value that the callback returns. -/
  value_seen : ∀ v, result = .ok v → ¬q.Own →
    u.pending = none ∧ value = promoted jni frame q.thread.world v
  /-- With a reported exception pending, `call_original` does what it does without. -/
  not_blamed : (callbackMachine jni floats display ⟨hook, env, target, arguments⟩).Along
    (fun p a ↦ ∀ args, a = .callOriginal args → p.reported = true →
      (outcome ((ReplacementInvocation.mk hook env target arguments).callOriginal jni floats display
        args) p.thread).1 =
      (outcome ((ReplacementInvocation.mk hook env target arguments).callOriginal jni floats display
        args) p.thread.clear).1) p actions

/-- The callback calls the original only with no exception of an original pending. -/
def Handled (p : Progress ω R M) : Action R → Prop
  | .callOriginal _ => p.thrown = false
  | .raise _ | .clear => True

/-- The callback ends with no exception of an original pending, or with an error that reports a Java
exception; where that error has no throwable to throw again, an exception is pending. A value that
Java is to see is of the lane of the return type. -/
def EndsHandled (q : Progress ω R M) : Except (Failure R) (RawJavaReturn (Option R)) → Prop
  | .ok value => q.thrown = false ∧
      (value.matchesType hook.signature.returnType = true ∨ q.thread.pending.isSome = true)
  | .error (.error e) =>
    if e.isJavaException then
      (e.javaThrowable.isSome = true ∧ env = some ()) ∨ q.thread.pending.isSome = true
    else q.thrown = false
  | .error (.panic _) => q.thrown = false

variable {jni floats display hook env target arguments} {frame : Option CallbackLocalFrame}
  {s : Thread ω R M} {actions : List (Action R)} {q : Progress ω R M}
  {result : Except (Failure R) (RawJavaReturn (Option R))}

theorem outcome_callback (invocation : ReplacementInvocation R) :
    outcome (callback jni floats display actions result invocation) s =
      (result, Action.performAll jni floats display invocation actions s) := by
  cases result <;> rfl

/-- What an invocation returns and leaves pending, from the end of its callback. -/
theorem wp_invoke_callback (hthrow : jni.ThrowSucceeds) {entry : Thread ω R M}
    {E : Error R → Thread ω R M → Prop}
    (hpush : outcome (CallbackLocalFrame.push jni env) entry = (.ok frame, s))
    (hrun : (callbackMachine jni floats display ⟨hook, env, target, arguments⟩).run (.start s)
      actions = some q) :
    wp (hook.invoke jni display false env target arguments
        (callback jni floats display actions result))
      (fun v u ↦ v = hook.returned jni frame q.thread.world result ∧
        u.pending = pendingAfter env result q.thread.pending) E entry := by
  simp only [invoke, Bool.false_eq_true, if_false, wp_bind]
  rw [wp_attempt_of_outcome hpush]
  simp only [wp_bind]
  have hq : q.thread = Action.performAll jni floats display ⟨hook, env, target, arguments⟩ actions s :=
    thread_of_run hrun
  rw [wp_attempt_of_outcome (outcome_callback _), ← hq]
  exact wp_finishInvocation hthrow fun u hu _ ↦ ⟨rfl, hu⟩

theorem isSome_pendingAfterError {e : Error R} {pending : Option R} :
    (pendingAfterError env e pending).isSome = true ↔
      (e.javaThrowable.isSome = true ∧ env = some ()) ∨ pending.isSome = true := by
  unfold pendingAfterError
  cases e.javaThrowable <;> cases env <;> simp

/-- A result that reports no Java exception leaves the pending exception alone. -/
theorem pendingAfter_eq {pending : Option R} (h : ¬ReportsJavaException result) :
    pendingAfter env result pending = pending := by
  rcases result with (e | message) | v
  · cases e <;> first | rfl | exact absurd ⟨_, rfl, rfl⟩ h
  · rfl
  · rfl

/-- What is pending in the end is as promised exactly when the end is handled, values apart. -/
theorem pending_iff_iff {u : Thread ω R M} (hsound : q.Sound)
    (hu : u.pending = pendingAfter env result q.thread.pending) :
    (u.pending.isSome = true ↔ ReportsJavaException result ∨ q.Own) ↔
      (∀ e, result = .error (.error e) → e.isJavaException = true →
        (e.javaThrowable.isSome = true ∧ env = some ()) ∨ q.thread.pending.isSome = true) ∧
      (¬ReportsJavaException result → q.thrown = false) := by
  rw [hsound.own_iff, hu]
  by_cases hresult : ReportsJavaException result
  · obtain ⟨e, rfl, he⟩ := id hresult
    simp only [hresult, true_or, iff_true, not_true_eq_false, false_imp_iff, and_true]
    constructor
    · intro h e' he' _
      obtain rfl := Failure.error.inj (Except.error.inj he')
      exact isSome_pendingAfterError.1 h
    · exact fun h ↦ isSome_pendingAfterError.2 (h e rfl he)
  · rw [pendingAfter_eq hresult]
    simp only [hresult, false_or, not_false_eq_true, true_imp_iff]
    constructor
    · intro h
      refine ⟨fun e he hjava ↦ absurd ⟨e, he, hjava⟩ hresult, ?_⟩
      cases hthrown : q.thrown with
      | false => rfl
      | true => exact hthrown.symm.trans (h.1 (hsound.pending hthrown)).2
    · exact fun h ↦ ⟨fun hpending ↦ ⟨hpending, h.2⟩, And.left⟩

theorem endsHandled_iff : EndsHandled hook env q result ↔
    ((∀ e, result = .error (.error e) → e.isJavaException = true →
        (e.javaThrowable.isSome = true ∧ env = some ()) ∨ q.thread.pending.isSome = true) ∧
      (¬ReportsJavaException result → q.thrown = false)) ∧
    ∀ v, result = .ok v →
      v.matchesType hook.signature.returnType = true ∨ q.thread.pending.isSome = true := by
  rcases result with (e | message) | v
  · cases he : e.isJavaException <;> simp [EndsHandled, ReportsJavaException, he]
  · simp [EndsHandled, ReportsJavaException]
  · simp [EndsHandled, ReportsJavaException]

/-- Where the callback has handled each exception of an original before it calls the original again,
the exceptions are contained exactly when its end is handled too. -/
theorem contained_iff (hthrow : jni.ThrowSucceeds) {world : ω} {lastError : Option String}
    {value : RawJavaReturn (Option R)} {u : Thread ω R M}
    (hpush : outcome (CallbackLocalFrame.push jni env) (.entry world lastError) = (.ok frame, s))
    (hrun : (callbackMachine jni floats display ⟨hook, env, target, arguments⟩).run (.start s)
      actions = some q)
    (hhandled : (callbackMachine jni floats display ⟨hook, env, target, arguments⟩).Along Handled
      (.start s) actions)
    (hinvoke : outcome (hook.invoke jni display false env target arguments
      (callback jni floats display actions result)) (.entry world lastError) = (.ok value, u)) :
    Contained jni floats display hook env target arguments frame (.start s) actions q result value
      u ↔ EndsHandled hook env q result := by
  have hsound := sound_of_run hthrow hrun
  obtain ⟨hvalue, hu⟩ : value = hook.returned jni frame q.thread.world result ∧
      u.pending = pendingAfter env result q.thread.pending :=
    (wp_of_outcome (E := fun _ _ ↦ True) hinvoke).1 (wp_invoke_callback hthrow hpush hrun)
  rw [endsHandled_iff, ← pending_iff_iff hsound hu]
  constructor
  · intro h
    refine ⟨h.pending_iff, ?_⟩
    rintro v rfl
    by_contra hneither
    obtain ⟨hlane, hpending⟩ := not_or.1 hneither
    have hseen := (h.value_seen v rfl fun hown ↦ hpending hown.1).2
    -- The default is of the lane of the return type, and `v` is not.
    rw [hvalue, returned, if_neg hlane] at hseen
    refine hlane ?_
    rw [← @matchesType_promoted ω R M jni q.thread.world frame, ← hseen]
    exact matchesType_defaultReturn none hook.signature.returnType
  · intro h
    refine ⟨h.1, ?_, ?_⟩
    · rintro v rfl hown
      have hnone : u.pending = none := by
        refine Option.not_isSome_iff_eq_none.1 fun hsome ↦ ?_
        rcases h.1.1 hsome with ⟨e, he, -⟩ | h
        · cases he
        · exact hown h
      have hlane := (h.2 v rfl).resolve_right fun hsome ↦ by
        rw [← show u.pending = q.thread.pending from hu, hnone] at hsome
        cases hsome
      exact ⟨hnone, by rw [hvalue, returned, if_pos hlane]⟩
    · refine Machine.along_of_invariant (sound_step hthrow) ?_ (.start s) hhandled
      rintro p _ hp ha args rfl hreported
      exact Bool.noConfusion (hreported.symm.trans (hp.reported_eq.trans ha))

end Contained

/-! ## A swallowed exception -/

/-- A runtime whose lookups succeed and whose methods throw the exception `9`. -/
def throwingJni : Jni Unit Nat Nat where
  getObjectClass _ _ := (some 2, none, ())
  getMethodId _ _ _ _ := (some 7, none, ())
  getStaticMethodId _ _ _ _ := (some 7, none, ())
  callMethodA := throwing
  callStaticMethodA := throwing
  callNonvirtualVoidMethodA _ _ := ((), some 9, ())
  isInstanceOf _ _ _ := (true, none, ())
  newStringUtf _ _ := (some 5, none, ())
  newGlobalRef object _ := (some object, none, ())
  getStringLength _ _ := (0, none, ())
  getStringChars _ _ := (some [], none, ())
  pushLocalFrame _ _ := (JNI_OK, none, ())
  popLocalFrame survivor _ := (survivor, ())
  throw _ _ := JNI_OK
where
  throwing {κ : Type} : CallFamily Unit Nat κ :=
    { void := fun _ _ ↦ ((), some 9, ()), boolean := fun _ _ ↦ (0, some 9, ())
      byte := fun _ _ ↦ (0, some 9, ()), char := fun _ _ ↦ (0, some 9, ())
      short := fun _ _ ↦ (0, some 9, ()), int := fun _ _ ↦ (0, some 9, ())
      long := fun _ _ ↦ (0, some 9, ()), float := fun _ _ ↦ (0, some 9, ())
      double := fun _ _ ↦ (0, some 9, ()), object := fun _ _ ↦ (none, some 9, ()) }

/-- A hook of `static void m()`, entered on the class `1`. -/
def voidHook : ClosureReplacementState Nat := ⟨1, .staticMethod, "m", ⟨[], .void⟩, none⟩

def bitFloats : Floats := ⟨BitVec.setWidth 64, BitVec.setWidth 32, fun _ ↦ ""⟩

section Example

/-- The thread on which the callback of `voidHook` starts. -/
def voidHookEntry : Thread Unit Nat Nat :=
  (outcome (CallbackLocalFrame.push throwingJni (some ())) (.entry () none)).2

theorem push_voidHook : outcome (CallbackLocalFrame.push throwingJni (some ())) (.entry () none) =
    (.ok (some ⟨true⟩), voidHookEntry) := rfl

/-- What `voidHook` does with a callback of these actions that returns normally. -/
def runVoidHook (actions : List (Action Nat)) :
    Except (Error Nat) (RawJavaReturn (Option Nat)) × Thread Unit Nat Nat :=
  outcome (voidHook.invoke throwingJni (fun _ ↦ "") false (some ()) (some 1) []
    (callback throwingJni bitFloats (fun _ ↦ "") actions (.ok .void))) (.entry () none)

/-- The end of a callback of `voidHook`. -/
def voidHookEnd (actions : List (Action Nat)) : Progress Unit Nat Nat :=
  actions.foldl (act throwingJni bitFloats (fun _ ↦ "") ⟨voidHook, some (), some 1, []⟩)
    (.start voidHookEntry)

/-- The callback calls the original, drops the error and returns normally. -/
theorem swallowed_not_contained :
    ¬Contained throwingJni bitFloats (fun _ ↦ "") voidHook (some ()) (some 1) [] (some ⟨true⟩)
      (.start voidHookEntry) [.callOriginal []] (voidHookEnd [.callOriginal []]) (.ok .void) .void
      (runVoidHook [.callOriginal []]).2 := by
  intro h
  have hpending : (runVoidHook [.callOriginal []]).2.pending.isSome = true := by decide +kernel
  have hreported : (voidHookEnd [.callOriginal []]).reported = true := by decide +kernel
  rcases h.pending_iff.1 hpending with ⟨_, hresult, -⟩ | hown
  · cases hresult
  · exact Bool.noConfusion (hreported.symm.trans hown.2)

/-- The callback clears the exception before it returns. -/
theorem contained_iff_cleared :
    Contained throwingJni bitFloats (fun _ ↦ "") voidHook (some ()) (some 1) [] (some ⟨true⟩)
      (.start voidHookEntry) [.callOriginal [], .clear] (voidHookEnd [.callOriginal [], .clear])
      (.ok .void) .void (runVoidHook [.callOriginal [], .clear]).2 := by
  refine (contained_iff (fun _ _ ↦ rfl) push_voidHook (run_eq _ _) ?_ ?_).2 ⟨rfl, .inl rfl⟩
  · exact ⟨rfl, fun _ _ ↦ ⟨trivial, fun _ _ ↦ trivial⟩⟩
  · exact Prod.ext (by decide +kernel) rfl

end Example

end JavaBridge.Hook

import JavaBridge.Hook.Recovery
import JavaBridge.Replacement.Invocation

/-!
# The balance of an invocation

`ClosureReplacementState::invoke` with all that it takes and has to give back: the invocation
counter, the local frame, the error slot. Here the error handler is a program, as the callback is.
Both may do anything to the thread and to the counters before they return or panic, so that an
invocation keeps an account of what it has done itself.

Main results:

* `wp_finishInvocation`: what is done with the callback's result, on each of its ways out.
* `invoke_balanced`: whatever user code does, an invocation does not unwind, leaves the counter as
  often as it has entered it, pops the frames that it has pushed, and returns a value of the lane
  of its method.
* `simulates_invoke`: with a handler that returns or panics and does nothing else, the thread goes
  the way of `ClosureReplacementState.invoke`.
-/

namespace JavaBridge.Hook.Balance

open Fallible Thread ClosureReplacementState
open JavaBridge.Replacement (ActiveInvocationCounts)
open JavaBridge.Replacement.ActiveInvocationCounts (release_enter)

variable {τ ω R M α : Type}

/-! ## State -/

/-- What an invocation shares with user code. -/
structure Shared (τ ω R M : Type) where
  native : Thread ω R M
  counts : ActiveInvocationCounts τ

/-- What an invocation has done itself. -/
structure Account where
  /-- How often it has entered the invocation counter. -/
  entered : Nat
  /-- How often it has left the invocation counter. -/
  left : Nat
  /-- The local frames that `PushLocalFrame` has pushed for it. -/
  pushed : Nat
  popped : Nat
  /-- What it has put into `last_error`. -/
  recorded : List String
  deriving DecidableEq

def Account.new : Account := ⟨0, 0, 0, 0, []⟩

structure Invoking (τ ω R M : Type) where
  shared : Shared τ ω R M
  account : Account

namespace Invoking

def native (s : Invoking τ ω R M) : Thread ω R M := s.shared.native

def withNative (native : Thread ω R M) (s : Invoking τ ω R M) : Invoking τ ω R M :=
  { s with shared := { s.shared with native } }

def withShared (shared : Shared τ ω R M) (s : Invoking τ ω R M) : Invoking τ ω R M :=
  { s with shared }

def setLastError (error : String) (s : Invoking τ ω R M) : Invoking τ ω R M where
  shared := { s.shared with native := s.shared.native.setLastError error }
  account := { s.account with recorded := s.account.recorded ++ [error] }

/-- `enter_invocation`, with what the guard has seen. -/
def enter [DecidableEq τ] (thread : τ) (s : Invoking τ ω R M) : Bool × Invoking τ ω R M :=
  (s.shared.counts.closing,
    { shared := { s.shared with counts := s.shared.counts.enter thread }
      account := { s.account with entered := s.account.entered + 1 } })

/-- The drop of the guard. -/
def leave [DecidableEq τ] (thread : τ) (s : Invoking τ ω R M) : Invoking τ ω R M where
  shared := { s.shared with counts := s.shared.counts.release thread }
  account := { s.account with left := s.account.left + 1 }

def countPush (pushes : Bool) (s : Invoking τ ω R M) : Invoking τ ω R M :=
  { s with account := { s.account with pushed := s.account.pushed + pushes.toNat } }

/-- After `PopLocalFrame`, with the runtime as that leaves it. -/
def pop (world : ω) (s : Invoking τ ω R M) : Invoking τ ω R M where
  shared := { s.shared with native := { s.shared.native.record .popLocalFrame with world } }
  account := { s.account with popped := s.account.popped + 1 }

end Invoking

/-! ## Programs -/

/-- Code of the bridge that returns a `Result`. -/
abbrev ResultM (τ ω R M α : Type) := EStateM (Error R) (Invoking τ ω R M) α

/-- Code of the bridge that returns no `Result`: its only failure is a panic that unwinds. -/
abbrev UnwindM (τ ω R M α : Type) := EStateM String (Invoking τ ω R M) α

/-- A hook's callback: it fails with an error, or by a panic. -/
abbrev Callback (τ ω R M : Type) :=
  ReplacementInvocation R → EStateM (Failure R) (Shared τ ω R M) (RawJavaReturn (Option R))

/-- A hook's error handler: its only failure is a panic. -/
abbrev ErrorHandler (τ ω R M : Type) := JavaHookError → EStateM String (Shared τ ω R M) Unit

/-- Runs user code, which does not see the account. -/
def user {ε : Type} (x : EStateM ε (Shared τ ω R M) α) : EStateM ε (Invoking τ ω R M) α :=
  zoom Invoking.shared Invoking.withShared x

def native {ε : Type} (x : EStateM ε (Thread ω R M) α) : EStateM ε (Invoking τ ω R M) α :=
  zoom Invoking.native Invoking.withNative x

variable (jni : Jni ω R M) (display : Error R → String)

/-! ## The local frame of a callback -/

/-- `PushLocalFrame` is called, and pushes a frame. -/
def pushes (env : Option Unit) (world : ω) : Bool :=
  env.isSome && (jni.pushLocalFrame CALLBACK_LOCAL_FRAME_CAPACITY world).1 == JNI_OK

/-- `CallbackLocalFrame::push`. -/
def push (env : Option Unit) : ResultM τ ω R M (Option CallbackLocalFrame) := do
  let world := (← get).native.world
  modify (Invoking.countPush (pushes jni env world))
  native (CallbackLocalFrame.push jni env)

/-- The result of `pop_with_survivor`, and the frame after it. -/
def popWithSurvivor (frame : CallbackLocalFrame) (survivor : Option R) (s : Invoking τ ω R M) :
    (Option R × CallbackLocalFrame) × Invoking τ ω R M :=
  if frame.active then
    let (promoted, world) := jni.popLocalFrame survivor s.native.world
    ((promoted, ⟨false⟩), s.pop world)
  else ((survivor, frame), s)

/-- `Drop for CallbackLocalFrame`. -/
def drop (frame : Option CallbackLocalFrame) (s : Invoking τ ω R M) : Invoking τ ω R M :=
  match frame with
  | some frame => (popWithSurvivor jni frame none s).2
  | none => s

/-- `pop_return`, at whose end the frame is dropped. -/
def popReturn (frame : CallbackLocalFrame) (value : RawJavaReturn (Option R)) :
    UnwindM τ ω R M (RawJavaReturn (Option R)) :=
  match value with
  | .object object => do
    let (promoted, frame) ← modifyGet (popWithSurvivor jni frame object)
    modify (drop jni (some frame))
    pure (.object promoted)
  | other => do
    let (_, frame) ← modifyGet (popWithSurvivor jni frame none)
    modify (drop jni (some frame))
    pure other

/-! ## Errors -/

variable (hook : ClosureReplacementState R) (errorHandler : Option (ErrorHandler τ ω R M))

def recordError (error : String) : UnwindM τ ω R M Unit := do
  modify (Invoking.setLastError error)
  match errorHandler with
  | some handler =>
    match ← attempt (user (handler ⟨hook.kind, hook.name, hook.signature, error⟩)) with
    | .ok () => pure ()
    | .error _ => modify (Invoking.setLastError (error ++ "; replacement error handler panicked"))
  | none => pure ()

/-- `PendingJavaException::take`. It has no `Result` that a failure could go to. -/
def takePending (env : Option Unit) : UnwindM τ ω R M (Option (PendingJavaException R)) :=
  match env with
  | some () => EStateM.adaptExcept display (native PendingJavaException.take)
  | none => pure none

def recordMessagePreservingPendingException (env : Option Unit) (error : String) :
    UnwindM τ ω R M Unit := do
  let pendingException ← takePending display env
  recordError hook errorHandler error
  match pendingException with
  | some exception =>
    match ← attempt (native (exception.rethrow jni)) with
    | .error error =>
      recordError hook errorHandler
        ("failed to restore pending Java exception: " ++ display error)
    | .ok () => pure ()
  | none => pure ()

def recordErrorPreservingJavaException (env : Option Unit) (error : Error R) :
    UnwindM τ ω R M Unit := do
  let message := display error
  match error.javaThrowable with
  | some throwable =>
    recordError hook errorHandler message
    match env with
    | none => recordError hook errorHandler "failed to restore Java exception: null JNIEnv"
    | some () =>
      match ← attempt (native (throwThrowable jni throwable)) with
      | .error error =>
        recordError hook errorHandler ("failed to restore Java exception: " ++ display error)
      | .ok () => pure ()
  | none => recordMessagePreservingPendingException jni display hook errorHandler env message

/-! ## `invoke` -/

def finishInvocationReturn (frame : Option CallbackLocalFrame) (value : RawJavaReturn (Option R)) :
    UnwindM τ ω R M (RawJavaReturn (Option R)) :=
  match frame with
  | some frame => popReturn jni frame value
  | none => pure value

/-- What `invoke` does with the callback's result. Where that is rejected the frame is dropped after
the error has been recorded, or while that unwinds. -/
def finishInvocation (env : Option Unit) (frame : Option CallbackLocalFrame) :
    Except (Failure R) (RawJavaReturn (Option R)) → UnwindM τ ω R M (RawJavaReturn (Option R))
  | .ok value =>
    match validateReturn hook.signature.returnType value with
    | .ok value => finishInvocationReturn jni frame value
    | .error error => defer (drop jni frame) do
      recordErrorPreservingJavaException jni display hook errorHandler env error
      pure hook.defaultReturn
  | .error (.error error) => defer (drop jni frame) do
    recordErrorPreservingJavaException jni display hook errorHandler env error
    pure hook.defaultReturn
  | .error (.panic _) => defer (drop jni frame) do
    recordMessagePreservingPendingException jni display hook errorHandler env
      "closure replacement callback panicked"
    pure hook.defaultReturn

/-- `ClosureReplacementState::invoke`, on the thread `thread`. -/
def invoke [DecidableEq τ] (thread : τ) (env : Option Unit) (target : Option R)
    (arguments : List (JavaValue R)) (callback : Callback τ ω R M) :
    UnwindM τ ω R M (RawJavaReturn (Option R)) := do
  let closing ← modifyGet (Invoking.enter thread)
  defer (Invoking.leave thread) do
    if closing then pure hook.defaultReturn
    else
      match ← attempt (push jni env) with
      | .error error =>
        recordErrorPreservingJavaException jni display hook errorHandler env error
        pure hook.defaultReturn
      | .ok frame =>
        let result ← attempt (user (callback ⟨hook, env, target, arguments⟩))
        finishInvocation jni display hook errorHandler env frame result

/-! ## Recording an error -/

/-- The error handler does not take the error out of the slot. -/
def LeavesErrors (errorHandler : Option (ErrorHandler τ ω R M)) : Prop :=
  ∀ handler ∈ errorHandler, ∀ error (s : Shared τ ω R M), s.native.lastError.isSome = true →
    (outcome (handler error) s).2.native.lastError.isSome = true

/-- The user code leaves the invocation counters as it finds them. -/
def KeepsCounts {ε : Type} (x : EStateM ε (Shared τ ω R M) α) : Prop :=
  ∀ s, (outcome x s).2.counts = s.counts

/-- Between the two states an error has been recorded, and nothing else has been done. -/
structure Reported (errorHandler : Option (ErrorHandler τ ω R M)) (s t : Invoking τ ω R M) :
    Prop where
  account : ∃ texts, texts ≠ [] ∧
    t.account = { s.account with recorded := s.account.recorded ++ texts }
  lastError : LeavesErrors errorHandler → t.native.lastError.isSome = true
  counts : (∀ handler ∈ errorHandler, ∀ error, KeepsCounts (handler error)) →
    t.shared.counts = s.shared.counts

/-- Between the two states no error has been recorded, and nothing else has been done. -/
structure Silent (s t : Invoking τ ω R M) : Prop where
  account : t.account = s.account
  lastError : t.native.lastError = s.native.lastError
  counts : t.shared.counts = s.shared.counts

section Reported

variable {errorHandler} {s t u : Invoking τ ω R M}

theorem Reported.trans (h : Reported errorHandler s t) (h' : Reported errorHandler t u) :
    Reported errorHandler s u := by
  obtain ⟨texts, hne, ht⟩ := h.account
  obtain ⟨texts', hne', hu⟩ := h'.account
  refine ⟨⟨texts ++ texts', List.append_ne_nil_of_left_ne_nil hne _, ?_⟩, h'.lastError,
    fun hkeeps ↦ (h'.counts hkeeps).trans (h.counts hkeeps)⟩
  rw [hu, ht, List.append_assoc]

theorem Reported.silent (h : Reported errorHandler s t) (h' : Silent t u) :
    Reported errorHandler s u where
  account := by
    rw [h'.account]
    exact h.account
  lastError hleaves := by
    rw [h'.lastError]
    exact h.lastError hleaves
  counts hkeeps := h'.counts.trans (h.counts hkeeps)

theorem Silent.reported (h : Silent s t) (h' : Reported errorHandler t u) :
    Reported errorHandler s u where
  account := by
    rw [← h.account]
    exact h'.account
  lastError := h'.lastError
  counts hkeeps := (h'.counts hkeeps).trans h.counts

end Reported

/-- The program does not touch the error slot. -/
def Quietly {ε : Type} (x : EStateM ε (Thread ω R M) α) : Prop :=
  ∀ s, wp x (fun _ t ↦ Quiet s t) (fun _ t ↦ Quiet s t) s

section Rules

variable {jni display hook errorHandler} {s : Invoking τ ω R M}
  {E : String → Invoking τ ω R M → Prop} {env : Option Unit}

theorem Quietly.bind {ε β : Type} {x : EStateM ε (Thread ω R M) α}
    {f : α → EStateM ε (Thread ω R M) β} (hx : Quietly x) (hf : ∀ a, Quietly (f a)) :
    Quietly (x >>= f) := by
  intro s
  rw [wp_bind]
  refine wp_mono (hx s) (fun a t ht ↦ ?_) fun _ _ ht ↦ ht
  exact wp_mono (hf a t) (fun _ _ hu ↦ ht.trans hu) fun _ _ hu ↦ ht.trans hu

theorem quietly_throwRaw (throwable : R) : Quietly (throwRaw jni throwable : JniM ω R M Int) := by
  intro s
  show Quiet s (if _ then _ else _)
  split
  · exact .raise throwable s
  · exact .refl s

theorem quietly_checkJniResult (operation : String) (code : Int) :
    Quietly (checkJniResult operation code : JniM ω R M Unit) := by
  intro s
  unfold checkJniResult
  rw [wp_ite]
  exact ⟨fun _ ↦ .refl s, fun _ ↦ .refl s⟩

theorem quietly_rethrow (exception : PendingJavaException R) :
    Quietly (exception.rethrow jni : JniM ω R M Unit) := by
  refine (quietly_throwRaw exception.throwable).bind fun code ↦ ?_
  exact .bind (fun s ↦ .deleteLocalRef _ s) fun _ ↦ quietly_checkJniResult _ code

theorem quietly_throwThrowable (throwable : R) :
    Quietly (throwThrowable jni throwable : JniM ω R M Unit) :=
  (quietly_throwRaw throwable).bind (quietly_checkJniResult _)

theorem wp_native {ε : Type} {x : EStateM ε (Thread ω R M) α} {Q : α → Invoking τ ω R M → Prop}
    {E : ε → Invoking τ ω R M → Prop} :
    wp (native x) Q E s ↔
      wp x (fun a t ↦ Q a (s.withNative t)) (fun e t ↦ E e (s.withNative t)) s.native :=
  wp_zoom

theorem silent_withNative {t : Thread ω R M} (h : Quiet s.native t) : Silent s (s.withNative t) :=
  ⟨rfl, h.lastError, rfl⟩

theorem wp_attempt_native {x : JniM ω R M α} (hx : Quietly x)
    {Q : Except (Error R) α → Invoking τ ω R M → Prop} (h : ∀ r t, Silent s t → Q r t) :
    wp (attempt (native x)) Q E s := by
  rw [wp_attempt, wp_native]
  exact wp_mono (hx _) (fun _ _ ht ↦ h _ _ (silent_withNative ht)) fun _ _ ht ↦
    h _ _ (silent_withNative ht)

theorem reported_setLastError (errorHandler : Option (ErrorHandler τ ω R M)) (error : String)
    (s : Invoking τ ω R M) : Reported errorHandler s (s.setLastError error) :=
  ⟨⟨[error], List.cons_ne_nil _ _, rfl⟩, fun _ ↦ rfl, fun _ ↦ rfl⟩

/-- Whatever the handler does, the error has been recorded and nothing unwinds. -/
theorem wp_recordError {error : String} {Q : Unit → Invoking τ ω R M → Prop}
    (h : ∀ t, Reported errorHandler s t → Q () t) :
    wp (recordError hook errorHandler error) Q E s := by
  simp only [recordError, wp_bind, wp_modify]
  cases errorHandler with
  | none => exact h _ (reported_setLastError _ _ s)
  | some handler =>
    simp only [wp_bind, wp_attempt, user, wp_zoom]
    have hhandled {r : Except String Unit} {t : Shared τ ω R M}
        (ht : outcome (handler ⟨hook.kind, hook.name, hook.signature, error⟩)
          (s.setLastError error).shared = (r, t)) :
        Reported (some handler) s ((s.setLastError error).withShared t) := by
      have hset := reported_setLastError (some handler) error s
      refine ⟨hset.account, fun hleaves ↦ ?_, fun hkeeps ↦ ?_⟩
      · have := hleaves handler rfl ⟨hook.kind, hook.name, hook.signature, error⟩
          (s.setLastError error).shared rfl
        rwa [ht] at this
      · have := hkeeps handler rfl ⟨hook.kind, hook.name, hook.signature, error⟩
          (s.setLastError error).shared
        rwa [ht] at this
    refine wp_mono (wp_outcome _ _) (fun _ t ht ↦ h _ (hhandled ht)) fun _ t ht ↦ ?_
    exact h _ ((hhandled ht).trans (reported_setLastError _ _ _))

theorem wp_takePending {Q : Option (PendingJavaException R) → Invoking τ ω R M → Prop}
    (h : ∀ r t, Silent s t → Q r t) : wp (takePending display env) Q E s := by
  cases env with
  | none => exact h _ _ ⟨rfl, rfl, rfl⟩
  | some _ =>
    simp only [takePending, wp_adaptExcept, wp_native]
    exact wp_take fun t ht ↦ h _ _ (silent_withNative ht.toQuiet)

theorem wp_recordMessagePreservingPendingException {error : String}
    {Q : Unit → Invoking τ ω R M → Prop} (h : ∀ t, Reported errorHandler s t → Q () t) :
    wp (recordMessagePreservingPendingException jni display hook errorHandler env error) Q E s := by
  simp only [recordMessagePreservingPendingException, wp_bind]
  refine wp_takePending fun exception t ht ↦ wp_recordError fun u hu ↦ ?_
  have hu := ht.reported hu
  cases exception with
  | none => exact h u hu
  | some exception =>
    simp only [wp_bind]
    refine wp_attempt_native (quietly_rethrow exception) fun r v hv ↦ ?_
    have hv := hu.silent hv
    cases r with
    | ok _ => exact h v hv
    | error e => exact wp_recordError fun w hw ↦ h w (hv.trans hw)

theorem wp_recordErrorPreservingJavaException {error : Error R}
    {Q : Unit → Invoking τ ω R M → Prop} (h : ∀ t, Reported errorHandler s t → Q () t) :
    wp (recordErrorPreservingJavaException jni display hook errorHandler env error) Q E s := by
  unfold recordErrorPreservingJavaException
  cases error.javaThrowable with
  | none => exact wp_recordMessagePreservingPendingException h
  | some throwable =>
    simp only [wp_bind]
    refine wp_recordError fun t ht ↦ ?_
    cases env with
    | none => exact wp_recordError fun u hu ↦ h u (ht.trans hu)
    | some _ =>
      simp only [wp_bind]
      refine wp_attempt_native (quietly_throwThrowable throwable) fun r u hu ↦ ?_
      have hu := ht.silent hu
      cases r with
      | ok _ => exact h u hu
      | error e => exact wp_recordError fun v hv ↦ h v (hu.trans hv)

end Rules

/-! ## The ways out -/

/-- How many frames are there to be popped. -/
def held : Option CallbackLocalFrame → Nat
  | some ⟨true⟩ => 1
  | some ⟨false⟩ | none => 0

/-- The state after the frame is popped and after `texts` have been recorded. -/
def settled (frame : Option CallbackLocalFrame) (texts : List String) (account : Account) :
    Account :=
  { account with popped := account.popped + held frame, recorded := account.recorded ++ texts }

theorem account_drop (frame : Option CallbackLocalFrame) (s : Invoking τ ω R M) :
    (drop jni frame s).account = settled frame [] s.account := by
  rcases frame with _ | ⟨_ | _⟩ <;> simp [drop, popWithSurvivor, settled, held, Invoking.pop]

theorem lastError_drop (frame : Option CallbackLocalFrame) (s : Invoking τ ω R M) :
    (drop jni frame s).native.lastError = s.native.lastError := by
  rcases frame with _ | ⟨_ | _⟩ <;> rfl

theorem counts_drop (frame : Option CallbackLocalFrame) (s : Invoking τ ω R M) :
    (drop jni frame s).shared.counts = s.shared.counts := by
  rcases frame with _ | ⟨_ | _⟩ <;> rfl

/-- What is returned and what has been done when the callback's result has been dealt with. -/
structure Finished (frame : Option CallbackLocalFrame)
    (result : Except (Failure R) (RawJavaReturn (Option R))) (s : Invoking τ ω R M)
    (value : RawJavaReturn (Option R)) (t : Invoking τ ω R M) : Prop where
  value : value = returned jni hook frame s.native.world result
  account : ∃ texts, t.account = settled frame texts s.account ∧
    (texts = [] ↔ Accepted hook result)
  lastError : ¬Accepted hook result → LeavesErrors errorHandler → t.native.lastError.isSome = true
  counts : (∀ handler ∈ errorHandler, ∀ error, KeepsCounts (handler error)) →
    t.shared.counts = s.shared.counts

section Finish

variable {jni display hook errorHandler} {s : Invoking τ ω R M}
  {E : String → Invoking τ ω R M → Prop} {env : Option Unit} {frame : Option CallbackLocalFrame}
  {result : Except (Failure R) (RawJavaReturn (Option R))}
  {Q : RawJavaReturn (Option R) → Invoking τ ω R M → Prop}

theorem returned_of_not_accepted {world : ω} (h : ¬Accepted hook result) :
    returned jni hook frame world result = hook.defaultReturn := by
  cases result with
  | error _ => rfl
  | ok value => exact if_neg fun hlane ↦ h ⟨value, rfl, hlane⟩

/-- Whatever the callback does, the lane is that of the return type. -/
theorem matchesType_returned {world : ω} :
    (returned jni hook frame world result).matchesType hook.signature.returnType = true := by
  by_cases haccepted : Accepted hook result
  · obtain ⟨value, rfl, hlane⟩ := haccepted
    have hvalue : returned jni hook frame world (.ok value) = promoted jni frame world value :=
      if_pos hlane
    rwa [hvalue, matchesType_promoted]
  · rw [returned_of_not_accepted haccepted]
    exact matchesType_defaultReturn _ _

/-- A rejected result: the error is recorded while the frame is still there. -/
theorem wp_reject {record : UnwindM τ ω R M Unit} (hrejected : ¬Accepted hook result)
    (hrecord : ∀ (Q : Unit → Invoking τ ω R M → Prop) (E : String → Invoking τ ω R M → Prop),
      (∀ t, Reported errorHandler s t → Q () t) → wp record Q E s)
    (h : ∀ value t, Finished jni hook errorHandler frame result s value t → Q value t) :
    wp (defer (drop jni frame) do record; pure hook.defaultReturn) Q E s := by
  rw [wp_defer, wp_bind]
  refine hrecord _ _ fun t ht ↦ h _ _
    ⟨(returned_of_not_accepted hrejected).symm, ?_, fun _ hleaves ↦ ?_, fun hkeeps ↦ ?_⟩
  · obtain ⟨texts, hne, ht⟩ := ht.account
    refine ⟨texts, ?_, iff_of_false hne hrejected⟩
    rw [account_drop, ht]
    simp [settled]
  · rw [lastError_drop]
    exact ht.lastError hleaves
  · rw [counts_drop]
    exact ht.counts hkeeps

/-- A value of the right lane goes out through the pop of the frame, and the drop that follows finds
nothing to pop. -/
theorem wp_finishInvocationReturn {value : RawJavaReturn (Option R)}
    (hlane : value.matchesType hook.signature.returnType = true)
    (h : ∀ value' t, Finished jni hook errorHandler frame (.ok value) s value' t → Q value' t) :
    wp (finishInvocationReturn jni frame value) Q E s := by
  have haccepted : Accepted hook (.ok value) := ⟨value, rfl, hlane⟩
  have hreturned : returned jni hook frame s.native.world (.ok value) =
      promoted jni frame s.native.world value := if_pos hlane
  have hsettled (t : Invoking τ ω R M) (ht : t.account = settled frame [] s.account) :
      ∃ texts, t.account = settled frame texts s.account ∧
        (texts = [] ↔ Accepted hook (.ok value)) := ⟨[], ht, iff_of_true rfl haccepted⟩
  rcases frame with _ | ⟨_ | _⟩
  · refine h _ _ ⟨?_, hsettled _ (by simp [settled, held]), absurd haccepted, fun _ ↦ rfl⟩
    rw [hreturned]
    cases value <;> rfl
  · have hdrop := hsettled s (by simp [settled, held])
    cases value <;> exact h _ _ ⟨hreturned.symm, hdrop, absurd haccepted, fun _ ↦ rfl⟩
  · have hdrop (world : ω) := hsettled (s.pop world) (by simp [settled, held, Invoking.pop])
    cases value <;> exact h _ _ ⟨hreturned.symm, hdrop _, absurd haccepted, fun _ ↦ rfl⟩

theorem wp_finishInvocation
    (h : ∀ value t, Finished jni hook errorHandler frame result s value t → Q value t) :
    wp (finishInvocation jni display hook errorHandler env frame result) Q E s := by
  rcases result with (error | message) | value
  · exact wp_reject (by rintro ⟨_, ⟨⟩, _⟩)
      (fun _ _ ↦ wp_recordErrorPreservingJavaException) h
  · exact wp_reject (by rintro ⟨_, ⟨⟩, _⟩)
      (fun _ _ ↦ wp_recordMessagePreservingPendingException) h
  · by_cases hlane : value.matchesType hook.signature.returnType = true
    · simp only [finishInvocation, validateReturn, if_pos hlane]
      exact wp_finishInvocationReturn hlane h
    · simp only [finishInvocation, validateReturn, if_neg hlane]
      refine wp_reject ?_ (fun _ _ ↦ wp_recordErrorPreservingJavaException) h
      rintro ⟨_, ⟨⟩, hmatches⟩
      exact hlane hmatches

end Finish

/-! ## The whole invocation -/

/-- Where `PushLocalFrame` pushes a frame it raises nothing: its `OutOfMemoryError` comes with an
error code. -/
def PushesQuietly : Prop :=
  ∀ capacity world, (jni.pushLocalFrame capacity world).1 = JNI_OK →
    (jni.pushLocalFrame capacity world).2.1 = none

/-- The invocation gets to the callback, with the frame `frame`, and the callback ends in `u`. -/
def Reaches [DecidableEq τ] (thread : τ) (env : Option Unit) (target : Option R)
    (arguments : List (JavaValue R)) (callback : Callback τ ω R M) (s : Invoking τ ω R M)
    (frame : Option CallbackLocalFrame) (result : Except (Failure R) (RawJavaReturn (Option R)))
    (u : Invoking τ ω R M) : Prop :=
  s.shared.counts.closing = false ∧ ∃ t,
    outcome (push jni env) (s.enter thread).2 = (.ok frame, t) ∧
    outcome (user (callback ⟨hook, env, target, arguments⟩)) t = (result, u)

/-- What an invocation has done when it is over, and what it returns. -/
structure Balanced [DecidableEq τ] (thread : τ) (env : Option Unit) (target : Option R)
    (arguments : List (JavaValue R)) (callback : Callback τ ω R M) (s : Invoking τ ω R M)
    (value : RawJavaReturn (Option R)) (t : Invoking τ ω R M) : Prop where
  entered : t.account.entered = 1
  left : t.account.left = 1
  pushed : t.account.pushed ≤ 1
  popped : t.account.popped = t.account.pushed
  lane : value.matchesType hook.signature.returnType = true
  /-- A value of the right lane goes to the caller, a reference through the pop of the frame. -/
  accepted : ∀ frame v u, Reaches jni hook thread env target arguments callback s frame (.ok v) u →
    v.matchesType hook.signature.returnType = true →
    value = promoted jni frame u.native.world v ∧ t.account.recorded = []
  /-- Any other invocation returns the default, and has recorded an error if it was not closing. -/
  rejected : (¬∃ frame v u,
      Reaches jni hook thread env target arguments callback s frame (.ok v) u ∧
      v.matchesType hook.signature.returnType = true) →
    value = hook.defaultReturn ∧ (s.shared.counts.closing = false → t.account.recorded ≠ [] ∧
      (LeavesErrors errorHandler → t.native.lastError.isSome = true))
  /-- Where user code leaves the counters as it finds them, so does the invocation. -/
  counts : (∀ handler ∈ errorHandler, ∀ error, KeepsCounts (handler error)) →
    (∀ invocation, KeepsCounts (callback invocation)) → s.shared.counts.threads thread ≠ some 0 →
    t.shared.counts = s.shared.counts

/-- A hook of `static int m()`. -/
def intHook : ClosureReplacementState Nat := ⟨1, .staticMethod, "m", ⟨[], .int⟩, none⟩

def panickingHandler : ErrorHandler Unit Unit Nat Nat := fun _ ↦ throw "handler"

def panickingCallback : Callback Unit Unit Nat Nat := fun _ ↦ throw (.panic "callback")

section Invoke

variable {jni display hook errorHandler} {s : Invoking τ ω R M}
  {E : String → Invoking τ ω R M → Prop} {env : Option Unit}

/-- With nothing pending before it, `push` fails exactly where the JNI function pushes no frame. -/
theorem wp_pushFrame (hpush : PushesQuietly jni) {native : Thread ω R M}
    (hpending : native.pending = none) :
    wp (CallbackLocalFrame.push jni env : JniM ω R M (Option CallbackLocalFrame))
      (fun frame _ ↦ held frame = (pushes jni env native.world).toNat)
      (fun _ _ ↦ pushes jni env native.world = false) native := by
  cases env with
  | none => exact rfl
  | some _ =>
    simp only [CallbackLocalFrame.push, CallbackLocalFrame.pushLocalFrameRaw, wp_bind, wp_run,
      checkJniResult, wp_ite, wp_pure, wp_throw, wp_modify]
    by_cases hcode :
        (jni.pushLocalFrame CALLBACK_LOCAL_FRAME_CAPACITY native.world).1 = JNI_OK
    · have hquiet : (native.after (jni.pushLocalFrame CALLBACK_LOCAL_FRAME_CAPACITY)).pending =
          none := by rw [pending_after, hpush _ _ hcode, hpending, Option.none_or]
      have hpushes : pushes jni (some ()) native.world = true := by simp [pushes, hcode]
      simp only [checkPendingException, wp_bind, wp_exceptionCheckRaw, hquiet, wp_ite, wp_pure]
      rw [hpushes]
      exact ⟨fun h ↦ Bool.noConfusion h, fun _ ↦ ⟨fun _ ↦ rfl, absurd hcode⟩⟩
    · have hpushes : pushes jni (some ()) native.world = false := by simp [pushes, hcode]
      refine wp_checkPendingException jni (fun _ ↦ ⟨fun h ↦ absurd h hcode, fun _ ↦ hpushes⟩) ?_
      exact fun _ _ _ _ ↦ hpushes

/-- The account of a push. -/
theorem wp_push (env : Option Unit) (hpush : PushesQuietly jni)
    (hpending : s.native.pending = none) :
    wp (push jni env : ResultM τ ω R M (Option CallbackLocalFrame))
      (fun frame t ↦ t.account = { s.account with pushed := s.account.pushed + held frame })
      (fun _ t ↦ t.account = s.account) s := by
  simp only [push, wp_bind, wp_get, wp_modify, wp_native]
  refine wp_mono (wp_pushFrame hpush hpending) (fun frame t hheld ↦ ?_) fun _ t hfailed ↦ ?_
  · rw [hheld]
    rfl
  · have hfailed : pushes jni env s.native.world = false := hfailed
    show (s.countPush (pushes jni env s.native.world)).account = s.account
    rw [hfailed]
    rfl

theorem account_user {ε : Type} {x : EStateM ε (Shared τ ω R M) α} {r : Except ε α}
    {t : Invoking τ ω R M} (h : outcome (user x) s = (r, t)) : t.account = s.account := by
  unfold outcome user zoom at h
  cases hx : x s.shared <;> rw [hx] at h <;> cases h <;> rfl

theorem counts_user {ε : Type} {x : EStateM ε (Shared τ ω R M) α} (hx : KeepsCounts x)
    {r : Except ε α} {t : Invoking τ ω R M} (h : outcome (user x) s = (r, t)) :
    t.shared.counts = s.shared.counts := by
  have hcounts := hx s.shared
  unfold outcome at hcounts
  unfold outcome user zoom at h
  cases hrun : x s.shared <;> rw [hrun] at h hcounts <;> cases h <;> exact hcounts

theorem counts_push {r : Except (Error R) (Option CallbackLocalFrame)} {t : Invoking τ ω R M}
    (h : outcome (push jni env) s = (r, t)) : t.shared.counts = s.shared.counts := by
  have hwp : wp (push jni env) (fun _ t ↦ t.shared.counts = s.shared.counts)
      (fun _ t ↦ t.shared.counts = s.shared.counts) s := by
    simp only [push, wp_bind, wp_get, wp_modify, wp_native]
    exact wp_mono wp_true (fun _ _ _ ↦ rfl) fun _ _ _ ↦ rfl
  rw [wp_of_outcome h] at hwp
  cases r <;> exact hwp

/-- An invocation that has entered the counter and no more. -/
def Account.inside : Account := { Account.new with entered := 1 }

theorem account_push (env : Option Unit) (hpush : PushesQuietly jni)
    (hpending : s.native.pending = none) (hs : s.account = .inside)
    {r : Except (Error R) (Option CallbackLocalFrame)} {t : Invoking τ ω R M}
    (h : outcome (push jni env) s = (r, t)) :
    t.account = { Account.inside with
      pushed := match r with | .ok frame => held frame | .error _ => 0 } := by
  have hwp := (wp_of_outcome h).1 (wp_push env hpush hpending)
  rw [hs] at hwp
  cases r with
  | error e => exact hwp
  | ok frame =>
    refine hwp.trans ?_
    simp [Account.inside, Account.new]

theorem held_le_one (frame : Option CallbackLocalFrame) : held frame ≤ 1 := by
  rcases frame with _ | ⟨_ | _⟩ <;> decide

variable [DecidableEq τ] {thread : τ} {target : Option R} {arguments : List (JavaValue R)}
  {callback : Callback τ ω R M}

/-- The first exit: the hook is closing. -/
theorem balanced_closing (hs : s.account = .new) (hclosing : s.shared.counts.closing = true) :
    Balanced jni hook errorHandler thread env target arguments callback s hook.defaultReturn
      ((s.enter thread).2.leave thread) where
  entered := by simp [Invoking.enter, Invoking.leave, hs, Account.new]
  left := by simp [Invoking.enter, Invoking.leave, hs, Account.new]
  pushed := by simp [Invoking.enter, Invoking.leave, hs, Account.new]
  popped := by simp [Invoking.enter, Invoking.leave, hs, Account.new]
  lane := matchesType_defaultReturn _ _
  accepted _ _ _ hreaches := Bool.noConfusion (hclosing.symm.trans hreaches.1)
  rejected _ := by
    rw [hclosing]
    exact ⟨rfl, nofun⟩
  counts _ _ hcounted := release_enter hcounted

theorem counts_leave {u : Invoking τ ω R M} (hcounted : s.shared.counts.threads thread ≠ some 0)
    (hu : u.shared.counts = (s.enter thread).2.shared.counts) :
    (u.leave thread).shared.counts = s.shared.counts := by
  show u.shared.counts.release thread = s.shared.counts
  rw [hu]
  exact release_enter hcounted

/-- The second: no frame could be pushed. -/
theorem balanced_unpushed {e : Error R} {t u : Invoking τ ω R M}
    (hpushed : outcome (push jni env) (s.enter thread).2 = (.error e, t)) (ht : t.account = .inside)
    (hu : Reported errorHandler t u) :
    Balanced jni hook errorHandler thread env target arguments callback s hook.defaultReturn
      (u.leave thread) := by
  obtain ⟨texts, hne, haccount⟩ := hu.account
  rw [ht] at haccount
  refine ⟨?_, ?_, ?_, ?_, matchesType_defaultReturn _ _, ?_,
    fun _ ↦ ⟨rfl, fun _ ↦ ⟨?_, hu.lastError⟩⟩, fun hhandler _ hcounted ↦ ?_⟩
  iterate 4 simp [Invoking.leave, haccount, Account.inside, Account.new]
  · rintro _ _ _ ⟨_, _, hreached, _⟩
    rw [hpushed] at hreached
    cases hreached
  · simpa [Invoking.leave, haccount, Account.inside, Account.new] using hne
  · exact counts_leave hcounted ((hu.counts hhandler).trans (counts_push hpushed))

/-- The others: the callback has been run. -/
theorem balanced_finished {frame : Option CallbackLocalFrame}
    {result : Except (Failure R) (RawJavaReturn (Option R))} {t u v : Invoking τ ω R M}
    {value : RawJavaReturn (Option R)} (hopen : s.shared.counts.closing = false)
    (hpushed : outcome (push jni env) (s.enter thread).2 = (.ok frame, t))
    (ht : t.account = { Account.inside with pushed := held frame })
    (hresult : outcome (user (callback ⟨hook, env, target, arguments⟩)) t = (result, u))
    (hv : Finished jni hook errorHandler frame result u value v) :
    Balanced jni hook errorHandler thread env target arguments callback s value
      (v.leave thread) := by
  obtain ⟨texts, haccount, htexts⟩ := hv.account
  rw [account_user hresult, ht] at haccount
  refine ⟨?_, ?_, ?_, ?_, ?_, ?_, fun hrejected ↦ ?_, fun hhandler hcallback hcounted ↦ ?_⟩
  · simp [Invoking.leave, haccount, settled, Account.inside, Account.new]
  · simp [Invoking.leave, haccount, settled, Account.inside, Account.new]
  · simpa [Invoking.leave, haccount, settled] using held_le_one frame
  · simp [Invoking.leave, haccount, settled, Account.inside, Account.new]
  · rw [hv.value]
    exact matchesType_returned
  · rintro frame' raw u' ⟨_, t', hpushed', hresult'⟩ hlane
    cases hpushed.symm.trans hpushed'
    cases hresult.symm.trans hresult'
    refine ⟨hv.value.trans (if_pos hlane), ?_⟩
    simpa [Invoking.leave, haccount, settled, Account.inside, Account.new] using
      htexts.2 ⟨raw, rfl, hlane⟩
  · have hnot : ¬Accepted hook result := by
      rintro ⟨raw, rfl, hlane⟩
      exact hrejected ⟨frame, raw, u, ⟨hopen, t, hpushed, hresult⟩, hlane⟩
    refine ⟨hv.value.trans (returned_of_not_accepted hnot), fun _ ↦ ⟨?_, hv.lastError hnot⟩⟩
    simpa [Invoking.leave, haccount, settled, Account.inside, Account.new] using mt htexts.1 hnot
  · refine counts_leave hcounted ((hv.counts hhandler).trans ?_)
    exact (counts_user (hcallback _) hresult).trans (counts_push hpushed)

/-- Java enters a native method with nothing pending. From there on the invocation is balanced,
whatever the callback and the error handler do. -/
theorem invoke_balanced (hpush : PushesQuietly jni) {shared : Shared τ ω R M}
    (hpending : shared.native.pending = none) :
    ∃ value t, invoke jni display hook errorHandler thread env target arguments callback
        ⟨shared, .new⟩ = .ok value t ∧
      Balanced jni hook errorHandler thread env target arguments callback ⟨shared, .new⟩ value
        t := by
  rw [← wp_false_iff]
  simp only [invoke, wp_bind, wp_modifyGet, wp_defer, wp_ite, wp_pure]
  refine ⟨balanced_closing rfl, fun hopen ↦ ?_⟩
  have hopen : shared.counts.closing = false := by simpa [Invoking.enter] using hopen
  have haccount {r : Except (Error R) (Option CallbackLocalFrame)} {t : Invoking τ ω R M} :=
    account_push env (s := (Invoking.enter thread ⟨shared, .new⟩).2) (r := r) (t := t) hpush
      hpending rfl
  rcases hpushed : outcome (push jni env) (Invoking.enter thread ⟨shared, .new⟩).2 with
    ⟨e | frame, t⟩
  · rw [wp_attempt_of_outcome hpushed]
    simp only [wp_bind, wp_pure]
    exact wp_recordErrorPreservingJavaException fun u hu ↦
      balanced_unpushed hpushed (haccount hpushed) hu
  · rw [wp_attempt_of_outcome hpushed]
    simp only [wp_bind]
    rcases hresult : outcome (user (callback ⟨hook, env, target, arguments⟩)) t with ⟨result, u⟩
    rw [wp_attempt_of_outcome hresult]
    exact wp_finishInvocation fun value v hv ↦
      balanced_finished hopen hpushed (haccount hpushed) hresult hv

/-- The callback of an `int` method panics, and the error handler panics on the error of that. -/
theorem invoke_balanced_panics :
    ∃ value t, invoke throwingJni (fun _ ↦ "") intHook (some panickingHandler) () (some ())
        (some 1) [] panickingCallback ⟨⟨.entry () none, .new⟩, .new⟩ = .ok value t ∧
      Balanced throwingJni intHook (some panickingHandler) () (some ()) (some 1) []
        panickingCallback ⟨⟨.entry () none, .new⟩, .new⟩ value t :=
  invoke_balanced (fun _ _ _ ↦ rfl) rfl

end Invoke

/-! ## The thread alone -/

section Simulates

/-- The program does to the thread what `y` does, with the same value. -/
def Simulates (x : UnwindM τ ω R M α) (y : JniM ω R M α) : Prop :=
  ∀ s, wp x (fun a t ↦ y s.native = .ok a t.native) (fun _ _ ↦ False) s

variable {jni display hook}

namespace Simulates

theorem pure (a : α) : Simulates (Pure.pure a : UnwindM τ ω R M α) (Pure.pure a) := fun _ ↦ rfl

theorem bind {β : Type} {x : UnwindM τ ω R M α} {y : JniM ω R M α} {f : α → UnwindM τ ω R M β}
    {g : α → JniM ω R M β} (hx : Simulates x y) (hf : ∀ a, Simulates (f a) (g a)) :
    Simulates (x >>= f) (y >>= g) := by
  intro s
  rw [wp_bind]
  refine wp_mono (hx s) (fun a t ht ↦ ?_) fun _ _ h ↦ h
  refine wp_mono (hf a t) (fun b u hu ↦ ?_) fun _ _ h ↦ h
  simp only [Bind.bind, EStateM.bind, ht]
  exact hu

theorem attempt_native {ε : Type} (y : EStateM ε (Thread ω R M) α) :
    Simulates (τ := τ) (attempt (native y)) (attempt y) := by
  intro s
  rw [wp_attempt, wp_native]
  refine wp_mono (wp_outcome y s.native) (fun a t ht ↦ ?_) fun e t ht ↦ ?_
  all_goals
    unfold outcome at ht
    unfold attempt
    split at ht <;> cases ht
    rfl

end Simulates

/-- The handler that is told of only whether it panics. -/
def plainHandler (panics : JavaHookError → Bool) : ErrorHandler τ ω R M := fun error ↦
  if panics error then throw "" else pure ()

/-- The callback that does not see the counters. -/
def plainCallback (callback : ClosureReplacementState.Callback ω R M) : Callback τ ω R M :=
  fun invocation ↦ zoom Shared.native (fun native s ↦ { s with native }) (callback invocation)

theorem simulates_recordError (error : String) :
    Simulates (τ := τ) (ω := ω) (M := M)
      (recordError hook (hook.errorHandler.map plainHandler) error)
      (ClosureReplacementState.recordError hook error) := by
  intro s
  unfold recordError ClosureReplacementState.recordError
  cases hook.errorHandler with
  | none => exact rfl
  | some panics =>
    simp only [Option.map_some, wp_bind, wp_modify, wp_attempt, user, wp_zoom, plainHandler, wp_ite,
      wp_throw, wp_pure]
    constructor
    · intro hpanics
      show (if _ then _ else _ : JniM ω R M Unit) (s.native.setLastError error) = _
      rw [if_pos hpanics]
      rfl
    · intro hpanics
      show (if _ then _ else _ : JniM ω R M Unit) (s.native.setLastError error) = _
      rw [if_neg hpanics]
      rfl

theorem simulates_take :
    Simulates (τ := τ) (ω := ω) (M := M) (takePending display (some ()))
      PendingJavaException.take := by
  intro s
  obtain ⟨exception, t, hrun, -⟩ := wp_false_iff.1
    (wp_take (s := s.native) (Q := fun _ _ ↦ True) (E := fun _ _ ↦ False) fun _ _ ↦ trivial)
  simp only [takePending, wp_adaptExcept, wp_native]
  unfold wp
  rw [hrun]
  rfl

/-- What is done once the pending exception has been taken. -/
theorem simulates_restore (exception : Option (PendingJavaException R)) (error : String) :
    Simulates (τ := τ)
      (do
        recordError hook (hook.errorHandler.map plainHandler) error
        match exception with
        | some exception =>
          match ← attempt (native (exception.rethrow jni)) with
          | .error error =>
            recordError hook (hook.errorHandler.map plainHandler)
              ("failed to restore pending Java exception: " ++ display error)
          | .ok () => pure ()
        | none => pure ())
      (do
        ClosureReplacementState.recordError hook error
        match exception with
        | some exception =>
          match ← attempt (exception.rethrow jni) with
          | .error error =>
            ClosureReplacementState.recordError hook
              ("failed to restore pending Java exception: " ++ display error)
          | .ok () => pure ()
        | none => pure ()) := by
  refine (simulates_recordError error).bind fun _ ↦ ?_
  cases exception with
  | none => exact .pure ()
  | some exception =>
    refine (Simulates.attempt_native (exception.rethrow jni)).bind fun r ↦ ?_
    cases r with
    | ok _ => exact .pure ()
    | error e => exact simulates_recordError _

theorem simulates_recordMessagePreservingPendingException (env : Option Unit) (error : String) :
    Simulates (τ := τ) (recordMessagePreservingPendingException jni display hook
        (hook.errorHandler.map plainHandler) env error)
      (ClosureReplacementState.recordMessagePreservingPendingException jni display hook env
        error) := by
  unfold recordMessagePreservingPendingException
    ClosureReplacementState.recordMessagePreservingPendingException
  cases env with
  | none => exact (Simulates.pure none).bind fun exception ↦ simulates_restore exception error
  | some _ => exact simulates_take.bind fun exception ↦ simulates_restore exception error

theorem simulates_recordErrorPreservingJavaException (env : Option Unit) (error : Error R) :
    Simulates (τ := τ) (recordErrorPreservingJavaException jni display hook
        (hook.errorHandler.map plainHandler) env error)
      (ClosureReplacementState.recordErrorPreservingJavaException jni display hook env error) := by
  unfold recordErrorPreservingJavaException
    ClosureReplacementState.recordErrorPreservingJavaException
  cases error.javaThrowable with
  | none => exact simulates_recordMessagePreservingPendingException env _
  | some throwable =>
    refine (simulates_recordError _).bind fun _ ↦ ?_
    cases env with
    | none => exact simulates_recordError _
    | some _ =>
      refine (Simulates.attempt_native (throwThrowable jni throwable)).bind fun r ↦ ?_
      cases r with
      | ok _ => exact .pure ()
      | error e => exact simulates_recordError _

theorem drop_native (frame : Option CallbackLocalFrame) (s : Invoking τ ω R M) :
    CallbackLocalFrame.drop jni frame s.native = .ok () (drop jni frame s).native := by
  rcases frame with _ | ⟨_ | _⟩ <;> rfl

theorem simulates_finishInvocationReturn (frame : Option CallbackLocalFrame)
    (value : RawJavaReturn (Option R)) :
    Simulates (τ := τ) (finishInvocationReturn jni frame value)
      (ClosureReplacementState.finishInvocationReturn jni frame value) := by
  intro s
  rcases frame with _ | ⟨_ | _⟩ <;> cases value <;> rfl

/-- A program that records an error, and then the drop of the frame. -/
theorem simulates_reject {x : UnwindM τ ω R M Unit} {y : JniM ω R M Unit} (hx : Simulates x y)
    (frame : Option CallbackLocalFrame) (value : RawJavaReturn (Option R)) :
    Simulates (Fallible.defer (drop jni frame) do x; pure value)
      (do y; CallbackLocalFrame.drop jni frame; pure value) := by
  intro s
  rw [wp_defer, wp_bind]
  refine wp_mono (hx s) (fun a t ht ↦ ?_) fun _ _ h ↦ h
  simp only [wp_pure, Bind.bind, EStateM.bind, ht, drop_native]
  rfl

theorem simulates_finishInvocation (env : Option Unit) (frame : Option CallbackLocalFrame)
    (result : Except (Failure R) (RawJavaReturn (Option R))) :
    Simulates (τ := τ) (finishInvocation jni display hook (hook.errorHandler.map plainHandler) env
        frame result)
      (ClosureReplacementState.finishInvocation jni display hook env frame result) := by
  rcases result with (error | message) | value
  · exact simulates_reject (simulates_recordErrorPreservingJavaException env error) _ _
  · exact simulates_reject (simulates_recordMessagePreservingPendingException env _) _ _
  · unfold finishInvocation ClosureReplacementState.finishInvocation
    dsimp only
    cases validateReturn hook.signature.returnType value with
    | ok value => exact simulates_finishInvocationReturn frame value
    | error error =>
      exact simulates_reject (simulates_recordErrorPreservingJavaException env error) _ _

theorem simulates_push (env : Option Unit) :
    Simulates (τ := τ) (attempt (push jni env)) (attempt (CallbackLocalFrame.push jni env)) := by
  intro s
  rw [wp_attempt]
  simp only [push, wp_bind, wp_get, wp_modify]
  exact wp_attempt.1 (Simulates.attempt_native (CallbackLocalFrame.push jni env) (s.countPush _))

theorem simulates_user {callback : ClosureReplacementState.Callback ω R M}
    (invocation : ReplacementInvocation R) :
    Simulates (τ := τ) (attempt (user (plainCallback callback invocation)))
      (attempt (callback invocation)) := by
  intro s
  have h := Simulates.attempt_native (callback invocation) s
  rw [wp_attempt, wp_native] at h
  rw [wp_attempt]
  simp only [user, plainCallback, wp_zoom]
  exact h

/-- With a handler and a callback that do not see the counters, the thread goes the way of
`ClosureReplacementState.invoke`. -/
theorem simulates_invoke [DecidableEq τ] {thread : τ} {env : Option Unit} {target : Option R}
    {arguments : List (JavaValue R)} {callback : ClosureReplacementState.Callback ω R M}
    {shared : Shared τ ω R M} {account : Account} :
    wp (invoke jni display hook (hook.errorHandler.map plainHandler) thread env target arguments
        (plainCallback callback))
      (fun value t ↦ ClosureReplacementState.invoke jni display hook shared.counts.closing env
        target arguments callback shared.native = .ok value t.native)
      (fun _ _ ↦ False) ⟨shared, account⟩ := by
  unfold invoke
  rw [wp_bind, wp_modifyGet, wp_defer, wp_ite]
  refine ⟨fun hclosing ↦ ?_, fun hopen ↦ ?_⟩
  · have hclosing : shared.counts.closing = true := hclosing
    rw [hclosing]
    rfl
  · have hopen : shared.counts.closing = false := by simpa [Invoking.enter] using hopen
    rw [hopen]
    refine ((simulates_push env).bind fun r ↦ ?_) (Invoking.enter thread ⟨shared, account⟩).2
    cases r with
    | error error =>
      exact (simulates_recordErrorPreservingJavaException env error).bind fun _ ↦ .pure _
    | ok frame =>
      exact (simulates_user _).bind fun result ↦ simulates_finishInvocation env frame result

end Simulates

end JavaBridge.Hook.Balance

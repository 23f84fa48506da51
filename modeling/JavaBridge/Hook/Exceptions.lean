import JavaBridge.Hook.Jni

/-!
# Pending exceptions

The helpers that look for a pending exception after a JNI call. `checkPendingException` and
`checkPendingExceptionRaw` take the exception; `checkPendingExceptionPreserveRaw` takes it to
summarise it and throws it again.

Main results:

* `wp_checkPendingException`, `wp_checkPendingExceptionRaw`: where an exception is pending they fail,
  and leave none pending.
* `wp_checkPendingExceptionPreserveRaw`: where an exception is pending it fails, and leaves that one
  pending.
-/

namespace JavaBridge.Hook

open Fallible Thread

variable {ω R M : Type} (jni : Jni ω R M)

def UNKNOWN_JAVA_EXCEPTION : String := "unknown Java exception"

def EXCEPTION_DETAIL_UNAVAILABLE : String := "exception detail unavailable"

def EXCEPTION_DETAIL_RAISED : String :=
  "exception detail unavailable because Throwable.toString() raised another Java exception"

def exceptionCheckRaw : JniM ω R M Bool := do return (← get).pending.isSome

def clearPendingExceptionRaw : JniM ω R M Unit := modify Thread.clear

def exceptionOccurred : JniM ω R M (Option R) := do return (← get).pending

def takeDetailException : JniM ω R M (Option String) := do
  if ← exceptionCheckRaw then
    clearPendingExceptionRaw
    pure (some EXCEPTION_DETAIL_RAISED)
  else pure none

/-! ## The text of an exception -/

/-- `char::decode_utf16`, with a replacement character for each unpaired surrogate. -/
def decodeUtf16 : List (BitVec 16) → List Char
  | [] => []
  | [unit] =>
    [if 0xD800 ≤ unit.toNat ∧ unit.toNat < 0xE000 then '\uFFFD' else Char.ofNat unit.toNat]
  | high :: low :: rest =>
    if 0xD800 ≤ high.toNat ∧ high.toNat < 0xDC00 ∧ 0xDC00 ≤ low.toNat ∧ low.toNat < 0xE000 then
      Char.ofNat (0x10000 + (high.toNat - 0xD800) * 0x400 + (low.toNat - 0xDC00)) ::
        decodeUtf16 rest
    else
      (if 0xD800 ≤ high.toNat ∧ high.toNat < 0xE000 then '\uFFFD' else Char.ofNat high.toNat) ::
        decodeUtf16 (low :: rest)

def javaStringToLossyString (string : R) : JniM ω R M (Option String) := do
  let length ← (jni.getStringLength string).run
  match ← takeDetailException with
  | some _ => pure none
  | none =>
    let chars ← (jni.getStringChars string).run
    match ← takeDetailException, chars with
    | some _, _ | none, none => pure none
    | none, some chars => pure (some (String.ofList (decodeUtf16 (chars.take length))))

/-- The call of `toString` on an exception, whose class has been found. -/
def callToString (exception exceptionClass : R) : JniM ω R M (Option String) := do
  let toString ← (jni.getMethodId exceptionClass "toString" "()Ljava/lang/String;").run
  deleteLocalRef exceptionClass
  match ← takeDetailException, toString with
  | some summary, _ => pure (some summary)
  | none, none => pure none
  | none, some toString =>
    let string ← (jni.callMethodA.object ⟨exception, toString, []⟩).run
    match ← takeDetailException, string with
    | some summary, _ => pure (some summary)
    | none, none => pure none
    | none, some string =>
      let summary ← javaStringToLossyString jni string
      deleteLocalRef string
      pure summary

def throwableToString (exception : R) : JniM ω R M (Option String) := do
  let exceptionClass ← (jni.getObjectClass exception).run
  match ← takeDetailException, exceptionClass with
  | some summary, _ => pure (some summary)
  | none, none => pure none
  | none, some exceptionClass => callToString jni exception exceptionClass

/-! ## Taking an exception -/

/-- A global reference to the exception, where the caller keeps one. -/
def globalThrowableFromLocal (retain : Bool) (exception : R) : JniM ω R M (Option R) := do
  if retain then
    let global ← (jni.newGlobalRef exception).run
    if ← exceptionCheckRaw then
      clearPendingExceptionRaw
      pure none
    else pure global
  else pure none

/-- `take_pending_exception`, where `retain` says whether it is given the `Vm`. -/
def takePendingException (retain : Bool) : JniM ω R M (String × Option R) := do
  let exception ← exceptionOccurred
  clearPendingExceptionRaw
  match exception with
  | none => pure (UNKNOWN_JAVA_EXCEPTION, none)
  | some exception =>
    let throwable ← globalThrowableFromLocal jni retain exception
    let summary ← throwableToString jni exception
    deleteLocalRef exception
    pure (summary.getD EXCEPTION_DETAIL_UNAVAILABLE, throwable)

def takePendingExceptionSummary : JniM ω R M String := do
  return (← takePendingException jni false).1

def checkPendingException (operation : String) : JniM ω R M Unit := do
  if ← exceptionCheckRaw then
    let (exception, throwable) ← takePendingException jni true
    throw (.javaException operation exception throwable)
  else pure ()

def checkPendingExceptionRaw (operation : String) : JniM ω R M Unit := do
  if ← exceptionCheckRaw then
    let exception ← takePendingExceptionSummary jni
    throw (.javaException operation exception none)
  else pure ()

/-- An exception taken off the thread, to be thrown again. -/
structure PendingJavaException (R : Type) where
  throwable : R

namespace PendingJavaException

def take : JniM ω R M (Option (PendingJavaException R)) := do
  if ← exceptionCheckRaw then
    let throwable ← exceptionOccurred
    clearPendingExceptionRaw
    pure (throwable.map .mk)
  else pure none

end PendingJavaException

/-- The JNI function `Throw`, which makes the exception pending where it succeeds. -/
def throwRaw (throwable : R) : JniM ω R M Int := fun s ↦
  let code := jni.throw throwable s.world
  .ok code (if code = JNI_OK then s.raise throwable else s)

namespace PendingJavaException

/-- `PendingJavaException::throw`, which uses the exception up. -/
def rethrow (exception : PendingJavaException R) : JniM ω R M Unit := do
  let result ← throwRaw jni exception.throwable
  deleteLocalRef exception.throwable
  checkJniResult "JNIEnv::Throw" result

end PendingJavaException

/-- `display` is the text of an error. -/
def checkPendingExceptionPreserveRaw (display : Error R → String) (operation : String) :
    JniM ω R M Unit := do
  if ← exceptionCheckRaw then
    let exception ← PendingJavaException.take
    let summary ← match exception with
      | some exception => throwableToString jni exception.throwable
      | none => pure none
    let summary := summary.getD EXCEPTION_DETAIL_UNAVAILABLE
    match exception with
    | some exception =>
      match ← attempt (exception.rethrow jni) with
      | .error error =>
        throw (.javaException operation
          (summary ++ "; failed to restore pending Java exception: " ++ display error) none)
      | .ok () => throw (.javaException operation summary none)
    | none => throw (.javaException operation summary none)
  else pure ()

/-! ## What they leave pending -/

section Rules

variable {s : Thread ω R M}

@[simp] theorem wp_exceptionCheckRaw {Q : Bool → Thread ω R M → Prop}
    {E : Error R → Thread ω R M → Prop} :
    wp exceptionCheckRaw Q E s ↔ Q s.pending.isSome s := Iff.rfl

@[simp] theorem wp_clearPendingExceptionRaw {Q : Unit → Thread ω R M → Prop}
    {E : Error R → Thread ω R M → Prop} :
    wp clearPendingExceptionRaw Q E s ↔ Q () s.clear := Iff.rfl

@[simp] theorem wp_exceptionOccurred {Q : Option R → Thread ω R M → Prop}
    {E : Error R → Thread ω R M → Prop} :
    wp exceptionOccurred Q E s ↔ Q s.pending s := Iff.rfl

/-- Whatever it finds, nothing is pending afterwards. -/
theorem wp_takeDetailException {Q : Option String → Thread ω R M → Prop}
    {E : Error R → Thread ω R M → Prop} (h : ∀ r t, Settled s t → Q r t) :
    wp takeDetailException Q E s := by
  simp only [takeDetailException, wp_bind, wp_exceptionCheckRaw, wp_ite,
    wp_clearPendingExceptionRaw, wp_pure]
  refine ⟨fun _ ↦ h _ _ ⟨.clear s, rfl⟩, fun hs ↦ h _ _ ⟨.refl s, ?_⟩⟩
  simpa using hs

theorem wp_javaStringToLossyString {string : R} {Q : Option String → Thread ω R M → Prop}
    {E : Error R → Thread ω R M → Prop} (h : ∀ r t, Settled s t → Q r t) :
    wp (javaStringToLossyString jni string) Q E s := by
  simp only [javaStringToLossyString, wp_bind, wp_run]
  refine wp_takeDetailException fun r t ht ↦ ?_
  have ht := (Quiet.after s _).settled ht
  cases r with
  | some _ => exact h _ _ ht
  | none =>
    simp only [wp_bind, wp_run]
    refine wp_takeDetailException fun r u hu ↦ ?_
    have hu := (ht.toQuiet.trans (.after t _)).settled hu
    split <;> exact h _ _ hu

theorem wp_callToString {exception exceptionClass : R} {Q : Option String → Thread ω R M → Prop}
    {E : Error R → Thread ω R M → Prop} (h : ∀ r t, Settled s t → Q r t) :
    wp (callToString jni exception exceptionClass) Q E s := by
  simp only [callToString, wp_bind, wp_run, wp_deleteLocalRef]
  refine wp_takeDetailException fun r t ht ↦ ?_
  have ht := ((Quiet.after s _).trans (.deleteLocalRef _ _)).settled ht
  split
  · exact h _ _ ht
  · exact h _ _ ht
  · simp only [wp_bind, wp_run]
    refine wp_takeDetailException fun r u hu ↦ ?_
    have hu := (ht.toQuiet.trans (.after t _)).settled hu
    split
    · exact h _ _ hu
    · exact h _ _ hu
    · simp only [wp_bind, wp_deleteLocalRef, wp_pure]
      refine wp_javaStringToLossyString jni fun r v hv ↦ h _ _ ?_
      exact (hu.toQuiet.settled hv).quiet_of_pending (.deleteLocalRef _ v) rfl

theorem wp_throwableToString {exception : R} {Q : Option String → Thread ω R M → Prop}
    {E : Error R → Thread ω R M → Prop} (h : ∀ r t, Settled s t → Q r t) :
    wp (throwableToString jni exception) Q E s := by
  simp only [throwableToString, wp_bind, wp_run]
  refine wp_takeDetailException fun r t ht ↦ ?_
  have ht := (Quiet.after s _).settled ht
  split
  · exact h _ _ ht
  · exact h _ _ ht
  · exact wp_callToString jni fun r u hu ↦ h _ _ (ht.toQuiet.settled hu)

theorem wp_globalThrowableFromLocal {retain : Bool} {exception : R}
    {Q : Option R → Thread ω R M → Prop} {E : Error R → Thread ω R M → Prop}
    (hs : s.pending = none) (h : ∀ r t, Settled s t → Q r t) :
    wp (globalThrowableFromLocal jni retain exception) Q E s := by
  simp only [globalThrowableFromLocal, wp_ite, wp_bind, wp_run, wp_exceptionCheckRaw,
    wp_clearPendingExceptionRaw, wp_pure]
  refine ⟨fun _ ↦ ⟨fun _ ↦ ?_, fun hnone ↦ ?_⟩, fun _ ↦ h _ _ ⟨.refl s, hs⟩⟩
  · exact h _ _ ⟨(Quiet.after s _).trans (.clear _), rfl⟩
  · exact h _ _ ⟨.after s _, by simpa using hnone⟩

/-- It always comes to an end, and nothing is pending afterwards. -/
theorem wp_takePendingException {retain : Bool} {Q : String × Option R → Thread ω R M → Prop}
    {E : Error R → Thread ω R M → Prop} (h : ∀ r t, Settled s t → Q r t) :
    wp (takePendingException jni retain) Q E s := by
  simp only [takePendingException, wp_bind, wp_exceptionOccurred, wp_clearPendingExceptionRaw]
  cases s.pending with
  | none => exact h _ _ ⟨.clear s, rfl⟩
  | some exception =>
    simp only [wp_bind]
    refine wp_globalThrowableFromLocal jni rfl fun r t ht ↦ ?_
    refine wp_throwableToString jni fun r u hu ↦ h _ _ ?_
    have hu := ((Quiet.clear s).trans ht.toQuiet).settled hu
    exact hu.quiet_of_pending (.deleteLocalRef _ u) rfl

/-- With nothing pending it does nothing; else it fails with a Java exception and takes it. -/
theorem wp_checkPendingException {operation : String} {Q : Unit → Thread ω R M → Prop}
    {E : Error R → Thread ω R M → Prop} (hok : s.pending = none → Q () s)
    (herror : ∀ summary throwable t, Settled s t → E (.javaException operation summary throwable) t) :
    wp (checkPendingException jni operation) Q E s := by
  simp only [checkPendingException, wp_bind, wp_exceptionCheckRaw, wp_ite, wp_pure]
  refine ⟨fun _ ↦ ?_, fun hnone ↦ hok (by simpa using hnone)⟩
  exact wp_takePendingException jni fun r t ht ↦ herror _ _ _ ht

theorem wp_checkPendingExceptionRaw {operation : String} {Q : Unit → Thread ω R M → Prop}
    {E : Error R → Thread ω R M → Prop} (hok : s.pending = none → Q () s)
    (herror : s.pending ≠ none →
      ∀ summary t, Settled s t → E (.javaException operation summary none) t) :
    wp (checkPendingExceptionRaw jni operation) Q E s := by
  simp only [checkPendingExceptionRaw, takePendingExceptionSummary, wp_bind, wp_exceptionCheckRaw,
    wp_ite, wp_pure]
  refine ⟨fun hsome ↦ ?_, fun hnone ↦ hok (by simpa using hnone)⟩
  refine wp_takePendingException jni fun r t ht ↦ herror ?_ _ _ ht
  exact Option.isSome_iff_ne_none.1 hsome

theorem wp_take {Q : Option (PendingJavaException R) → Thread ω R M → Prop}
    {E : Error R → Thread ω R M → Prop}
    (h : ∀ t, Settled s t → Q (s.pending.map .mk) t) : wp PendingJavaException.take Q E s := by
  simp only [PendingJavaException.take, wp_bind, wp_exceptionCheckRaw, wp_ite, wp_exceptionOccurred,
    wp_clearPendingExceptionRaw, wp_pure]
  refine ⟨fun _ ↦ h _ ⟨.clear s, rfl⟩, fun hnone ↦ ?_⟩
  have hnone : s.pending = none := by simpa using hnone
  have := h s ⟨.refl s, hnone⟩
  rwa [hnone] at this

end Rules

/-! ## Calls with a check after them -/

section Steady

variable {α : Type}

/-- A JNI function, and after it the check that takes an exception. -/
theorem Steady.run_checkPendingException {f : Native ω R α} {operation : String} {β : Type}
    {rest : α → JniM ω R M β} (h : ∀ a, Steady (rest a)) :
    Steady (do let a ← f.run; checkPendingException jni operation; rest a) := by
  intro s
  simp only [wp_bind, wp_run]
  refine wp_checkPendingException jni (fun hnone ↦ ?_) fun _ _ t ht ↦
    ⟨(Quiet.after s f).trans ht.toQuiet, ht.pending⟩
  have hs : s.Passed (s.after f) := ⟨.after s f, by rw [hnone, (Option.or_eq_none_iff.1 hnone).2]⟩
  exact wp_mono (h _ _) (fun _ t ht ↦ hs.trans ht) fun e t ht ↦ hs.failed ht

/-- The check leaves nothing pending where it passes. -/
theorem wp_run_checkPendingExceptionRaw {f : Native ω R α} {operation : String} {s : Thread ω R M}
    {Q : Unit → Thread ω R M → Prop} {E : Error R → Thread ω R M → Prop}
    (hok : s.pending = none → s.Passed (s.after f) → Q () (s.after f))
    (herror : ∀ e t, s.Failed e t → E e t) :
    wp (checkPendingExceptionRaw jni operation) Q E (s.after f) := by
  refine wp_checkPendingExceptionRaw jni (fun hnone ↦ ?_) fun _ _ t ht ↦
    herror _ t ⟨(Quiet.after s f).trans ht.toQuiet, ht.pending⟩
  have hs := (Option.or_eq_none_iff.1 hnone).2
  exact hok hs ⟨.after s f, by rw [hnone, hs]⟩

end Steady

/-! ## Throwing again -/

/-- `Throw` makes any throwable pending. -/
def Jni.ThrowSucceeds : Prop := ∀ throwable world, jni.throw throwable world = JNI_OK

section Rethrow

variable {jni} {s : Thread ω R M}

theorem wp_throwRaw (hthrow : jni.ThrowSucceeds) {throwable : R} {Q : Int → Thread ω R M → Prop}
    {E : Error R → Thread ω R M → Prop} (h : Q JNI_OK (s.raise throwable)) :
    wp (throwRaw jni throwable) Q E s := by
  show Q _ _
  rw [hthrow, if_pos rfl]
  exact h

theorem wp_rethrow (hthrow : jni.ThrowSucceeds) {exception : PendingJavaException R}
    {Q : Unit → Thread ω R M → Prop} {E : Error R → Thread ω R M → Prop}
    (h : ∀ t, Quiet s t → t.pending = some exception.throwable → Q () t) :
    wp (exception.rethrow jni) Q E s := by
  simp only [PendingJavaException.rethrow, wp_bind, wp_deleteLocalRef]
  refine wp_throwRaw hthrow ?_
  exact h _ ((Quiet.raise _ s).trans (.deleteLocalRef _ _)) rfl

/-- With nothing pending it does nothing; else it fails with a Java exception without a throwable,
and the exception is pending as before. -/
theorem wp_checkPendingExceptionPreserveRaw (hthrow : jni.ThrowSucceeds)
    {display : Error R → String} {operation : String} {Q : Unit → Thread ω R M → Prop}
    {E : Error R → Thread ω R M → Prop} (hok : s.pending = none → Q () s)
    (herror : ∀ summary t, Quiet s t → t.pending = s.pending → s.pending ≠ none →
      E (.javaException operation summary none) t) :
    wp (checkPendingExceptionPreserveRaw jni display operation) Q E s := by
  simp only [checkPendingExceptionPreserveRaw, wp_bind, wp_exceptionCheckRaw, wp_ite, wp_pure]
  refine ⟨fun hsome ↦ wp_take fun t ht ↦ ?_, fun hnone ↦ hok (by simpa using hnone)⟩
  obtain ⟨throwable, hthrowable⟩ := Option.isSome_iff_exists.1 hsome
  rw [hthrowable]
  simp only [Option.map_some, wp_bind]
  refine wp_throwableToString jni fun r u hu ↦ ?_
  simp only [wp_attempt]
  refine wp_rethrow hthrow fun v hv hpending ↦ ?_
  refine herror _ v ((ht.toQuiet.trans hu.toQuiet).trans hv) ?_ ?_
  · rw [hpending, hthrowable]
  · rw [hthrowable]
    exact Option.some_ne_none _

end Rethrow

end JavaBridge.Hook

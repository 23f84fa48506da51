import JavaBridge.Hook.Exceptions

/-!
# Exception capture and references

What the helpers for pending exceptions do with references. `Jni.recorded` is the JNI over a
runtime that also keeps a ledger of the references that its functions give. The deletions of local
references stand in the account of the thread.

Main results:

* `wp_throwableToString_deletes`: the text of an exception leaves no reference behind, at whichever
  of its calls it stops.
* `exceptionCapture_clean`: what the two checks do to the pending exception and to the references.
-/

namespace JavaBridge.Hook

open Fallible Thread

variable {ω R M α : Type}

/-! ## A ledger of references -/

/-- The runtime with the references that its functions gave, in the order they gave them. -/
structure Ledger (ω R : Type) where
  world : ω
  locals : List R
  /-- Each global reference stands with the reference it was made of. -/
  globals : List (R × R)

namespace Native

/-- The reference that a JNI function gives. A function that raises gives none. -/
def given (f : Native ω R (Option R)) (world : ω) : Option R :=
  match (f world).2.1 with
  | none => (f world).1
  | some _ => none

theorem given_of_none {f : Native ω R (Option R)} {world : ω} (h : (f world).2.1 = none) :
    f.given world = (f world).1 := by rw [given, h]

theorem given_of_some {f : Native ω R (Option R)} {world : ω} {raised : R}
    (h : (f world).2.1 = some raised) : f.given world = none := by rw [given, h]

/-- A JNI function that gives no reference. -/
def givesNone (f : Native ω R α) : Native (Ledger ω R) R α := fun ledger ↦
  ((f ledger.world).1, (f ledger.world).2.1, { ledger with world := (f ledger.world).2.2 })

/-- A JNI function whose result is a local reference. -/
def givesLocal (f : Native ω R (Option R)) : Native (Ledger ω R) R (Option R) := fun ledger ↦
  ((f ledger.world).1, (f ledger.world).2.1,
    { ledger with
      world := (f ledger.world).2.2
      locals := ledger.locals ++ (f.given ledger.world).toList })

/-- A JNI function whose result is a global reference, made of `object`. -/
def givesGlobal (object : R) (f : Native ω R (Option R)) : Native (Ledger ω R) R (Option R) :=
  fun ledger ↦
    ((f ledger.world).1, (f ledger.world).2.1,
      { ledger with
        world := (f ledger.world).2.2
        globals := ledger.globals ++ (f.given ledger.world).toList.map (·, object) })

end Native

def CallFamily.recorded {κ : Type} (family : CallFamily ω R κ) : CallFamily (Ledger ω R) R κ where
  void call := (family.void call).givesNone
  boolean call := (family.boolean call).givesNone
  byte call := (family.byte call).givesNone
  char call := (family.char call).givesNone
  short call := (family.short call).givesNone
  int call := (family.int call).givesNone
  long call := (family.long call).givesNone
  float call := (family.float call).givesNone
  double call := (family.double call).givesNone
  object call := (family.object call).givesLocal

/-- The same JNI over a runtime with a ledger. -/
def Jni.recorded (jni : Jni ω R M) : Jni (Ledger ω R) R M where
  getObjectClass object := (jni.getObjectClass object).givesLocal
  getMethodId holder name signature := (jni.getMethodId holder name signature).givesNone
  getStaticMethodId holder name signature := (jni.getStaticMethodId holder name signature).givesNone
  callMethodA := jni.callMethodA.recorded
  callStaticMethodA := jni.callStaticMethodA.recorded
  callNonvirtualVoidMethodA call := (jni.callNonvirtualVoidMethodA call).givesNone
  isInstanceOf object holder := (jni.isInstanceOf object holder).givesNone
  newStringUtf text := (jni.newStringUtf text).givesLocal
  newGlobalRef object := (jni.newGlobalRef object).givesGlobal object
  getStringLength string := (jni.getStringLength string).givesNone
  getStringChars string := (jni.getStringChars string).givesNone
  pushLocalFrame capacity := (jni.pushLocalFrame capacity).givesNone
  popLocalFrame survivor ledger :=
    ((jni.popLocalFrame survivor ledger.world).1,
      { ledger with
        world := (jni.popLocalFrame survivor ledger.world).2
        locals := ledger.locals ++ (jni.popLocalFrame survivor ledger.world).1.toList })
  throw throwable ledger := jni.throw throwable ledger.world

/-! ## What was deleted -/

def Event.deleted? : Event R M → Option R
  | .deleteLocalRef reference => some reference
  | .call _ | .pushLocalFrame | .popLocalFrame => none

/-- The local references that the thread deleted. -/
def Thread.deleted (s : Thread ω R M) : List R := s.events.filterMap Event.deleted?

@[simp] theorem Thread.deleted_after (s : Thread ω R M) (f : Native ω R α) :
    (s.after f).deleted = s.deleted := rfl

@[simp] theorem Thread.deleted_clear (s : Thread ω R M) : s.clear.deleted = s.deleted := rfl

@[simp] theorem Thread.deleted_raise (throwable : R) (s : Thread ω R M) :
    (s.raise throwable).deleted = s.deleted := rfl

@[simp] theorem Thread.deleted_deleteLocalRef (reference : R) (s : Thread ω R M) :
    (s.record (.deleteLocalRef reference)).deleted = s.deleted ++ [reference] := by
  rw [deleted, record, List.filterMap_append]
  rfl

/-- Between the two states the local references `held` were deleted and those that functions gave,
each as often as it was given. The global references that functions gave are `globals`. -/
structure Deletes (held : List R) (globals : List (R × R)) (s t : Thread (Ledger ω R) R M) :
    Prop where
  locals : ∃ given gone, t.world.locals = s.world.locals ++ given ∧
    t.deleted = s.deleted ++ gone ∧ gone.Perm (held ++ given)
  globals : t.world.globals = s.world.globals ++ globals

namespace Deletes

variable {held held' : List R} {globals globals' : List (R × R)} {s t u : Thread (Ledger ω R) R M}

theorem of_eq (hlocals : t.world.locals = s.world.locals) (hdeleted : t.deleted = s.deleted ++ held)
    (hglobals : t.world.globals = s.world.globals ++ globals) : Deletes held globals s t := by
  refine ⟨⟨[], held, ?_, hdeleted, ?_⟩, hglobals⟩
  · rw [hlocals, List.append_nil]
  · rw [List.append_nil]

theorem of_unchanged (hlocals : t.world.locals = s.world.locals) (hdeleted : t.deleted = s.deleted)
    (hglobals : t.world.globals = s.world.globals) : Deletes [] [] s t :=
  of_eq hlocals (hdeleted.trans (List.append_nil _).symm) (hglobals.trans (List.append_nil _).symm)

theorem clear (s : Thread (Ledger ω R) R M) : Deletes [] [] s s.clear := of_unchanged rfl rfl rfl

theorem raise (throwable : R) (s : Thread (Ledger ω R) R M) : Deletes [] [] s (s.raise throwable) :=
  of_unchanged rfl rfl rfl

theorem deleteLocalRef (reference : R) (s : Thread (Ledger ω R) R M) :
    Deletes [reference] [] s (s.record (.deleteLocalRef reference)) :=
  of_eq rfl (Thread.deleted_deleteLocalRef reference s) (List.append_nil _).symm

theorem givesNone (s : Thread (Ledger ω R) R M) (f : Native ω R α) :
    Deletes [] [] s (s.after f.givesNone) := of_unchanged rfl rfl rfl

theorem givesGlobal (s : Thread (Ledger ω R) R M) (object : R) (f : Native ω R (Option R)) :
    Deletes [] ((f.given s.world.world).toList.map (·, object)) s
      (s.after (f.givesGlobal object)) :=
  of_eq rfl (List.append_nil _).symm rfl

theorem trans (h : Deletes held globals s t) (h' : Deletes held' globals' t u) :
    Deletes (held ++ held') (globals ++ globals') s u := by
  obtain ⟨given, gone, hlocals, hdeleted, hperm⟩ := h.locals
  obtain ⟨given', gone', hlocals', hdeleted', hperm'⟩ := h'.locals
  refine ⟨⟨given ++ given', gone ++ gone', ?_, ?_, ?_⟩, ?_⟩
  · rw [hlocals', hlocals, List.append_assoc]
  · rw [hdeleted', hdeleted, List.append_assoc]
  · refine (hperm.append hperm').trans ?_
    rw [List.append_assoc, List.append_assoc]
    refine List.Perm.append_left held ?_
    rw [← List.append_assoc, ← List.append_assoc]
    exact List.perm_append_comm.append_right given'
  · rw [h'.globals, h.globals, List.append_assoc]

/-- A local reference that a function gave is held from then on. -/
theorem of_givesLocal {f : Native ω R (Option R)}
    (h : Deletes ((f.given s.world.world).toList ++ held) globals (s.after f.givesLocal) t) :
    Deletes held globals s t := by
  obtain ⟨given, gone, hlocals, hdeleted, hperm⟩ := h.locals
  refine ⟨⟨(f.given s.world.world).toList ++ given, gone, ?_, hdeleted, ?_⟩, h.globals⟩
  · rw [hlocals]
    exact List.append_assoc _ _ _
  · rw [← List.append_assoc]
    exact hperm.trans (List.perm_append_comm.append_right given)

end Deletes

/-! ## The text of an exception -/

section Rules

variable (jni : Jni ω R M) {s : Thread (Ledger ω R) R M}

/-- After a function that was called with nothing pending, the check says whether it raised. -/
theorem wp_takeDetailException_after {f : Native ω R α} {s t : Thread ω R M}
    {Q : Option String → Thread ω R M → Prop} {E : Error R → Thread ω R M → Prop}
    (hs : s.pending = none) (ht : t.pending = (s.after f).pending)
    (hraised : ∀ raised, (f s.world).2.1 = some raised → Q (some EXCEPTION_DETAIL_RAISED) t.clear)
    (hnone : (f s.world).2.1 = none → t.pending = none → Q none t) :
    wp takeDetailException Q E t := by
  rw [pending_after, hs, Option.or_none] at ht
  simp only [takeDetailException, wp_bind, wp_exceptionCheckRaw, wp_ite,
    wp_clearPendingExceptionRaw, wp_pure]
  constructor
  · intro h
    obtain ⟨raised, h⟩ := Option.isSome_iff_exists.1 h
    exact hraised raised (ht.symm.trans h)
  · intro h
    have h : t.pending = none := by simpa using h
    exact hnone (ht.symm.trans h) h

/-- After a function for a local reference. Where it gives one, that is held from then on. -/
theorem wp_takeDetailException_givesLocal (f : Native ω R (Option R))
    {Q : Option String → Thread (Ledger ω R) R M → Prop}
    {E : Error R → Thread (Ledger ω R) R M → Prop} (hs : s.pending = none)
    (hraised : ∀ t, t.pending = none → Deletes [] [] s t → Q (some EXCEPTION_DETAIL_RAISED) t)
    (hnull : (f s.world.world).1 = none → ∀ t, t.pending = none → Deletes [] [] s t → Q none t)
    (hgiven : ∀ reference, (f s.world.world).1 = some reference → ∀ t, t.pending = none →
      (∀ u, Deletes [reference] [] t u → Deletes [] [] s u) → Q none t) :
    wp takeDetailException Q E (s.after f.givesLocal) := by
  refine wp_takeDetailException_after hs rfl (fun raised h ↦ ?_) fun h ht ↦ ?_
  · refine hraised _ rfl (.of_givesLocal (f := f) ?_)
    have hgiven : f.given s.world.world = none := Native.given_of_some h
    rw [hgiven]
    exact .clear _
  have hresult : f.given s.world.world = (f s.world.world).1 := Native.given_of_none h
  cases hreference : (f s.world.world).1 with
  | none =>
    refine hnull hreference _ ht (.of_givesLocal (f := f) ?_)
    rw [hresult, hreference]
    exact .of_unchanged rfl rfl rfl
  | some reference =>
    refine hgiven reference hreference _ ht fun u hu ↦ .of_givesLocal (f := f) ?_
    rw [hresult, hreference]
    exact hu

theorem wp_javaStringToLossyString_deletes {string : R}
    {Q : Option String → Thread (Ledger ω R) R M → Prop}
    {E : Error R → Thread (Ledger ω R) R M → Prop} (hs : s.pending = none)
    (h : ∀ r t, t.pending = none → Deletes [] [] s t → Q r t) :
    wp (javaStringToLossyString jni.recorded string) Q E s := by
  simp only [javaStringToLossyString, wp_bind, wp_run]
  have hlength := Deletes.givesNone s (jni.getStringLength string)
  refine wp_takeDetailException_after hs rfl (fun _ _ ↦ ?_) fun _ ht ↦ ?_
  · exact h _ _ rfl (hlength.trans (.clear _))
  simp only [wp_bind, wp_run]
  have hchars := hlength.trans (.givesNone _ (jni.getStringChars string))
  refine wp_takeDetailException_after ht rfl (fun _ _ ↦ ?_) fun _ hu ↦ ?_
  · exact h _ _ rfl (hchars.trans (.clear _))
  · split
    all_goals exact h _ _ hu hchars

/-- It deletes the class that it is given. -/
theorem wp_callToString_deletes {exception exceptionClass : R}
    {Q : Option String → Thread (Ledger ω R) R M → Prop}
    {E : Error R → Thread (Ledger ω R) R M → Prop} (hs : s.pending = none)
    (h : ∀ r t, t.pending = none → Deletes [exceptionClass] [] s t → Q r t) :
    wp (callToString jni.recorded exception exceptionClass) Q E s := by
  simp only [callToString, wp_bind, wp_run, wp_deleteLocalRef]
  have hclass := (Deletes.givesNone s (jni.getMethodId exceptionClass "toString"
    "()Ljava/lang/String;")).trans (.deleteLocalRef exceptionClass _)
  refine wp_takeDetailException_after hs rfl (fun _ _ ↦ ?_) fun _ ht ↦ ?_
  · exact h _ _ rfl (hclass.trans (.clear _))
  split
  · exact h _ _ ht hclass
  · exact h _ _ ht hclass
  simp only [wp_bind, wp_run]
  refine wp_takeDetailException_givesLocal (jni.callMethodA.object ⟨exception, _, []⟩) ht
    (fun u hu hu' ↦ ?_) (fun hnull u hu hu' ↦ ?_) fun string hstring u hu hheld ↦ ?_
  · exact h _ _ hu (hclass.trans hu')
  · split
    · exact h _ _ hu (hclass.trans hu')
    · exact h _ _ hu (hclass.trans hu')
    · next heq => cases hnull.symm.trans heq
  · split
    · contradiction
    · next heq => cases hstring.symm.trans heq
    · next heq =>
      cases hstring.symm.trans heq
      simp only [wp_bind, wp_deleteLocalRef, wp_pure]
      refine wp_javaStringToLossyString_deletes jni hu fun r v hv hv' ↦ h _ _ hv ?_
      exact hclass.trans (hheld _ (hv'.trans (.deleteLocalRef string v)))

theorem wp_throwableToString_deletes {exception : R}
    {Q : Option String → Thread (Ledger ω R) R M → Prop}
    {E : Error R → Thread (Ledger ω R) R M → Prop} (hs : s.pending = none)
    (h : ∀ r t, t.pending = none → Deletes [] [] s t → Q r t) :
    wp (throwableToString jni.recorded exception) Q E s := by
  simp only [throwableToString, wp_bind, wp_run]
  refine wp_takeDetailException_givesLocal (jni.getObjectClass exception) hs
    (fun t ht ht' ↦ h _ _ ht ht') (fun hnull t ht ht' ↦ ?_)
    fun exceptionClass hclass t ht hheld ↦ ?_
  · split
    · exact h _ _ ht ht'
    · exact h _ _ ht ht'
    · next heq => cases hnull.symm.trans heq
  · split
    · contradiction
    · next heq => cases hclass.symm.trans heq
    · next heq =>
      cases hclass.symm.trans heq
      exact wp_callToString_deletes jni ht fun r u hu hu' ↦ h _ _ hu (hheld u hu')

/-! ## The two checks -/

theorem wp_globalThrowableFromLocal_deletes {exception : R}
    {Q : Option R → Thread (Ledger ω R) R M → Prop}
    {E : Error R → Thread (Ledger ω R) R M → Prop} (hs : s.pending = none)
    (h : ∀ t, t.pending = none →
      Deletes []
        (((jni.newGlobalRef exception).given s.world.world).toList.map (·, exception)) s t →
      Q ((jni.newGlobalRef exception).given s.world.world) t) :
    wp (globalThrowableFromLocal jni.recorded true exception) Q E s := by
  have hglobal := Deletes.givesGlobal s exception (jni.newGlobalRef exception)
  have hpending : (s.after (jni.recorded.newGlobalRef exception)).pending =
      (jni.newGlobalRef exception s.world.world).2.1 := by
    rw [pending_after, hs, Option.or_none]
    rfl
  simp only [globalThrowableFromLocal, wp_ite, wp_bind, wp_run, wp_exceptionCheckRaw,
    wp_clearPendingExceptionRaw, wp_pure]
  refine ⟨fun _ ↦ ⟨fun hsome ↦ ?_, fun hnone ↦ ?_⟩, fun hfalse ↦ absurd trivial hfalse⟩
  · obtain ⟨raised, hraised⟩ := Option.isSome_iff_exists.1 hsome
    have hgiven := Native.given_of_some (hpending.symm.trans hraised)
    rw [hgiven] at h hglobal
    exact h _ rfl (hglobal.trans (.clear _))
  · have hnone : (s.after (jni.recorded.newGlobalRef exception)).pending = none := by
      simpa using hnone
    have hgiven := Native.given_of_none (hpending.symm.trans hnone)
    have := h _ hnone hglobal
    rw [hgiven] at this
    exact this

/-- The reference to the exception is deleted. -/
theorem wp_takePendingException_deletes {exception : R}
    {Q : String × Option R → Thread (Ledger ω R) R M → Prop}
    {E : Error R → Thread (Ledger ω R) R M → Prop} (hs : s.pending = some exception)
    (h : ∀ summary t, t.pending = none →
      Deletes [exception]
        (((jni.newGlobalRef exception).given s.world.world).toList.map (·, exception)) s t →
      Q (summary, (jni.newGlobalRef exception).given s.world.world) t) :
    wp (takePendingException jni.recorded true) Q E s := by
  simp only [takePendingException, wp_bind, wp_exceptionOccurred, wp_clearPendingExceptionRaw, hs]
  refine wp_globalThrowableFromLocal_deletes jni rfl fun t ht ht' ↦ ?_
  simp only [wp_deleteLocalRef, wp_pure]
  refine wp_throwableToString_deletes jni ht fun summary u hu hu' ↦ h _ _ hu ?_
  have := ((Deletes.clear s).trans ht').trans (hu'.trans (.deleteLocalRef exception u))
  simpa using this

/-- The reference to the exception is deleted, whether `Throw` fails or not. -/
theorem wp_attempt_rethrow_deletes {exception : PendingJavaException R}
    {Q : Except (Error R) Unit → Thread (Ledger ω R) R M → Prop}
    {E : Error R → Thread (Ledger ω R) R M → Prop} (hs : s.pending = none)
    (h : ∀ r t, (t.pending =
        if jni.throw exception.throwable t.world.world = JNI_OK then some exception.throwable
        else none) →
      Deletes [exception.throwable] [] s t → Q r t) :
    wp (attempt (exception.rethrow jni.recorded)) Q E s := by
  simp only [PendingJavaException.rethrow, wp_attempt, wp_bind, wp_deleteLocalRef]
  show wp (checkJniResult _ (jni.throw exception.throwable s.world.world)) _ _ (record _
    (if jni.throw exception.throwable s.world.world = JNI_OK then s.raise exception.throwable
      else s))
  unfold checkJniResult
  simp only [wp_ite, wp_pure, wp_throw]
  constructor
  · intro hthrow
    rw [if_pos hthrow]
    refine h _ _ ?_ ((Deletes.raise exception.throwable s).trans (.deleteLocalRef _ _))
    exact (if_pos hthrow).symm
  · intro hthrow
    rw [if_neg hthrow]
    refine h _ _ ?_ (.deleteLocalRef _ s)
    exact hs.trans (if_neg hthrow).symm

theorem wp_checkPendingException_deletes {operation : String} {exception : R}
    (hs : s.pending = some exception) :
    wp (checkPendingException jni.recorded operation) (fun _ _ ↦ False)
      (fun e t ↦
        (∃ summary, e = .javaException operation summary
          ((jni.newGlobalRef exception).given s.world.world)) ∧
        t.pending = none ∧
        Deletes [exception]
          (((jni.newGlobalRef exception).given s.world.world).toList.map (·, exception)) s t)
      s := by
  simp only [checkPendingException, wp_bind, wp_exceptionCheckRaw, wp_ite, wp_pure]
  refine ⟨fun _ ↦ ?_, fun hnone ↦ hnone (by rw [hs]; rfl)⟩
  exact wp_takePendingException_deletes jni hs fun summary t ht ht' ↦ ⟨⟨summary, rfl⟩, ht, ht'⟩

theorem wp_checkPendingExceptionPreserveRaw_deletes {display : Error R → String}
    {operation : String} {exception : R} (hs : s.pending = some exception) :
    wp (checkPendingExceptionPreserveRaw jni.recorded display operation) (fun _ _ ↦ False)
      (fun e t ↦
        (∃ summary, e = .javaException operation summary none) ∧
        (t.pending = if jni.throw exception t.world.world = JNI_OK then some exception else none) ∧
        Deletes [exception] [] s t) s := by
  have hsome : s.pending.isSome := by
    rw [hs]
    rfl
  simp only [checkPendingExceptionPreserveRaw, PendingJavaException.take, wp_bind,
    wp_exceptionCheckRaw, wp_ite, wp_pure, wp_exceptionOccurred, wp_clearPendingExceptionRaw]
  refine ⟨fun _ ↦ ⟨fun _ ↦ ?_, fun hnone ↦ absurd hsome hnone⟩, fun hnone ↦ hnone hsome⟩
  rw [hs]
  simp only [Option.map_some, wp_bind]
  refine wp_throwableToString_deletes jni rfl fun summary t ht ht' ↦ ?_
  refine wp_attempt_rethrow_deletes jni ht fun r u hu hu' ↦ ?_
  have := ((Deletes.clear s).trans ht').trans hu'
  cases r with
  | error e => exact ⟨⟨_, rfl⟩, hu, this⟩
  | ok _ => exact ⟨⟨_, rfl⟩, hu, this⟩

end Rules

/-- With an exception pending the first check takes it and keeps a global reference to it, where one
is given; the second makes the same exception pending again, unless `Throw` fails. Both delete each
local reference once that was given meanwhile. With nothing pending they pass and do nothing. -/
theorem exceptionCapture_clean (jni : Jni ω R M) (display : Error R → String) (operation : String)
    (s : Thread (Ledger ω R) R M) :
    match s.pending with
    | some exception =>
      (∃ summary t,
        checkPendingException jni.recorded operation s =
          .error (.javaException operation summary
            ((jni.newGlobalRef exception).given s.world.world)) t ∧
        t.pending = none ∧
        Deletes [exception]
          (((jni.newGlobalRef exception).given s.world.world).toList.map (·, exception)) s t) ∧
      ∃ summary t,
        checkPendingExceptionPreserveRaw jni.recorded display operation s =
          .error (.javaException operation summary none) t ∧
        (t.pending = if jni.throw exception t.world.world = JNI_OK then some exception else none) ∧
        Deletes [exception] [] s t
    | none =>
      checkPendingException jni.recorded operation s = .ok () s ∧
      checkPendingExceptionPreserveRaw jni.recorded display operation s = .ok () s := by
  split
  · next exception hs =>
    constructor
    · obtain ⟨e, t, hrun, ⟨summary, rfl⟩, ht⟩ :=
        wp_error_iff.1 (wp_checkPendingException_deletes jni hs)
      exact ⟨summary, t, hrun, ht⟩
    · obtain ⟨e, t, hrun, ⟨summary, rfl⟩, ht⟩ :=
        wp_error_iff.1 (wp_checkPendingExceptionPreserveRaw_deletes jni hs)
      exact ⟨summary, t, hrun, ht⟩
  · next hs =>
    have hnone : ¬s.pending.isSome := by
      rw [hs]
      exact Bool.false_ne_true
    constructor
    · have h : wp (checkPendingException jni.recorded operation) (fun _ t ↦ t = s)
          (fun _ _ ↦ False) s := by
        simp only [checkPendingException, wp_bind, wp_exceptionCheckRaw, wp_ite, wp_pure]
        exact ⟨fun hsome ↦ absurd hsome hnone, fun _ ↦ trivial⟩
      obtain ⟨⟨⟩, t, hrun, rfl⟩ := wp_false_iff.1 h
      exact hrun
    · have h : wp (checkPendingExceptionPreserveRaw jni.recorded display operation)
          (fun _ t ↦ t = s) (fun _ _ ↦ False) s := by
        simp only [checkPendingExceptionPreserveRaw, wp_bind, wp_exceptionCheckRaw, wp_ite, wp_pure]
        exact ⟨fun hsome ↦ absurd hsome hnone, fun _ ↦ trivial⟩
      obtain ⟨⟨⟩, t, hrun, rfl⟩ := wp_false_iff.1 h
      exact hrun

end JavaBridge.Hook

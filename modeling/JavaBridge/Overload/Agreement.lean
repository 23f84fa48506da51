import JavaBridge.Hook.TypeCheck
import JavaBridge.Overload.Dispatch

/-!
# Dispatch and the call it selects

Dispatch compares the class of a reference argument with the parameter by name, and looks the class
of the parameter up where the names differ. The call asks the runtime whether the argument is an
instance of the class that the loader of the holder finds.

Main results:

* `gives_dispatchArgScore`: the score of an argument, by the classes of the runtime.
* `outcome_callArgs_iff`: which arguments a call takes.
* `dispatchAgrees_iff`: dispatch agrees with the calls exactly where no argument passes by its name
  alone, and no lookup fails while an overload applies.
-/

namespace JavaBridge.Overload

open Fallible Hook Thread

variable {ω R M : Type} (jni : Jni ω R M) (floats : Floats) (find : FindClass ω R)
  (nameOf : ClassName ω R)

/-! ## The runtime -/

/-- The classes of a runtime, with the descriptor of the class of each object. -/
structure Classes (R : Type) extends Hierarchy R where
  descriptor : (object : R) → String

/-- The runtime answers as the classes have it, and without exceptions. -/
structure Answers (h : Classes R) : Prop where
  obeys : Obeys jni find h.toHierarchy
  newStringUtf : jni.MakesStrings
  getObjectClass : ∀ object world, ∃ jclass world' name,
    jni.getObjectClass object world = (some jclass, none, world') ∧
      (∀ world, (nameOf jclass world).1 = .ok name) ∧
        classNameToDescriptor name = h.descriptor object
  isInstanceOf : ∀ object jclass world, (jni.isInstanceOf object jclass world).2.1 = none
  /-- Every object is an instance of `Object`, which every class loader finds. -/
  object : ∀ holder object, h.IsA holder (.object "java/lang/Object") object

namespace Classes

variable (h : Classes R) (holder : R)

/-- The score of an object, or the failure of the lookup. -/
def referenceScore (object : R) (expected : JavaType) : Except (Error R) (Option Int) :=
  if !expected.isReference then .ok none
  else
    match referenceDescriptorDispatchScore (h.descriptor object) expected with
    | some score => .ok (some score)
    | none => (h.declared holder expected).map fun found ↦
      if h.isInstance object found then some (instanceDispatchScore expected) else none

def argScore : JavaOverloadArg R × JavaType → Except (Error R) (Option Int)
  | (.rustString _, expected) => .ok (rustStringDispatchScore expected)
  | (.value (.object none), expected) => .ok (if expected.isReference then some 50 else none)
  | (.value (.object (some object)), expected) => h.referenceScore holder object expected
  | (.value value, expected) =>
    .ok (if primitiveExactMatch value expected then some 0
      else if canCoerceJavaValue floats value expected then some 10 else none)

end Classes

section Scores

variable {jni floats find nameOf} {h : Classes R} {holder : R} {calls : List (Call R M)}

theorem gives_checkPendingException (operation : String) :
    Gives (Clear calls) (checkPendingException jni operation : JniM ω R M Unit) (.ok ()) := by
  intro s hs
  rw [checkPendingException, wp_bind, wp_exceptionCheckRaw, hs.1]
  exact ⟨hs, rfl⟩

/-- A JNI function that raises nothing leaves the thread clear. -/
theorem clear_after {α : Type} {f : Native ω R α} {s : Thread ω R M} (hs : Clear calls s)
    (hf : (f s.world).2.1 = none) : Clear calls (s.after f) := by
  refine ⟨?_, hs.2⟩
  rw [pending_after, hf, hs.1]
  rfl

theorem gives_getClassName {jclass : R} {name : String}
    (hname : ∀ world, (nameOf jclass world).1 = .ok name) :
    Gives (Clear calls) (getClassName nameOf jclass : JniM ω R M String) (.ok name) := by
  intro s hs
  have hresult := hname s.world
  unfold getClassName wp
  rcases hrun : nameOf jclass s.world with ⟨result, world⟩
  rw [hrun] at hresult
  obtain rfl : result = .ok name := hresult
  simp only [hrun]
  exact ⟨hs, trivial⟩

theorem gives_objectClassDescriptor (hanswers : Answers jni find nameOf h) (object : R) :
    Gives (Clear calls) (objectClassDescriptor jni nameOf object : JniM ω R M String)
      (.ok (h.descriptor object)) := by
  intro s hs
  obtain ⟨jclass, world, name, hclass, hname, hdescriptor⟩ :=
    hanswers.getObjectClass object s.world
  have hclear : Clear calls (s.after (jni.getObjectClass object)) :=
    clear_after hs (by rw [hclass])
  simp only [objectClassDescriptor, getObjectClass, wp_bind, wp_run]
  refine wp_mono (gives_checkPendingException _ _ hclear) ?_ ?_
  · rintro _ t ⟨ht, -⟩
    have hgives : Gives (Clear calls) (classDescriptor nameOf jclass : JniM ω R M String)
        (.ok (h.descriptor object)) :=
      hdescriptor ▸ (gives_getClassName hname).bind (.pure _)
    rw [hclass]
    exact hgives t ht
  · rintro _ _ ⟨-, herror⟩
    cases herror

theorem gives_classForDispatchType (holder : R) (calls : List (Call R M))
    (hanswers : Answers jni find nameOf h) {expected : JavaType}
    (hreference : expected.isReference = true) :
    Gives (Clear calls) (classForDispatchType find holder expected : JniM ω R M R)
      (h.declared holder expected) := by
  intro s hs
  have hresult := hanswers.obeys.find_name holder expected s.world hreference
  unfold classForDispatchType findClass wp
  rcases hrun : find holder (dispatchClassLookupName expected) s.world with ⟨result, world⟩
  rw [hrun] at hresult
  cases result with
  | ok found =>
    simp only [hrun]
    exact ⟨hs, hresult⟩
  | error e =>
    simp only [hrun]
    exact ⟨hs, hresult⟩

theorem gives_isInstanceOf (hanswers : Answers jni find nameOf h) (object jclass : R) :
    Gives (Clear calls) (isInstanceOf jni object jclass : JniM ω R M Bool)
      (.ok (h.isInstance object jclass)) := by
  intro s hs
  have hclear : Clear calls (s.after (jni.isInstanceOf object jclass)) :=
    clear_after hs (hanswers.isInstanceOf object jclass s.world)
  simp only [isInstanceOf, wp_bind, wp_run, wp_pure]
  refine wp_mono (gives_checkPendingException _ _ hclear) ?_ ?_
  · rintro _ t ⟨ht, -⟩
    exact ⟨ht, congrArg _ (hanswers.obeys.isInstanceOf object jclass s.world)⟩
  · rintro _ _ ⟨-, herror⟩
    cases herror

theorem gives_referenceDispatchScore (hanswers : Answers jni find nameOf h) (object : R)
    (expected : JavaType) :
    Gives (Clear calls)
      (referenceDispatchScore jni find nameOf holder object expected : JniM ω R M (Option Int))
      (h.referenceScore holder object expected) := by
  unfold referenceDispatchScore Classes.referenceScore
  cases hreference : expected.isReference with
  | false => exact .pure none
  | true =>
    refine (gives_objectClassDescriptor hanswers object).bind ?_
    cases referenceDescriptorDispatchScore (h.descriptor object) expected with
    | some score => exact .pure (some score)
    | none =>
      have hclass := gives_classForDispatchType holder calls hanswers hreference
      cases hfound : h.declared holder expected with
      | error e =>
        rw [hfound] at hclass
        exact hclass.bind_error
      | ok found =>
        rw [hfound] at hclass
        refine hclass.bind ((gives_isInstanceOf hanswers object found).bind ?_)
        cases hinstance : h.isInstance object found with
        | false => simpa [Except.map, hinstance] using Gives.pure none
        | true => simpa [Except.map, hinstance] using Gives.pure _

/-- The score of an argument, by the classes of the runtime. -/
theorem gives_dispatchArgScore (hanswers : Answers jni find nameOf h)
    (p : JavaOverloadArg R × JavaType) :
    Gives (Clear calls)
      (dispatchArgScore jni floats find nameOf holder p.1 p.2 : JniM ω R M (Option Int))
      (h.argScore floats holder p) := by
  obtain ⟨value | text, expected⟩ := p
  · cases value with
    | object reference =>
      cases reference with
      | none => exact .pure _
      | some object => exact gives_referenceDispatchScore hanswers object expected
    | _ =>
      unfold dispatchArgScore Classes.argScore
      dsimp only
      split
      · exact .pure _
      · split <;> exact .pure _
  · exact .pure _

end Scores

/-! ## What a call takes -/

/-- The arguments fit the lanes of the parameters, and the references in them their classes. -/
def Applicable (h : Classes R) (holder : R) (args : List (JavaOverloadArg R))
    (signature : MethodSignature) : Prop :=
  ¬Refused floats args signature.arguments ∧
    ∀ p ∈ args.zip signature.arguments, h.Assignable holder p

section Calls

variable {jni floats find nameOf} {h : Classes R} {holder : R} {calls : List (Call R M)}

/-- The check of one reference. -/
theorem gives_isReferenceValueAssignable (holder : R) (calls : List (Call R M))
    (hanswers : Answers jni find nameOf h) {value : JavaValue R} {expected : JavaType}
    (hmatches : value.matchesType expected = true) :
    ∃ r, Gives (Clear calls)
        (isReferenceValueAssignable jni find holder expected value : JniM ω R M Bool) r ∧
      (r = .ok true ↔ h.Fits holder value expected) := by
  by_cases hvalue : ∃ object, value = .object (some object)
  · obtain ⟨object, rfl⟩ := hvalue
    have hreference : expected.isReference = true := hmatches
    have hclass := gives_classForDispatchType holder calls hanswers hreference
    unfold isReferenceValueAssignable
    rw [hreference]
    cases hfound : h.declared holder expected with
    | error e =>
      rw [hfound] at hclass
      refine ⟨.error e, hclass.bind_error, iff_of_false (fun h ↦ by cases h) fun hfits ↦ ?_⟩
      obtain ⟨found, hdeclared, -⟩ := hfits object rfl
      rw [hfound] at hdeclared
      cases hdeclared
    | ok found =>
      rw [hfound] at hclass
      refine ⟨.ok (h.isInstance object found),
        hclass.bind (gives_isInstanceOf hanswers object found), ?_⟩
      rw [Except.ok.injEq]
      constructor
      · rintro hinstance _ ⟨⟩
        exact ⟨found, hfound, hinstance⟩
      · intro hfits
        obtain ⟨found', hdeclared, hinstance⟩ := hfits object rfl
        rw [hfound] at hdeclared
        obtain rfl := Except.ok.inj hdeclared
        exact hinstance
  · refine ⟨.ok true, ?_, iff_of_true rfl fun object hobject ↦ absurd ⟨object, hobject⟩ hvalue⟩
    unfold isReferenceValueAssignable
    split
    · exact absurd ⟨_, rfl⟩ hvalue
    · exact .pure true

theorem gives_validateEach (holder : R) (calls : List (Call R M))
    (hanswers : Answers jni find nameOf h)
    {values : List (JavaType × JavaValue R)} (hmatches : ∀ p ∈ values, p.2.matchesType p.1 = true)
    (index : Nat) :
    ∃ r, Gives (Clear calls) (validateEach jni find holder index values : JniM ω R M Unit) r ∧
      (r = .ok () ↔ ∀ p ∈ values, h.Fits holder p.2 p.1) := by
  induction values generalizing index with
  | nil => exact ⟨.ok (), .pure (), iff_of_true rfl (List.forall_mem_nil _)⟩
  | cons p values ih =>
    obtain ⟨hp, hvalues⟩ := List.forall_mem_cons.1 hmatches
    obtain ⟨first, hfirst, hfirst_iff⟩ :=
      gives_isReferenceValueAssignable holder calls hanswers hp
    obtain ⟨rest, hrest, hrest_iff⟩ := ih hvalues (index + 1)
    rw [List.forall_mem_cons, ← hfirst_iff, ← hrest_iff]
    rcases first with e | _ | _
    · exact ⟨.error e, hfirst.bind_error, by simp⟩
    · exact ⟨_, hfirst.bind (.throw _), by simp⟩
    · exact ⟨rest, hfirst.bind hrest, by simp⟩

/-- The check of prepared values. -/
theorem gives_validateReferenceCallArgs (holder : R) (calls : List (Call R M))
    (hanswers : Answers jni find nameOf h)
    {values : List (JavaValue R)} {args : List (JavaOverloadArg R)} {expected : List JavaType}
    (hlength : args.length = expected.length)
    (hvalues : List.Forall₂ (PreparedFrom jni floats) values (args.zip expected)) :
    ∃ r, Gives (Clear calls)
        (validateReferenceCallArgs jni find holder expected values : JniM ω R M Unit) r ∧
      (r = .ok () ↔ ∀ p ∈ args.zip expected, h.Assignable holder p) := by
  have hmatches : List.Forall₂ (fun (ty : JavaType) (value : JavaValue R) ↦
      value.matchesType ty = true) expected values := by
    have hsnd : (args.zip expected).map Prod.snd = expected :=
      List.map_snd_zip (Nat.le_of_eq hlength.symm)
    rw [← hsnd, List.forall₂_map_left_iff]
    exact (hvalues.imp fun _ _ hp ↦ hp.matchesType).flip
  obtain ⟨r, hr, hr_iff⟩ := gives_validateEach holder calls hanswers
    (fun p hp ↦ List.forall₂_zip hmatches hp) 0
  refine ⟨r, hr, ?_⟩
  rw [hr_iff, ← fits_iff_of_prepared hanswers.obeys hlength hvalues]
  constructor
  · intro hfits
    refine List.Forall₂.flip (List.forall₂_iff_zip.2 ⟨hmatches.length_eq, fun hp ↦ hfits _ hp⟩)
  · intro hfits p hp
    exact List.forall₂_zip hfits.flip hp

theorem keeps_prepareCallArgs_clear (args : List (JavaOverloadArg R)) (expected : List JavaType) :
    Keeps (Clear calls) (fun _ ↦ True)
      (fun prepared ↦ args.length = expected.length ∧
        List.Forall₂ (PreparedFrom jni floats) prepared.values (args.zip expected))
      (prepareCallArgs jni floats args expected : JniM ω R M _) := by
  intro s hs
  refine wp_mono (wp_and (steady_prepareCallArgs args expected s) wp_prepareCallArgs) ?_
    fun _ _ _ ↦ trivial
  rintro prepared t ⟨hpassed, hprepared⟩
  exact ⟨⟨hpassed.pending.trans hs.1, hpassed.calls.trans hs.2⟩, hprepared⟩

theorem keeps_callArgs_applicable (hanswers : Answers jni find nameOf h)
    (signature : MethodSignature) (args : List (JavaOverloadArg R)) :
    Keeps (Clear calls) (fun _ ↦ True) (fun _ ↦ Applicable floats h holder args signature)
      (JavaMethod.callArgs jni floats find holder signature args) := by
  refine (keeps_prepareCallArgs_clear args signature.arguments).bind fun prepared hprepared ↦ ?_
  obtain ⟨hlength, hvalues⟩ := hprepared
  obtain ⟨r, hr, hr_iff⟩ := gives_validateReferenceCallArgs holder calls
    hanswers hlength hvalues
  refine (hr.keeps.mono (fun _ _ ↦ trivial) fun _ h ↦ h).onError.bind fun _ hok ↦ .pure ?_
  exact ⟨not_refused_of_prepared hlength hvalues, hr_iff.1 hok⟩

theorem keeps_callArgs_of_applicable (hanswers : Answers jni find nameOf h)
    {signature : MethodSignature} {args : List (JavaOverloadArg R)}
    (happlicable : Applicable floats h holder args signature) :
    Keeps (Clear calls) (fun _ ↦ False) (fun _ ↦ True)
      (JavaMethod.callArgs jni floats find holder signature args) := by
  have hprepare : Keeps (Clear calls) (fun _ ↦ False) (fun _ ↦ True)
      (prepareCallArgs jni floats args signature.arguments) :=
    keeps_prepareCallArgs_of_not_refused happlicable.1 fun _ hnul ↦
      keeps_newStringUtfRaw_of_makesStrings hanswers.newStringUtf hnul
  refine (hprepare.and fun s ↦ wp_prepareCallArgs).bind fun prepared ⟨_, hlength, hvalues⟩ ↦ ?_
  obtain ⟨r, hr, hr_iff⟩ := gives_validateReferenceCallArgs holder calls
    hanswers hlength hvalues
  rw [hr_iff.2 happlicable.2] at hr
  refine (hr.keeps.mono (fun _ h ↦ by cases h) fun _ _ ↦ trivial).onError.bind fun _ _ ↦ ?_
  exact .pure trivial

/-- Which arguments a call takes. -/
theorem outcome_callArgs_iff (hanswers : Answers jni find nameOf h) {signature : MethodSignature}
    {args : List (JavaOverloadArg R)} {s : Thread ω R M} (hs : s.pending = none) :
    (∃ prepared, (outcome (JavaMethod.callArgs jni floats find holder signature args) s).1 =
      .ok prepared) ↔ Applicable floats h holder args signature := by
  have hclear : Clear s.calls s := ⟨hs, rfl⟩
  rcases hr : outcome (JavaMethod.callArgs jni floats find holder signature args) s with
    ⟨e | prepared, t⟩
  · refine iff_of_false (fun ⟨_, h⟩ ↦ by cases h) fun happlicable ↦ ?_
    exact (wp_of_outcome hr).1 (keeps_callArgs_of_applicable hanswers happlicable s hclear)
  · refine iff_of_true ⟨prepared, rfl⟩ ?_
    exact ((wp_of_outcome hr).1 (keeps_callArgs_applicable hanswers signature args s hclear)).2

end Calls

/-! ## What dispatch takes -/

namespace Classes

variable (h : Classes R) (holder : R)

/-- Dispatch takes the argument for the parameter. The class of an object is compared by name. -/
def Admits : JavaOverloadArg R × JavaType → Prop
  | (.value (.object (some object)), expected) => expected.isReference = true ∧
      (h.descriptor object = expected.descriptor ∨ h.IsA holder expected object)
  | (.value value, expected) => ∃ coerced, coerceJavaValue floats value expected = .ok coerced
  | (.rustString _, expected) => acceptsRustString expected = true

/-- The argument passes for what it is not: an object whose class only shares the name of the
parameter's, or a string that cannot be handed to the JNI. -/
def Impostor : JavaOverloadArg R × JavaType → Prop
  | (.value (.object (some object)), expected) =>
    h.descriptor object = expected.descriptor ∧ ¬h.IsA holder expected object
  | (.value _, _) => False
  | (.rustString text, _) => '\x00' ∈ text.toList

/-- Dispatch looks the class of the parameter up, and the lookup fails. -/
def LookupFails : JavaOverloadArg R × JavaType → Prop
  | (.value (.object (some object)), expected) => expected.isReference = true ∧
      h.descriptor object ≠ expected.descriptor ∧ ∃ e, h.declared holder expected = .error e
  | _ => False

end Classes

section Arguments

variable {jni floats find nameOf} {h : Classes R} {holder : R}

theorem rustStringDispatchScore_isSome_iff {expected : JavaType} :
    (∃ score, rustStringDispatchScore expected = some score) ↔ acceptsRustString expected = true := by
  cases expected with
  | object name =>
    simp only [rustStringDispatchScore, acceptsRustString, Bool.or_eq_true, beq_iff_eq]
    split
    · simp [*]
    · split
      · simp [*]
      · split <;> simp [*]
  | _ => simp [rustStringDispatchScore, acceptsRustString]

theorem isOk_coerceJavaValue_of_exact {value : JavaValue R} {expected : JavaType}
    (hexact : primitiveExactMatch value expected = true) :
    ∃ coerced, coerceJavaValue floats value expected = .ok coerced := by
  have hmatches : value.matchesType expected = true := by
    cases value <;> cases expected <;> first | rfl | cases hexact
  refine ⟨value, ?_⟩
  unfold coerceJavaValue
  exact if_pos hmatches

theorem valueScore_isSome_iff {value : JavaValue R} {expected : JavaType} :
    (∃ score : Int, (if primitiveExactMatch value expected then some 0
        else if canCoerceJavaValue floats value expected then some 10 else none) = some score) ↔
      ∃ coerced, coerceJavaValue floats value expected = .ok coerced := by
  split
  · next hexact => exact iff_of_true ⟨0, rfl⟩ (isOk_coerceJavaValue_of_exact hexact)
  · unfold canCoerceJavaValue
    cases coerceJavaValue floats value expected with
    | error e => simp [Except.isOk, Except.toBool]
    | ok coerced => simp [Except.isOk, Except.toBool]

theorem coerceJavaValue_object_iff {reference : Option R} {expected : JavaType} :
    (∃ coerced, coerceJavaValue floats (.object reference) expected = .ok coerced) ↔
      expected.isReference = true := by
  cases expected <;>
    simp [coerceJavaValue, JavaValue.matchesType, JavaType.isReference]

theorem referenceDescriptorDispatchScore_eq_none {actual : String} {expected : JavaType}
    (h : referenceDescriptorDispatchScore actual expected = none) :
    actual ≠ expected.descriptor := by
  rintro rfl
  unfold referenceDescriptorDispatchScore at h
  rw [if_pos rfl] at h
  cases h

/-- An object that passes by the text of its descriptor has the parameter's, or is of any class at
all where the parameter is an `Object`. -/
theorem referenceDescriptorDispatchScore_eq_some {actual : String} {expected : JavaType} {score : Int}
    (h : referenceDescriptorDispatchScore actual expected = some score) :
    actual = expected.descriptor ∨ expected = .object "java/lang/Object" := by
  unfold referenceDescriptorDispatchScore at h
  split at h
  · next hname => exact .inl hname
  · cases expected with
    | object name =>
      dsimp only at h
      split at h
      · next hobject => exact .inr (by rw [hobject.1])
      · cases h
    | _ => cases h

theorem referenceScore_isSome_iff (hanswers : Answers jni find nameOf h) {object : R}
    {expected : JavaType} :
    (∃ score, h.referenceScore holder object expected = .ok (some score)) ↔
      expected.isReference = true ∧
        (h.descriptor object = expected.descriptor ∨ h.IsA holder expected object) := by
  unfold Classes.referenceScore
  cases expected.isReference with
  | false => simp
  | true =>
    rw [if_neg (by simp), and_iff_right rfl]
    cases hscore : referenceDescriptorDispatchScore (h.descriptor object) expected with
    | some score =>
      refine iff_of_true ⟨score, rfl⟩ ?_
      rcases referenceDescriptorDispatchScore_eq_some hscore with hname | rfl
      · exact .inl hname
      · exact .inr (hanswers.object holder object)
    | none =>
      rw [or_iff_right (referenceDescriptorDispatchScore_eq_none hscore), Hierarchy.IsA]
      cases h.declared holder expected with
      | error e => simp [Except.map]
      | ok found => cases hinstance : h.isInstance object found <;> simp [Except.map, hinstance]

theorem referenceScore_error_iff (hanswers : Answers jni find nameOf h) {object : R}
    {expected : JavaType} :
    (∃ e, h.referenceScore holder object expected = .error e) ↔
      expected.isReference = true ∧ h.descriptor object ≠ expected.descriptor ∧
        ∃ e, h.declared holder expected = .error e := by
  unfold Classes.referenceScore
  cases expected.isReference with
  | false => simp
  | true =>
    rw [if_neg (by simp), and_iff_right rfl]
    cases hscore : referenceDescriptorDispatchScore (h.descriptor object) expected with
    | some score =>
      refine iff_of_false (fun ⟨_, h⟩ ↦ by cases h) ?_
      rintro ⟨hname, e, he⟩
      obtain rfl := (referenceDescriptorDispatchScore_eq_some hscore).resolve_left hname
      obtain ⟨found, hfound, -⟩ := hanswers.object holder object
      rw [hfound] at he
      cases he
    | none =>
      rw [and_iff_right (referenceDescriptorDispatchScore_eq_none hscore)]
      cases h.declared holder expected with
      | error e => simp [Except.map]
      | ok found => simp [Except.map]

theorem argScore_isSome_iff (hanswers : Answers jni find nameOf h)
    (p : JavaOverloadArg R × JavaType) :
    (∃ score, h.argScore floats holder p = .ok (some score)) ↔ h.Admits floats holder p := by
  obtain ⟨value | text, expected⟩ := p
  · cases value with
    | object reference =>
      cases reference with
      | none =>
        show (∃ score, Except.ok _ = Except.ok (some score)) ↔ ∃ coerced, _ = Except.ok coerced
        rw [coerceJavaValue_object_iff]
        cases expected.isReference <;> simp
      | some object => exact referenceScore_isSome_iff hanswers
    | _ =>
      simp only [Classes.argScore, Classes.Admits, Except.ok.injEq]
      exact valueScore_isSome_iff
  · simp only [Classes.argScore, Classes.Admits, Except.ok.injEq]
    exact rustStringDispatchScore_isSome_iff

theorem argScore_error_iff (hanswers : Answers jni find nameOf h)
    (p : JavaOverloadArg R × JavaType) :
    (∃ e, h.argScore floats holder p = .error e) ↔ h.LookupFails holder p := by
  obtain ⟨value | text, expected⟩ := p
  · cases value with
    | object reference =>
      cases reference with
      | none => simp [Classes.argScore, Classes.LookupFails]
      | some object => exact referenceScore_error_iff hanswers
    | _ => simp [Classes.argScore, Classes.LookupFails]
  · simp [Classes.argScore, Classes.LookupFails]

/-- A call takes what dispatch takes and is no impostor. -/
theorem applies_iff (p : JavaOverloadArg R × JavaType) :
    ¬RefusedArg floats p ∧ h.Assignable holder p ↔
      h.Admits floats holder p ∧ ¬h.Impostor holder p := by
  obtain ⟨value | text, expected⟩ := p
  · have hrefused : ¬RefusedArg floats (.value value, expected) ↔
        ∃ coerced, coerceJavaValue floats value expected = .ok coerced := by
      unfold RefusedArg
      cases hcoerce : coerceJavaValue floats value expected with
      | error e => simp [hcoerce]
      | ok coerced => simp [hcoerce]
    rw [hrefused]
    cases value with
    | object reference =>
      cases reference with
      | none => exact and_congr Iff.rfl (iff_of_true (fun _ h ↦ by cases h) id)
      | some object =>
        have hassignable : h.Assignable holder (.value (.object (some object)), expected) ↔
            h.IsA holder expected object := by
          refine ⟨fun hfits ↦ hfits object rfl, ?_⟩
          rintro hisA _ ⟨⟩
          exact hisA
        rw [coerceJavaValue_object_iff, hassignable]
        simp only [Classes.Admits, Classes.Impostor]
        tauto
    | _ => exact and_congr Iff.rfl (iff_of_true (fun _ h ↦ by cases h) id)
  · simp only [RefusedArg, Hierarchy.Assignable, Classes.Admits, Classes.Impostor]
    cases acceptsRustString expected <;> simp

end Arguments

/-! ## The score of an overload -/

/-- The sum of the scores up to the first that is missing, or whose lookup fails. -/
def foldScores (score : JavaOverloadArg R × JavaType → Except (Error R) (Option Int)) :
    Int → List (JavaOverloadArg R × JavaType) → Except (Error R) (Option Int)
  | sum, [] => .ok (some sum)
  | sum, p :: ps =>
    match score p with
    | .error e => .error e
    | .ok none => .ok none
    | .ok (some argScore) => foldScores score (sum + argScore) ps

/-- The score of an overload, by the classes of the runtime. -/
def Classes.total (h : Classes R) (holder : R) (args : List (JavaOverloadArg R))
    (expected : List JavaType) : Except (Error R) (Option Int) :=
  if args.length ≠ expected.length then .ok none
  else foldScores (h.argScore floats holder) 0 (args.zip expected)

/-- The overload has a parameter for each argument, and dispatch takes them all. -/
def Classes.AdmitsAll (h : Classes R) (holder : R) (args : List (JavaOverloadArg R))
    (expected : List JavaType) : Prop :=
  args.length = expected.length ∧ ∀ p ∈ args.zip expected, h.Admits floats holder p

/-- Dispatch comes to a lookup that fails. -/
def Classes.Blocked (h : Classes R) (holder : R) (args : List (JavaOverloadArg R))
    (expected : List JavaType) : Prop :=
  args.length = expected.length ∧ ∃ before p after, args.zip expected = before ++ p :: after ∧
    (∀ q ∈ before, h.Admits floats holder q) ∧ h.LookupFails holder p

section Totals

variable {jni floats find nameOf} {h : Classes R} {holder : R} {calls : List (Call R M)}
  {score : JavaOverloadArg R × JavaType → Except (Error R) (Option Int)}

theorem gives_foldScores {args : List (JavaOverloadArg R × JavaType)}
    (hscore : ∀ p ∈ args, Gives (Clear calls)
      (dispatchArgScore jni floats find nameOf holder p.1 p.2 : JniM ω R M _) (score p))
    (sum : Int) :
    Gives (Clear calls)
      (dispatchScoreEach jni floats find nameOf holder sum args : JniM ω R M _)
      (foldScores score sum args) := by
  induction args generalizing sum with
  | nil => exact .pure _
  | cons p args ih =>
    obtain ⟨hp, hargs⟩ := List.forall_mem_cons.1 hscore
    unfold dispatchScoreEach foldScores
    rcases hresult : score p with e | _ | argScore <;> rw [hresult] at hp
    · exact hp.bind_error
    · exact hp.bind (.pure _)
    · exact hp.bind (ih hargs (sum + argScore))

theorem foldScores_isSome_iff {ps : List (JavaOverloadArg R × JavaType)} {sum : Int} :
    (∃ total, foldScores score sum ps = .ok (some total)) ↔
      ∀ p ∈ ps, ∃ argScore, score p = .ok (some argScore) := by
  induction ps generalizing sum with
  | nil => exact iff_of_true ⟨sum, rfl⟩ (List.forall_mem_nil _)
  | cons p ps ih =>
    rw [List.forall_mem_cons, foldScores]
    rcases score p with e | _ | argScore
    · simp
    · simp
    · simp [ih]

theorem foldScores_error_iff {ps : List (JavaOverloadArg R × JavaType)} {sum : Int} :
    (∃ e, foldScores score sum ps = .error e) ↔ ∃ before p after, ps = before ++ p :: after ∧
      (∀ q ∈ before, ∃ argScore, score q = .ok (some argScore)) ∧ ∃ e, score p = .error e := by
  induction ps generalizing sum with
  | nil => simp [foldScores]
  | cons p ps ih =>
    have hcons : (∃ before q after, p :: ps = before ++ q :: after ∧
        (∀ q ∈ before, ∃ argScore, score q = .ok (some argScore)) ∧ ∃ e, score q = .error e) ↔
        (∃ e, score p = .error e) ∨ (∃ argScore, score p = .ok (some argScore)) ∧
          ∃ before q after, ps = before ++ q :: after ∧
            (∀ q ∈ before, ∃ argScore, score q = .ok (some argScore)) ∧
              ∃ e, score q = .error e := by
      constructor
      · rintro ⟨before, q, after, heq, hbefore, he⟩
        cases before with
        | nil =>
          cases heq
          exact .inl he
        | cons q' before =>
          cases heq
          obtain ⟨hq', hbefore⟩ := List.forall_mem_cons.1 hbefore
          exact .inr ⟨hq', before, q, after, rfl, hbefore, he⟩
      · rintro (he | ⟨hp, before, q, after, rfl, hbefore, he⟩)
        · exact ⟨[], p, ps, rfl, List.forall_mem_nil _, he⟩
        · exact ⟨p :: before, q, after, rfl, List.forall_mem_cons.2 ⟨hp, hbefore⟩, he⟩
    rw [hcons, foldScores]
    rcases score p with e | _ | argScore
    · simp
    · simp
    · simpa using ih

theorem gives_total (hanswers : Answers jni find nameOf h) (args : List (JavaOverloadArg R))
    (expected : List JavaType) :
    Gives (Clear calls) (dispatchScore jni floats find nameOf holder args expected : JniM ω R M _)
      (h.total floats holder args expected) := by
  unfold dispatchScore Classes.total
  split
  · exact .pure _
  · exact gives_foldScores (fun p _ ↦ gives_dispatchArgScore hanswers p) 0

theorem total_isSome_iff (hanswers : Answers jni find nameOf h) {args : List (JavaOverloadArg R)}
    {expected : List JavaType} :
    (∃ score, h.total floats holder args expected = .ok (some score)) ↔
      h.AdmitsAll floats holder args expected := by
  unfold Classes.total Classes.AdmitsAll
  split
  · next hlength => exact iff_of_false (fun ⟨_, h⟩ ↦ by cases h) fun h ↦ hlength h.1
  · next hlength =>
    rw [and_iff_right (not_not.1 hlength), foldScores_isSome_iff]
    simp only [argScore_isSome_iff hanswers]

theorem total_error_iff (hanswers : Answers jni find nameOf h) {args : List (JavaOverloadArg R)}
    {expected : List JavaType} :
    (∃ e, h.total floats holder args expected = .error e) ↔
      h.Blocked floats holder args expected := by
  unfold Classes.total Classes.Blocked
  split
  · next hlength => exact iff_of_false (fun ⟨_, h⟩ ↦ by cases h) fun h ↦ hlength h.1
  · next hlength =>
    rw [and_iff_right (not_not.1 hlength), foldScores_error_iff]
    simp only [argScore_isSome_iff hanswers, argScore_error_iff hanswers]

theorem applicable_iff {args : List (JavaOverloadArg R)} {signature : MethodSignature} :
    Applicable floats h holder args signature ↔
      h.AdmitsAll floats holder args signature.arguments ∧
        ∀ p ∈ args.zip signature.arguments, ¬h.Impostor holder p := by
  have hall : (∀ p ∈ args.zip signature.arguments, ¬RefusedArg floats p ∧ h.Assignable holder p) ↔
      ∀ p ∈ args.zip signature.arguments, h.Admits floats holder p ∧ ¬h.Impostor holder p :=
    forall₂_congr fun p _ ↦ applies_iff p
  unfold Applicable Refused Classes.AdmitsAll
  rw [not_or, not_not, and_assoc, and_assoc]
  refine and_congr_right fun _ ↦ ?_
  simpa only [not_exists, not_and, forall_and] using hall

end Totals

/-! ## Agreement -/

section Agreement

variable (holder : RawClass R) (target : MethodDispatchTarget) (name : String)
  (args : List (JavaOverloadArg R)) (methods : List MethodMetadata)

/-- From the state, the arguments are prepared and validated for a call of the overload. -/
def Callable (s : Thread ω R M) (method : MethodMetadata) : Prop :=
  ∃ prepared, (outcome (JavaMethod.callArgs jni floats find holder.jclass method.signature args)
    s).1 = .ok prepared

/-- From the state, dispatch over the overloads agrees with the calls of them. -/
structure DispatchAgrees (s : Thread ω R M) : Prop where
  /-- An overload has a score exactly where its call takes the arguments. -/
  scored : ∀ method ∈ methods, dispatchTargetAccepts target name method = true →
    ((∃ score, (outcome (dispatchScore jni floats find nameOf holder.jclass args
      method.signature.arguments) s).1 = .ok (some score)) ↔
      Callable jni floats find holder args s method)
  /-- An overload whose call does not take them leaves the choice of one whose call does alone. -/
  unaffected : ∀ before method after, methods = before ++ method :: after →
    ¬Callable jni floats find holder args s method →
    ∀ selected, Callable jni floats find holder args s selected →
      (outcome (selectMethodByDispatchArgs jni floats find nameOf holder target name args
        (before ++ after)) s).1 = .ok selected →
      (outcome (selectMethodByDispatchArgs jni floats find nameOf holder target name args
        methods) s).1 = .ok selected
  returns : (∃ method ∈ methods, dispatchTargetAccepts target name method = true ∧
      Callable jni floats find holder args s method) →
    ∃ selected, (outcome (selectMethodByDispatchArgs jni floats find nameOf holder target name args
      methods) s).1 = .ok selected ∧ Callable jni floats find holder args s selected

/-- No argument passes for what it is not where all arguments pass, and no lookup fails where an
overload applies. -/
structure Distinguishes (h : Classes R) : Prop where
  genuine : ∀ method ∈ methods, dispatchTargetAccepts target name method = true →
    h.AdmitsAll floats holder.jclass args method.signature.arguments →
    ∀ p ∈ args.zip method.signature.arguments, ¬h.Impostor holder.jclass p
  resolvable : (∃ method ∈ methods, dispatchTargetAccepts target name method = true ∧
      Applicable floats h holder.jclass args method.signature) →
    ∀ method ∈ methods, dispatchTargetAccepts target name method = true →
      ¬h.Blocked floats holder.jclass args method.signature.arguments

variable {jni floats find nameOf holder target name args methods} {h : Classes R}
  {calls : List (Call R M)}

/-- Where the score of an overload cannot be found, dispatch fails. -/
theorem gives_selectEach_error {total : MethodMetadata → Except (Error R) (Option Int)}
    (htotal : ∀ method ∈ methods, dispatchTargetAccepts target name method = true →
      Gives (Clear calls) (dispatchScore jni floats find nameOf holder.jclass args
        method.signature.arguments : JniM ω R M _) (total method))
    (herror : ∃ method ∈ methods, dispatchTargetAccepts target name method = true ∧
      ∃ e, total method = .error e)
    (index : Nat) (found : Dispatching) :
    ∃ e, Gives (Clear calls) (selectEach jni floats find nameOf holder.jclass target name args index
      found methods : JniM ω R M _) (.error e) := by
  induction methods generalizing index found with
  | nil =>
    obtain ⟨_, hmem, -⟩ := herror
    cases hmem
  | cons method methods ih =>
    obtain ⟨hmethod, hmethods⟩ := List.forall_mem_cons.1 htotal
    unfold selectEach
    cases haccepts : dispatchTargetAccepts target name method with
    | false =>
      refine ih hmethods ?_ (index + 1) found
      obtain ⟨failing, hmem, hfailing⟩ := herror
      rcases List.mem_cons.1 hmem with rfl | hmem
      · rw [haccepts] at hfailing
        cases hfailing.1
      · exact ⟨failing, hmem, hfailing⟩
    | true =>
      have hscore := hmethod haccepts
      cases hresult : total method with
      | error e =>
        rw [hresult] at hscore
        exact ⟨e, hscore.bind_error⟩
      | ok score =>
        rw [hresult] at hscore
        have hrest : ∃ method ∈ methods, dispatchTargetAccepts target name method = true ∧
            ∃ e, total method = .error e := by
          obtain ⟨failing, hmem, hfailing⟩ := herror
          rcases List.mem_cons.1 hmem with rfl | hmem
          · obtain ⟨-, e, he⟩ := hfailing
            rw [hresult] at he
            cases he
          · exact ⟨failing, hmem, hfailing⟩
        cases score with
        | none =>
          obtain ⟨e, he⟩ := ih hmethods hrest (index + 1) ⟨_, found.best⟩
          exact ⟨e, hscore.bind he⟩
        | some score =>
          obtain ⟨e, he⟩ := ih hmethods hrest (index + 1)
            ⟨_, Selection.keepBest found.best score index method⟩
          exact ⟨e, hscore.bind he⟩

/-- The score of an overload, where no lookup fails. -/
def Classes.sum (h : Classes R) (floats : Floats) (holder : R) (args : List (JavaOverloadArg R))
    (method : MethodMetadata) : Option Int :=
  (h.total floats holder args method.signature.arguments).toOption.join

theorem total_eq_ok (hanswers : Answers jni find nameOf h) {method : MethodMetadata}
    (hblocked : ¬h.Blocked floats holder.jclass args method.signature.arguments) :
    h.total floats holder.jclass args method.signature.arguments =
      .ok (h.sum floats holder.jclass args method) := by
  rw [← total_error_iff hanswers] at hblocked
  unfold Classes.sum
  cases htotal : h.total floats holder.jclass args method.signature.arguments with
  | error e => exact absurd ⟨e, htotal⟩ hblocked
  | ok score => rfl

theorem sum_isSome_iff (hanswers : Answers jni find nameOf h) {method : MethodMetadata} :
    (∃ score, h.sum floats holder.jclass args method = some score) ↔
      h.AdmitsAll floats holder.jclass args method.signature.arguments := by
  rw [← total_isSome_iff hanswers, Classes.sum]
  cases h.total floats holder.jclass args method.signature.arguments <;>
    simp [Except.toOption]

variable {s : Thread ω R M}

theorem callable_iff (hanswers : Answers jni find nameOf h) (hs : s.pending = none)
    {method : MethodMetadata} : Callable jni floats find holder args s method ↔
      Applicable floats h holder.jclass args method.signature :=
  outcome_callArgs_iff hanswers hs

theorem scored_iff (hanswers : Answers jni find nameOf h) (hs : s.pending = none)
    {method : MethodMetadata} :
    (∃ score, (outcome (dispatchScore jni floats find nameOf holder.jclass args
      method.signature.arguments) s).1 = .ok (some score)) ↔
      h.AdmitsAll floats holder.jclass args method.signature.arguments := by
  have hclear : Clear s.calls s := ⟨hs, rfl⟩
  rw [(gives_total hanswers args method.signature.arguments).outcome_fst hclear]
  exact total_isSome_iff hanswers

/-- Where no lookup fails, dispatch keeps the least sum. -/
theorem outcome_select (hanswers : Answers jni find nameOf h) (hs : s.pending = none)
    (hblocked : ∀ method ∈ methods, dispatchTargetAccepts target name method = true →
      ¬h.Blocked floats holder.jclass args method.signature.arguments) :
    (outcome (selectMethodByDispatchArgs jni floats find nameOf holder target name args methods)
      s).1 = chosen holder target name args methods (Selection.select (fun method ↦
        if dispatchTargetAccepts target name method then h.sum floats holder.jclass args method
        else none) 0 none methods) := by
  have hclear : Clear s.calls s := ⟨hs, rfl⟩
  refine (gives_select fun method hmethod haccepts ↦ ?_).outcome_fst hclear
  rw [← total_eq_ok hanswers (hblocked method hmethod haccepts)]
  exact gives_total hanswers args method.signature.arguments

/-- Where a lookup fails, so does dispatch. -/
theorem outcome_select_error (hanswers : Answers jni find nameOf h) (hs : s.pending = none)
    (hblocked : ∃ method ∈ methods, dispatchTargetAccepts target name method = true ∧
      h.Blocked floats holder.jclass args method.signature.arguments) :
    ∃ e, (outcome (selectMethodByDispatchArgs jni floats find nameOf holder target name args
      methods) s).1 = .error e := by
  have hclear : Clear s.calls s := ⟨hs, rfl⟩
  obtain ⟨method, hmem, haccepts, hblocked⟩ := hblocked
  have htotal : ∀ method ∈ methods, dispatchTargetAccepts target name method = true →
      Gives (Clear s.calls) (dispatchScore jni floats find nameOf holder.jclass args
        method.signature.arguments : JniM ω R M _) _ :=
    fun method _ _ ↦ gives_total hanswers args method.signature.arguments
  obtain ⟨e, he⟩ := gives_selectEach_error htotal
    ⟨method, hmem, haccepts, (total_error_iff hanswers).2 hblocked⟩ 0 ⟨[], none⟩
  exact ⟨e, he.bind_error.outcome_fst hclear⟩

/-- What is chosen is an overload of the target that has a sum. -/
theorem mem_of_chosen {sum : MethodMetadata → Option Int} {selected : MethodMetadata}
    (hchosen : chosen holder target name args methods (Selection.select (fun method ↦
      if dispatchTargetAccepts target name method then sum method else none) 0 none methods) =
        .ok selected) :
    selected ∈ methods ∧ dispatchTargetAccepts target name selected = true ∧
      ∃ score, sum selected = some score := by
  obtain ⟨_, hmap, rfl⟩ := Option.map_eq_some_iff.1 (chosen_eq_ok_iff.1 hchosen)
  obtain ⟨kept, hkept, rfl⟩ := Option.map_eq_some_iff.1 hmap
  have hfirst := Selection.firstBest_of_select hkept
  refine ⟨List.mem_of_getElem? hfirst.mem, ?_⟩
  have hscored := hfirst.scored
  split at hscored
  · next haccepts => exact ⟨haccepts, _, hscored⟩
  · cases hscored

/-- Something is chosen where an overload of the target has a sum. -/
theorem exists_chosen (holder : RawClass R) (args : List (JavaOverloadArg R))
    {sum : MethodMetadata → Option Int} {method : MethodMetadata} {score : Int}
    (hmem : method ∈ methods) (haccepts : dispatchTargetAccepts target name method = true)
    (hscore : sum method = some score) :
    ∃ selected, chosen holder target name args methods (Selection.select (fun method ↦
      if dispatchTargetAccepts target name method then sum method else none) 0 none methods) =
        .ok selected := by
  cases hkept : Selection.select (fun method ↦
      if dispatchTargetAccepts target name method then sum method else none) 0 none methods with
  | none =>
    have hnone := Selection.select_eq_none_iff.1 hkept method hmem
    rw [if_pos haccepts, hscore] at hnone
    cases hnone
  | some kept => exact ⟨kept.2.2, rfl⟩

theorem distinguishes_of_agrees (hanswers : Answers jni find nameOf h) (hs : s.pending = none)
    (hagrees : DispatchAgrees jni floats find nameOf holder target name args methods s) :
    Distinguishes floats holder target name args methods h where
  genuine method hmem haccepts hadmits := by
    have hcallable := (hagrees.scored method hmem haccepts).1 ((scored_iff hanswers hs).2 hadmits)
    exact (applicable_iff.1 ((callable_iff hanswers hs).1 hcallable)).2
  resolvable := by
    rintro ⟨method, hmem, haccepts, happlicable⟩ failing hfailing hfailing' hblocked
    obtain ⟨selected, hselected, -⟩ := hagrees.returns
      ⟨method, hmem, haccepts, (callable_iff hanswers hs).2 happlicable⟩
    have hfails : ∃ method ∈ methods, dispatchTargetAccepts target name method = true ∧
        h.Blocked floats holder.jclass args method.signature.arguments :=
      ⟨failing, hfailing, hfailing', hblocked⟩
    obtain ⟨e, he⟩ := outcome_select_error hanswers hs hfails
    rw [he] at hselected
    cases hselected

theorem agrees_of_distinguishes (hanswers : Answers jni find nameOf h) (hs : s.pending = none)
    (hdistinguishes : Distinguishes floats holder target name args methods h) :
    DispatchAgrees jni floats find nameOf holder target name args methods s := by
  have happlicable : ∀ method ∈ methods, dispatchTargetAccepts target name method = true →
      (h.AdmitsAll floats holder.jclass args method.signature.arguments ↔
        Applicable floats h holder.jclass args method.signature) := by
    intro method hmem haccepts
    rw [applicable_iff]
    exact ⟨fun hadmits ↦ ⟨hadmits, hdistinguishes.genuine method hmem haccepts hadmits⟩, And.left⟩
  refine ⟨?_, ?_, ?_⟩
  · intro method hmem haccepts
    rw [scored_iff hanswers hs, callable_iff hanswers hs]
    exact happlicable method hmem haccepts
  · rintro before method after rfl hnot selected hselected hchosen
    have hwithout : ∀ other ∈ before ++ after, dispatchTargetAccepts target name other = true →
        ¬h.Blocked floats holder.jclass args other.signature.arguments := by
      intro other hmem haccepts hblocked
      obtain ⟨e, he⟩ := outcome_select_error hanswers hs ⟨other, hmem, haccepts, hblocked⟩
      rw [he] at hchosen
      cases hchosen
    rw [outcome_select hanswers hs hwithout] at hchosen
    obtain ⟨hmem, haccepts, -⟩ := mem_of_chosen hchosen
    have hmem' : selected ∈ before ++ method :: after := by
      rw [List.mem_append, List.mem_cons]
      rcases List.mem_append.1 hmem with hmem | hmem
      · exact .inl hmem
      · exact .inr (.inr hmem)
    have hresolvable := hdistinguishes.resolvable
      ⟨selected, hmem', haccepts, (callable_iff hanswers hs).1 hselected⟩
    have hnone : (if dispatchTargetAccepts target name method then
        h.sum floats holder.jclass args method else none) = none := by
      split
      · next haccepts' =>
        cases hsum : h.sum floats holder.jclass args method with
        | none => rfl
        | some score =>
          refine absurd ((callable_iff hanswers hs).2 ?_) hnot
          exact (happlicable method (List.mem_append_right _ List.mem_cons_self) haccepts').1
            ((sum_isSome_iff hanswers).1 ⟨score, hsum⟩)
      · rfl
    rw [outcome_select hanswers hs hresolvable, chosen_eq_ok_iff]
    refine (congrArg (Option.map Prod.snd) (Selection.select_insert ?_ after)).trans
      (chosen_eq_ok_iff.1 hchosen)
    exact hnone
  · rintro ⟨method, hmem, haccepts, hcallable⟩
    have happlies := (callable_iff hanswers hs).1 hcallable
    have hresolvable := hdistinguishes.resolvable ⟨method, hmem, haccepts, happlies⟩
    obtain ⟨score, hscore⟩ := (sum_isSome_iff hanswers).2
      ((happlicable method hmem haccepts).2 happlies)
    obtain ⟨selected, hselected⟩ := exists_chosen holder args hmem haccepts hscore
    obtain ⟨hmem', haccepts', hscore'⟩ := mem_of_chosen hselected
    refine ⟨selected, (outcome_select hanswers hs hresolvable).trans hselected, ?_⟩
    rw [callable_iff hanswers hs, ← happlicable selected hmem' haccepts']
    exact (sum_isSome_iff hanswers).1 hscore'

/-- Dispatch agrees with the calls exactly where the classes can be told apart and looked up. -/
theorem dispatchAgrees_iff (hanswers : Answers jni find nameOf h) (hs : s.pending = none) :
    DispatchAgrees jni floats find nameOf holder target name args methods s ↔
      Distinguishes floats holder target name args methods h :=
  ⟨distinguishes_of_agrees hanswers hs, agrees_of_distinguishes hanswers hs⟩

end Agreement

/-! ## Two classes of one name -/

/-- The objects `4` and `5` are of the classes `6` and `3`, both called `app.Item`, and the loader of
the holder finds the second. `Object` is the class `2`. -/
def itemJni : Jni Unit Nat Nat :=
  { throwingJni with
    getObjectClass := fun object _ ↦ (some (if object = 5 then 3 else 6), none, ())
    isInstanceOf := fun object jclass _ ↦ (jclass == 2 || object == 5 && jclass == 3, none, ()) }

/-- The class `app.Gone` cannot be found. -/
def findItem : FindClass Unit Nat := fun _ name _ ↦
  (if name = "app.Item" then .ok 3
    else if name = "java.lang.Object" then .ok 2
    else .error (.javaException "ClassLoader.loadClass" "ClassNotFoundException" none), ())

def putMethod (id : BitVec 64) (name : String) : MethodMetadata :=
  ⟨"put", .instanceMethod, ⟨[.object name], .void⟩, 0, id⟩

section Example

/-- The overload for an `app.Item` is chosen, and its call rejects the object. -/
theorem putItem_chosen :
    (outcome (selectMethodByDispatchArgs itemJni bitFloats findItem itemName ⟨1, "app.Box"⟩
      .boundMethod "put" [.value (.object (some 4))]
      [putMethod 1 "app/Item", putMethod 2 "java/lang/Object"]) (.entry () none)).1 =
        .ok (putMethod 1 "app/Item") ∧
    (outcome (JavaMethod.callArgs itemJni bitFloats findItem 1 (putMethod 1 "app/Item").signature
      [.value (.object (some 4))]) (.entry () none)).1 =
        .error (.invalidArgumentType 0 "Lapp/Item;" "object") ∧
    (outcome (JavaMethod.callArgs itemJni bitFloats findItem 1
      (putMethod 2 "java/lang/Object").signature [.value (.object (some 4))]) (.entry () none)).1 =
        .ok ⟨[.object (some 4)], []⟩ := by
  decide +kernel

/-- The lookup for the first overload fails, and with it the dispatch. -/
theorem putGone_fails :
    (outcome (selectMethodByDispatchArgs itemJni bitFloats findItem itemName ⟨1, "app.Box"⟩
      .boundMethod "put" [.value (.object (some 5))]
      [putMethod 1 "app/Gone", putMethod 2 "app/Item"]) (.entry () none)).1 =
        .error (.javaException "ClassLoader.loadClass" "ClassNotFoundException" none) ∧
    (outcome (JavaMethod.callArgs itemJni bitFloats findItem 1 (putMethod 2 "app/Item").signature
      [.value (.object (some 5))]) (.entry () none)).1 = .ok ⟨[.object (some 5)], []⟩ := by
  decide +kernel

/-- An object of another class of the name is taken for the parameter's, and a class that cannot be
found keeps an overload that applies from being chosen. -/
theorem not_dispatchAgrees :
    ¬DispatchAgrees itemJni bitFloats findItem itemName ⟨1, "app.Box"⟩ .boundMethod "put"
      [.value (.object (some 4))] [putMethod 1 "app/Item", putMethod 2 "java/lang/Object"]
      (.entry () none) ∧
    ¬DispatchAgrees itemJni bitFloats findItem itemName ⟨1, "app.Box"⟩ .boundMethod "put"
      [.value (.object (some 5))] [putMethod 1 "app/Gone", putMethod 2 "app/Item"]
      (.entry () none) := by
  constructor
  · intro hagrees
    obtain ⟨hchosen, hrejected, htaken⟩ := putItem_chosen
    obtain ⟨selected, hselected, prepared, hprepared⟩ := hagrees.returns
      ⟨putMethod 2 "java/lang/Object", List.mem_cons_of_mem _ List.mem_cons_self, by decide, _, htaken⟩
    rw [hchosen] at hselected
    obtain rfl := Except.ok.inj hselected
    rw [hrejected] at hprepared
    cases hprepared
  · intro hagrees
    obtain ⟨hfails, htaken⟩ := putGone_fails
    obtain ⟨selected, hselected, -⟩ := hagrees.returns
      ⟨putMethod 2 "app/Item", List.mem_cons_of_mem _ List.mem_cons_self, by decide, _, htaken⟩
    rw [hfails] at hselected
    cases hselected

/-- The class `3` is found for every name, and every object is an instance of it. -/
def baseClasses : Classes Nat := ⟨⟨fun _ _ ↦ .ok 3, fun _ _ ↦ true⟩, fun _ ↦ "Lapp/Item;"⟩

theorem answers_base : Answers throwingJni findBase itemName baseClasses where
  obeys := ⟨fun _ _ _ _ ↦ rfl, fun _ _ _ _ ↦ rfl, fun _ _ _ ↦ rfl,
    fun _ _ _ _ _ _ _ ↦ ⟨3, rfl, rfl⟩, fun _ _ _ h ↦ by cases h; rfl, fun _ ↦ rfl⟩
  newStringUtf _ _ := ⟨_, _, rfl⟩
  getObjectClass _ _ :=
    ⟨_, _, _, rfl, fun _ ↦ rfl, show classNameToDescriptor "app.Item" = "Lapp/Item;" by decide +kernel⟩
  isInstanceOf _ _ _ := rfl
  object _ _ := ⟨3, rfl, rfl⟩

theorem dispatchAgrees_setMethods : DispatchAgrees throwingJni bitFloats findBase itemName
    ⟨1, "app.Box"⟩ .boundMethod "set" [.value (.int 7), .value (.object (some 4))] setMethods
    (.entry () none) := by
  refine (dispatchAgrees_iff answers_base rfl).2 ⟨?_, ?_⟩
  · rintro method - - - ⟨value | text, expected⟩ hp himpostor
    · rcases value with _ | _ | _ | _ | _ | _ | _ | _ | _ | _ | object
      all_goals first | exact himpostor | exact himpostor.2 ⟨3, rfl, rfl⟩
    · have hmem := (List.of_mem_zip hp).1
      simp at hmem
  · rintro - method - - ⟨-, before, ⟨value | text, expected⟩, after, -, -, hfails⟩
    · rcases value with _ | _ | _ | _ | _ | _ | _ | _ | _ | _ | object
      all_goals first
        | exact hfails
        | (obtain ⟨-, -, e, he⟩ := hfails; cases he)
    · exact hfails

end Example

end JavaBridge.Overload

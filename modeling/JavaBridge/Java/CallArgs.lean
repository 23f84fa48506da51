import JavaBridge.Hook.Arguments
import JavaBridge.Java.Temporaries

/-!
# Arguments of member operations

A Rust value becomes a prepared value, the prepared values of a call become a list, and the list
becomes the attached arguments, whose drop deletes the local references. A reference changes hands
each time, and a failure deletes what has been prepared so far.

Main results:

* `settlesUnless_prepareEach`, `keeps_prepareEach`: the list holds what was made for it, and every
  temporary reference among its values. A string that is made while an exception is pending is lost.
* `conservesUnless_withArgs`: whatever is done with attached arguments, their drop leaves nothing
  behind.
-/

namespace JavaBridge.Java.Members

open Fallible Custody
open Hook (Floats JavaOverloadArg PreparedJavaCallArg PreparedJavaCallArgs acceptsRustString
  coerceJavaCallValue coerceJavaValue)

section

variable {ω S M V α : Type} (vm : Jvm ω S M V) (floats : Floats)

/-! ## Prepared values -/

structure PreparedJavaValue (R : Type) where
  value : JavaValue R
  localRef : Option R

def PreparedJavaValue.toCallArg {R : Type} (prepared : PreparedJavaValue R) :
    PreparedJavaCallArg R :=
  ⟨prepared.value, prepared.localRef⟩

/-- A value coerced to its place, or the failure to. -/
def prepareValue (coerced : Except (Error (Ref S)) (JavaValue (Ref S))) :
    SessionM ω S (PreparedJavaValue (Ref S)) := do
  let value ← MonadExcept.ofExcept coerced
  pure ⟨value, none⟩

/-- A string in a place that may have another type. -/
def prepareRustString (mismatch : Error (Ref S)) (text : String) (expected : JavaType) :
    SessionM ω S (PreparedJavaValue (Ref S)) :=
  if !acceptsRustString expected then throw mismatch
  else do
    let localRef ← newStringUtfRaw vm text
    pure ⟨.object (some localRef), some localRef⟩

def prepareCallValue (value : JavaValue (Ref S)) (expected : JavaType) (index : Nat) :
    SessionM ω S (PreparedJavaValue (Ref S)) :=
  prepareValue (coerceJavaCallValue floats value expected index)

def prepareCallRustString (text : String) (expected : JavaType) (index : Nat) :
    SessionM ω S (PreparedJavaValue (Ref S)) :=
  prepareRustString vm (.invalidArgumentType index expected.descriptor "string") text expected

def coerceJavaFieldValue (value : JavaValue (Ref S)) (expected : JavaType) (operation : String) :
    Except (Error (Ref S)) (JavaValue (Ref S)) :=
  (coerceJavaValue floats value expected).mapError fun
    | .type actual => .invalidFieldValueType operation expected.descriptor actual
    | .value actual => .invalidFieldValue operation expected.descriptor actual

def prepareFieldValue (value : JavaValue (Ref S)) (expected : JavaType) (operation : String) :
    SessionM ω S (PreparedJavaValue (Ref S)) :=
  prepareValue (coerceJavaFieldValue floats value expected operation)

def prepareFieldRustString (text : String) (expected : JavaType) (operation : String) :
    SessionM ω S (PreparedJavaValue (Ref S)) :=
  prepareRustString vm (.invalidFieldValueType operation expected.descriptor "string") text expected

def intoJavaCallArg (arg : JavaOverloadArg S) (expected : JavaType) (index : Nat) :
    SessionM ω S (PreparedJavaCallArg (Ref S)) :=
  match arg with
  | .value value => do
    return (← prepareCallValue floats (value.map .supplied) expected index).toCallArg
  | .rustString text => do
    return (← prepareCallRustString vm text expected index).toCallArg

/-- A field takes the same Rust values as a call. -/
def intoJavaFieldValue (value : JavaOverloadArg S) (expected : JavaType) (operation : String) :
    SessionM ω S (PreparedJavaValue (Ref S)) :=
  match value with
  | .value value => prepareFieldValue floats (value.map .supplied) expected operation
  | .rustString text => prepareFieldRustString vm text expected operation

namespace PreparedJavaValue

/-- `PreparedJavaFieldValue::delete_local_ref`. -/
def deleteLocalRef (value : PreparedJavaValue (Ref S)) : Session ω S → Session ω S :=
  deleteEach value.localRef.toList

end PreparedJavaValue

/-! ## Prepared arguments -/

/-- `Drop for PreparedJavaCallArgs`. -/
def dropPrepared (args : PreparedJavaCallArgs (Ref S)) : Session ω S → Session ω S :=
  deleteEach args.localRefs

def validateLen (args : PreparedJavaCallArgs (Ref S)) (expected : List JavaType) :
    SessionM ω S Unit :=
  if args.values.length = expected.length then pure ()
  else throw (.invalidArguments expected.length args.values.length)

/-- Arguments are prepared one after another. What has been prepared is dropped where one fails. -/
def prepareEach (prepared : PreparedJavaCallArgs (Ref S)) :
    Nat → List (JavaOverloadArg S × JavaType) → SessionM ω S (PreparedJavaCallArgs (Ref S))
  | _, [] => pure prepared
  | index, (arg, expected) :: args => do
    let arg ← onError (dropPrepared prepared) (intoJavaCallArg vm floats arg expected index)
    prepareEach (prepared.push arg) (index + 1) args

/-- What can be passed for the arguments of a call. -/
inductive JavaCallArgs (S : Type)
  | unit
  | single (arg : JavaOverloadArg S)
  /-- A vector, an array, a slice or a `JavaArgs`. -/
  | list (args : List (JavaOverloadArg S))
  | tuple (args : List (JavaOverloadArg S))

/-- The prepared arguments, if there are as many as expected. They are dropped if not. -/
def validated (prepared : PreparedJavaCallArgs (Ref S)) (expected : List JavaType) :
    SessionM ω S (PreparedJavaCallArgs (Ref S)) := do
  onError (dropPrepared prepared) (validateLen prepared expected)
  pure prepared

def prepareCallArgs (args : List (JavaOverloadArg S)) (expected : List JavaType) :
    SessionM ω S (PreparedJavaCallArgs (Ref S)) :=
  if args.length ≠ expected.length then throw (.invalidArguments expected.length args.length)
  else prepareEach vm floats ⟨[], []⟩ 0 (args.zip expected)

namespace JavaCallArgs

def intoJavaCallArgs (args : JavaCallArgs S) (expected : List JavaType) :
    SessionM ω S (PreparedJavaCallArgs (Ref S)) :=
  match args with
  | .unit => validated ⟨[], []⟩ expected
  | .single arg =>
    if expected.length ≠ 1 then throw (.invalidArguments expected.length 1)
    else prepareEach vm floats ⟨[], []⟩ 0 ([arg].zip expected)
  | .list args => prepareCallArgs vm floats args expected
  | .tuple args =>
    if expected.length ≠ args.length then throw (.invalidArguments expected.length args.length)
    else do
      let prepared ← prepareEach vm floats ⟨[], []⟩ 0 (args.zip expected)
      validated prepared expected

end JavaCallArgs

/-! ## Attached arguments -/

structure AttachedJavaCallArgs (S : Type) where
  env : Vm.AttachedEnv
  values : List (JavaValue (Ref S))
  localRefs : List (Ref S)

namespace AttachedJavaCallArgs

/-- The local references are taken out of the prepared arguments, whose drop then finds none. -/
def new (expected : List JavaType) (args : JavaCallArgs S) :
    SessionM ω S (AttachedJavaCallArgs S) := do
  let env ← attachCurrentThread vm
  onError (dropEnv env) do
    let prepared ← args.intoJavaCallArgs vm floats expected
    let prepared ← validated prepared expected
    pure ⟨env, prepared.values, prepared.localRefs⟩

/-- The local references are deleted, and then the fields are dropped. -/
def drop (args : AttachedJavaCallArgs S) (s : Session ω S) : Session ω S :=
  dropEnv args.env (deleteEach args.localRefs s)

end AttachedJavaCallArgs

/-- The body of a function that attaches its arguments first. -/
def withArgs (expected : List JavaType) (args : JavaCallArgs S)
    (body : List (JavaValue (Ref S)) → SessionM ω S α) : SessionM ω S α := do
  let args ← AttachedJavaCallArgs.new vm floats expected args
  defer args.drop (body args.values)

end

/-! ## Strings that are made -/

/-- The string that is made for a place, if it comes to that. -/
def madeString (text : String) (expected : JavaType) : Option String :=
  if acceptsRustString expected = true ∧ '\x00' ∉ text.toList then some text else none

/-- The first string that is made for these arguments, unless one before it fails. -/
def firstString {S : Type} (floats : Floats) :
    Nat → List (JavaOverloadArg S × JavaType) → Option String
  | _, [] => none
  | index, (.value value, expected) :: args =>
    match coerceJavaCallValue floats (value.map Ref.supplied) expected index with
    | .ok _ => firstString floats (index + 1) args
    | .error _ => none
  | _, (.rustString text, expected) :: _ => madeString text expected

/-- The first string that is made for the arguments of a call. -/
def JavaCallArgs.firstString {S : Type} (floats : Floats) (args : JavaCallArgs S)
    (expected : List JavaType) : Option String :=
  match args with
  | .unit => none
  | .single arg =>
    if expected.length ≠ 1 then none else Members.firstString floats 0 ([arg].zip expected)
  | .list args | .tuple args =>
    if args.length ≠ expected.length then none
    else Members.firstString floats 0 (args.zip expected)

/-- The string that is made for a value. -/
def valueString {S : Type} (value : JavaOverloadArg S) (expected : JavaType) : Option String :=
  match value with
  | .value _ => none
  | .rustString text => madeString text expected

/-- The string is made while an exception is pending. -/
def Jvm.ForgetsAny {ω S M V : Type} (vm : Jvm ω S M V) (string : Option String) (world : ω) : Prop :=
  ∃ text ∈ string, vm.Forgets text world

/-- The string is made while an exception is pending, once the thread is attached. -/
def Session.Forgets {ω S M V : Type} (vm : Jvm ω S M V) (string : Option String)
    (s : Session ω S) : Prop :=
  vm.OnceAttached (vm.ForgetsAny string) s.world s.thread

/-! ## What is prepared -/

section Prepared

variable {ω S M V α : Type} {vm : Jvm ω S M V} {floats : Floats}

namespace PreparedJavaValue

/-- A temporary reference in the value is the local reference that stands beside it. -/
def Covered (value : PreparedJavaValue (Ref S)) : Prop :=
  temporaries value.value.reference.toList ⊆ value.localRef.toList

end PreparedJavaValue

theorem temporaries_supplied (value : JavaValue S) :
    temporaries (value.map Ref.supplied).reference.toList = [] := by
  rw [JavaValue.reference_map]
  cases value.reference <;> rfl

/-- Coercion brings no reference in. -/
theorem reference_coerceJavaValue {value value' : JavaValue (Ref S)} {expected : JavaType}
    (h : coerceJavaValue floats value expected = .ok value') :
    value'.reference.toList ⊆ value.reference.toList := by
  intro reference hreference
  cases value' with
  | object object =>
    rw [Hook.coerceJavaValue_eq_object h]
    exact hreference
  | _ => cases hreference

theorem keeps_prepareValue (coerced : Except (Error (Ref S)) (JavaValue (Ref S)))
    (h : ∀ value, coerced = .ok value → temporaries value.reference.toList = []) :
    Keeps (fun _ ↦ True) (fun _ ↦ True) PreparedJavaValue.Covered
      (prepareValue coerced : SessionM ω S (PreparedJavaValue (Ref S))) := by
  intro s _
  rw [prepareValue, wp_bind, wp_ofExcept]
  constructor
  · intro value hvalue
    refine ⟨trivial, ?_⟩
    rw [PreparedJavaValue.Covered, h value hvalue]
    exact List.nil_subset _
  · intro _ _
    trivial

theorem settles_prepareValue (coerced : Except (Error (Ref S)) (JavaValue (Ref S))) :
    Settles account (prepareValue coerced : SessionM ω S (PreparedJavaValue (Ref S))) []
      fun value ↦ value.localRef.toList := by
  have h : Settles account (MonadExcept.ofExcept coerced : SessionM ω S (JavaValue (Ref S))) []
      fun _ ↦ [] := .ofExcept (fun _ _ ↦ rfl) fun _ _ ↦ rfl
  exact h.bind fun value ↦ .pure (.refl _)

theorem keeps_prepareRustString (mismatch : Error (Ref S)) (text : String) (expected : JavaType) :
    Keeps (fun _ ↦ True) (fun _ ↦ True) PreparedJavaValue.Covered
      (prepareRustString vm mismatch text expected) := by
  intro s _
  rw [prepareRustString, wp_ite]
  refine ⟨fun _ ↦ trivial, fun _ ↦ ?_⟩
  rw [wp_bind]
  refine wp_mono wp_true ?_ fun _ _ _ ↦ trivial
  intro localRef t _
  exact ⟨trivial, List.filter_subset_self _⟩

theorem forgetsAny_madeString {text : String} {expected : JavaType} {world : ω} :
    vm.ForgetsAny (madeString text expected) world ↔
      acceptsRustString expected = true ∧ '\x00' ∉ text.toList ∧ vm.Forgets text world := by
  rw [Jvm.ForgetsAny, madeString, ← and_assoc]
  split
  · next hmade => simp [hmade]
  · next hnone => simp [hnone]

theorem settlesUnless_prepareRustString (hvm : vm.LeavesExceptions) (mismatch : Error (Ref S))
    (text : String) (expected : JavaType) :
    SettlesUnless account (fun s ↦ vm.ForgetsAny (madeString text expected) s.world)
      (prepareRustString vm mismatch text expected) [] fun value ↦ value.localRef.toList := by
  unfold prepareRustString
  split
  · next hrejected =>
    refine .of_settles .throw fun s h ↦ ?_
    rw [(forgetsAny_madeString.1 h).1] at hrejected
    cases hrejected
  · next haccepted =>
    rw [Bool.not_eq_true', Bool.not_eq_false] at haccepted
    refine (SettlesUnless.bind_settles (settlesUnless_newStringUtfRaw hvm text) fun localRef ↦
      .pure (.refl _)).congr fun s ↦ ?_
    rw [forgetsAny_madeString, and_iff_right haccepted]

theorem temporaries_coerceJavaValue {value : JavaValue S} {value' : JavaValue (Ref S)}
    {expected : JavaType} (h : coerceJavaValue floats (value.map .supplied) expected = .ok value') :
    temporaries value'.reference.toList = [] := by
  have hsubset := List.filter_subset (fun reference : Ref S ↦ reference.temporary?.isSome)
    (reference_coerceJavaValue h)
  exact List.subset_nil.1 (temporaries_supplied value ▸ hsubset)

theorem keeps_intoJavaFieldValue (value : JavaOverloadArg S) (expected : JavaType)
    (operation : String) :
    Keeps (fun _ ↦ True) (fun _ ↦ True) PreparedJavaValue.Covered
      (intoJavaFieldValue vm floats value expected operation) := by
  cases value with
  | value value =>
    exact keeps_prepareValue _ fun _ h ↦ temporaries_coerceJavaValue (mapError_eq_ok.1 h)
  | rustString text => exact keeps_prepareRustString _ text expected

theorem settlesUnless_intoJavaFieldValue (hvm : vm.LeavesExceptions) (value : JavaOverloadArg S)
    (expected : JavaType) (operation : String) :
    SettlesUnless account (fun s ↦ vm.ForgetsAny (valueString value expected) s.world)
      (intoJavaFieldValue vm floats value expected operation) []
        fun value ↦ value.localRef.toList := by
  cases value with
  | value value =>
    refine .of_settles (settles_prepareValue _) ?_
    rintro _ ⟨_, ⟨⟩, -⟩
  | rustString text => exact settlesUnless_prepareRustString hvm _ text expected

/-- A temporary reference among the values is one of the local references beside them. -/
def Covered (args : PreparedJavaCallArgs (Ref S)) : Prop :=
  temporaries (args.values.filterMap JavaValue.reference) ⊆ args.localRefs

theorem covered_nil : Covered (⟨[], []⟩ : PreparedJavaCallArgs (Ref S)) := List.nil_subset _

theorem Covered.push {args : PreparedJavaCallArgs (Ref S)} {value : PreparedJavaValue (Ref S)}
    (hargs : Covered args) (hvalue : value.Covered) :
    Covered (args.push value.toCallArg) := by
  have happend : temporaries ((args.values ++ [value.value]).filterMap JavaValue.reference) =
      temporaries (args.values.filterMap JavaValue.reference) ++
        temporaries value.value.reference.toList := by
    rw [temporaries, List.filterMap_append, List.filter_append]
    cases h : value.value.reference <;> simp [temporaries, h]
  show temporaries ((args.values ++ [value.value]).filterMap JavaValue.reference) ⊆
    args.localRefs ++ value.localRef.toList
  rw [happend]
  exact List.append_subset.2 ⟨List.subset_append_of_subset_left _ hargs,
    List.subset_append_of_subset_right _ hvalue⟩

theorem keeps_intoJavaCallArg (arg : JavaOverloadArg S) (expected : JavaType) (index : Nat) :
    Keeps (fun _ ↦ True) (fun _ ↦ True)
      (fun arg ↦ ∃ value : PreparedJavaValue (Ref S), arg = value.toCallArg ∧ value.Covered)
      (intoJavaCallArg vm floats arg expected index) := by
  cases arg with
  | value value =>
    have h := keeps_prepareValue (ω := ω)
      (coerceJavaCallValue floats (value.map .supplied) expected index)
      fun _ h ↦ temporaries_coerceJavaValue (mapError_eq_ok.1 h)
    exact h.bind fun value hvalue ↦ .pure ⟨value, rfl, hvalue⟩
  | rustString text =>
    exact (keeps_prepareRustString _ text expected).bind fun value hvalue ↦
      .pure ⟨value, rfl, hvalue⟩

theorem settlesUnless_intoJavaCallArg (hvm : vm.LeavesExceptions) (arg : JavaOverloadArg S)
    (expected : JavaType) (index : Nat) :
    SettlesUnless account (fun s ↦ vm.ForgetsAny (valueString arg expected) s.world)
      (intoJavaCallArg vm floats arg expected index) [] fun arg ↦ arg.localRef.toList := by
  cases arg with
  | value value =>
    refine .of_settles ((settles_prepareValue _).bind fun value ↦ .pure (.refl _)) ?_
    rintro _ ⟨_, ⟨⟩, -⟩
  | rustString text =>
    exact (settlesUnless_prepareRustString hvm _ text expected).bind_settles fun value ↦
      .pure (.refl _)

theorem not_forgetsAny {string : Option String} {world : ω}
    (h : vm.exceptionCheck world = false) : ¬vm.ForgetsAny string world := by
  rintro ⟨_, -, hpending, -⟩
  rw [h] at hpending
  cases hpending

/-- The first string of a list is that of its head, unless the head is prepared without one. -/
theorem wp_intoJavaCallArg (hvm : vm.LeavesExceptions) (arg : JavaOverloadArg S)
    (expected : JavaType) (index : Nat) (args : List (JavaOverloadArg S × JavaType))
    (s : Session ω S) :
    wp (intoJavaCallArg vm floats arg expected index)
      (fun _ t ↦ vm.ForgetsAny (firstString floats (index + 1) args) t.world ↔
        vm.ForgetsAny (firstString floats index ((arg, expected) :: args)) s.world)
      (fun _ _ ↦ vm.ForgetsAny (valueString arg expected) s.world ↔
        vm.ForgetsAny (firstString floats index ((arg, expected) :: args)) s.world) s := by
  cases arg with
  | value value =>
    rw [firstString, intoJavaCallArg, wp_bind, prepareCallValue, prepareValue, wp_bind, wp_ofExcept]
    constructor
    · intro _ hvalue
      rw [hvalue]
      exact Iff.rfl
    · intro _ herror
      rw [herror]
      exact Iff.rfl
  | rustString text =>
    rw [intoJavaCallArg, wp_bind, prepareCallRustString, prepareRustString, wp_ite]
    refine ⟨fun _ ↦ Iff.rfl, fun _ ↦ ?_⟩
    rw [wp_bind]
    refine wp_mono (wp_newStringUtfRaw hvm text) ?_ fun _ _ _ ↦ Iff.rfl
    rintro _ t ⟨hs, ht⟩
    exact iff_of_false (not_forgetsAny ht) (not_forgetsAny hs)

theorem keeps_prepareEach {prepared : PreparedJavaCallArgs (Ref S)} (h : Covered prepared)
    (index : Nat) (args : List (JavaOverloadArg S × JavaType)) :
    Keeps (fun _ ↦ True) (fun _ ↦ True) Covered (prepareEach vm floats prepared index args) := by
  induction args generalizing prepared index with
  | nil => exact .pure h
  | cons arg args ih =>
    intro s _
    rw [prepareEach, wp_bind, wp_onError]
    refine wp_mono (keeps_intoJavaCallArg arg.1 arg.2 index s trivial) ?_ fun _ _ _ ↦ trivial
    rintro _ t ⟨-, value, rfl, hvalue⟩
    exact ih (h.push hvalue) (index + 1) t trivial

/-- What has been prepared is held. Where an argument fails, all of it is deleted. -/
theorem settlesUnless_prepareEach (hvm : vm.LeavesExceptions)
    (prepared : PreparedJavaCallArgs (Ref S)) (index : Nat)
    (args : List (JavaOverloadArg S × JavaType)) :
    SettlesUnless account (fun s ↦ vm.ForgetsAny (firstString floats index args) s.world)
      (prepareEach vm floats prepared index args) prepared.localRefs fun args ↦ args.localRefs := by
  induction args generalizing prepared index with
  | nil =>
    refine .of_settles (.pure (.refl _)) ?_
    rintro _ ⟨_, ⟨⟩, -⟩
  | cons arg args ih =>
    have harg := (@settlesUnless_intoJavaCallArg _ _ _ _ _ floats hvm arg.1 arg.2 index).onError
      (releases_deleteEach prepared.localRefs)
    rw [List.append_nil] at harg
    refine harg.bind (fun arg ↦ ih (prepared.push arg) (index + 1)) fun s ↦ ?_
    rw [wp_onError]
    exact wp_intoJavaCallArg hvm arg.1 arg.2 index args s

theorem settles_validated (prepared : PreparedJavaCallArgs (Ref S)) (expected : List JavaType) :
    Settles account (validated prepared expected : SessionM ω S _) prepared.localRefs
      fun args ↦ args.localRefs := by
  have hvalidate : Settles account (validateLen prepared expected : SessionM ω S Unit) []
      fun _ ↦ [] := by
    unfold validateLen
    split
    · exact .pure (.refl _)
    · exact .throw
  have h := hvalidate.onError (releases_deleteEach prepared.localRefs)
  rw [List.append_nil] at h
  exact h.bind fun _ ↦ .pure (.refl _)

theorem keeps_validated {prepared : PreparedJavaCallArgs (Ref S)} (h : Covered prepared)
    (expected : List JavaType) :
    Keeps (fun _ ↦ True) (fun _ ↦ True) Covered
      (validated prepared expected : SessionM ω S _) := by
  intro s _
  rw [validated, wp_bind]
  exact wp_mono wp_true (fun _ _ _ ↦ ⟨trivial, h⟩) fun _ _ _ ↦ trivial

theorem settlesUnless_intoJavaCallArgs (hvm : vm.LeavesExceptions) (args : JavaCallArgs S)
    (expected : List JavaType) :
    SettlesUnless account (fun s ↦ vm.ForgetsAny (args.firstString floats expected) s.world)
      (args.intoJavaCallArgs vm floats expected) [] fun args ↦ args.localRefs := by
  have hthrow {e : Error (Ref S)} : SettlesUnless account
      (fun s : Session ω S ↦ vm.ForgetsAny none s.world)
        (throw e : SessionM ω S (PreparedJavaCallArgs (Ref S))) [] fun args ↦ args.localRefs := by
    refine .of_settles .throw ?_
    rintro _ ⟨_, ⟨⟩, -⟩
  cases args with
  | unit =>
    refine .of_settles (settles_validated ⟨[], []⟩ expected) ?_
    rintro _ ⟨_, ⟨⟩, -⟩
  | single arg =>
    dsimp only [JavaCallArgs.intoJavaCallArgs, JavaCallArgs.firstString]
    split
    · exact hthrow
    · exact settlesUnless_prepareEach hvm ⟨[], []⟩ 0 _
  | list args =>
    dsimp only [JavaCallArgs.intoJavaCallArgs, prepareCallArgs, JavaCallArgs.firstString]
    split
    · exact hthrow
    · exact settlesUnless_prepareEach hvm ⟨[], []⟩ 0 _
  | tuple args =>
    dsimp only [JavaCallArgs.intoJavaCallArgs, JavaCallArgs.firstString]
    split
    · next hne =>
      rw [if_pos hne.symm]
      exact hthrow
    · next heq =>
      rw [if_neg (mt Ne.symm heq)]
      exact (settlesUnless_prepareEach hvm ⟨[], []⟩ 0 _).bind_settles fun prepared ↦
        settles_validated prepared expected

theorem keeps_intoJavaCallArgs (args : JavaCallArgs S) (expected : List JavaType) :
    Keeps (fun _ ↦ True) (fun _ ↦ True) Covered (args.intoJavaCallArgs vm floats expected) := by
  cases args with
  | unit => exact keeps_validated covered_nil expected
  | single arg =>
    dsimp only [JavaCallArgs.intoJavaCallArgs]
    split
    · exact .throw trivial
    · exact keeps_prepareEach covered_nil 0 _
  | list args =>
    dsimp only [JavaCallArgs.intoJavaCallArgs, prepareCallArgs]
    split
    · exact .throw trivial
    · exact keeps_prepareEach covered_nil 0 _
  | tuple args =>
    dsimp only [JavaCallArgs.intoJavaCallArgs]
    split
    · exact .throw trivial
    · exact (keeps_prepareEach covered_nil 0 _).bind fun prepared hprepared ↦
        keeps_validated hprepared expected

end Prepared

/-! ## Whole operations -/

section Conserves

variable {ω S M V α : Type} {vm : Jvm ω S M V} {floats : Floats} {s : Session ω S}

theorem not_forgets_none : ¬s.Forgets vm none := fun ⟨_, _, h, _⟩ ↦ nomatch h

theorem conservesUnless_throw {e : Error (Ref S)} :
    ConservesUnless (Session.Forgets vm none) (throw e : SessionM ω S α) :=
  .of_conserves .throw fun _ ↦ not_forgets_none

/-- The attached arguments hold what was made for them. -/
theorem wp_new (hvm : vm.LeavesExceptions) (expected : List JavaType) (args : JavaCallArgs S)
    (hs : Clean s) :
    wp (AttachedJavaCallArgs.new vm floats expected args)
      (fun args' t ↦ ¬s.Forgets vm (args.firstString floats expected) ∧ account.Ready t ∧
        account.Holds t args'.localRefs ∧
          temporaries (args'.values.filterMap JavaValue.reference) ⊆ args'.localRefs)
      (fun _ t ↦ Leftover (s.Forgets vm (args.firstString floats expected)) t) s := by
  have hsettles : SettlesUnless account
      (fun s ↦ vm.ForgetsAny (args.firstString floats expected) s.world) (do
        let prepared ← args.intoJavaCallArgs vm floats expected
        validated prepared expected) [] fun prepared ↦ prepared.localRefs :=
    (settlesUnless_intoJavaCallArgs hvm args expected).bind_settles fun prepared ↦
      settles_validated prepared expected
  have hkeeps : Keeps (fun _ ↦ True) (fun _ ↦ True) Covered (do
      let prepared ← args.intoJavaCallArgs vm floats expected
      validated prepared expected) :=
    (keeps_intoJavaCallArgs args expected).bind fun prepared hprepared ↦
      keeps_validated hprepared expected
  rw [AttachedJavaCallArgs.new, wp_bind]
  refine wp_mono wp_attachCurrentThread ?_ ?_
  · rintro env t ⟨hattached, -, hevents, hattaches, hworld⟩
    have ht := hs.congr hevents
    have hL := vm.onceAttached_iff (L := vm.ForgetsAny (args.firstString floats expected)) hattaches
    rw [← hworld] at hL
    rw [wp_onError, ← bind_assoc, wp_bind]
    refine wp_mono (wp_and (hsettles t [] ⟨hattached, ht.tracked⟩ ht.holds) (hkeeps t trivial)) ?_ ?_
    · rintro prepared u ⟨⟨hnot, hready, hholds⟩, -, hcovered⟩
      exact ⟨mt hL.1 hnot, hready, List.append_nil prepared.localRefs ▸ hholds, hcovered⟩
    · rintro _ u ⟨⟨hready, lost, hlost, hholds⟩, -⟩
      exact leftover_dropEnv env hready ⟨lost, hlost.trans hL.symm, hholds⟩
  · rintro _ t ⟨-, hevents, hattaches⟩
    exact (hs.congr hevents).leftover fun h ↦ hattaches h.1

/-- Whatever is done with the attached arguments, their drop leaves nothing behind. -/
theorem conservesUnless_withArgs (hvm : vm.LeavesExceptions) (expected : List JavaType)
    (args : JavaCallArgs S) {body : List (JavaValue (Ref S)) → SessionM ω S α}
    (hbody : ∀ values,
      Borrows account (body values) (temporaries (values.filterMap JavaValue.reference))) :
    ConservesUnless (Session.Forgets vm (args.firstString floats expected))
      (withArgs vm floats expected args body) := by
  intro s hs
  rw [withArgs, wp_bind]
  refine wp_mono (wp_new hvm expected args hs) ?_ fun _ _ ht ↦ ht
  rintro args t ⟨hnot, hready, hholds, hcovered⟩
  have hdone := ((hbody args.values).mono hcovered).defer (releases_deleteEach args.localRefs)
  have hdone := hdone t [] hready ((List.append_nil args.localRefs).symm ▸ hholds)
  rw [wp_defer] at hdone ⊢
  refine wp_mono hdone ?_ ?_
  · intro _ u hu
    exact ⟨hnot, clean_dropEnv args.env ⟨hu.1.2, hu.2⟩⟩
  · intro _ u hu
    exact (clean_dropEnv args.env ⟨hu.1.2, hu.2⟩).leftover hnot

end Conserves

end JavaBridge.Java.Members

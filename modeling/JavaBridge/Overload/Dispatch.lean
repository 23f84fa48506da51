import JavaBridge.Descriptor.Names
import JavaBridge.Hook.Recovery
import JavaBridge.Hook.References
import JavaBridge.Library.Selection
import JavaBridge.MethodQuery
import Mathlib.Algebra.Order.BigOperators.Group.List
import Mathlib.Algebra.Order.Ring.Int

/-!
# Dispatch over overloads

A call by name goes to the overload whose parameters the arguments fit best. Every argument gets a
score for its parameter, or none where it does not fit, and the least sum wins.
`nameOf jclass` stands for `Class.getName`.

Main results:

* `gives_select`: the loop is the pass over the overloads that keeps the least score.
* `optimalDispatch`: the choice is optimal, stable under order and under overloads that do not apply.
-/

namespace JavaBridge.Overload

open Fallible Hook

variable {ω R M : Type} (jni : Jni ω R M) (floats : Floats) (find : FindClass ω R)

/-! ## The class of an argument -/

/-- `Class.getName` of a class object. It leaves no exception pending. -/
abbrev ClassName (ω R : Type) := (jclass : R) → ω → Except (Error R) String × ω

variable (nameOf : ClassName ω R)

def getClassName (jclass : R) : JniM ω R M String := fun s ↦
  match nameOf jclass s.world with
  | (.ok name, world) => .ok name { s with world }
  | (.error error, world) => .error error { s with world }

def classNameToDescriptor (name : String) : String :=
  match name with
  | "boolean" => "Z"
  | "byte" => "B"
  | "char" => "C"
  | "short" => "S"
  | "int" => "I"
  | "long" => "J"
  | "float" => "F"
  | "double" => "D"
  | "void" => "V"
  | _ =>
    let replaced := String.ofList (Text.replace '.' '/' name.toList)
    if name.toList.head? = some '[' then replaced else "L" ++ replaced ++ ";"

/-- `metadata::class_descriptor`. -/
def classDescriptor (jclass : R) : JniM ω R M String := do
  let name ← getClassName nameOf jclass
  pure (classNameToDescriptor name)

def objectClassDescriptor (object : R) : JniM ω R M String := do
  let jclass ← getObjectClass jni object
  classDescriptor nameOf jclass

/-! ## Scores -/

def primitiveExactMatch : JavaValue R → JavaType → Bool
  | .boolean _, .boolean
  | .byte _, .byte
  | .char _, .char
  | .short _, .short
  | .int _, .int
  | .long _, .long
  | .float _, .float
  | .double _, .double => true
  | _, _ => false

def canCoerceJavaValue (value : JavaValue R) (expected : JavaType) : Bool :=
  (coerceJavaValue floats value expected).isOk

def rustStringDispatchScore : JavaType → Option Int
  | .object name =>
    if name = "java/lang/String" then some 0
    else if name = "java/lang/CharSequence" then some 1
    else if name = "java/lang/Object" then some 2
    else none
  | _ => none

def referenceDescriptorDispatchScore (actualDescriptor : String) (expected : JavaType) :
    Option Int :=
  if actualDescriptor = expected.descriptor then some 0
  else
    match expected with
    | .object name =>
      if name = "java/lang/Object" ∧ (actualDescriptor.toList.head? = some 'L' ∨
          actualDescriptor.toList.head? = some '[') then
        some 30
      else none
    | _ => none

/-- The score of an instance of the parameter's class. -/
def instanceDispatchScore : JavaType → Int
  | .array _ => 1
  | .object name => if name = "java/lang/Object" then 30 else 10
  -- `unreachable!`: the parameter is of a reference type.
  | _ => 0

def referenceDispatchScore (holder object : R) (expected : JavaType) :
    JniM ω R M (Option Int) :=
  if !expected.isReference then pure none
  else do
    let actualDescriptor ← objectClassDescriptor jni nameOf object
    match referenceDescriptorDispatchScore actualDescriptor expected with
    | some score => pure (some score)
    | none => do
      let expectedClass ← classForDispatchType find holder expected
      if !(← isInstanceOf jni object expectedClass) then pure none
      else pure (some (instanceDispatchScore expected))

def dispatchArgScore (holder : R) (arg : JavaOverloadArg R) (expected : JavaType) :
    JniM ω R M (Option Int) :=
  match arg with
  | .rustString _ => pure (rustStringDispatchScore expected)
  | .value (.object none) => pure (if expected.isReference then some 50 else none)
  | .value (.object (some object)) =>
    referenceDispatchScore jni find nameOf holder object expected
  | .value value =>
    if primitiveExactMatch value expected then pure (some 0)
    else if canCoerceJavaValue floats value expected then pure (some 10)
    else pure none

/-- The loop of `dispatch_score`. A method has 255 parameters at most, so that the sum stays far from
the bounds of an `i32`. -/
def dispatchScoreEach (holder : R) :
    Int → List (JavaOverloadArg R × JavaType) → JniM ω R M (Option Int)
  | score, [] => pure (some score)
  | score, (arg, expected) :: args => do
    match ← dispatchArgScore jni floats find nameOf holder arg expected with
    | none => pure none
    | some argScore => dispatchScoreEach holder (score + argScore) args

def dispatchScore (holder : R) (args : List (JavaOverloadArg R)) (expected : List JavaType) :
    JniM ω R M (Option Int) :=
  if args.length ≠ expected.length then pure none
  else dispatchScoreEach jni floats find nameOf holder 0 (args.zip expected)

/-! ## Selection -/

inductive MethodDispatchTarget
  | constructor
  | staticMethod
  | boundMethod
  deriving DecidableEq

/-- `raw::Class`, by its class object. -/
structure RawClass (R : Type) where
  jclass : R
  name : String

def dispatchTargetAccepts (target : MethodDispatchTarget) (name : String)
    (method : MethodMetadata) : Bool :=
  match target with
  | .constructor => method.kind = .constructor
  | .staticMethod => method.kind = .staticMethod && method.name = name
  | .boundMethod => method.kind ≠ .constructor && method.name = name

def methodKindName : MethodKind → String
  | .constructor => "constructor"
  | .instanceMethod => "instance"
  | .staticMethod => "static"

def dispatchTargetKindName : MethodDispatchTarget → String
  | .constructor => methodKindName .constructor
  | .staticMethod => methodKindName .staticMethod
  | .boundMethod => "method"

def dispatchTargetMethodName (target : MethodDispatchTarget) (name : String) : String :=
  match target with
  | .constructor => "$init"
  | .staticMethod | .boundMethod => name

/-- `JavaOverloadArg::type_name`. -/
def argTypeName : JavaOverloadArg R → String
  | .value value => value.typeName
  | .rustString _ => "string"

def formatDispatchArgumentList (args : List (JavaOverloadArg R)) : String :=
  "(" ++ ", ".intercalate (args.map argTypeName) ++ ")"

/-- The text of a candidate in the error. -/
def candidateText (method : MethodMetadata) : String :=
  methodKindName method.kind ++ " " ++ method.signature.descriptor

/-- What the loop of `select_method_by_dispatch_args` keeps: the candidates, and the best of them
with its score and its place. -/
structure Dispatching where
  candidates : List String
  best : Option (Int × Nat × MethodMetadata)

/-- The loop of `select_method_by_dispatch_args`. -/
def selectEach (holder : R) (target : MethodDispatchTarget) (name : String)
    (args : List (JavaOverloadArg R)) :
    Nat → Dispatching → List MethodMetadata → JniM ω R M Dispatching
  | _, found, [] => pure found
  | index, found, method :: methods =>
    if !dispatchTargetAccepts target name method then
      selectEach holder target name args (index + 1) found methods
    else do
      let candidates := found.candidates ++ [candidateText method]
      match ← dispatchScore jni floats find nameOf holder args method.signature.arguments with
      | none => selectEach holder target name args (index + 1) ⟨candidates, found.best⟩ methods
      | some score =>
        let best := Selection.keepBest found.best score index method
        selectEach holder target name args (index + 1) ⟨candidates, best⟩ methods

def noCompatibleOverload (holder : RawClass R) (target : MethodDispatchTarget) (name : String)
    (args : List (JavaOverloadArg R)) (candidates : List String) : Error R :=
  .noCompatibleOverload holder.name (dispatchTargetKindName target)
    (dispatchTargetMethodName target name) (formatDispatchArgumentList args) candidates

def selectMethodByDispatchArgs (holder : RawClass R) (target : MethodDispatchTarget)
    (name : String) (args : List (JavaOverloadArg R)) (methods : List MethodMetadata) :
    JniM ω R M MethodMetadata := do
  let found ← selectEach jni floats find nameOf holder.jclass target name args 0 ⟨[], none⟩ methods
  match found.best with
  | some (_, _, method) => pure method
  | none => throw (noCompatibleOverload holder target name args found.candidates)

/-! ## What is selected -/

/-- The scores of the arguments, where each has one. -/
def argumentScores (score : JavaOverloadArg R × JavaType → Option Int)
    (args : List (JavaOverloadArg R)) (expected : List JavaType) : Option (List Int) :=
  if args.length ≠ expected.length then none else (args.zip expected).mapM score

/-- The sum of the scores, for an overload of the target. -/
def overloadScore (score : JavaOverloadArg R × JavaType → Option Int)
    (target : MethodDispatchTarget) (name : String) (args : List (JavaOverloadArg R))
    (method : MethodMetadata) : Option Int :=
  if dispatchTargetAccepts target name method then
    (argumentScores score args method.signature.arguments).map List.sum
  else none

section Spec

variable {jni floats find nameOf} {I : Thread ω R M → Prop} {holder : R}
  {score : JavaOverloadArg R × JavaType → Option Int}

theorem gives_dispatchScoreEach {args : List (JavaOverloadArg R × JavaType)}
    (h : ∀ p ∈ args, Gives I (dispatchArgScore jni floats find nameOf holder p.1 p.2)
      (.ok (score p))) (sum : Int) :
    Gives I (dispatchScoreEach jni floats find nameOf holder sum args)
      (.ok ((args.mapM score).map fun scores ↦ sum + scores.sum)) := by
  induction args generalizing sum with
  | nil =>
    rw [show ((List.mapM score []).map fun scores ↦ sum + scores.sum) = some (sum + 0) from rfl,
      Int.add_zero]
    exact .pure _
  | cons p args ih =>
    obtain ⟨hp, hargs⟩ := List.forall_mem_cons.1 h
    refine hp.bind ?_
    rw [List.mapM_cons]
    cases score p with
    | none => exact .pure _
    | some argScore =>
      have hrest := ih hargs (sum + argScore)
      cases hscores : args.mapM score with
      | none =>
        rw [hscores] at hrest
        exact hrest
      | some scores =>
        rw [hscores] at hrest
        simpa [Int.add_assoc] using hrest

theorem gives_dispatchScore {args : List (JavaOverloadArg R)} {expected : List JavaType}
    (h : args.length = expected.length → ∀ p ∈ args.zip expected,
      Gives I (dispatchArgScore jni floats find nameOf holder p.1 p.2) (.ok (score p))) :
    Gives I (dispatchScore jni floats find nameOf holder args expected)
      (.ok ((argumentScores score args expected).map List.sum)) := by
  unfold dispatchScore argumentScores
  split
  · exact .pure _
  · next hlength =>
    have hsum := gives_dispatchScoreEach (h (not_not.1 hlength)) 0
    simpa using hsum

variable {target : MethodDispatchTarget} {name : String} {args : List (JavaOverloadArg R)}
  {methods : List MethodMetadata}

/-- Every score that the dispatch can ask for is found. -/
def Finds (jni : Jni ω R M) (floats : Floats) (find : FindClass ω R) (nameOf : ClassName ω R)
    (I : Thread ω R M → Prop) (score : JavaOverloadArg R × JavaType → Option Int) (holder : R)
    (target : MethodDispatchTarget) (name : String) (args : List (JavaOverloadArg R))
    (methods : List MethodMetadata) : Prop :=
  ∀ method ∈ methods, dispatchTargetAccepts target name method = true →
    args.length = method.signature.arguments.length →
    ∀ p ∈ args.zip method.signature.arguments,
      Gives I (dispatchArgScore jni floats find nameOf holder p.1 p.2) (.ok (score p))

theorem gives_selectEach {total : MethodMetadata → Option Int}
    (h : ∀ method ∈ methods, dispatchTargetAccepts target name method = true →
      Gives I (dispatchScore jni floats find nameOf holder args method.signature.arguments)
        (.ok (total method)))
    (index : Nat) (found : Dispatching) :
    Gives I (selectEach jni floats find nameOf holder target name args index found methods)
      (.ok ⟨found.candidates ++ (methods.filter (dispatchTargetAccepts target name)).map candidateText,
        Selection.select
          (fun method ↦ if dispatchTargetAccepts target name method then total method else none)
          index found.best methods⟩) := by
  induction methods generalizing index found with
  | nil =>
    rw [List.filter_nil, List.map_nil, List.append_nil]
    exact .pure _
  | cons method methods ih =>
    obtain ⟨hmethod, hmethods⟩ := List.forall_mem_cons.1 h
    cases haccepts : dispatchTargetAccepts target name method with
    | false =>
      have := ih hmethods (index + 1) found
      simpa [selectEach, haccepts, Selection.select, Selection.step] using this
    | true =>
      rw [selectEach, haccepts]
      refine (hmethod haccepts).bind ?_
      cases htotal : total method with
      | none =>
        have := ih hmethods (index + 1) ⟨found.candidates ++ [candidateText method], found.best⟩
        simpa [haccepts, htotal, Selection.select, Selection.step] using this
      | some score =>
        have := ih hmethods (index + 1) ⟨found.candidates ++ [candidateText method],
          Selection.keepBest found.best score index method⟩
        simpa [haccepts, htotal, Selection.select, Selection.step] using this

/-- The result of the dispatch, from the sums. -/
def chosen (holder : RawClass R) (target : MethodDispatchTarget) (name : String)
    (args : List (JavaOverloadArg R)) (methods : List MethodMetadata)
    (kept : Option (Int × Nat × MethodMetadata)) : Except (Error R) MethodMetadata :=
  match kept with
  | some (_, _, method) => .ok method
  | none => .error (noCompatibleOverload holder target name args
      ((methods.filter (dispatchTargetAccepts target name)).map candidateText))

theorem chosen_eq_ok_iff {holder : RawClass R} {kept : Option (Int × Nat × MethodMetadata)}
    {method : MethodMetadata} : chosen holder target name args methods kept = .ok method ↔
      (kept.map fun kept ↦ (kept.1, kept.2.2)).map Prod.snd = some method := by
  cases kept <;> simp [chosen]

/-- The loop is the pass over the overloads that keeps the least sum. -/
theorem gives_select {holder : RawClass R} {total : MethodMetadata → Option Int}
    (h : ∀ method ∈ methods, dispatchTargetAccepts target name method = true →
      Gives I (dispatchScore jni floats find nameOf holder.jclass args method.signature.arguments)
        (.ok (total method))) :
    Gives I (selectMethodByDispatchArgs jni floats find nameOf holder target name args methods)
      (chosen holder target name args methods (Selection.select
        (fun method ↦ if dispatchTargetAccepts target name method then total method else none)
        0 none methods)) := by
  refine (gives_selectEach h 0 ⟨[], none⟩).bind ?_
  show Gives I (match Selection.select (fun method ↦
      if dispatchTargetAccepts target name method then total method else none) 0 none methods with
    | some (_, _, method) => pure method
    | none => throw _) _
  cases Selection.select (fun method ↦
      if dispatchTargetAccepts target name method then total method else none) 0 none methods with
  | none => exact .throw _
  | some kept => exact .pure _

theorem gives_selectMethodByDispatchArgs {holder : RawClass R}
    (h : Finds jni floats find nameOf I score holder.jclass target name args methods) :
    Gives I (selectMethodByDispatchArgs jni floats find nameOf holder target name args methods)
      (chosen holder target name args methods
        (Selection.select (overloadScore score target name args) 0 none methods)) :=
  gives_select fun method hmethod haccepts ↦ gives_dispatchScore (h method hmethod haccepts)

/-! ### Optimality -/

/-- The scores are no worse in any place, and better in one. -/
def Beats (scores' scores : List Int) : Prop :=
  List.Forall₂ (· ≤ ·) scores' scores ∧
    ∃ (k : Nat) (t' t : Int), scores'[k]? = some t' ∧ scores[k]? = some t ∧ t' < t

theorem Beats.sum_lt {scores' scores : List Int} (h : Beats scores' scores) :
    scores'.sum < scores.sum := by
  obtain ⟨hle, k, t', t, ht', ht, hless⟩ := h
  induction hle generalizing k with
  | nil => cases ht
  | @cons a b as bs hab htail ih =>
    rw [List.sum_cons, List.sum_cons]
    cases k with
    | zero =>
      cases ht
      cases ht'
      exact Int.add_lt_add_of_lt_of_le hless (htail.sum_le_sum)
    | succ k => exact Int.add_lt_add_of_le_of_lt hab (ih k ht' ht)

/-- The result of a dispatch over the overloads, by the scores of the arguments. -/
structure Optimal (score : JavaOverloadArg R × JavaType → Option Int) (holder : RawClass R)
    (target : MethodDispatchTarget) (name : String) (args : List (JavaOverloadArg R))
    (methods : List MethodMetadata) (r : Except (Error R) MethodMetadata) : Prop where
  /-- The least sum, and of those that have it the first in the order of the metadata. -/
  least : ∀ method, r = .ok method → ∃ (i : Nat) (sum : Int), methods[i]? = some method ∧
    overloadScore score target name args method = some sum ∧
    ∀ j other sum', methods[j]? = some other →
      overloadScore score target name args other = some sum' → sum < sum' ∨ sum = sum' ∧ i ≤ j
  unbeaten : ∀ method scores, r = .ok method →
    argumentScores score args method.signature.arguments = some scores →
    ∀ other ∈ methods, dispatchTargetAccepts target name other = true →
    ∀ scores', argumentScores score args other.signature.arguments = some scores' →
      ¬Beats scores' scores
  noMatch : r = .error (noCompatibleOverload holder target name args
      ((methods.filter (dispatchTargetAccepts target name)).map candidateText)) ↔
    ∀ method ∈ methods, overloadScore score target name args method = none
  /-- The dispatch does not fail otherwise. -/
  failure : ∀ e, r = .error e → e = noCompatibleOverload holder target name args
    ((methods.filter (dispatchTargetAccepts target name)).map candidateText)

theorem optimal_chosen (score : JavaOverloadArg R × JavaType → Option Int) (holder : RawClass R)
    (target : MethodDispatchTarget) (name : String) (args : List (JavaOverloadArg R))
    (methods : List MethodMetadata) : Optimal score holder target name args methods
      (chosen holder target name args methods
        (Selection.select (overloadScore score target name args) 0 none methods)) := by
  have hleast : ∀ method, chosen holder target name args methods
      (Selection.select (overloadScore score target name args) 0 none methods) = .ok method →
      ∃ (i : Nat) (sum : Int), methods[i]? = some method ∧
        overloadScore score target name args method = some sum ∧
        ∀ j other sum', methods[j]? = some other →
          overloadScore score target name args other = some sum' →
            sum < sum' ∨ sum = sum' ∧ i ≤ j := by
    intro method h
    cases hkept : Selection.select (overloadScore score target name args) 0 none methods with
    | none =>
      rw [hkept] at h
      cases h
    | some kept =>
      rw [hkept] at h
      obtain rfl := Except.ok.inj h
      have hfirst := Selection.firstBest_of_select hkept
      exact ⟨kept.2.1, kept.1, hfirst.mem, hfirst.scored, hfirst.least⟩
  refine ⟨hleast, ?_, ?_, ?_⟩
  · intro method scores h hscores other hother haccepts scores' hscores' hbeats
    obtain ⟨i, sum, hmem, hsum, hall⟩ := hleast method h
    obtain ⟨j, hj⟩ := List.mem_iff_getElem?.1 hother
    have hsum' : overloadScore score target name args other = some scores'.sum := by
      rw [overloadScore, if_pos haccepts, hscores', Option.map_some]
    have hscored : sum = scores.sum := by
      rw [overloadScore] at hsum
      split at hsum
      · rw [hscores] at hsum
        exact (Option.some.inj hsum).symm
      · cases hsum
    have hlt := hbeats.sum_lt
    rcases hall j other _ hj hsum' with hless | ⟨heq, -⟩
    · exact absurd (hscored ▸ hless) (Int.lt_asymm hlt)
    · exact absurd (hscored ▸ heq) (Int.ne_of_gt hlt)
  · rw [← Selection.select_eq_none_iff]
    cases Selection.select (overloadScore score target name args) 0 none methods <;>
      simp [chosen]
  · intro e h
    cases hkept : Selection.select (overloadScore score target name args) 0 none methods with
    | none =>
      rw [hkept] at h
      exact (Except.error.inj h).symm
    | some kept =>
      rw [hkept] at h
      cases h

/-- Dispatch is optimal, and an overload that does not apply does not change the choice. -/
theorem optimalDispatch (holder : RawClass R)
    (h : Finds jni floats find nameOf I score holder.jclass target name args methods)
    {s : Thread ω R M} (hs : I s) :
    Optimal score holder target name args methods
      (outcome (selectMethodByDispatchArgs jni floats find nameOf holder target name args methods)
        s).1 ∧
    ∀ before method after, methods = before ++ method :: after →
      overloadScore score target name args method = none → ∀ s', I s' → ∀ selected,
        (outcome (selectMethodByDispatchArgs jni floats find nameOf holder target name args
          (before ++ after)) s').1 = .ok selected ↔
        (outcome (selectMethodByDispatchArgs jni floats find nameOf holder target name args methods)
          s).1 = .ok selected := by
  refine ⟨?_, ?_⟩
  · rw [(gives_selectMethodByDispatchArgs h).outcome_fst hs]
    exact optimal_chosen score holder target name args methods
  · rintro before method after rfl hnone s' hs' selected
    have hwithout : Finds jni floats find nameOf I score holder.jclass target name args
        (before ++ after) := by
      intro other hother
      refine h other ?_
      rw [List.mem_append, List.mem_cons]
      rcases List.mem_append.1 hother with hother | hother
      · exact .inl hother
      · exact .inr (.inr hother)
    rw [(gives_selectMethodByDispatchArgs h).outcome_fst hs,
      (gives_selectMethodByDispatchArgs hwithout).outcome_fst hs']
    rw [chosen_eq_ok_iff, chosen_eq_ok_iff, Selection.select_insert hnone]

end Spec

section Example

/-- The class of the object `4`, an instance of the classes that are found. -/
def itemName : ClassName Unit Nat := fun _ _ ↦ (.ok "app.Item", ())

def findBase : FindClass Unit Nat := fun _ _ _ ↦ (.ok 3, ())

def setMethod (id : BitVec 64) (arguments : List JavaType) : MethodMetadata :=
  ⟨"set", .instanceMethod, ⟨arguments, .void⟩, 0, id⟩

/-- The overloads of `set`. -/
def setMethods : List MethodMetadata :=
  [setMethod 1 [.long, .object "java/lang/Object"], setMethod 2 [.int],
    setMethod 3 [.int, .object "java/lang/Object"], setMethod 4 [.int, .object "app/Base"],
    setMethod 5 [.int, .object "app/Other"]]

/-- The scores of `7` and of the object `4`. -/
def setScore : JavaOverloadArg Nat × JavaType → Option Int
  | (.value (.int _), .int) => some 0
  | (.value (.int _), .long) => some 10
  | (.value (.object _), .object name) => some (if name = "java/lang/Object" then 30 else 10)
  | _ => none

theorem finds_setMethods : Finds throwingJni bitFloats findBase itemName
    (fun s ↦ s = .entry () none) setScore 1 .boundMethod "set"
    [.value (.int 7), .value (.object (some 4))] setMethods := by
  intro method hmethod _ _ p hp
  rintro s rfl
  simp only [setMethods, List.mem_cons, List.not_mem_nil, or_false] at hmethod
  rcases hmethod with rfl | rfl | rfl | rfl | rfl <;>
    simp only [setMethod, List.zip_cons_cons, List.zip_nil_right, List.mem_cons, List.not_mem_nil,
      or_false] at hp
  · rcases hp with rfl | rfl <;> exact ⟨rfl, by decide +kernel⟩
  · subst hp
    exact ⟨rfl, rfl⟩
  all_goals
    rcases hp with rfl | rfl <;> exact ⟨rfl, by decide +kernel⟩

/-- The overload for an `app.Base` is the first of the two with the least sum. -/
theorem optimalDispatch_setMethods :
    (outcome (selectMethodByDispatchArgs throwingJni bitFloats findBase itemName ⟨1, "app.Box"⟩
      .boundMethod "set" [.value (.int 7), .value (.object (some 4))] setMethods)
      (.entry () none)).1 = .ok (setMethod 4 [.int, .object "app/Base"]) ∧
    Optimal setScore ⟨1, "app.Box"⟩ .boundMethod "set"
      [.value (.int 7), .value (.object (some 4))] setMethods
      (.ok (setMethod 4 [.int, .object "app/Base"])) := by
  have hrun : (outcome (selectMethodByDispatchArgs throwingJni bitFloats findBase itemName
      ⟨1, "app.Box"⟩ .boundMethod "set" [.value (.int 7), .value (.object (some 4))] setMethods)
      (.entry () none)).1 = .ok (setMethod 4 [.int, .object "app/Base"]) := by decide +kernel
  refine ⟨hrun, ?_⟩
  rw [← hrun]
  exact (optimalDispatch ⟨1, "app.Box"⟩ finds_setMethods rfl).1

end Example

end JavaBridge.Overload

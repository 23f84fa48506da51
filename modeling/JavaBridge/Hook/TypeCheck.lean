import JavaBridge.Hook.ArgumentCheck
import JavaBridge.Hook.Recovery

/-!
# Type checks of references

Which references a hook of the safe interface hands to Java are instances of the declared classes.

Main results:

* `returnsChecked`: a reference that an invocation returns is an instance of the return class.
* `typeChecked`: beside that, `call_original` treats an argument list as `JavaMethod::call` does where
  the list is passable, and only there if the runtime serves the call.
-/

namespace JavaBridge.Hook

open Fallible Thread ClosureReplacementState

variable {ω R M α : Type} (jni : Jni ω R M) (floats : Floats) (display : Error R → String)
  (find : FindClass ω R)

/-! ## Returns -/

/-- The callback installed for a hook of the safe interface. `returnClass` is what
`install_method_hook` has resolved. -/
def installedCallback (displayRef : R → String) (hook : ClosureReplacementState R)
    (returnClass : Option R) (callback : HookCallback ω R M) : Callback ω R M :=
  match hook.kind with
  | .constructor => constructorHook floats hook.signature.returnType callback
  | .instanceMethod | .staticMethod =>
    methodHook jni displayRef returnClass hook.signature.returnType callback

/-- What installing a hook has established. -/
structure Installed (hook : ClosureReplacementState R) (returnClass : Option R) : Prop where
  /-- `validate_constructor_hook_abi`. -/
  constructor : hook.kind = .constructor → hook.signature.returnType = .void
  resolved : ∃ s t : Thread ω R M,
    outcome (resolveReferenceReturnClass find hook.targetClass hook.signature.returnType) s =
      (.ok returnClass, t)

/-- What an invocation that starts in `s` does with the references that its callback returns. -/
structure ReturnsChecked (h : Hierarchy R) (hook : ClosureReplacementState R) (closing : Bool)
    (env : Option Unit) (target : Option R) (arguments : List (JavaValue R))
    (installed : Callback ω R M) (callback : HookCallback ω R M) (s : Thread ω R M) : Prop where
  passed : ∀ object, (outcome (hook.invoke jni display closing env target arguments installed) s).1 =
    .ok (.object (some object)) → h.IsA hook.targetClass hook.signature.returnType object
  rejected : closing = false → ∀ frame t u object,
    outcome (CallbackLocalFrame.push jni env) s = (.ok frame, t) →
    outcome (callback ⟨hook, env, target, arguments⟩) t = (.ok (.object (some object)), u) →
    ¬h.IsA hook.targetClass hook.signature.returnType object →
    ∃ v, outcome (hook.invoke jni display closing env target arguments installed) s =
        (.ok hook.defaultReturn, v) ∧
      v.lastError.isSome = true

section Returns

variable {jni floats display find} {h : Hierarchy R} {s : Thread ω R M}
  {hook : ClosureReplacementState R} {returnClass : Option R} {displayRef : R → String}
  {callback : HookCallback ω R M}

theorem intoRaw_eq_object {value : JavaValue R} {reference : Option R} :
    JavaHookReturn.intoRaw value = .object reference ↔ value = .object reference := by
  cases value <;> simp [JavaHookReturn.intoRaw]

theorem matchesType_object {reference : Option R} {type : JavaType} :
    (RawJavaReturn.object reference).matchesType type = type.isReference := by
  cases type <;> rfl

theorem Installed.declared (hobeys : Obeys jni find h)
    (hinstalled : Installed (ω := ω) (M := M) find hook returnClass)
    (hreference : hook.signature.returnType.isReference = true) :
    ∃ found, returnClass = some found ∧
      h.declared hook.targetClass hook.signature.returnType = .ok found := by
  obtain ⟨s, t, hresolved⟩ := hinstalled.resolved
  have hclass := (wp_of_outcome hresolved).1 (wp_resolveReferenceReturnClass hobeys)
  simpa only [if_pos hreference] using hclass

/-- A reference that gets through a method hook's check is an instance of the return class. -/
theorem wp_validateReferenceReturn_installed (hobeys : Obeys jni find h)
    (hinstalled : Installed (ω := ω) (M := M) find hook returnClass) {env : Option Unit}
    {value : JavaValue R} :
    wp (validateReferenceReturn jni displayRef env returnClass hook.signature.returnType value)
      (fun value' _ ↦ value' = value ∧
        (hook.signature.returnType.isReference = true → ∀ object, value = .object (some object) →
          h.IsA hook.targetClass hook.signature.returnType object))
      (fun _ _ ↦ True) s := by
  cases returnClass with
  | none =>
    refine ⟨rfl, fun hreference ↦ ?_⟩
    obtain ⟨_, hnone, -⟩ := hinstalled.declared hobeys hreference
    cases hnone
  | some returnClass =>
    by_cases hvalue : ∃ object, value = .object (some object)
    · obtain ⟨object, rfl⟩ := hvalue
      refine wp_mono (wp_validateReferenceReturn hobeys) ?_ fun _ _ _ ↦ trivial
      rintro _ _ ⟨rfl, hinstance⟩
      refine ⟨rfl, fun hreference object' hobject ↦ ?_⟩
      obtain ⟨found, hsome, hfound⟩ := hinstalled.declared hobeys hreference
      obtain rfl := Option.some.inj hsome
      obtain rfl := Option.some.inj (JavaValue.object.inj hobject)
      exact ⟨_, hfound, hinstance⟩
    · unfold validateReferenceReturn
      split
      · exact absurd ⟨_, rfl⟩ hvalue
      · exact ⟨rfl, fun _ object hobject ↦ absurd ⟨object, hobject⟩ hvalue⟩

/-- If the value handed on is of the lane of the return type, references are instances of the return
class: the callback's own, with the result `r`, and the one handed on. -/
def ReturnFits (h : Hierarchy R) (hook : ClosureReplacementState R)
    (r : Except (Failure R) (JavaValue R)) (raw : RawJavaReturn (Option R)) : Prop :=
  raw.matchesType hook.signature.returnType = true → ∀ object,
    r = .ok (.object (some object)) ∨ raw = .object (some object) →
      h.IsA hook.targetClass hook.signature.returnType object

theorem wp_methodHook (hobeys : Obeys jni find h)
    (hinstalled : Installed (ω := ω) (M := M) find hook returnClass)
    {invocation : ReplacementInvocation R} {r : Except (Failure R) (JavaValue R)} {t : Thread ω R M}
    (hcallback : outcome (callback invocation) s = (r, t)) :
    wp (methodHook jni displayRef returnClass hook.signature.returnType callback invocation)
      (fun raw _ ↦ ReturnFits h hook r raw) (fun _ _ ↦ True) s := by
  rw [methodHook, wp_bind, wp_of_outcome hcallback]
  cases r with
  | error e => trivial
  | ok value =>
    simp only [wp_bind, wp_adaptExcept, wp_pure]
    refine wp_mono (wp_validateReferenceReturn_installed hobeys hinstalled) ?_ fun _ _ _ ↦ trivial
    rintro value _ ⟨rfl, hvalue⟩ hlane object hobject
    have hobject : value = .object (some object) :=
      hobject.elim (fun h ↦ Except.ok.inj h) intoRaw_eq_object.1
    rw [hobject, intoRaw_eq_object.2 rfl, matchesType_object] at hlane
    exact hvalue hlane object hobject

/-- A constructor's callback hands no reference on. -/
theorem wp_constructorHook (hvoid : hook.signature.returnType = .void)
    {invocation : ReplacementInvocation R} {r : Except (Failure R) (JavaValue R)} {t : Thread ω R M}
    (hcallback : outcome (callback invocation) s = (r, t)) :
    wp (constructorHook floats hook.signature.returnType callback invocation)
      (fun raw _ ↦ ReturnFits h hook r raw) (fun _ _ ↦ True) s := by
  rw [constructorHook, wp_bind, wp_of_outcome hcallback]
  cases r with
  | error e => trivial
  | ok value =>
    simp only [wp_bind, wp_ofExcept, wp_pure]
    refine ⟨fun value' hvalue' hlane object hobject ↦ ?_, fun _ _ ↦ trivial⟩
    have hcoerce := mapError_eq_ok.1 (mapError_eq_ok.1 hvalue')
    have hobject : JavaHookReturn.intoRaw value' = .object (some object) := by
      rcases hobject with hvalue | hraw
      · obtain rfl := Except.ok.inj hvalue
        exact intoRaw_eq_object.2 (coerceJavaValue_object hcoerce)
      · exact hraw
    rw [hobject, hvoid] at hlane
    cases hlane

theorem wp_installedCallback (hobeys : Obeys jni find h)
    (hinstalled : Installed (ω := ω) (M := M) find hook returnClass)
    {invocation : ReplacementInvocation R} {r : Except (Failure R) (JavaValue R)} {t : Thread ω R M}
    (hcallback : outcome (callback invocation) s = (r, t)) :
    wp (installedCallback jni floats displayRef hook returnClass callback invocation)
      (fun raw _ ↦ ReturnFits h hook r raw) (fun _ _ ↦ True) s := by
  cases hkind : hook.kind <;> simp only [installedCallback, hkind]
  · exact wp_constructorHook (hinstalled.constructor hkind) hcallback
  · exact wp_methodHook hobeys hinstalled hcallback
  · exact wp_methodHook hobeys hinstalled hcallback

/-- A reference that is carried into the frame below is one to an instance of the same classes. -/
theorem eq_object_of_promoted (hobeys : Obeys jni find h) {frame : Option CallbackLocalFrame}
    {world : ω} {raw : RawJavaReturn (Option R)} {object : R}
    (hpromoted : promoted jni frame world raw = .object (some object)) :
    ∃ object', raw = .object (some object') ∧ h.isInstance object = h.isInstance object' := by
  cases raw with
  | object reference =>
    rcases frame with _ | ⟨_ | _⟩
    · exact ⟨object, hpromoted, rfl⟩
    · exact ⟨object, hpromoted, rfl⟩
    · have hpop := RawJavaReturn.object.inj hpromoted
      cases reference with
      | none =>
        rw [hobeys.popLocalFrame_none] at hpop
        cases hpop
      | some object' => exact ⟨object', rfl, hobeys.popLocalFrame _ _ _ hpop⟩
  | _ => cases hpromoted

theorem returned_eq_default {frame : Option CallbackLocalFrame} {world : ω}
    {result : Except (Failure R) (RawJavaReturn (Option R))} (h : ¬Accepted hook result) :
    returned jni hook frame world result = hook.defaultReturn := by
  cases result with
  | error _ => rfl
  | ok value => exact if_neg fun hlane ↦ h ⟨value, rfl, hlane⟩

theorem defaultReturn_ne_object (object : R) : hook.defaultReturn ≠ .object (some object) := by
  unfold ClosureReplacementState.defaultReturn
  cases hook.signature.returnType <;> exact nofun

theorem wp_invoke_installedCallback (hobeys : Obeys jni find h) (hthrow : jni.ThrowSucceeds)
    (hinstalled : Installed (ω := ω) (M := M) find hook returnClass) {closing : Bool}
    {env : Option Unit} {target : Option R} {arguments : List (JavaValue R)} :
    wp (hook.invoke jni display closing env target arguments
        (installedCallback jni floats displayRef hook returnClass callback))
      (fun value _ ↦ ∀ object, value = .object (some object) →
        h.IsA hook.targetClass hook.signature.returnType object)
      (fun _ _ ↦ True) s := by
  refine ClosureReplacementState.wp_invoke hthrow (fun t _ object hobject ↦ ?_) ?_
  · exact absurd hobject (defaultReturn_ne_object object)
  · intro frame t result u v _ hresult _ _ object hobject
    by_cases haccepted : Accepted hook result
    · obtain ⟨raw, rfl, hlane⟩ := haccepted
      rw [returned, if_pos hlane] at hobject
      obtain ⟨object', rfl, hsame⟩ := eq_object_of_promoted hobeys hobject
      have hfits := (wp_of_outcome hresult).1 (wp_installedCallback hobeys hinstalled rfl)
      obtain ⟨found, hfound, hinstance⟩ := hfits hlane object' (.inr rfl)
      exact ⟨found, hfound, hsame ▸ hinstance⟩
    · rw [returned_eq_default haccepted] at hobject
      exact absurd hobject (defaultReturn_ne_object object)

theorem wp_invoke_rejected (hobeys : Obeys jni find h) (hthrow : jni.ThrowSucceeds)
    (hinstalled : Installed (ω := ω) (M := M) find hook returnClass) {env : Option Unit}
    {target : Option R} {arguments : List (JavaValue R)} {frame : Option CallbackLocalFrame}
    {t u : Thread ω R M} {object : R}
    (hpush : outcome (CallbackLocalFrame.push jni env) s = (.ok frame, t))
    (hcallback : outcome (callback ⟨hook, env, target, arguments⟩) t =
      (.ok (.object (some object)), u))
    (hnot : ¬h.IsA hook.targetClass hook.signature.returnType object) :
    wp (hook.invoke jni display false env target arguments
        (installedCallback jni floats displayRef hook returnClass callback))
      (fun value v ↦ value = hook.defaultReturn ∧ v.lastError.isSome = true)
      (fun _ _ ↦ False) s := by
  refine ClosureReplacementState.wp_invoke hthrow (fun v hv ↦ ⟨rfl, hv rfl⟩) ?_
  intro frame' t' result u' v hpush' hresult _ herror
  obtain ⟨-, rfl⟩ := Prod.mk.inj (hpush.symm.trans hpush')
  have hrejected : ¬Accepted hook result := by
    rintro ⟨raw, rfl, hlane⟩
    have hfits := (wp_of_outcome hresult).1 (wp_installedCallback hobeys hinstalled hcallback)
    exact hnot (hfits hlane object (.inl rfl))
  exact ⟨returned_eq_default hrejected, herror hrejected⟩

/-- A reference that an invocation returns is an instance of the return class; where the callback has
returned another, the invocation records an error and returns the default. -/
theorem returnsChecked (hobeys : Obeys jni find h) (hthrow : jni.ThrowSucceeds)
    (hinstalled : Installed (ω := ω) (M := M) find hook returnClass) (closing : Bool)
    (env : Option Unit) (target : Option R) (arguments : List (JavaValue R)) :
    ReturnsChecked jni display h hook closing env target arguments
      (installedCallback jni floats displayRef hook returnClass callback) callback s := by
  constructor
  · intro object hobject
    exact (wp_of_outcome (Prod.ext hobject rfl)).1
      (wp_invoke_installedCallback hobeys hthrow hinstalled) object rfl
  · rintro rfl frame t u object hpush hcallback hnot
    rcases hr : outcome (hook.invoke jni display false env target arguments
      (installedCallback jni floats displayRef hook returnClass callback)) s with ⟨e | value, v⟩ <;>
      have hrun := (wp_of_outcome hr).1
        (wp_invoke_rejected hobeys hthrow hinstalled hpush hcallback hnot)
    · exact hrun.elim
    · obtain ⟨rfl, herror⟩ := hrun
      exact ⟨v, rfl, herror⟩

end Returns

/-! ## Both -/

section TypeChecked

variable {jni find} {h : Hierarchy R} {hook : ClosureReplacementState R} {returnClass : Option R}

/-- `call_original` treats passable arguments as `JavaMethod::call` does, and no others if the runtime
serves the call. What an invocation returns is checked. -/
theorem typeChecked (hobeys : Obeys jni find h) (hthrow : jni.ThrowSucceeds)
    (hinstalled : Installed (ω := ω) (M := M) find hook returnClass)
    (hsignature : hook.signature.WellFormed) (fromHookReturn : JavaValue R → JniM ω R M α)
    (hconverts : Converts fromHookReturn) (env : Option Unit) (target : Option R)
    (arguments : List (JavaValue R)) :
    (∀ args s,
      (Passable floats h hook args →
        ArgumentsChecked jni floats display find h fromHookReturn ⟨hook, env, target, arguments⟩
          args s) ∧
      (Serves jni ⟨hook, env, target, arguments⟩ →
        ReplacementInvocation.Ready ⟨hook, env, target, arguments⟩ → s.pending = none →
        ArgumentsChecked jni floats display find h fromHookReturn ⟨hook, env, target, arguments⟩
          args s →
        Passable floats h hook args)) ∧
    ∀ (displayRef : R → String) (callback : HookCallback ω R M) closing s,
      ReturnsChecked jni display h hook closing env target arguments
        (installedCallback jni floats displayRef hook returnClass callback) callback s := by
  refine ⟨fun args s ↦ ⟨fun hpassable ↦ ?_, fun hserves hready hs hchecked ↦ ?_⟩, ?_⟩
  · exact argumentsChecked_of_passable hobeys hthrow hsignature hconverts hpassable
  · exact passable_of_argumentsChecked hobeys hthrow hserves hready hconverts hs hchecked
  · intro displayRef callback closing s
    exact returnsChecked hobeys hthrow hinstalled closing env target arguments

end TypeChecked

/-! ## A reference of the wrong class -/

/-- A runtime with the string `5` and the object `4` of another class. Its methods return normally. -/
def stringJni : Jni Unit Nat Nat :=
  { throwingJni with
    callMethodA := returning
    callStaticMethodA := returning
    callNonvirtualVoidMethodA := fun _ _ ↦ ((), none, ())
    isInstanceOf := fun object _ _ ↦ (object == 5, none, ()) }
where
  returning {κ : Type} : CallFamily Unit Nat κ :=
    { void := fun _ _ ↦ ((), none, ()), boolean := fun _ _ ↦ (0, none, ())
      byte := fun _ _ ↦ (0, none, ()), char := fun _ _ ↦ (0, none, ())
      short := fun _ _ ↦ (0, none, ()), int := fun _ _ ↦ (0, none, ())
      long := fun _ _ ↦ (0, none, ()), float := fun _ _ ↦ (0, none, ())
      double := fun _ _ ↦ (0, none, ()), object := fun _ _ ↦ (some 5, none, ()) }

/-- `String` is the class `3`, and the only one looked up. -/
def stringHierarchy : Hierarchy Nat := ⟨fun _ _ ↦ .ok 3, fun object _ ↦ object == 5⟩

def findString : FindClass Unit Nat := fun _ _ _ ↦ (.ok 3, ())

/-- A hook of `static String m(String)`, entered on the class `1`. -/
def stringHook : ClosureReplacementState Nat :=
  ⟨1, .staticMethod, "m", ⟨[.object "java/lang/String"], .object "java/lang/String"⟩, none⟩

section Example

theorem obeys_string : Obeys stringJni findString stringHierarchy where
  find_name _ _ _ _ := rfl
  find_descriptor _ _ _ _ := rfl
  isInstanceOf _ _ _ := rfl
  newStringUtf _ _ _ h _ _ _ := ⟨3, rfl, by cases h; rfl⟩
  popLocalFrame _ _ _ h := by cases h; rfl
  popLocalFrame_none _ := rfl

theorem serves_string : Serves stringJni ⟨stringHook, some (), some 1, []⟩ where
  newStringUtf _ _ := ⟨_, _, rfl⟩
  constructor := nofun
  instanceMethod := nofun
  staticMethod _ _ _ _ := ⟨_, _, rfl⟩

theorem wellFormed_stringHook : stringHook.signature.WellFormed where
  arguments ty hty := by
    obtain rfl := List.mem_singleton.1 hty
    exact ⟨by decide +kernel, by decide +kernel⟩
  returnType := .inr ⟨by decide +kernel, by decide +kernel⟩

theorem installed_stringHook : Installed (ω := Unit) (M := Nat) findString stringHook (some 3) :=
  ⟨nofun, .entry () none, .entry () none, rfl⟩

theorem ready_stringHook : ReplacementInvocation.Ready ⟨stringHook, some (), some 1, []⟩ where
  env := rfl
  target := nofun
  name := by decide +kernel
  descriptor := by decide +kernel
  signature := wellFormed_stringHook
  returnType := nofun

/-- The object `4` goes to the original. `JavaMethod::call` rejects it. -/
theorem object_not_argumentsChecked :
    ¬ArgumentsChecked stringJni bitFloats (fun _ ↦ "") findString stringHierarchy pure
      ⟨stringHook, some (), some 1, []⟩ [.value (.object (some 4))] (.entry () none) := by
  intro h
  obtain ⟨_, t, hr, hcalls⟩ := h.rejected
    (.invalidArgumentType 0 "Ljava/lang/String;" "object") (by decide +kernel) trivial
  have hmade : (outcome (JavaHookContext.callOriginal stringJni bitFloats (fun _ ↦ "") pure
      ⟨stringHook, some (), some 1, []⟩ [.value (.object (some 4))]) (.entry () none)).2.calls =
      [.static ⟨1, 7, [.object (some 4)]⟩] := by decide +kernel
  rw [hr, hcalls] at hmade
  cases hmade

/-- The string `5` goes to the original and comes back. -/
theorem typeChecked_string :
    ArgumentsChecked stringJni bitFloats (fun _ ↦ "") findString stringHierarchy pure
      ⟨stringHook, some (), some 1, []⟩ [.value (.object (some 5))] (.entry () none) ∧
    Passable bitFloats stringHierarchy stringHook [.value (.object (some 5))] ∧
    ReturnsChecked stringJni (fun _ ↦ "") stringHierarchy stringHook false (some ()) (some 1) []
      (installedCallback stringJni bitFloats (fun _ ↦ "") stringHook (some 3)
        fun _ ↦ pure (.object (some 4)))
      (fun _ ↦ pure (.object (some 4))) (.entry () none) := by
  obtain ⟨harguments, hreturns⟩ := typeChecked bitFloats (fun _ ↦ "") obeys_string
    (fun _ _ ↦ rfl) installed_stringHook wellFormed_stringHook pure (fun _ _ ↦ wp_pure.2 rfl)
    (some ()) (some 1) []
  have hchecked := (harguments [.value (.object (some 5))] (.entry () none)).1 <| .inr <| by
    intro p hp
    obtain rfl := List.mem_singleton.1 hp
    intro object hobject
    obtain rfl := Option.some.inj (JavaValue.object.inj hobject)
    exact ⟨3, rfl, rfl⟩
  exact ⟨hchecked, (harguments _ _).2 serves_string ready_stringHook rfl hchecked, hreturns _ _ _ _⟩

end Example

end JavaBridge.Hook

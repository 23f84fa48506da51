import JavaBridge.Hook.References

/-!
# Arguments of original calls

`JavaMethod::call` checks the class of each reference argument. `JavaHookContext::call_original` only
coerces its arguments to the lanes of the parameters: a reference of any class goes to the original.

Main results:

* `callsOriginal_callOriginal`: a list that is not refused for its lanes reaches the original.
* `argumentsChecked_of_passable`, `passable_of_argumentsChecked`: `call_original` treats a list as
  `JavaMethod::call` does exactly when it is refused for its lanes or every reference in it is an
  instance of its class.
-/

namespace JavaBridge.Hook

open Fallible Thread

variable {ω R M α : Type} (jni : Jni ω R M) (floats : Floats) (display : Error R → String)
  (find : FindClass ω R)

/-! ## Argument lists -/

/-- The argument does not fit the lane of the parameter. -/
def RefusedArg : JavaOverloadArg R × JavaType → Prop
  | (.value value, expected) => ∃ e, coerceJavaValue floats value expected = .error e
  | (.rustString text, expected) => acceptsRustString expected = false ∨ '\x00' ∈ text.toList

/-- The arguments do not fit the lanes of the parameters. -/
def Refused (args : List (JavaOverloadArg R)) (expected : List JavaType) : Prop :=
  args.length ≠ expected.length ∨ ∃ p ∈ args.zip expected, RefusedArg floats p

/-- A reference that is handed over for a parameter is an instance of its class. -/
def Hierarchy.Assignable (h : Hierarchy R) (holder : R) : JavaOverloadArg R × JavaType → Prop
  | (.value value, expected) => h.Fits holder value expected
  | (.rustString _, _) => True

section Prepared

variable {jni floats find} {h : Hierarchy R} {holder : R}

theorem coerceJavaValue_object {reference : Option R} {expected : JavaType} {value : JavaValue R}
    (h : coerceJavaValue floats (.object reference) expected = .ok value) :
    value = .object reference := by
  unfold coerceJavaValue at h
  split at h
  · exact (Except.ok.inj h).symm
  · cases h

theorem PreparedFrom.not_refusedArg {value : JavaValue R} {p : JavaOverloadArg R × JavaType}
    (hp : PreparedFrom jni floats value p) : ¬RefusedArg floats p := by
  cases hp with
  | value h =>
    rintro ⟨e, he⟩
    rw [h] at he
    cases he
  | rustString haccepts hnul _ =>
    rintro (hnot | hmem)
    · rw [haccepts] at hnot
      cases hnot
    · exact hnul hmem

theorem PreparedFrom.fits_iff (hobeys : Obeys jni find h) {value : JavaValue R}
    {p : JavaOverloadArg R × JavaType} (hp : PreparedFrom jni floats value p) :
    h.Fits holder value p.2 ↔ h.Assignable holder p := by
  cases hp with
  | value hv =>
    constructor
    · rintro hfits object rfl
      exact hfits object (coerceJavaValue_object hv)
    · rintro hassignable object rfl
      exact hassignable object (coerceJavaValue_eq_object hv)
  | @rustString text expected world string haccepts _ hstring =>
    refine ⟨fun _ ↦ trivial, ?_⟩
    rintro - object hobject
    obtain rfl := Option.some.inj (JavaValue.object.inj hobject)
    exact hobeys.newStringUtf text world _ hstring holder expected haccepts

/-- Arguments that were prepared are not refused. -/
theorem not_refusedArg_of_prepared {values : List (JavaValue R)}
    {args : List (JavaOverloadArg R × JavaType)}
    (hvalues : List.Forall₂ (PreparedFrom jni floats) values args) :
    ∀ p ∈ args, ¬RefusedArg floats p := by
  induction hvalues with
  | nil => exact List.forall_mem_nil _
  | cons hp _ ih => exact List.forall_mem_cons.2 ⟨hp.not_refusedArg, ih⟩

theorem not_refused_of_prepared {values : List (JavaValue R)} {args : List (JavaOverloadArg R)}
    {expected : List JavaType} (hlength : args.length = expected.length)
    (hvalues : List.Forall₂ (PreparedFrom jni floats) values (args.zip expected)) :
    ¬Refused floats args expected := by
  rintro (hne | ⟨p, hp, hrefused⟩)
  · exact hne hlength
  · exact not_refusedArg_of_prepared hvalues p hp hrefused

/-- The prepared values fit their parameters exactly when the arguments do. -/
theorem forall₂_fits_iff (hobeys : Obeys jni find h) {values : List (JavaValue R)}
    {args : List (JavaOverloadArg R × JavaType)}
    (hvalues : List.Forall₂ (PreparedFrom jni floats) values args) :
    List.Forall₂ (h.Fits holder) values (args.map Prod.snd) ↔ ∀ p ∈ args, h.Assignable holder p := by
  induction hvalues with
  | nil => simp
  | cons hp _ ih =>
    rw [List.map_cons, List.forall₂_cons, List.forall_mem_cons, ih, hp.fits_iff hobeys]

theorem fits_iff_of_prepared (hobeys : Obeys jni find h) {values : List (JavaValue R)}
    {args : List (JavaOverloadArg R)} {expected : List JavaType}
    (hlength : args.length = expected.length)
    (hvalues : List.Forall₂ (PreparedFrom jni floats) values (args.zip expected)) :
    List.Forall₂ (h.Fits holder) values expected ↔
      ∀ p ∈ args.zip expected, h.Assignable holder p := by
  rw [← forall₂_fits_iff hobeys hvalues, List.map_snd_zip (Nat.le_of_eq hlength.symm)]

end Prepared

/-! ## Preparing arguments that are not refused -/

/-- `NewStringUTF` succeeds. -/
def Jni.MakesStrings : Prop :=
  ∀ text world, ∃ string world', jni.newStringUtf text world = (some string, none, world')

section Preparing

variable {jni floats display find}

/-- What preparing one argument keeps, preparing them all keeps. -/
theorem keeps_prepareEach {I : Thread ω R M → Prop} {B : Error R → Prop}
    {args : List (JavaOverloadArg R × JavaType)}
    (hargs : ∀ p ∈ args, ∀ index,
      Keeps I B (fun _ ↦ True) (p.1.intoJavaCallArg jni floats p.2 index))
    (prepared : PreparedJavaCallArgs R) (index : Nat) :
    Keeps I B (fun _ ↦ True) (prepareEach jni floats prepared index args) := by
  induction args generalizing prepared index with
  | nil => exact .pure trivial
  | cons p args ih =>
    obtain ⟨hp, hargs⟩ := List.forall_mem_cons.1 hargs
    exact (hp index).onError.bind fun arg _ ↦ ih hargs (prepared.push arg) (index + 1)

theorem keeps_prepareCallArgs {I : Thread ω R M → Prop} {B : Error R → Prop}
    {args : List (JavaOverloadArg R)} {expected : List JavaType}
    (hlength : args.length = expected.length)
    (hargs : ∀ p ∈ args.zip expected, ∀ index,
      Keeps I B (fun _ ↦ True) (p.1.intoJavaCallArg jni floats p.2 index)) :
    Keeps I B (fun _ ↦ True) (prepareCallArgs jni floats args expected) := by
  unfold prepareCallArgs
  rw [if_neg (not_not_intro hlength)]
  exact keeps_prepareEach hargs _ 0

theorem coerceJavaCallValue_of_not_refusedArg {value : JavaValue R} {expected : JavaType}
    (h : ¬RefusedArg floats (.value value, expected)) (index : Nat) :
    ∃ value', coerceJavaCallValue floats value expected index = .ok value' := by
  cases hvalue : coerceJavaValue floats value expected with
  | ok value' => exact ⟨value', by rw [coerceJavaCallValue, hvalue]; rfl⟩
  | error e => exact absurd ⟨e, hvalue⟩ h

/-- Preparing an argument that is not refused keeps what making a string keeps. -/
theorem keeps_intoJavaCallArg {I : Thread ω R M → Prop} {B : Error R → Prop}
    {p : JavaOverloadArg R × JavaType} (hp : ¬RefusedArg floats p)
    (hstring : ∀ text : String, '\x00' ∉ text.toList →
      Keeps I B (fun _ ↦ True) (newStringUtfRaw jni text)) (index : Nat) :
    Keeps I B (fun _ ↦ True) (p.1.intoJavaCallArg jni floats p.2 index) := by
  obtain ⟨value | text, expected⟩ := p
  · obtain ⟨value', hvalue⟩ := coerceJavaCallValue_of_not_refusedArg hp index
    refine Keeps.bind (A := fun _ ↦ True) (.ofExcept (fun _ _ ↦ trivial) fun e he ↦ ?_)
      fun value _ ↦ .pure trivial
    rw [hvalue] at he
    cases he
  · obtain ⟨haccepts, hnul⟩ := not_or.1 hp
    show Keeps I B _ (prepareCallRustString jni text expected index)
    unfold prepareCallRustString
    rw [if_neg (by simpa using haccepts)]
    exact (hstring text hnul).bind fun localRef _ ↦ .pure trivial

/-- Preparing a list that is not refused keeps what making a string keeps. -/
theorem keeps_prepareCallArgs_of_not_refused {I : Thread ω R M → Prop} {B : Error R → Prop}
    {args : List (JavaOverloadArg R)} {expected : List JavaType}
    (hrefused : ¬Refused floats args expected)
    (hstring : ∀ text : String, '\x00' ∉ text.toList →
      Keeps I B (fun _ ↦ True) (newStringUtfRaw jni text)) :
    Keeps I B (fun _ ↦ True) (prepareCallArgs jni floats args expected) := by
  obtain ⟨hlength, hargs⟩ := not_or.1 hrefused
  refine keeps_prepareCallArgs (not_not.1 hlength) fun p hp ↦ keeps_intoJavaCallArg ?_ hstring
  exact fun hrefused ↦ hargs ⟨p, hp, hrefused⟩

theorem keeps_newStringUtfRaw {text : String} (hnul : '\x00' ∉ text.toList) :
    Keeps (fun _ ↦ True) (fun e ↦ ¬IsArgumentError e) (fun _ ↦ True)
      (newStringUtfRaw jni text) := by
  intro s _
  simp only [newStringUtfRaw, cString, if_neg hnul, wp_bind, wp_pure, wp_run]
  refine wp_checkPendingException jni (fun _ ↦ ?_) fun _ _ _ _ ↦ id
  cases (jni.newStringUtf text s.world).1
  · exact id
  · exact ⟨trivial, trivial⟩

/-- `JavaMethod::call` does not find fault with arguments that are neither refused nor of a wrong
class. -/
theorem keeps_callArgs {h : Hierarchy R} (hobeys : Obeys jni find h) {holder : R}
    {signature : MethodSignature} {args : List (JavaOverloadArg R)}
    (hrefused : ¬Refused floats args signature.arguments)
    (hassignable : ∀ p ∈ args.zip signature.arguments, h.Assignable holder p) :
    Keeps (fun _ ↦ True) (fun e ↦ ¬IsArgumentError e) (fun _ ↦ True)
      (JavaMethod.callArgs jni floats find holder signature args) := by
  have hprepare : Keeps (fun _ ↦ True) (fun e ↦ ¬IsArgumentError e) (fun _ ↦ True)
      (prepareCallArgs jni floats args signature.arguments) :=
    keeps_prepareCallArgs_of_not_refused hrefused fun _ hnul ↦ keeps_newStringUtfRaw hnul
  refine (hprepare.and fun s ↦ wp_prepareCallArgs).bind fun prepared ⟨_, hlength, hvalues⟩ ↦ ?_
  have hfits := (fits_iff_of_prepared hobeys hlength hvalues).2 hassignable
  exact (keeps_validateReferenceCallArgs hobeys hfits).onError.bind fun _ _ ↦ .pure trivial

end Preparing

/-! ## Reaching the original -/

namespace Thread

/-- Nothing is pending and these calls of originals have been made. -/
def Clear (calls : List (Call R M)) (s : Thread ω R M) : Prop := s.pending = none ∧ s.calls = calls

end Thread

/-- From any state with nothing pending, the program calls an original. -/
def CallsOriginal (x : JniM ω R M α) : Prop :=
  ∀ s, s.pending = none →
    wp x (fun _ t ↦ s.calls.length < t.calls.length) (fun _ t ↦ s.calls.length < t.calls.length) s

section CallsOriginal

variable {jni floats display} {β : Type} {calls : List (Call R M)}

namespace CallsOriginal

theorem bind {x : JniM ω R M α} {f : α → JniM ω R M β} {A : α → Prop}
    (hx : ∀ calls, Keeps (Clear calls) (fun _ ↦ False) A x)
    (hf : ∀ a, A a → CallsOriginal (f a)) : CallsOriginal (x >>= f) := by
  intro s hs
  rw [wp_bind]
  refine wp_mono (hx s.calls s ⟨hs, rfl⟩) (fun a t ⟨⟨hpending, hcalls⟩, ha⟩ ↦ ?_) fun _ _ h ↦ h.elim
  have := hf a ha t hpending
  rwa [hcalls] at this

theorem followed {x : JniM ω R M α} {f : α → JniM ω R M β} (hx : CallsOriginal x)
    (hf : ∀ a s, wp (f a) (fun _ t ↦ t.calls = s.calls) (fun _ t ↦ t.calls = s.calls) s) :
    CallsOriginal (x >>= f) := by
  intro s hs
  rw [wp_bind]
  refine wp_mono (hx s hs) (fun a t ht ↦ ?_) fun _ _ ht ↦ ht
  refine wp_mono (hf a t) (fun _ u hu ↦ ?_) fun _ u hu ↦ ?_ <;> rwa [hu]

theorem defer {cleanup : Thread ω R M → Thread ω R M}
    (hc : ∀ t : Thread ω R M, t.Passed (cleanup t)) {x : JniM ω R M α} (hx : CallsOriginal x) :
    CallsOriginal (defer cleanup x) := by
  intro s hs
  rw [wp_defer]
  refine wp_mono (hx s hs) (fun _ t ht ↦ ?_) fun _ t ht ↦ ?_ <;> rwa [(hc t).calls]

/-- A lookup that succeeds, and the check after it. -/
theorem lookup {f : Native ω R (Option β)} {operation : String} {B : β → Prop}
    (hf : ∀ world, ∃ b world', f world = (some b, none, world') ∧ B b)
    {rest : Option β → JniM ω R M α} (hrest : ∀ b, B b → CallsOriginal (rest (some b))) :
    CallsOriginal (do let b ← f.run; checkPendingExceptionRaw jni operation; rest b) := by
  intro s hs
  obtain ⟨b, world', hb, hB⟩ := hf s.world
  simp only [wp_bind, wp_run, hb]
  refine wp_checkPendingExceptionRaw jni (fun hnone ↦ ?_) fun hsome ↦ absurd ?_ hsome
  · exact hrest b hB (s.after f) hnone
  · rw [pending_after, hb, hs]
    rfl

/-- A lookup of which nothing more is known than that it succeeds. -/
theorem lookup_some {f : Native ω R (Option β)} {operation : String}
    (hf : ∀ world, ∃ b world', f world = (some b, none, world'))
    {rest : Option β → JniM ω R M α} (hrest : ∀ b, CallsOriginal (rest (some b))) :
    CallsOriginal (do let b ← f.run; checkPendingExceptionRaw jni operation; rest b) := by
  refine lookup (B := fun _ ↦ True) (fun world ↦ ?_) fun b _ ↦ hrest b
  obtain ⟨b, world', hb⟩ := hf world
  exact ⟨b, world', hb, trivial⟩

end CallsOriginal

theorem keeps_cString {text : String} (hnul : '\x00' ∉ text.toList) (I : Thread ω R M → Prop) :
    Keeps I (fun _ ↦ False) (fun result ↦ result = text) (cString text) := by
  unfold cString
  rw [if_neg hnul]
  exact .pure rfl

theorem keeps_newStringUtfRaw_of_makesStrings (hstrings : jni.MakesStrings) {text : String}
    (hnul : '\x00' ∉ text.toList) :
    Keeps (Clear calls) (fun _ ↦ False) (fun _ ↦ True) (newStringUtfRaw jni text) := by
  refine (keeps_cString hnul _).bind ?_
  rintro text rfl s ⟨hpending, hcalls⟩
  obtain ⟨string, world', hstring⟩ := hstrings text s.world
  simp only [wp_bind, wp_run]
  have hnone : (s.after (jni.newStringUtf text)).pending = none := by
    rw [pending_after, hstring, hpending]
    rfl
  rw [checkPendingException, wp_bind, wp_exceptionCheckRaw, hnone]
  rw [hstring]
  exact ⟨⟨hnone, hcalls⟩, trivial⟩

/-- The check after the call of an original. -/
theorem wp_checkCalled (hthrow : jni.ThrowSucceeds) {operation : String} {a : α} {n : Nat}
    {t : Thread ω R M} (ht : n < t.calls.length) :
    wp (do checkPendingExceptionPreserveRaw jni display operation; pure a)
      (fun _ u ↦ n < u.calls.length) (fun _ u ↦ n < u.calls.length) t := by
  rw [wp_bind]
  refine wp_checkPendingExceptionPreserveRaw hthrow (fun _ ↦ ht) fun _ u hu _ _ ↦ ?_
  rwa [hu.calls]

theorem callsOriginal_callByReturn (hthrow : jni.ThrowSucceeds) {κ : Type}
    {family : CallFamily ω R κ} {toCall : κ → Call R M} {call : κ} {returnType : JavaType}
    {operation : String} :
    CallsOriginal (do
      let result ← callByReturn family toCall call returnType
      checkPendingExceptionPreserveRaw jni display operation
      pure result) := by
  intro s _
  rw [wp_bind]
  refine wp_callByReturn fun v t calls _ ↦ wp_checkCalled hthrow ?_
  rw [calls, List.length_append]
  exact Nat.lt_succ_self _

theorem keeps_prepareOriginalCallArgsForEnv (hstrings : jni.MakesStrings) {signature : MethodSignature}
    (hsignature : signature.WellFormed) {args : List (JavaOverloadArg R)}
    (hrefused : ¬Refused floats args signature.arguments) (calls : List (Call R M)) :
    Keeps (Clear calls) (fun _ ↦ False) (fun result ↦ result.1 = signature)
      (prepareOriginalCallArgsForEnv jni floats signature.descriptor args) := by
  refine Keeps.bind (A := fun parsed ↦ parsed = signature) ?_ ?_
  · rw [MethodSignature.parse_descriptor hsignature]
    exact .pure rfl
  · rintro signature rfl
    have hprepare : Keeps (Clear calls) (fun _ ↦ False) (fun _ ↦ True)
        (prepareCallArgs jni floats args signature.arguments) :=
      keeps_prepareCallArgs_of_not_refused hrefused
        fun _ hnul ↦ keeps_newStringUtfRaw_of_makesStrings hstrings hnul
    exact hprepare.bind fun _ _ ↦ .pure rfl

/-- An invocation whose hook's method can be looked up by name and descriptor. -/
structure ReplacementInvocation.Ready (invocation : ReplacementInvocation R) : Prop where
  env : invocation.env = some ()
  target : invocation.target ≠ none
  name : '\x00' ∉ invocation.state.name.toList
  descriptor : '\x00' ∉ invocation.state.signature.descriptor.toList
  signature : invocation.state.signature.WellFormed
  returnType : invocation.state.kind = .constructor → invocation.state.signature.returnType = .void

/-- `GetMethodID` finds the method of this name and descriptor in the class. -/
def Jni.FindsMethod (jni : Jni ω R M) (holder : R) (name signature : String) : Prop :=
  ∀ world, ∃ method world', jni.getMethodId holder name signature world = (some method, none, world')

/-- `GetStaticMethodID` finds the method of this name and descriptor in the class. -/
def Jni.FindsStaticMethod (jni : Jni ω R M) (holder : R) (name signature : String) : Prop :=
  ∀ world, ∃ method world',
    jni.getStaticMethodId holder name signature world = (some method, none, world')

/-- What comes before the call of this invocation's original succeeds: making the strings, and looking
up the hooked method. -/
structure Serves (jni : Jni ω R M) (invocation : ReplacementInvocation R) : Prop where
  newStringUtf : jni.MakesStrings
  constructor : invocation.state.kind = .constructor →
    jni.FindsMethod invocation.state.targetClass "<init>" invocation.state.signature.descriptor
  /-- In the class of the receiver. -/
  instanceMethod : invocation.state.kind = .instanceMethod → ∀ receiver ∈ invocation.target,
    ∀ world, ∃ jclass world', jni.getObjectClass receiver world = (some jclass, none, world') ∧
      jni.FindsMethod jclass invocation.state.name invocation.state.signature.descriptor
  /-- In the class that the hook is entered on. -/
  staticMethod : invocation.state.kind = .staticMethod → ∀ holder ∈ invocation.target,
    jni.FindsStaticMethod holder invocation.state.name invocation.state.signature.descriptor

variable {name : String} {signature : MethodSignature} {args : List (JavaOverloadArg R)}

/-- Arguments that are not refused are prepared. -/
theorem CallsOriginal.prepared (hstrings : jni.MakesStrings) (hsignature : signature.WellFormed)
    (hrefused : ¬Refused floats args signature.arguments)
    {rest : MethodSignature × PreparedJavaCallArgs R → JniM ω R M α}
    (hrest : ∀ prepared, CallsOriginal (rest (signature, prepared))) :
    CallsOriginal (prepareOriginalCallArgsForEnv jni floats signature.descriptor args >>= rest) := by
  refine .bind (keeps_prepareOriginalCallArgsForEnv hstrings hsignature hrefused) ?_
  rintro ⟨_, prepared⟩ rfl
  exact hrest prepared

/-- The name and the descriptor of a lookup, neither with a NUL. -/
theorem CallsOriginal.named {descriptor : String} (hname : '\x00' ∉ name.toList)
    (hdescriptor : '\x00' ∉ descriptor.toList) {rest : String → String → JniM ω R M α}
    (hrest : CallsOriginal (rest name descriptor)) :
    CallsOriginal (do
      let name ← cString name
      let descriptor ← cString descriptor
      rest name descriptor) := by
  refine .bind (fun _ ↦ keeps_cString hname _) ?_
  rintro _ rfl
  refine .bind (fun _ ↦ keeps_cString hdescriptor _) ?_
  rintro _ rfl
  exact hrest

theorem callsOriginal_static (hthrow : jni.ThrowSucceeds) (hstrings : jni.MakesStrings)
    (hname : '\x00' ∉ name.toList) (hdescriptor : '\x00' ∉ signature.descriptor.toList)
    (hsignature : signature.WellFormed) (hrefused : ¬Refused floats args signature.arguments)
    {holder : R} (hmethod : jni.FindsStaticMethod holder name signature.descriptor) :
    CallsOriginal (callOriginalStaticMethod jni floats display (some ()) (some holder) name
      signature.descriptor args) := by
  refine CallsOriginal.bind (A := fun _ ↦ True) (fun _ ↦ .pure trivial) fun _ _ ↦ ?_
  refine .prepared hstrings hsignature hrefused fun prepared ↦ ?_
  refine .defer (fun t ↦ .deleteLocalRefs _ t) ?_
  refine .named hname hdescriptor ?_
  refine .lookup_some hmethod fun method ↦ ?_
  exact callsOriginal_callByReturn hthrow

theorem callsOriginal_instance (hthrow : jni.ThrowSucceeds) (hstrings : jni.MakesStrings)
    (hname : '\x00' ∉ name.toList) (hdescriptor : '\x00' ∉ signature.descriptor.toList)
    (hsignature : signature.WellFormed) (hrefused : ¬Refused floats args signature.arguments)
    {receiver : R} (hclass : ∀ world, ∃ jclass world',
      jni.getObjectClass receiver world = (some jclass, none, world') ∧
      jni.FindsMethod jclass name signature.descriptor) :
    CallsOriginal (callOriginalInstanceMethod jni floats display (some ()) (some receiver) name
      signature.descriptor args) := by
  refine CallsOriginal.bind (A := fun _ ↦ True) (fun _ ↦ .pure trivial) fun _ _ ↦ ?_
  refine .lookup hclass fun jclass hmethod ↦ ?_
  refine .defer (fun t ↦ .deleteLocalRef _ t) ?_
  refine .prepared hstrings hsignature hrefused fun prepared ↦ ?_
  refine .defer (fun t ↦ .deleteLocalRefs _ t) ?_
  refine .named hname hdescriptor ?_
  refine .lookup_some hmethod fun method ↦ ?_
  exact callsOriginal_callByReturn hthrow

theorem callsOriginal_constructor (hthrow : jni.ThrowSucceeds) (hstrings : jni.MakesStrings)
    (hdescriptor : '\x00' ∉ signature.descriptor.toList) (hsignature : signature.WellFormed)
    (hvoid : signature.returnType = .void) (hrefused : ¬Refused floats args signature.arguments)
    (receiver : R) {declaringClass : R}
    (hmethod : jni.FindsMethod declaringClass "<init>" signature.descriptor) :
    CallsOriginal (callOriginalConstructorMethod jni floats display (some ()) (some receiver)
      declaringClass signature.descriptor args) := by
  refine CallsOriginal.bind (A := fun _ ↦ True) (fun _ ↦ .pure trivial) fun _ _ ↦ ?_
  refine .prepared hstrings hsignature hrefused fun prepared ↦ ?_
  refine .defer (fun t ↦ .deleteLocalRefs _ t) ?_
  rw [if_neg (not_not_intro hvoid)]
  refine .named (by decide +kernel) hdescriptor ?_
  refine .lookup_some hmethod fun method ↦ ?_
  intro s _
  rw [wp_bind, wp_invoke]
  refine wp_checkCalled hthrow ?_
  simp [Event.call?]

/-- An argument list that is not refused reaches the original, whatever the classes in it. -/
theorem callsOriginal_callOriginal (hthrow : jni.ThrowSucceeds)
    {invocation : ReplacementInvocation R} (hserves : Serves jni invocation)
    (hready : invocation.Ready)
    (hrefused : ¬Refused floats args invocation.state.signature.arguments) :
    CallsOriginal (invocation.callOriginal jni floats display args) := by
  obtain ⟨henv, htarget, hname, hdescriptor, hsignature, hvoid⟩ := hready
  obtain ⟨target, htarget⟩ := Option.ne_none_iff_exists'.1 htarget
  unfold ReplacementInvocation.callOriginal
  rw [henv, htarget]
  cases hkind : invocation.state.kind with
  | constructor =>
    exact callsOriginal_constructor hthrow hserves.newStringUtf hdescriptor hsignature (hvoid hkind)
      hrefused target (hserves.constructor hkind)
  | instanceMethod =>
    exact callsOriginal_instance hthrow hserves.newStringUtf hname hdescriptor hsignature hrefused
      (hserves.instanceMethod hkind target htarget)
  | staticMethod =>
    exact callsOriginal_static hthrow hserves.newStringUtf hname hdescriptor hsignature hrefused
      (hserves.staticMethod hkind target htarget)

end CallsOriginal

/-! ## Arguments of `call_original` -/

/-- The list is refused for its lanes, or every reference in it is an instance of the class of its
parameter. -/
def Passable (h : Hierarchy R) (state : ClosureReplacementState R)
    (args : List (JavaOverloadArg R)) : Prop :=
  Refused floats args state.signature.arguments ∨
    ∀ p ∈ args.zip state.signature.arguments, h.Assignable state.targetClass p

/-- A run of `call_original` that starts in `s` treats the arguments as `JavaMethod::call` does. -/
structure ArgumentsChecked (h : Hierarchy R) (fromHookReturn : JavaValue R → JniM ω R M α)
    (invocation : ReplacementInvocation R) (args : List (JavaOverloadArg R)) (s : Thread ω R M) :
    Prop where
  /-- The references that a call of the original hands over are instances of their classes. -/
  passed : ∀ call ∈ (outcome (JavaHookContext.callOriginal jni floats display fromHookReturn
      invocation args) s).2.calls.drop s.calls.length,
    List.Forall₂ (h.Fits invocation.state.targetClass) call.args invocation.state.signature.arguments
  /-- What `JavaMethod::call` rejects fails without a call. -/
  rejected : ∀ e, (outcome (JavaMethod.callArgs jni floats find invocation.state.targetClass
      invocation.state.signature args) s).1 = .error e → IsArgumentError e →
    ∃ e' t, outcome (JavaHookContext.callOriginal jni floats display fromHookReturn invocation args)
      s = (.error e', t) ∧ t.calls = s.calls

/-- The conversion of a returned value calls no original. -/
def Converts (fromHookReturn : JavaValue R → JniM ω R M α) : Prop :=
  ∀ value s, wp (fromHookReturn value) (fun _ t ↦ t.calls = s.calls) (fun _ t ↦ t.calls = s.calls) s

section Arguments

variable {jni floats display find} {h : Hierarchy R} {s : Thread ω R M}
  {invocation : ReplacementInvocation R} {args : List (JavaOverloadArg R)}
  {fromHookReturn : JavaValue R → JniM ω R M α}

/-- The thread has called an original with arguments prepared from the list. -/
def CalledWith (jni : Jni ω R M) (floats : Floats) (signature : MethodSignature)
    (args : List (JavaOverloadArg R)) (s t : Thread ω R M) : Prop :=
  ∃ call, t.calls = s.calls ++ [call] ∧ args.length = signature.arguments.length ∧
    List.Forall₂ (PreparedFrom jni floats) call.args (args.zip signature.arguments)

/-- `call_original` calls an original once, with prepared arguments, or fails without a call. -/
theorem wp_callOriginal (hthrow : jni.ThrowSucceeds)
    (hsignature : invocation.state.signature.WellFormed) (hconverts : Converts fromHookReturn) :
    wp (JavaHookContext.callOriginal jni floats display fromHookReturn invocation args)
      (fun _ t ↦ CalledWith jni floats invocation.state.signature args s t)
      (fun _ t ↦ CalledWith jni floats invocation.state.signature args s t ∨ t.calls = s.calls)
      s := by
  have hcalled {call : Call R M} {t : Thread ω R M} (hcalls : t.calls = s.calls ++ [call])
      (hprepared : Prepared jni floats invocation.state.signature.descriptor args call.args) :
      CalledWith jni floats invocation.state.signature args s t := by
    obtain ⟨parsed, hparsed, hprepared⟩ := hprepared
    rw [MethodSignature.parse_descriptor hsignature] at hparsed
    obtain rfl := Except.ok.inj hparsed
    exact ⟨call, hcalls, hprepared⟩
  simp only [JavaHookContext.callOriginal, JavaHookContext.callOriginalRaw, wp_bind, wp_pure]
  refine wp_mono (calls_callOriginal hthrow invocation args s) (fun value t ht ↦ ?_) fun e t ht ↦ ?_
  · cases ht with
    | returned call hprepared _ hcalls _ _ =>
      have ht := hcalled hcalls hprepared
      refine wp_mono (hconverts _ t) (fun _ u hu ↦ ?_) fun _ u hu ↦ .inl ?_ <;>
        rwa [CalledWith, hu]
  · cases ht with
    | threw call hprepared _ hcalls _ _ => exact .inl (hcalled hcalls hprepared)
    | failed hfailed => exact .inr hfailed.calls

theorem CalledWith.not_refused {t : Thread ω R M}
    (h : CalledWith jni floats invocation.state.signature args s t) :
    ¬Refused floats args invocation.state.signature.arguments := by
  obtain ⟨call, -, hlength, hvalues⟩ := h
  exact not_refused_of_prepared hlength hvalues

/-- The references that the call has handed over are of their classes exactly when those of the list
are. -/
theorem CalledWith.fits_iff (hobeys : Obeys jni find h) {holder : R} {signature : MethodSignature}
    {t : Thread ω R M} (hcalled : CalledWith jni floats signature args s t) :
    (∀ call ∈ t.calls.drop s.calls.length,
        List.Forall₂ (h.Fits holder) call.args signature.arguments) ↔
      ∀ p ∈ args.zip signature.arguments, h.Assignable holder p := by
  obtain ⟨call, hcalls, hlength, hvalues⟩ := hcalled
  rw [hcalls, List.drop_left, ← fits_iff_of_prepared hobeys hlength hvalues]
  simp

/-- A refused list gets no further than being prepared. -/
theorem failed_of_refused (hthrow : jni.ThrowSucceeds)
    (hsignature : invocation.state.signature.WellFormed) (hconverts : Converts fromHookReturn)
    (hrefused : Refused floats args invocation.state.signature.arguments) :
    ∃ e t, outcome (JavaHookContext.callOriginal jni floats display fromHookReturn invocation args)
      s = (.error e, t) ∧ t.calls = s.calls := by
  rcases hr : outcome (JavaHookContext.callOriginal jni floats display fromHookReturn invocation
    args) s with ⟨e | value, t⟩ <;>
    have hrun := (wp_of_outcome hr).1 (wp_callOriginal hthrow hsignature hconverts)
  · exact ⟨e, t, rfl, hrun.resolve_left fun h ↦ h.not_refused hrefused⟩
  · exact absurd hrefused hrun.not_refused

/-- In every run the call of an original comes of the list, or there is none. -/
theorem calledWith_or_calls_eq (hthrow : jni.ThrowSucceeds)
    (hsignature : invocation.state.signature.WellFormed) (hconverts : Converts fromHookReturn) :
    CalledWith jni floats invocation.state.signature args s
        (outcome (JavaHookContext.callOriginal jni floats display fromHookReturn invocation args)
          s).2 ∨
      (outcome (JavaHookContext.callOriginal jni floats display fromHookReturn invocation args)
        s).2.calls = s.calls :=
  wp_iff_outcome (P := fun _ t ↦ CalledWith jni floats invocation.state.signature args s t ∨
    t.calls = s.calls).1
    (wp_mono (wp_callOriginal hthrow hsignature hconverts) (fun _ _ ↦ .inl) fun _ _ ↦ id)

/-- Passable arguments are treated as `JavaMethod::call` treats them. -/
theorem argumentsChecked_of_passable (hobeys : Obeys jni find h) (hthrow : jni.ThrowSucceeds)
    (hsignature : invocation.state.signature.WellFormed) (hconverts : Converts fromHookReturn)
    (hpassable : Passable floats h invocation.state args) :
    ArgumentsChecked jni floats display find h fromHookReturn invocation args s := by
  by_cases hrefused : Refused floats args invocation.state.signature.arguments
  · obtain ⟨e, t, hr, hcalls⟩ : ∃ e t, outcome (JavaHookContext.callOriginal jni floats display
        fromHookReturn invocation args) s = (.error e, t) ∧ t.calls = s.calls :=
      failed_of_refused hthrow hsignature hconverts hrefused
    refine ⟨?_, fun _ _ _ ↦ ⟨e, t, hr, hcalls⟩⟩
    rw [hr, hcalls, List.drop_length]
    exact List.forall_mem_nil _
  · have hassignable := hpassable.resolve_left hrefused
    constructor
    · rcases calledWith_or_calls_eq hthrow hsignature hconverts with hcalled | hcalls
      · exact (hcalled.fits_iff hobeys).2 hassignable
      · rw [hcalls, List.drop_length]
        exact List.forall_mem_nil _
    · intro e he hargument
      have hcall := (wp_of_outcome (Prod.ext he rfl)).1
        (keeps_callArgs hobeys hrefused hassignable s trivial)
      exact absurd hargument hcall

/-- With the runtime behind it, `call_original` hands over whatever is not refused. -/
theorem passable_of_argumentsChecked (hobeys : Obeys jni find h) (hthrow : jni.ThrowSucceeds)
    (hserves : Serves jni invocation) (hready : invocation.Ready) (hconverts : Converts fromHookReturn)
    (hs : s.pending = none)
    (hchecked : ArgumentsChecked jni floats display find h fromHookReturn invocation args s) :
    Passable floats h invocation.state args := by
  by_cases hrefused : Refused floats args invocation.state.signature.arguments
  · exact .inl hrefused
  · have hraw : CallsOriginal
        (JavaHookContext.callOriginalRaw jni floats display invocation args) :=
      (callsOriginal_callOriginal hthrow hserves hready hrefused).followed
        fun value s ↦ wp_pure.2 rfl
    have hmore := wp_iff_outcome (P := fun _ (t : Thread ω R M) ↦ s.calls.length < t.calls.length).1
      (hraw.followed hconverts s hs)
    refine .inr ((CalledWith.fits_iff hobeys (Or.resolve_right
      (calledWith_or_calls_eq hthrow hready.signature hconverts) fun hcalls ↦ ?_)).1 hchecked.passed)
    exact Nat.lt_irrefl _ (hcalls ▸ hmore)

end Arguments

end JavaBridge.Hook

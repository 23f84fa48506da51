import JavaBridge.Hook.TypeCheck
import JavaBridge.Library.ClassTree
import JavaBridge.Library.Machine

/-!
# The managed stack of a hooked thread

One thread of the runtime with hooked instance methods, as a machine. Its managed stack is a list of
fragments, one for each time that native code has called into Java, and each fragment is a list of
frames, the top one first. A frame runs a method's own body or, on the method's clone, the callback
of a hook. Who is entered by a call of a hooked method is decided by the frame that the current
fragment is linked to.

`call_original` looks the method up again from the receiver's class and calls it virtually. What it
enters is the method's own body only where no class below the declaring one overrides the method.

Main results:

* `placed_of_reachable`: in every reachable state each frame is of a method that its receiver's class
  declares or inherits.
* `runsOwnBody_iff`: in every reachable state, a `call_original` runs the hooked method's own body
  exactly when the method is not overridden below its class.
-/

namespace JavaBridge.Hook

open Fallible Thread

variable {ω R : Type}

/-! ## Classes -/

/-- A method id of an instance method. -/
structure MethodId (R : Type) where
  holder : R
  name : String
  descriptor : String
  deriving DecidableEq

/-- The classes of the runtime, what they declare, and the classes of its objects. -/
structure Classes (R : Type) where
  tree : ClassTree R
  classOf : (object : R) → R
  declares : (jclass : R) → (name descriptor : String) → Bool

namespace Classes

variable (classes : Classes R)

/-- The method that is found from the class upwards. -/
def find (jclass : R) (name descriptor : String) : Option (MethodId R) :=
  (classes.tree.nearest (classes.declares · name descriptor) jclass).map (⟨·, name, descriptor⟩)

/-- The method that a JNI call of an instance method runs. -/
def dispatch : Call R (MethodId R) → Option (MethodId R)
  | .virtual call => classes.find (classes.classOf call.receiver) call.method.name call.method.descriptor
  | .nonvirtual call => some call.method
  | .static _ => none

/-- The method is one that the object's class declares or inherits. -/
def Has (object : R) (method : MethodId R) : Prop :=
  classes.declares method.holder method.name method.descriptor = true ∧
    method.holder ∈ classes.tree.ancestors (classes.classOf object)

instance [DecidableEq R] (object : R) (method : MethodId R) : Decidable (classes.Has object method) :=
  inferInstanceAs (Decidable (_ ∧ _))

/-- No class from the object's up to the method's, which is left out, declares the method again. -/
def NotOverridden [DecidableEq R] (object : R) (method : MethodId R) : Prop :=
  ∀ jclass ∈ classes.tree.below (classes.classOf object) method.holder,
    classes.declares jclass method.name method.descriptor = false

/-- The JNI looks up classes and methods as they are. -/
structure Follows (jni : Jni ω R (MethodId R)) : Prop where
  getObjectClass : ∀ object world, ∃ world',
    jni.getObjectClass object world = (some (classes.classOf object), none, world')
  getMethodId : ∀ jclass name descriptor method, classes.find jclass name descriptor = some method →
    ∀ world, ∃ world', jni.getMethodId jclass name descriptor world = (some method, none, world')

variable {classes} {object jclass : R} {name descriptor : String} {method : MethodId R}

theorem name_eq_of_find (h : classes.find jclass name descriptor = some method) :
    method.name = name ∧ method.descriptor = descriptor := by
  obtain ⟨holder, -, rfl⟩ := Option.map_eq_some_iff.1 h
  exact ⟨rfl, rfl⟩

theorem has_of_find (hclass : jclass ∈ classes.tree.ancestors (classes.classOf object))
    (h : classes.find jclass name descriptor = some method) : classes.Has object method := by
  obtain ⟨holder, hnearest, rfl⟩ := Option.map_eq_some_iff.1 h
  refine ⟨(ClassTree.declares_of_nearest hnearest :), ?_⟩
  exact ClassTree.mem_ancestors_trans hclass (ClassTree.mem_ancestors_of_nearest hnearest)

/-- The method is the one found from the object's class exactly when it is not overridden. -/
theorem find_eq_some_iff [DecidableEq R] (h : classes.Has object method) :
    classes.find (classes.classOf object) method.name method.descriptor = some method ↔
      classes.NotOverridden object method := by
  have hnearest : classes.tree.nearest (classes.declares · method.name method.descriptor)
      (classes.classOf object) = some method.holder ↔ _ := ClassTree.nearest_eq_some_iff h.2
  rw [find, Option.map_eq_some_iff]
  constructor
  · rintro ⟨holder, hfound, heq⟩
    obtain rfl := congrArg MethodId.holder heq
    exact (hnearest.1 hfound).2
  · exact fun hnot ↦ ⟨method.holder, hnearest.2 ⟨h.1, hnot⟩, rfl⟩

theorem exists_find (h : classes.Has object method) : ∃ found,
    classes.find (classes.classOf object) method.name method.descriptor = some found := by
  refine Option.ne_none_iff_exists'.1 fun hnone ↦ ?_
  have hnearest : classes.tree.nearest (classes.declares · method.name method.descriptor)
      (classes.classOf object) ≠ none := ClassTree.nearest_ne_none h.2 h.1
  exact hnearest (Option.map_eq_none_iff.1 hnone)

end Classes

/-! ## Stacks -/

/-- A managed frame of an instance method. -/
structure Frame (R : Type) where
  method : MethodId R
  receiver : R
  /-- The frame is one of the method's clone, which runs the callback of the method's hook. -/
  clone : Bool
  deriving DecidableEq

/-- The fragments of a thread's managed stack, the current one first. -/
abbrev ManagedStack (R : Type) := List (List (Frame R))

namespace ManagedStack

def top (s : ManagedStack R) : Option (Frame R) := s.head?.bind List.head?

/-- The body that runs on top, the frames below it in its fragment, and the fragments that this one is
linked to. -/
def running : ManagedStack R → Option (Frame R × List (Frame R) × ManagedStack R)
  | (f :: fs) :: rest => if f.clone then none else some (f, fs, rest)
  | _ => none

/-- The stack once the frame on top has returned. -/
def leave : ManagedStack R → Option (ManagedStack R)
  | (_ :: []) :: rest => some rest
  | (_ :: f :: fs) :: rest => some ((f :: fs) :: rest)
  | _ => none

theorem running_eq_some {s : ManagedStack R} {f : Frame R} {fs : List (Frame R)}
    {rest : ManagedStack R} (h : s.running = some (f, fs, rest)) : s = (f :: fs) :: rest := by
  rcases s with _ | ⟨_ | ⟨g, gs⟩, rest'⟩
  · cases h
  · cases h
  · rw [running] at h
    split at h
    · cases h
    · obtain ⟨rfl, rfl, rfl⟩ := Option.some.inj h
      rfl

end ManagedStack

/-- The hook of a method. -/
def hookOf [DecidableEq R] (hooks : List (ClosureReplacementState R)) (method : MethodId R) :
    Option (ClosureReplacementState R) :=
  hooks.find? fun hook ↦ hook.kind = .instanceMethod ∧ hook.targetClass = method.holder ∧
    hook.name = method.name ∧ hook.signature.descriptor = method.descriptor

/-- The frame that a call of the method enters, from a fragment that is linked to `link`: the dispatch
thunk of a hooked method goes to the clone unless the linked frame is the clone's. -/
def enter [DecidableEq R] (hooks : List (ClosureReplacementState R)) (link : Option (Frame R))
    (method : MethodId R) (receiver : R) : Frame R where
  method := method
  receiver := receiver
  clone := (hookOf hooks method).isSome && !link.any fun f ↦ f.clone && f.method == method

/-! ## The machine -/

inductive StackStep (ω R : Type)
  /-- The body on top calls a method of an object. -/
  | invokeVirtual (object : R) (name descriptor : String)
  /-- The body on top calls a method of its class's parent on its own receiver. -/
  | invokeSuper (name descriptor : String)
  /-- Native code, a callback among it, calls an instance method through the JNI. -/
  | jni (call : Call R (MethodId R))
  /-- The callback on top calls the original, from this state of the thread. -/
  | callOriginal (args : List (JavaOverloadArg R)) (thread : Thread ω R (MethodId R))
  | leave

section Machine

variable [DecidableEq R] (classes : Classes R) (hooks : List (ClosureReplacementState R))
  (jni : Jni ω R (MethodId R)) (floats : Floats) (display : Error R → String)

/-- The stack once native code on it has called a method. -/
def nativeCall (s : ManagedStack R) (call : Call R (MethodId R)) : Option (ManagedStack R) :=
  match call with
  | .virtual made =>
    (classes.dispatch call).map fun method ↦ [enter hooks s.top method made.receiver] :: s
  | .nonvirtual made =>
    if classes.Has made.receiver made.method then
      some ([enter hooks s.top made.method made.receiver] :: s)
    else none
  | .static _ => none

/-- What `call_original` leaves, made by the callback of the hook on the receiver. -/
def afterCallOriginal (hook : ClosureReplacementState R) (receiver : R)
    (args : List (JavaOverloadArg R)) (thread : Thread ω R (MethodId R)) :
    Thread ω R (MethodId R) :=
  (outcome (ReplacementInvocation.callOriginal jni floats display
    ⟨hook, some (), some receiver, []⟩ args) thread).2

/-- The JNI call that `call_original` makes in the callback that runs on the frame, if it makes one. -/
def originalCall (f : Frame R) (args : List (JavaOverloadArg R))
    (thread : Thread ω R (MethodId R)) : Option (Call R (MethodId R)) :=
  if f.clone then
    (hookOf hooks f.method).bind fun hook ↦
      ((afterCallOriginal jni floats display hook f.receiver args thread).calls.drop
        thread.calls.length).head?
  else none

def stackStep (s : ManagedStack R) : StackStep ω R → Option (ManagedStack R)
  | .invokeVirtual object name descriptor => do
    let (f, fs, rest) ← s.running
    let method ← classes.find (classes.classOf object) name descriptor
    some ((enter hooks (ManagedStack.top rest) method object :: f :: fs) :: rest)
  | .invokeSuper name descriptor => do
    let (f, fs, rest) ← s.running
    let parent ← classes.tree.parent f.method.holder
    let method ← classes.find parent name descriptor
    some ((enter hooks (ManagedStack.top rest) method f.receiver :: f :: fs) :: rest)
  | .jni call => nativeCall classes hooks s call
  | .callOriginal args thread => do
    let f ← s.top
    let call ← originalCall hooks jni floats display f args thread
    nativeCall classes hooks s call
  | .leave => s.leave

def stackMachine : Machine (ManagedStack R) (StackStep ω R) where
  Init s := s = []
  step := stackStep classes hooks jni floats display

end Machine

section Invariant

variable {classes : Classes R} {hooks : List (ClosureReplacementState R)}
  {jni : Jni ω R (MethodId R)} {floats : Floats} {display : Error R → String} {s t : ManagedStack R}

/-- Every frame is of a method that its receiver's class declares or inherits. -/
def Placed (classes : Classes R) (s : ManagedStack R) : Prop :=
  ∀ fragment ∈ s, ∀ f ∈ fragment, classes.Has f.receiver f.method

theorem Placed.top {f : Frame R} (h : Placed classes s) (hf : s.top = some f) :
    classes.Has f.receiver f.method := by
  obtain ⟨fragment, hfragment, hhead⟩ := Option.bind_eq_some_iff.1 hf
  exact h fragment (List.mem_of_mem_head? hfragment) f (List.mem_of_mem_head? hhead)

theorem Placed.push {f : Frame R} {fragment : List (Frame R)} (h : Placed classes (fragment :: s))
    (hf : classes.Has f.receiver f.method) : Placed classes ((f :: fragment) :: s) := by
  obtain ⟨hfragment, hs⟩ := List.forall_mem_cons.1 h
  exact List.forall_mem_cons.2 ⟨List.forall_mem_cons.2 ⟨hf, hfragment⟩, hs⟩

theorem Placed.leave (h : Placed classes s) (hstep : s.leave = some t) : Placed classes t := by
  rcases s with _ | ⟨_ | ⟨f, _ | ⟨g, fs⟩⟩, rest⟩
  · cases hstep
  · cases hstep
  · obtain rfl := Option.some.inj hstep
    exact (List.forall_mem_cons.1 h).2
  · obtain rfl := Option.some.inj hstep
    obtain ⟨hfragment, hrest⟩ := List.forall_mem_cons.1 h
    exact List.forall_mem_cons.2 ⟨(List.forall_mem_cons.1 hfragment).2, hrest⟩

theorem Classes.Follows.find_eq (hfollows : classes.Follows jni) {object : R} {method : MethodId R}
    (hhas : classes.Has object method) {call : Call R (MethodId R)}
    (hcall : LooksUpVirtual jni (some object) method.name method.descriptor call) :
    ∃ found, classes.find (classes.classOf object) method.name method.descriptor = some found ∧
      call = .virtual ⟨object, found, call.args⟩ := by
  obtain ⟨_, jclass, made, world, world', hobject, hclass, hmethod, hcall⟩ := hcall
  obtain rfl := Option.some.inj hobject
  obtain ⟨_, hjclass⟩ := hfollows.getObjectClass object world
  rw [hjclass] at hclass
  obtain rfl := Option.some.inj hclass
  obtain ⟨found, hfound⟩ := Classes.exists_find hhas
  obtain ⟨_, hmade⟩ := hfollows.getMethodId _ _ _ found hfound world'
  rw [hmade] at hmethod
  obtain rfl := Option.some.inj hmethod
  exact ⟨found, hfound, hcall⟩

variable [DecidableEq R]

theorem Placed.nativeCall {call : Call R (MethodId R)} (h : Placed classes s)
    (hstep : nativeCall classes hooks s call = some t) : Placed classes t := by
  have hpush {f : Frame R} (hf : classes.Has f.receiver f.method) : Placed classes ([f] :: s) :=
    Placed.push (List.forall_mem_cons.2 ⟨List.forall_mem_nil _, h⟩) hf
  cases call with
  | «virtual» made =>
    obtain ⟨method, hmethod, rfl⟩ := Option.map_eq_some_iff.1 hstep
    exact hpush (Classes.has_of_find ClassTree.mem_ancestors_self hmethod)
  | nonvirtual made =>
    rw [Hook.nativeCall] at hstep
    split at hstep
    · next hhas =>
      obtain rfl := Option.some.inj hstep
      exact hpush hhas
    · cases hstep
  | static made => cases hstep

theorem Placed.step {l : StackStep ω R} (h : Placed classes s)
    (hstep : stackStep classes hooks jni floats display s l = some t) : Placed classes t := by
  cases l with
  | invokeVirtual object name descriptor =>
    obtain ⟨⟨f, fs, rest⟩, hrunning, hstep⟩ := Option.bind_eq_some_iff.1 hstep
    obtain ⟨method, hmethod, hstep⟩ := Option.bind_eq_some_iff.1 hstep
    obtain rfl := Option.some.inj hstep
    obtain rfl := ManagedStack.running_eq_some hrunning
    exact h.push (Classes.has_of_find ClassTree.mem_ancestors_self hmethod)
  | invokeSuper name descriptor =>
    obtain ⟨⟨f, fs, rest⟩, hrunning, hstep⟩ := Option.bind_eq_some_iff.1 hstep
    obtain ⟨parent, hparent, hstep⟩ := Option.bind_eq_some_iff.1 hstep
    obtain ⟨method, hmethod, hstep⟩ := Option.bind_eq_some_iff.1 hstep
    obtain rfl := Option.some.inj hstep
    obtain rfl := ManagedStack.running_eq_some hrunning
    have hf : classes.Has f.receiver f.method := h _ List.mem_cons_self _ List.mem_cons_self
    have hmem : parent ∈ classes.tree.ancestors (classes.classOf f.receiver) :=
      ClassTree.mem_ancestors_trans hf.2
        (ClassTree.mem_ancestors_of_parent hparent ClassTree.mem_ancestors_self)
    exact h.push (Classes.has_of_find hmem hmethod)
  | jni call => exact h.nativeCall hstep
  | callOriginal args thread =>
    obtain ⟨f, -, hstep⟩ := Option.bind_eq_some_iff.1 hstep
    obtain ⟨call, -, hstep⟩ := Option.bind_eq_some_iff.1 hstep
    exact h.nativeCall hstep
  | leave => exact h.leave hstep

/-- In every reachable state each frame is of a method that its receiver's class declares or
inherits. -/
theorem placed_of_reachable
    (h : (stackMachine (ω := ω) classes hooks jni floats display).Reachable s) :
    Placed classes s := by
  refine Machine.Reachable.invariant (I := Placed classes) ?_ (fun s l t ↦ Placed.step) h
  rintro s rfl
  exact List.forall_mem_nil _

/-! ## The original -/

theorem hookOf_eq_some {hook : ClosureReplacementState R} {method : MethodId R}
    (h : hookOf hooks method = some hook) : hook.kind = .instanceMethod ∧
      hook.targetClass = method.holder ∧ hook.name = method.name ∧
        hook.signature.descriptor = method.descriptor := by
  simpa using List.find?_some h

theorem callOriginal_eq {hook : ClosureReplacementState R} {method : MethodId R}
    (hhook : hookOf hooks method = some hook) (receiver : R) (args : List (JavaOverloadArg R)) :
    ReplacementInvocation.callOriginal jni floats display ⟨hook, some (), some receiver, []⟩ args =
      callOriginalInstanceMethod jni floats display (some ()) (some receiver) method.name
        method.descriptor args := by
  obtain ⟨hkind, -, hname, hdescriptor⟩ := hookOf_eq_some hhook
  rw [ReplacementInvocation.callOriginal, hkind, hname, hdescriptor]

/-- The call that `call_original` makes goes to the method found from the receiver's class. -/
theorem originalCall_eq_some (hthrow : jni.ThrowSucceeds) (hfollows : classes.Follows jni)
    {f : Frame R} (hf : classes.Has f.receiver f.method) {args : List (JavaOverloadArg R)}
    {thread : Thread ω R (MethodId R)} {call : Call R (MethodId R)}
    (h : originalCall hooks jni floats display f args thread = some call) :
    ∃ found, classes.find (classes.classOf f.receiver) f.method.name f.method.descriptor =
        some found ∧
      call = .virtual ⟨f.receiver, found, call.args⟩ := by
  unfold originalCall at h
  split at h
  · obtain ⟨hook, hhook, h⟩ := Option.bind_eq_some_iff.1 h
    have hcalls : Calls (LooksUpVirtual jni (some f.receiver) f.method.name f.method.descriptor)
        (callOriginalInstanceMethod jni floats display (some ()) (some f.receiver) f.method.name
          f.method.descriptor args) :=
      (calls_callOriginalInstanceMethod hthrow).mono fun _ hcall ↦ hcall.2
    rw [afterCallOriginal, callOriginal_eq hhook] at h
    rcases (wp_iff_outcome.1 (hcalls thread)).calls_eq with ⟨made, hmade, hcalls⟩ | hcalls
    · rw [hcalls, List.drop_left] at h
      obtain rfl := Option.some.inj h
      exact hfollows.find_eq hf hmade
    · rw [hcalls, List.drop_length] at h
      cases h
  · cases h

/-- A list that is not refused makes `call_original` call. -/
theorem originalCall_ne_none (hthrow : jni.ThrowSucceeds) (hfollows : classes.Follows jni)
    (hstrings : jni.MakesStrings) {f : Frame R} (hf : classes.Has f.receiver f.method)
    (hclone : f.clone = true) {hook : ClosureReplacementState R}
    (hhook : hookOf hooks f.method = some hook) {args : List (JavaOverloadArg R)}
    (hready : ReplacementInvocation.Ready ⟨hook, some (), some f.receiver, []⟩)
    (hrefused : ¬Refused floats args hook.signature.arguments) {thread : Thread ω R (MethodId R)}
    (hpending : thread.pending = none) :
    originalCall hooks jni floats display f args thread ≠ none := by
  obtain ⟨hkind, -, hname, hdescriptor⟩ := hookOf_eq_some hhook
  have hcalls : CallsOriginal (ReplacementInvocation.callOriginal jni floats display
      ⟨hook, some (), some f.receiver, []⟩ args) := by
    simp only [ReplacementInvocation.callOriginal, hkind]
    refine callsOriginal_instance hthrow hstrings hready.name hready.descriptor hready.signature
      hrefused fun world ↦ ?_
    obtain ⟨world', hclass⟩ := hfollows.getObjectClass f.receiver world
    obtain ⟨found, hfound⟩ := Classes.exists_find hf
    refine ⟨_, world', hclass, fun world ↦ ⟨found, ?_⟩⟩
    exact hfollows.getMethodId _ _ _ found (by rw [hname, hdescriptor]; exact hfound) world
  have hmore := wp_iff_outcome
    (P := fun _ (t : Thread ω R (MethodId R)) ↦ thread.calls.length < t.calls.length).1
    (hcalls thread hpending)
  rw [originalCall, if_pos hclone, hhook, Option.bind_some, afterCallOriginal]
  intro hnone
  exact Nat.not_le_of_lt hmore (List.drop_eq_nil_iff.1 (List.head?_eq_none_iff.1 hnone))

/-- On top of the clone's frame, the method's own body is entered. -/
theorem enter_of_linked {f : Frame R} (hclone : f.clone = true) (receiver : R) :
    enter hooks (some f) f.method receiver = ⟨f.method, receiver, false⟩ := by
  simp [enter, hclone]

/-- What a `call_original` that is made enters is found from the receiver's class. -/
theorem stackStep_callOriginal (hthrow : jni.ThrowSucceeds) (hfollows : classes.Follows jni)
    {f : Frame R} (htop : s.top = some f) (hf : classes.Has f.receiver f.method)
    {args : List (JavaOverloadArg R)} {thread : Thread ω R (MethodId R)} {call : Call R (MethodId R)}
    (hcall : originalCall hooks jni floats display f args thread = some call) :
    ∃ found, classes.find (classes.classOf f.receiver) f.method.name f.method.descriptor =
        some found ∧
      stackStep classes hooks jni floats display s (.callOriginal args thread) =
        some ([enter hooks (some f) found f.receiver] :: s) := by
  obtain ⟨found, hfound, hvirtual⟩ := originalCall_eq_some hthrow hfollows hf hcall
  obtain ⟨hname, hdescriptor⟩ := Classes.name_eq_of_find hfound
  refine ⟨found, hfound, ?_⟩
  simp only [stackStep, htop, Option.bind_eq_bind, Option.bind_some, hcall]
  -- The virtual call finds what the lookup before it has found.
  rw [hvirtual, nativeCall, Classes.dispatch, hname, hdescriptor, hfound, htop]
  rfl

/-- In every reachable state, a `call_original` runs the hooked method's own body exactly when the
method is not overridden below its class; and a call whose arguments are not refused is made. -/
theorem runsOwnBody_iff (hthrow : jni.ThrowSucceeds) (hfollows : classes.Follows jni)
    (hreach : (stackMachine (ω := ω) classes hooks jni floats display).Reachable s) {f : Frame R}
    (htop : s.top = some f) (hclone : f.clone = true) :
    (∀ args thread t,
      stackStep classes hooks jni floats display s (.callOriginal args thread) = some t →
      (t = [⟨f.method, f.receiver, false⟩] :: s ↔ classes.NotOverridden f.receiver f.method)) ∧
    (∀ hook args thread, hookOf hooks f.method = some hook → jni.MakesStrings →
      ReplacementInvocation.Ready ⟨hook, some (), some f.receiver, []⟩ →
      ¬Refused floats args hook.signature.arguments → thread.pending = none →
      ∃ t, stackStep classes hooks jni floats display s (.callOriginal args thread) = some t) := by
  have hf : classes.Has f.receiver f.method := (placed_of_reachable hreach).top htop
  constructor
  · intro args thread t hstep
    have hmade := hstep
    simp only [stackStep, htop, Option.bind_eq_bind, Option.bind_some] at hmade
    obtain ⟨call, hcall, -⟩ := Option.bind_eq_some_iff.1 hmade
    obtain ⟨found, hfound, heq⟩ := stackStep_callOriginal hthrow hfollows htop hf hcall
    obtain rfl := Option.some.inj (heq.symm.trans hstep)
    rw [← Classes.find_eq_some_iff hf, hfound]
    constructor
    · intro h
      exact congrArg (fun f ↦ some (Frame.method f)) (List.cons.inj (List.cons.inj h).1).1
    · intro h
      obtain rfl := Option.some.inj h
      rw [enter_of_linked hclone]
  · intro hook args thread hhook hstrings hready hrefused hpending
    have hmade : originalCall hooks jni floats display f args thread ≠ none :=
      originalCall_ne_none hthrow hfollows hstrings hf hclone hhook hready hrefused hpending
    obtain ⟨call, hcall⟩ := Option.ne_none_iff_exists'.1 hmade
    obtain ⟨found, -, heq⟩ := stackStep_callOriginal hthrow hfollows htop hf hcall
    exact ⟨_, heq⟩

end Invariant

/-! ## An override that calls its parent's method -/

/-- The classes `1` and its subclass `2`, which both declare `void m()`. The object `3` is of the
class `2`, and every other of the class `1`. -/
def overridingClasses : Classes Nat where
  tree := ⟨fun c ↦ if c = 2 then some 1 else none, fun c ↦ if c = 2 then 1 else 0, by grind⟩
  classOf object := if object = 3 then 2 else 1
  declares jclass name descriptor := (jclass == 1 || jclass == 2) && name == "m" && descriptor == "()V"

/-- A runtime with these classes, whose methods return normally. -/
def overridingJni : Jni Unit Nat (MethodId Nat) where
  getObjectClass object _ := (some (overridingClasses.classOf object), none, ())
  getMethodId jclass name descriptor _ := (overridingClasses.find jclass name descriptor, none, ())
  getStaticMethodId _ _ _ _ := (none, some 9, ())
  callMethodA := stringJni.returning
  callStaticMethodA := stringJni.returning
  callNonvirtualVoidMethodA _ _ := ((), none, ())
  isInstanceOf _ _ _ := (true, none, ())
  newStringUtf _ _ := (some 5, none, ())
  newGlobalRef object _ := (some object, none, ())
  getStringLength _ _ := (0, none, ())
  getStringChars _ _ := (some [], none, ())
  pushLocalFrame _ _ := (JNI_OK, none, ())
  popLocalFrame survivor _ := (survivor, ())
  throw _ _ := JNI_OK

/-- The hook of `m` in the class `1`. -/
def overriddenHook : ClosureReplacementState Nat := ⟨1, .instanceMethod, "m", ⟨[], .void⟩, none⟩

section Example

theorem follows_overridingJni : overridingClasses.Follows overridingJni where
  getObjectClass _ _ := ⟨(), rfl⟩
  getMethodId _ _ _ _ h _ := ⟨(), congrArg (fun found ↦ (found, none, ())) h⟩

/-- The machine of these classes with the hook. -/
def overridingMachine : Machine (ManagedStack Nat) (StackStep Unit Nat) :=
  stackMachine overridingClasses [overriddenHook] overridingJni bitFloats (fun _ ↦ "")

/-- Native code calls `m` on the object. Where its class overrides the method, the override calls its
parent's. -/
def callM (object : Nat) (overridden : Bool) : List (StackStep Unit Nat) :=
  .jni (.virtual ⟨object, ⟨1, "m", "()V"⟩, []⟩) ::
    if overridden then [.invokeSuper "m" "()V"] else []

/-- From the callback of `m` on the object `3`, `call_original` runs the override again. -/
theorem override_runs_again : ∃ s, overridingMachine.Reachable s ∧
    s.top = some ⟨⟨1, "m", "()V"⟩, 3, true⟩ ∧
    overridingMachine.step s (.callOriginal [] (.entry () none)) =
      some ([⟨⟨2, "m", "()V"⟩, 3, false⟩] :: s) := by
  have hrun : overridingMachine.run [] (callM 3 true) =
      some [[⟨⟨1, "m", "()V"⟩, 3, true⟩, ⟨⟨2, "m", "()V"⟩, 3, false⟩]] := by decide +kernel
  exact ⟨_, ⟨[], _, rfl, hrun⟩, rfl, by decide +kernel⟩

/-- On the object `4`, whose class does not override the method, it runs the method's own body. -/
theorem runsOwnBody_inherited :
    overridingMachine.step [[⟨⟨1, "m", "()V"⟩, 4, true⟩]] (.callOriginal [] (.entry () none)) =
      some [[⟨⟨1, "m", "()V"⟩, 4, false⟩], [⟨⟨1, "m", "()V"⟩, 4, true⟩]] := by
  have hrun : overridingMachine.run [] (callM 4 false) = some [[⟨⟨1, "m", "()V"⟩, 4, true⟩]] := by
    decide +kernel
  obtain ⟨hiff, hmade⟩ := runsOwnBody_iff (fun _ _ ↦ rfl) follows_overridingJni
    ⟨[], _, rfl, hrun⟩ rfl rfl
  obtain ⟨t, ht⟩ := hmade overriddenHook [] (.entry () none)
    (List.find?_cons_of_pos (by decide +kernel))
    (fun _ _ ↦ ⟨_, _, rfl⟩) ⟨rfl, nofun, by decide +kernel, by decide +kernel, ⟨nofun, .inl rfl⟩, nofun⟩
    (by rintro (h | ⟨p, hp, -⟩); exacts [h rfl, List.not_mem_nil hp]) rfl
  have hnot : overridingClasses.NotOverridden 4 ⟨1, "m", "()V"⟩ := by
    intro jclass hmem
    cases hmem
  exact ht.trans (congrArg some ((hiff _ _ t ht).2 hnot))

end Example

end JavaBridge.Hook

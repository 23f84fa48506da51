import JavaBridge.Library.Fallible
import JavaBridge.Value

/-!
# The JNI functions a hook calls

The JNI of one thread, from a native frame. The runtime stands outside the model: `Jni ω R M` holds
the functions of a `JNIEnv` table over an arbitrary runtime state `ω`, with raw references `R` and
method ids `M`. The model has what the functions do to the thread: its pending exception, and an
account of the calls of originals, of the references given back and of the local frames.
-/

namespace JavaBridge.Hook

variable {ω R M α : Type}

/-! ## Functions of the runtime -/

/-- What a JNI function does to the runtime: its result, the exception it raises, the runtime after
it. -/
abbrev Native (ω R α : Type) := ω → α × Option R × ω

/-- The arguments of `Call<Type>MethodA`. -/
structure InstanceCall (R M : Type) where
  receiver : R
  method : M
  args : List (JavaValue R)
  deriving DecidableEq

/-- The arguments of `CallStatic<Type>MethodA`. -/
structure StaticCall (R M : Type) where
  holder : R
  method : M
  args : List (JavaValue R)
  deriving DecidableEq

/-- The arguments of `CallNonvirtual<Type>MethodA`. -/
structure NonvirtualCall (R M : Type) where
  receiver : R
  holder : R
  method : M
  args : List (JavaValue R)
  deriving DecidableEq

/-- The functions of one `Call…MethodA` family, one for each type of return. -/
structure CallFamily (ω R κ : Type) where
  void : κ → Native ω R Unit
  boolean : κ → Native ω R (BitVec 8)
  byte : κ → Native ω R (BitVec 8)
  char : κ → Native ω R (BitVec 16)
  short : κ → Native ω R (BitVec 16)
  int : κ → Native ω R (BitVec 32)
  long : κ → Native ω R (BitVec 64)
  float : κ → Native ω R (BitVec 32)
  double : κ → Native ω R (BitVec 64)
  object : κ → Native ω R (Option R)

/-- The JNI functions that hooks use. A nullable result is an `Option`. -/
structure Jni (ω R M : Type) where
  getObjectClass (object : R) : Native ω R (Option R)
  getMethodId (holder : R) (name signature : String) : Native ω R (Option M)
  getStaticMethodId (holder : R) (name signature : String) : Native ω R (Option M)
  callMethodA : CallFamily ω R (InstanceCall R M)
  callStaticMethodA : CallFamily ω R (StaticCall R M)
  callNonvirtualVoidMethodA (call : NonvirtualCall R M) : Native ω R Unit
  isInstanceOf (object holder : R) : Native ω R Bool
  newStringUtf (text : String) : Native ω R (Option R)
  newGlobalRef (object : R) : Native ω R (Option R)
  getStringLength (string : R) : Native ω R Nat
  getStringChars (string : R) : Native ω R (Option (List (BitVec 16)))
  pushLocalFrame (capacity : Nat) : Native ω R Int
  /-- `PopLocalFrame` raises nothing: a reference to the survivor in the frame below. -/
  popLocalFrame (survivor : Option R) : ω → Option R × ω
  /-- The result code of `Throw`. -/
  throw (throwable : R) : ω → Int

/-- `JNI_OK`. -/
def JNI_OK : Int := 0

/-! ## The thread -/

/-- A call of an original method through the JNI. -/
inductive Call (R M : Type)
  | virtual (call : InstanceCall R M)
  | static (call : StaticCall R M)
  | nonvirtual (call : NonvirtualCall R M)
  deriving DecidableEq

namespace Call

def args : Call R M → List (JavaValue R)
  | virtual call => call.args
  | static call => call.args
  | nonvirtual call => call.args

end Call

/-- What a thread has done through its `JNIEnv`. -/
inductive Event (R M : Type)
  /-- A call of the original of the method that the hook replaces. -/
  | call (call : Call R M)
  | deleteLocalRef (reference : R)
  | pushLocalFrame
  | popLocalFrame
  deriving DecidableEq

namespace Event

def call? : Event R M → Option (Call R M)
  | .call made => some made
  | .deleteLocalRef _ | .pushLocalFrame | .popLocalFrame => none

end Event

/-- A thread in a native frame, with the error slot of the hook that the frame runs. -/
structure Thread (ω R M : Type) where
  world : ω
  /-- The pending exception. -/
  pending : Option R
  events : List (Event R M)
  /-- `ClosureReplacementState::last_error`. -/
  lastError : Option String
  deriving DecidableEq

namespace Thread

/-- A thread that has just entered the native frame. Managed code has no exception pending. -/
def entry (world : ω) (lastError : Option String) : Thread ω R M :=
  ⟨world, none, [], lastError⟩

/-- The calls of originals. -/
def calls (s : Thread ω R M) : List (Call R M) := s.events.filterMap Event.call?

def record (e : Event R M) (s : Thread ω R M) : Thread ω R M := { s with events := s.events ++ [e] }

/-- The thread after a JNI function that may raise. A new exception takes the pending one's place. -/
def after (s : Thread ω R M) (f : Native ω R α) : Thread ω R M :=
  { s with world := (f s.world).2.2, pending := (f s.world).2.1.or s.pending }

def clear (s : Thread ω R M) : Thread ω R M := { s with pending := none }

def raise (throwable : R) (s : Thread ω R M) : Thread ω R M := { s with pending := some throwable }

section Fields

variable (s : Thread ω R M) (e : Event R M) (f : Native ω R α) (throwable : R)

@[simp] theorem pending_entry (world : ω) (lastError : Option String) :
    (entry world lastError : Thread ω R M).pending = none := rfl
@[simp] theorem calls_entry (world : ω) (lastError : Option String) :
    (entry world lastError : Thread ω R M).calls = [] := rfl
@[simp] theorem pending_record : (s.record e).pending = s.pending := rfl
@[simp] theorem world_record : (s.record e).world = s.world := rfl
@[simp] theorem lastError_record : (s.record e).lastError = s.lastError := rfl
@[simp] theorem calls_record : (s.record e).calls = s.calls ++ e.call?.toList := by
  cases h : e.call? <;> simp [calls, record, h]
@[simp] theorem pending_after : (s.after f).pending = (f s.world).2.1.or s.pending := rfl
@[simp] theorem world_after : (s.after f).world = (f s.world).2.2 := rfl
@[simp] theorem calls_after : (s.after f).calls = s.calls := rfl
@[simp] theorem lastError_after : (s.after f).lastError = s.lastError := rfl
@[simp] theorem pending_clear : s.clear.pending = none := rfl
@[simp] theorem world_clear : s.clear.world = s.world := rfl
@[simp] theorem calls_clear : s.clear.calls = s.calls := rfl
@[simp] theorem lastError_clear : s.clear.lastError = s.lastError := rfl
@[simp] theorem pending_raise : (s.raise throwable).pending = some throwable := rfl
@[simp] theorem world_raise : (s.raise throwable).world = s.world := rfl
@[simp] theorem calls_raise : (s.raise throwable).calls = s.calls := rfl
@[simp] theorem lastError_raise : (s.raise throwable).lastError = s.lastError := rfl

end Fields

/-- Deletes local references. -/
def deleteLocalRefs (references : List R) (s : Thread ω R M) : Thread ω R M :=
  { s with events := s.events ++ references.map Event.deleteLocalRef }

section DeleteLocalRefs

variable (references : List R) (s : Thread ω R M)

@[simp] theorem pending_deleteLocalRefs :
    (s.deleteLocalRefs references).pending = s.pending := rfl
@[simp] theorem world_deleteLocalRefs : (s.deleteLocalRefs references).world = s.world := rfl
@[simp] theorem lastError_deleteLocalRefs :
    (s.deleteLocalRefs references).lastError = s.lastError := rfl
@[simp] theorem calls_deleteLocalRefs : (s.deleteLocalRefs references).calls = s.calls := by
  have h : (references.map Event.deleteLocalRef : List (Event R M)).filterMap Event.call? = [] := by
    simp [List.filterMap_map, Function.comp_def, Event.call?]
  rw [calls, deleteLocalRefs, List.filterMap_append, h, List.append_nil]
  rfl

end DeleteLocalRefs

/-- Between the two states no original was called and no error was recorded. -/
structure Quiet (s t : Thread ω R M) : Prop where
  calls : t.calls = s.calls
  lastError : t.lastError = s.lastError

namespace Quiet

variable {s t u : Thread ω R M}

@[refl] theorem refl (s : Thread ω R M) : Quiet s s := ⟨rfl, rfl⟩

theorem trans (h : Quiet s t) (h' : Quiet t u) : Quiet s u :=
  ⟨h'.calls.trans h.calls, h'.lastError.trans h.lastError⟩

theorem after (s : Thread ω R M) (f : Native ω R α) : Quiet s (s.after f) := ⟨rfl, rfl⟩

theorem clear (s : Thread ω R M) : Quiet s s.clear := ⟨rfl, rfl⟩

theorem raise (throwable : R) (s : Thread ω R M) : Quiet s (s.raise throwable) := ⟨rfl, rfl⟩

theorem deleteLocalRef (reference : R) (s : Thread ω R M) :
    Quiet s (s.record (.deleteLocalRef reference)) :=
  ⟨by simp [Event.call?], rfl⟩

theorem deleteLocalRefs (references : List R) (s : Thread ω R M) :
    Quiet s (s.deleteLocalRefs references) :=
  ⟨by simp, rfl⟩

end Quiet

/-- The second state comes quietly from the first and has nothing pending. -/
structure Settled (s t : Thread ω R M) : Prop extends Quiet s t where
  pending : t.pending = none

theorem Quiet.settled {s t u : Thread ω R M} (h : Quiet s t) (h' : Settled t u) : Settled s u :=
  ⟨h.trans h'.toQuiet, h'.pending⟩

theorem Settled.quiet_of_pending {s t u : Thread ω R M} (h : Settled s t) (h' : Quiet t u)
    (hu : u.pending = t.pending) : Settled s u :=
  ⟨h.toQuiet.trans h', hu.trans h.pending⟩

/-- The second state comes quietly from the first and has the same exception pending. -/
structure Passed (s t : Thread ω R M) : Prop extends Quiet s t where
  pending : t.pending = s.pending

/-- The second state comes quietly from the first by a failure: one that reports a Java exception
has taken it, and any other has left the pending exception alone. -/
structure Failed (s : Thread ω R M) (e : Error R) (t : Thread ω R M) : Prop extends Quiet s t where
  pending : t.pending = if e.isJavaException then none else s.pending

namespace Passed

variable {s t u : Thread ω R M}

theorem refl (s : Thread ω R M) : Passed s s := ⟨.refl s, rfl⟩

theorem trans (h : Passed s t) (h' : Passed t u) : Passed s u :=
  ⟨h.toQuiet.trans h'.toQuiet, h'.pending.trans h.pending⟩

theorem failed {e : Error R} (h : Passed s t) (h' : Failed t e u) : Failed s e u :=
  ⟨h.toQuiet.trans h'.toQuiet, by rw [h'.pending, h.pending]⟩

theorem deleteLocalRef (reference : R) (s : Thread ω R M) :
    Passed s (s.record (.deleteLocalRef reference)) :=
  ⟨.deleteLocalRef reference s, rfl⟩

theorem deleteLocalRefs (references : List R) (s : Thread ω R M) :
    Passed s (s.deleteLocalRefs references) :=
  ⟨.deleteLocalRefs references s, rfl⟩

end Passed

theorem Failed.passed {s t u : Thread ω R M} {e : Error R} (h : Failed s e t) (h' : Passed t u) :
    Failed s e u :=
  ⟨h.toQuiet.trans h'.toQuiet, h'.pending.trans h.pending⟩

/-- A failure that reports no Java exception. -/
theorem failed_refl {e : Error R} (s : Thread ω R M) (he : e.isJavaException = false) :
    Failed s e s :=
  ⟨.refl s, by rw [he]; rfl⟩

end Thread

/-! ## Programs over the JNI -/

/-- Code of the bridge that runs on a thread and returns a `Result`. -/
abbrev JniM (ω R M α : Type) := EStateM (Error R) (Thread ω R M) α

/-- Calls a JNI function. -/
def Native.run (f : Native ω R α) : JniM ω R M α := fun s ↦ .ok (f s.world).1 (s.after f)

/-- Calls an original method through a JNI function. -/
def Native.invoke (f : Native ω R α) (call : Call R M) : JniM ω R M α := fun s ↦
  .ok (f s.world).1 ((s.record (.call call)).after f)

def deleteLocalRef (reference : R) : JniM ω R M Unit :=
  modify (Thread.record (.deleteLocalRef reference))

open Fallible

section Rules

variable {Q : α → Thread ω R M → Prop} {E : Error R → Thread ω R M → Prop} {s : Thread ω R M}

@[simp] theorem wp_run {f : Native ω R α} :
    wp (Native.run f) Q E s ↔ Q (f s.world).1 (s.after f) := Iff.rfl

@[simp] theorem wp_invoke {f : Native ω R α} {call : Call R M} :
    wp (Native.invoke f call) Q E s ↔ Q (f s.world).1 ((s.record (.call call)).after f) := Iff.rfl

@[simp] theorem wp_deleteLocalRef {reference : R} {Q : Unit → Thread ω R M → Prop} :
    wp (deleteLocalRef reference) Q E s ↔ Q () (s.record (.deleteLocalRef reference)) := Iff.rfl

end Rules

/-- A program that only looks at the pending exception, or fails with it. -/
def Steady (x : JniM ω R M α) : Prop :=
  ∀ s, wp x (fun _ t ↦ s.Passed t) (fun e t ↦ s.Failed e t) s

/-- `CString::new`, for text that a JNI function takes. -/
def cString (text : String) : JniM ω R M String :=
  if '\x00' ∈ text.toList then throw (.interiorNul text) else pure text

/-- `NonNull::new` of the environment a hook is entered with. -/
def nonNullEnv (env : Option Unit) : JniM ω R M Unit :=
  match env with
  | some () => pure ()
  | none => throw (.nullReturn "replacement JNIEnv")

/-- `Error::check_jni_result`. -/
def checkJniResult (operation : String) (code : Int) : JniM ω R M Unit :=
  if code = JNI_OK then pure () else throw (.jniCallFailed operation code)

section Steady

theorem Steady.pure (a : α) : Steady (Pure.pure a : JniM ω R M α) := fun s ↦ .refl s

theorem Steady.throw {e : Error R} (he : e.isJavaException = false) :
    Steady (throw e : JniM ω R M α) := fun s ↦ Thread.failed_refl s he

variable {β : Type}

theorem Steady.bind {x : JniM ω R M α} {f : α → JniM ω R M β} (hx : Steady x)
    (hf : ∀ a, Steady (f a)) : Steady (x >>= f) := by
  intro s
  rw [wp_bind]
  refine wp_mono (hx s) (fun a t ht ↦ ?_) fun e t ht ↦ ht
  exact wp_mono (hf a t) (fun b u hu ↦ ht.trans hu) fun e u hu ↦ ht.failed hu

theorem Steady.onError {cleanup : Thread ω R M → Thread ω R M} {x : JniM ω R M α}
    (hc : ∀ t : Thread ω R M, t.Passed (cleanup t)) (hx : Steady x) : Steady (onError cleanup x) := by
  intro s
  rw [wp_onError]
  exact wp_mono (hx s) (fun a t ht ↦ ht) fun e t ht ↦ ht.passed (hc t)

theorem steady_ofExcept {x : Except (Error R) α} (h : ∀ e, x = .error e → e.isJavaException = false) :
    Steady (MonadExcept.ofExcept x : JniM ω R M α) := by
  intro s
  rw [wp_ofExcept]
  exact ⟨fun a _ ↦ .refl s, fun e he ↦ Thread.failed_refl s (h e he)⟩

theorem steady_cString (text : String) : Steady (cString text : JniM ω R M String) := by
  unfold cString
  split
  · exact .throw rfl
  · exact .pure text

theorem steady_nonNullEnv (env : Option Unit) : Steady (nonNullEnv env : JniM ω R M Unit) := by
  cases env
  · exact .throw rfl
  · exact .pure ()

end Steady

end JavaBridge.Hook

import JavaBridge.Error
import JavaBridge.Library.Custody
import JavaBridge.Library.Machine
import JavaBridge.Metadata.Visible
import JavaBridge.Java.Handle

/-!
# Temporary references

An operation on a Java member makes a local reference of its own for each Rust string that it is
given. A session keeps a log of these references and of what becomes of them. `lifetimes` says which
of them are alive after a log, and has no run for a log that uses or deletes another one.

Main results:

* `Tracked.created`, `Tracked.used`, `Tracked.deleted`, `Tracked.detached`: what each event keeps.
* `borrows_use`: a JNI function can be given what is held, and whatever the caller has supplied.
* `settlesUnless_newStringUtfRaw`: the string that is made is the only reference that is taken, and is
  lost where an exception is pending.
* `borrows_withAttached`, `conservesUnless_withAttached`: guards on an attached and on any thread.
-/

namespace JavaBridge.Java.Members

open Fallible Custody

/-! ## References -/

/-- A reference that the caller has supplied, or one made for a Rust string. -/
inductive Ref (S : Type)
  | supplied (object : S)
  | temporary (n : Nat)
  deriving DecidableEq

inductive Event (S : Type)
  | created (n : Nat)
  /-- A JNI function is given these references. -/
  | used (references : List (Ref S))
  | deleted (reference : Ref S)
  /-- The thread is detached, and its local references are gone. -/
  | detached
  deriving DecidableEq

section

variable {S : Type}

def Ref.temporary? : Ref S → Option Nat
  | .supplied _ => none
  | .temporary n => some n

namespace Event

def created? : Event S → Option (Ref S)
  | .created n => some (.temporary n)
  | _ => none

def deleted? : Event S → Option (Ref S)
  | .deleted reference => some reference
  | _ => none

end Event

/-- The temporary references of a log. -/
def creations (events : List (Event S)) : List (Ref S) := events.filterMap Event.created?

/-- The references of a log that are deleted. -/
def deletions (events : List (Event S)) : List (Ref S) := events.filterMap Event.deleted?

/-- The temporary references that are alive. Only these can be used, only these can be deleted, and
none may be left where the thread is detached. -/
def lifetimes : Machine (List Nat) (Event S) where
  Init live := live = []
  step live
    | .created n => some (n :: live)
    | .used references => if references.filterMap Ref.temporary? ⊆ live then some live else none
    | .deleted (.temporary n) => if n ∈ live then some (live.erase n) else none
    | .deleted (.supplied _) => none
    | .detached => if live = [] then some [] else none

end

/-! ## The session of a thread -/

/-- A thread at work, with a log of its references. -/
structure Session (ω S : Type) where
  world : ω
  thread : Vm.NativeThread
  events : List (Event S)

namespace Session

variable {ω S : Type} (s : Session ω S)

def start (world : ω) (thread : Vm.NativeThread) : Session ω S := ⟨world, thread, []⟩

def record (e : Event S) : Session ω S := { s with events := s.events ++ [e] }

end Session

abbrev SessionM (ω S : Type) := EStateM (Error (Ref S)) (Session ω S)

structure MethodId (M : Type) where
  raw : M
  signature : MethodSignature

structure FieldId (M : Type) where
  raw : M
  ty : JavaType

/-- A JNI function that runs a member. A nullable object is an `Option`. -/
inductive JniCall (S M : Type)
  | newObject (holder : S) (method : M) (args : List (JavaValue (Ref S)))
  | callMethod (object : Option S) (method : M) (args : List (JavaValue (Ref S)))
  | callStatic (holder : S) (method : M) (args : List (JavaValue (Ref S)))
  | getField (object : Option S) (field : M)
  | getStaticField (holder : S) (field : M)
  | setField (object : Option S) (field : M) (value : JavaValue (Ref S))
  | setStaticField (holder : S) (field : M) (value : JavaValue (Ref S))

namespace JniCall

variable {S M : Type}

/-- The object or the class that the member belongs to. -/
def target : JniCall S M → Option S
  | .newObject holder _ _ | .callStatic holder _ _ | .getStaticField holder _
  | .setStaticField holder _ _ => some holder
  | .callMethod object _ _ | .getField object _ | .setField object _ _ => object

def values : JniCall S M → List (JavaValue (Ref S))
  | .newObject _ _ args | .callMethod _ _ args | .callStatic _ _ args => args
  | .getField _ _ | .getStaticField _ _ => []
  | .setField _ _ value | .setStaticField _ _ value => [value]

/-- The references that the function is given. -/
def references (call : JniCall S M) : List (Ref S) :=
  (call.target.map .supplied).toList ++ call.values.filterMap JavaValue.reference

end JniCall

/-- The calls that are answered by the VM, whose state is `ω`. Those whose answer is an `Except` look
for a pending exception themselves. -/
structure Jvm (ω S M V : Type) where
  /-- What becomes of the state where a thread asks for its env, and the answer to a detached one, which
  attaches itself. -/
  attach : ω → Vm.AttachAnswer × ω
  /-- Whether `NewStringUTF` gives a string. -/
  newStringUtf : (text : String) → ω → Bool × ω
  exceptionCheck : ω → Bool
  takePendingException : ω → (String × Option (Ref S)) × ω
  /-- `Java::find_class` in the class loader of `holder`. -/
  findClass : (holder : RawClass S) → (name : String) → ω → Except (Error (Ref S)) (RawClass S) × ω
  /-- The JNI function `IsInstanceOf`. -/
  isInstanceOf : (object : Ref S) → (holder : S) → ω → Bool × ω
  getObjectClass : (object : Ref S) → ω → Except (Error (Ref S)) S × ω
  address : S → String
  cachedMethod : (holder : RawClass S) → MethodKind → (name signature : String) → ω →
    Except (Error (Ref S)) (MethodId M) × ω
  cachedField : (holder : RawClass S) → FieldKind → (name ty : String) → ω →
    Except (Error (Ref S)) (FieldId M) × ω
  /-- The call, and what is made of its result. -/
  invoke : JniCall S M → ω → Except (Error (Ref S)) V × ω

namespace Jvm

variable {ω S M V : Type} (vm : Jvm ω S M V)

/-- What becomes of a pending exception. -/
structure LeavesExceptions : Prop where
  /-- A thread that asks for its env, or attaches itself, raises none. -/
  attach : ∀ world, vm.exceptionCheck world = false →
    vm.exceptionCheck (vm.attach world).2 = false
  /-- A result of `NewStringUTF` that is not null guarantees that none was thrown. One that was pending
  before is not cleared. -/
  newStringUtf : ∀ text world, (vm.newStringUtf text world).1 = true →
    vm.exceptionCheck (vm.newStringUtf text world).2 = vm.exceptionCheck world

/-- The thread is attached, or can be. -/
def Attaches (world : ω) (thread : Vm.NativeThread) : Prop :=
  thread.attached = true ∨ ∃ env, (vm.attach world).1 = .ok env

/-- `L` holds once the thread is attached. -/
def OnceAttached (L : ω → Prop) (world : ω) (thread : Vm.NativeThread) : Prop :=
  vm.Attaches world thread ∧ L (vm.attach world).2

theorem onceAttached_iff {L : ω → Prop} {world : ω} {thread : Vm.NativeThread}
    (h : vm.Attaches world thread) :
    vm.OnceAttached L world thread ↔ L (vm.attach world).2 := and_iff_right h

/-- A string is made while an exception is pending. -/
def Forgets (text : String) (world : ω) : Prop :=
  vm.exceptionCheck world = true ∧ (vm.newStringUtf text world).1 = true

end Jvm

section

variable {ω S M V α : Type} (vm : Jvm ω S M V)

/-- A call that does not look for a pending exception. -/
def ask (f : ω → α × ω) : SessionM ω S α := modifyGet fun s ↦
  ((f s.world).1, { s with world := (f s.world).2 })

def call (f : ω → Except (Error (Ref S)) α × ω) : SessionM ω S α := fun s ↦
  match f s.world with
  | (.ok a, world) => .ok a { s with world := world }
  | (.error error, world) => .error error { s with world := world }

/-- A JNI function is about to be given these references. -/
def use (references : List (Ref S)) : SessionM ω S Unit := modify fun s ↦ s.record (.used references)

def checkPendingException (operation : String) : SessionM ω S Unit := do
  if vm.exceptionCheck (← get).world then
    let (exception, throwable) ← ask vm.takePendingException
    throw (.javaException operation exception throwable)
  else pure ()

def attachCurrentThread : SessionM ω S Vm.AttachedEnv := do
  let answer ← ask vm.attach
  zoom Session.thread (fun thread s ↦ { s with thread := thread }) (Vm.attachCurrentThread answer)

/-- The drop of the guard, which is entered into the log where it detaches the thread. -/
def dropEnv (env : Vm.AttachedEnv) (s : Session ω S) : Session ω S :=
  if env.detachOnDrop then { s with thread := env.drop s.thread }.record .detached
  else { s with thread := env.drop s.thread }

/-- The body of a function that attaches the thread first. -/
def withAttached (body : SessionM ω S α) : SessionM ω S α := do
  let env ← attachCurrentThread vm
  defer (dropEnv env) body

def deleteLocalRefRaw (object : Ref S) (s : Session ω S) : Session ω S := s.record (.deleted object)

def deleteEach (objects : List (Ref S)) (s : Session ω S) : Session ω S :=
  objects.foldl (fun s object ↦ deleteLocalRefRaw object s) s

/-! ## Rust strings -/

/-- The JNI function `NewStringUTF`. -/
def newStringUtf (text : String) : SessionM ω S (Option (Ref S)) := modifyGet fun s ↦
  if (vm.newStringUtf text s.world).1 then
    (some (.temporary (creations s.events).length),
      { s with world := (vm.newStringUtf text s.world).2 }.record
        (.created (creations s.events).length))
  else (none, { s with world := (vm.newStringUtf text s.world).2 })

def newStringUtfRaw (text : String) : SessionM ω S (Ref S) :=
  if '\x00' ∈ text.toList then throw (.interiorNul text)
  else do
    let string ← newStringUtf vm text
    checkPendingException vm "JNIEnv::NewStringUTF"
    match string with
    | none => throw (.nullReturn "JNIEnv::NewStringUTF")
    | some string => pure string

end

/-! ## The account -/

section Account

variable {ω S : Type} {s : Session ω S} {held rest : List (Ref S)}

/-- The log is a run of `lifetimes`, no two references of it are the same, and what has not been
deleted is alive. -/
structure Tracked (events : List (Event S)) : Prop where
  creations_eq : creations events = (List.range (creations events).length).map Ref.temporary
  exists_live : ∃ live, lifetimes.run [] events = some live ∧
    (live.map Ref.temporary ++ deletions events).Perm (creations events)

def account : Account (Session ω S) (Ref S) where
  obtained s := creations s.events
  released s := deletions s.events
  Ready s := s.thread.attached = true ∧ Tracked s.events

/-- The temporary references among these. -/
def temporaries (references : List (Ref S)) : List (Ref S) :=
  references.filter fun reference ↦ reference.temporary?.isSome

theorem creations_record (e : Event S) :
    creations (s.record e).events = creations s.events ++ e.created?.toList := by
  rw [creations, Session.record, List.filterMap_append]
  cases h : e.created? <;> simp [creations, h]

theorem deletions_record (e : Event S) :
    deletions (s.record e).events = deletions s.events ++ e.deleted?.toList := by
  rw [deletions, Session.record, List.filterMap_append]
  cases h : e.deleted? <;> simp [deletions, h]

/-- What is held is alive. -/
theorem Tracked.exists_held (h : Tracked s.events) (hheld : account.Holds s held) :
    ∃ live, lifetimes.run [] s.events = some live ∧ (live.map Ref.temporary).Perm held := by
  obtain ⟨live, hrun, hlive⟩ := h.exists_live
  exact ⟨live, hrun, (List.perm_append_right_iff _).1 (hlive.trans hheld.symm)⟩

/-- An event that neither makes nor deletes a reference. -/
theorem holds_record {e : Event S} (hcreated : e.created? = none) (hdeleted : e.deleted? = none) :
    account.Holds (s.record e) held ↔ account.Holds s held := by
  show (held ++ deletions _).Perm (creations _) ↔ _
  rw [deletions_record, creations_record, hcreated, hdeleted, Option.toList_none, List.append_nil,
    List.append_nil]
  rfl

theorem run_record {live live' : List Nat} {e : Event S}
    (hrun : lifetimes.run [] s.events = some live) (hstep : lifetimes.step live e = some live') :
    lifetimes.run [] (s.record e).events = some live' := by
  rw [Session.record, Machine.run_append, hrun, Option.bind_some, Machine.run_cons, hstep]
  rfl

/-- An event that makes no reference. -/
theorem Tracked.record {live : List Nat} {e : Event S} (h : Tracked s.events)
    (hcreated : e.created? = none) (hrun : lifetimes.run [] (s.record e).events = some live)
    (hlive : (live.map Ref.temporary).Perm held) (hheld : account.Holds (s.record e) held) :
    Tracked (s.record e).events where
  creations_eq := by
    rw [creations_record, hcreated, Option.toList_none, List.append_nil]
    exact h.creations_eq
  exists_live := ⟨live, hrun, (hlive.append_right _).trans hheld⟩

theorem Tracked.created (h : Tracked s.events) (hheld : account.Holds s held) :
    Tracked (s.record (.created (creations s.events).length)).events ∧
      account.Holds (s.record (.created (creations s.events).length))
        (.temporary (creations s.events).length :: held) := by
  obtain ⟨live, hrun, hlive⟩ := h.exists_live
  have hcreations : creations (s.record (.created (creations s.events).length)).events =
      creations s.events ++ [.temporary (creations s.events).length] := creations_record _
  have hdeletions : deletions (s.record (.created (creations s.events).length)).events =
      deletions s.events := (deletions_record _).trans (List.append_nil _)
  refine ⟨⟨?_, (creations s.events).length :: live, run_record hrun rfl, ?_⟩, ?_⟩
  · rw [hcreations, List.length_append, List.length_singleton, List.range_succ, List.map_append,
      ← h.creations_eq]
    rfl
  · rw [hcreations, hdeletions]
    exact (hlive.cons _).trans (List.perm_append_singleton _ _).symm
  · show (_ :: held ++ deletions _).Perm (creations _)
    rw [hcreations, hdeletions]
    exact (hheld.cons _).trans (List.perm_append_singleton _ _).symm

theorem Tracked.used {references : List (Ref S)} (h : Tracked s.events)
    (hheld : account.Holds s held) (hreferences : temporaries references ⊆ held) :
    Tracked (s.record (.used references)).events ∧
      account.Holds (s.record (.used references)) held := by
  obtain ⟨live, hrun, hlive⟩ := h.exists_held hheld
  have halive : references.filterMap Ref.temporary? ⊆ live := by
    intro n hn
    obtain ⟨reference, hmem, hreference⟩ := List.mem_filterMap.1 hn
    have hreference' : reference = .temporary n := by
      cases reference with
      | supplied object => cases hreference
      | temporary m => rw [Option.some.inj hreference]
    subst hreference'
    have hmem := hreferences (List.mem_filter.2 ⟨hmem, rfl⟩)
    obtain ⟨m, hm, hmn⟩ := List.mem_map.1 (hlive.mem_iff.2 hmem)
    exact Ref.temporary.inj hmn ▸ hm
  have hheld' : account.Holds (s.record (.used references)) held :=
    (holds_record rfl rfl).2 hheld
  exact ⟨h.record rfl (run_record hrun (if_pos halive)) hlive hheld', hheld'⟩

theorem Tracked.deleted {reference : Ref S} (h : Tracked s.events)
    (hheld : account.Holds s (reference :: rest)) :
    Tracked (s.record (.deleted reference)).events ∧
      account.Holds (s.record (.deleted reference)) rest := by
  obtain ⟨live, hrun, hlive⟩ := h.exists_held hheld
  obtain ⟨n, hn, rfl⟩ := List.mem_map.1 (hlive.mem_iff.2 List.mem_cons_self)
  have hrest : ((live.erase n).map Ref.temporary).Perm rest := by
    have herase := ((List.perm_cons_erase hn).map Ref.temporary).symm.trans hlive
    exact (List.perm_cons _).1 herase
  have hheld' : account.Holds (s.record (.deleted (.temporary n))) rest := by
    have hmiddle : (rest ++ (deletions s.events ++ [Ref.temporary n])).Perm
        (.temporary n :: (rest ++ deletions s.events)) := by
      rw [← List.append_assoc]
      exact List.perm_append_singleton _ _
    show (rest ++ deletions _).Perm (creations _)
    rw [deletions_record, creations_record]
    exact (hmiddle.trans hheld).trans (.of_eq (List.append_nil _).symm)
  exact ⟨h.record rfl (run_record hrun (if_pos hn)) hrest hheld', hheld'⟩

theorem Tracked.detached (h : Tracked s.events) (hheld : account.Holds s []) :
    Tracked (s.record .detached).events ∧ account.Holds (s.record .detached) [] := by
  obtain ⟨live, hrun, hlive⟩ := h.exists_held hheld
  have hnil : live = [] := List.map_eq_nil_iff.1 hlive.eq_nil
  subst hnil
  have hheld' : account.Holds (s.record .detached) [] := (holds_record rfl rfl).2 hheld
  exact ⟨h.record rfl (run_record hrun rfl) .nil hheld', hheld'⟩

end Account

/-! ## What programs do to the account -/

section Programs

variable {ω S M V α : Type} {vm : Jvm ω S M V} {s : Session ω S} {borrowed : List (Ref S)}

theorem borrows_ask (f : ω → α × ω) : Borrows account (ask f : SessionM ω S α) borrowed :=
  fun _ _ _ hready hheld ↦ ⟨hready, hheld⟩

theorem borrows_call (f : ω → Except (Error (Ref S)) α × ω) :
    Borrows account (call f : SessionM ω S α) borrowed := by
  intro s held _ hready hheld
  unfold wp call
  rcases f s.world with ⟨_ | _, world⟩
  · exact ⟨hready, hheld⟩
  · exact ⟨hready, hheld⟩

/-- A JNI function can be given what is held, and whatever the caller has supplied. -/
theorem borrows_use (references : List (Ref S)) :
    Borrows account (use references : SessionM ω S Unit) (temporaries references) := by
  intro s held hborrowed hready hheld
  obtain ⟨htracked, hheld⟩ := hready.2.used hheld hborrowed
  exact ⟨⟨hready.1, htracked⟩, hheld⟩

theorem releases_deleteLocalRefRaw (reference : Ref S) :
    Releases (account (ω := ω)) (deleteLocalRefRaw reference) [reference] := by
  intro s rest hready hheld
  obtain ⟨htracked, hheld⟩ := hready.2.deleted hheld
  exact ⟨⟨hready.1, htracked⟩, hheld⟩

theorem releases_deleteEach (references : List (Ref S)) :
    Releases (account (ω := ω)) (deleteEach references) references := by
  have h := Releases.foldl (releases_deleteLocalRefRaw (ω := ω)) references
  rwa [List.flatMap_singleton'] at h

/-- The thread is attached where it was not, and the log is left alone. -/
theorem wp_attachCurrentThread :
    wp (attachCurrentThread vm)
      (fun env t ↦ t.thread.attached = true ∧ env.detachOnDrop = (!s.thread.attached) ∧
        t.events = s.events ∧ vm.Attaches s.world s.thread ∧ t.world = (vm.attach s.world).2)
      (fun _ t ↦ s.thread.attached = false ∧ t.events = s.events ∧ ¬vm.Attaches s.world s.thread)
      s := by
  rw [attachCurrentThread, wp_bind, ask, wp_modifyGet, wp_zoom]
  refine wp_mono (Vm.wp_attachCurrentThread s.thread _) ?_ ?_
  · intro env thread h
    exact ⟨h.1, h.2.1, rfl, h.2.2, rfl⟩
  · rintro _ thread ⟨hdetached, -, code, hcode⟩
    refine ⟨hdetached, rfl, ?_⟩
    rintro (hattached | ⟨env, henv⟩)
    · rw [hdetached] at hattached
      cases hattached
    · rw [hcode] at henv
      cases henv

theorem dropEnv_eq_self {env : Vm.AttachedEnv} (h : env.detachOnDrop = false) :
    dropEnv env s = s := by
  rw [dropEnv, Vm.AttachedEnv.drop, h]
  rfl

theorem world_dropEnv (env : Vm.AttachedEnv) (s : Session ω S) : (dropEnv env s).world = s.world := by
  unfold dropEnv
  split <;> rfl

/-- What the body leaves of the world, the drop of the guard leaves of it. -/
theorem wp_withAttached_of_world {body : SessionM ω S α} {P : ω → Prop}
    (h : ∀ t, wp body (fun _ u ↦ P u.world) (fun _ _ ↦ True) t) :
    wp (withAttached vm body) (fun _ u ↦ P u.world) (fun _ _ ↦ True) s := by
  rw [withAttached, wp_bind]
  refine wp_mono wp_true ?_ fun _ _ _ ↦ trivial
  intro env t _
  rw [wp_defer]
  refine wp_mono (h t) ?_ fun _ _ _ ↦ trivial
  intro _ u hu
  rwa [world_dropEnv]

/-- On an attached thread, a guard of its own changes nothing. -/
theorem borrows_withAttached {body : SessionM ω S α} (h : Borrows account body borrowed) :
    Borrows account (withAttached vm body) borrowed := by
  intro s held hborrowed hready hheld
  rw [withAttached, wp_bind]
  refine wp_mono wp_attachCurrentThread ?_ ?_
  · rintro env t ⟨hattached, henv, hevents, -⟩
    have htracked : Tracked t.events := hevents ▸ hready.2
    have hheld : account.Holds t held := by
      show (held ++ deletions t.events).Perm (creations t.events)
      rw [hevents]
      exact hheld
    rw [hready.1] at henv
    rw [wp_defer]
    refine wp_mono (h t held hborrowed ⟨hattached, htracked⟩ hheld) ?_ ?_
    · intro a u hu
      rwa [dropEnv_eq_self henv]
    · intro e u hu
      rwa [dropEnv_eq_self henv]
  · rintro e t ⟨hattached, -⟩
    rw [hready.1] at hattached
    cases hattached

theorem wp_checkPendingException {operation : String} {Q : Unit → Session ω S → Prop}
    {E : Error (Ref S) → Session ω S → Prop} (hok : vm.exceptionCheck s.world = false → Q () s)
    (herror : vm.exceptionCheck s.world = true → ∀ e world, E e { s with world := world }) :
    wp (checkPendingException vm operation) Q E s := by
  rw [checkPendingException, wp_bind, wp_get, wp_ite]
  constructor
  · intro h
    exact herror h _ _
  · intro h
    exact hok (Bool.eq_false_iff.2 h)

theorem wp_newStringUtf {text : String} {Q : Option (Ref S) → Session ω S → Prop}
    {E : Error (Ref S) → Session ω S → Prop}
    (hsome : (vm.newStringUtf text s.world).1 = true →
      Q (some (.temporary (creations s.events).length))
        ({ s with world := (vm.newStringUtf text s.world).2 }.record
          (.created (creations s.events).length)))
    (hnone : (vm.newStringUtf text s.world).1 = false →
      Q none { s with world := (vm.newStringUtf text s.world).2 }) :
    wp (newStringUtf vm text) Q E s := by
  rw [newStringUtf, wp_modifyGet]
  cases h : (vm.newStringUtf text s.world).1 with
  | true => exact hsome h
  | false => exact hnone h

theorem borrows_checkPendingException (operation : String) :
    Borrows account (checkPendingException vm operation) borrowed := by
  intro s held _ hready hheld
  refine wp_checkPendingException (fun _ ↦ ⟨hready, hheld⟩) ?_
  intro _ _ world
  exact ⟨hready, hheld⟩

/-- The string that is made is the only reference that is taken. It is lost where an exception is
pending. -/
theorem settlesUnless_newStringUtfRaw (hvm : vm.LeavesExceptions) (text : String) :
    SettlesUnless account (fun s ↦ '\x00' ∉ text.toList ∧ vm.Forgets text s.world)
      (newStringUtfRaw vm text) [] fun string ↦ [string] := by
  intro s rest hready hheld
  rw [newStringUtfRaw, wp_ite]
  refine ⟨fun hnul ↦ ⟨hready, [], iff_of_false (absurd rfl) fun h ↦ h.1 hnul, hheld⟩, fun hnul ↦ ?_⟩
  rw [wp_bind]
  refine wp_newStringUtf ?_ ?_
  · intro hstring
    obtain ⟨htracked, hheld⟩ := hready.2.created hheld
    rw [wp_bind]
    refine wp_checkPendingException ?_ ?_
    · intro hnone
      refine ⟨?_, ⟨hready.1, htracked⟩, hheld⟩
      rintro ⟨-, hpending, -⟩
      rw [Session.record, hvm.newStringUtf text s.world hstring, hpending] at hnone
      cases hnone
    · intro hpending _ world
      rw [Session.record, hvm.newStringUtf text s.world hstring] at hpending
      exact ⟨⟨hready.1, htracked⟩, [_],
        iff_of_true (List.cons_ne_nil _ _) ⟨hnul, hpending, hstring⟩, hheld⟩
  · intro hnull
    have hL : ¬('\x00' ∉ text.toList ∧ vm.Forgets text s.world) := fun h ↦
      Bool.false_ne_true (hnull.symm.trans h.2.2)
    rw [wp_bind]
    refine wp_checkPendingException ?_ ?_
    · intro _
      exact ⟨hready, [], iff_of_false (absurd rfl) hL, hheld⟩
    · intro _ _ world
      exact ⟨hready, [], iff_of_false (absurd rfl) hL, hheld⟩

/-- A string is made only where no exception is pending, and none is then. -/
theorem wp_newStringUtfRaw (hvm : vm.LeavesExceptions) (text : String) :
    wp (newStringUtfRaw vm text) (fun _ t ↦ vm.exceptionCheck s.world = false ∧
      vm.exceptionCheck t.world = false) (fun _ _ ↦ True) s := by
  rw [newStringUtfRaw, wp_ite]
  refine ⟨fun _ ↦ trivial, fun _ ↦ ?_⟩
  rw [wp_bind]
  refine wp_newStringUtf ?_ ?_
  · intro hstring
    rw [wp_bind]
    refine wp_checkPendingException (fun hnone ↦ ⟨?_, hnone⟩) fun _ _ _ ↦ trivial
    rwa [Session.record, hvm.newStringUtf text s.world hstring] at hnone
  · intro _
    rw [wp_bind]
    exact wp_checkPendingException (fun _ ↦ trivial) fun _ _ _ ↦ trivial

end Programs

/-! ## Whole operations -/

/-- Every temporary reference of the session has been deleted. -/
structure Clean {ω S : Type} (s : Session ω S) : Prop where
  tracked : Tracked s.events
  holds : account.Holds s []

/-- A session with nothing left over stays so, whether the program fails or not. -/
def Conserves {ω S α : Type} (x : SessionM ω S α) : Prop :=
  ∀ s, Clean s → wp x (fun _ t ↦ Clean t) (fun _ t ↦ Clean t) s

section Conserves

variable {ω S M V α β : Type} {vm : Jvm ω S M V} {s t : Session ω S}

theorem clean_start (world : ω) (thread : Vm.NativeThread) : Clean (.start world thread (S := S)) :=
  ⟨⟨rfl, [], rfl, .refl _⟩, .refl _⟩

theorem Clean.congr (h : Clean s) (hevents : t.events = s.events) : Clean t where
  tracked := hevents ▸ h.tracked
  holds := by
    show (_ ++ deletions t.events).Perm (creations t.events)
    rw [hevents]
    exact h.holds

/-- The thread is detached when nothing is left. -/
theorem clean_dropEnv (env : Vm.AttachedEnv) (h : Clean s) : Clean (dropEnv env s) := by
  unfold dropEnv
  split
  · obtain ⟨htracked, hholds⟩ := h.tracked.detached h.holds
    exact ⟨htracked, hholds⟩
  · exact ⟨h.tracked, h.holds⟩

namespace Conserves

theorem pure {a : α} : Conserves (Pure.pure a : SessionM ω S α) := fun _ hs ↦ hs

theorem throw {e : Error (Ref S)} : Conserves (throw e : SessionM ω S α) := fun _ hs ↦ hs

theorem bind {x : SessionM ω S α} {f : α → SessionM ω S β} (hx : Conserves x)
    (hf : ∀ a, Conserves (f a)) : Conserves (x >>= f) := by
  intro s hs
  rw [wp_bind]
  exact wp_mono (hx s hs) (fun a t ht ↦ hf a t ht) fun _ _ ht ↦ ht

end Conserves

/-- What is left over where a program fails: something exactly if `L` holds. -/
def Leftover (L : Prop) (s : Session ω S) : Prop :=
  (¬L → Clean s) ∧ (L → ¬(deletions s.events).Perm (creations s.events))

theorem Clean.leftover {L : Prop} (h : Clean s) (hL : ¬L) : Leftover L s := ⟨fun _ ↦ h, (absurd · hL)⟩

/-- As `Conserves`, except from the sessions of `L`: from these the program fails, and leaves a
temporary reference over. -/
def ConservesUnless (L : Session ω S → Prop) (x : SessionM ω S α) : Prop :=
  ∀ s, Clean s → wp x (fun _ t ↦ ¬L s ∧ Clean t) (fun _ t ↦ Leftover (L s) t) s

/-- What was lost is left over, also where the thread is detached. -/
theorem leftover_dropEnv {L : Prop} (env : Vm.AttachedEnv) (hready : account.Ready s)
    (h : ∃ lost, (lost ≠ [] ↔ L) ∧ account.Holds s (lost ++ [])) : Leftover L (dropEnv env s) := by
  obtain ⟨lost, hlost, hholds⟩ := h
  rw [List.append_nil] at hholds
  constructor
  · intro hL
    obtain rfl := not_not.1 (mt hlost.1 hL)
    exact clean_dropEnv env ⟨hready.2, hholds⟩
  · intro hL hperm
    have hsame : (deletions s.events).Perm (creations s.events) := by
      unfold dropEnv at hperm
      split at hperm
      · rw [deletions_record, creations_record] at hperm
        simpa only [Event.created?, Event.deleted?, Option.toList_none, List.append_nil] using hperm
      · exact hperm
    have hlength := (hholds.trans hsame.symm).length_eq
    rw [List.length_append] at hlength
    exact hlost.2 hL (List.eq_nil_of_length_eq_zero (Nat.add_eq_right.mp hlength))

namespace ConservesUnless

variable {L : Session ω S → Prop}

theorem of_conserves {x : SessionM ω S α} (h : Conserves x) (hL : ∀ s, ¬L s) :
    ConservesUnless L x := by
  intro s hs
  exact wp_mono (h s hs) (fun _ _ ht ↦ ⟨hL s, ht⟩) fun _ _ ht ↦ ht.leftover (hL s)

/-- A program that may leave something over, where it cannot. -/
theorem after {L' : Session ω S → Prop} {x : SessionM ω S α} {f : α → SessionM ω S β}
    (hx : Conserves x) (hf : ∀ a, ConservesUnless L' (f a)) (hL : ∀ s, ¬L s)
    (hL' : ∀ s, wp x (fun _ t ↦ ¬L' t) (fun _ _ ↦ True) s) : ConservesUnless L (x >>= f) := by
  intro s hs
  rw [wp_bind]
  refine wp_mono (wp_and (hx s hs) (hL' s)) ?_ fun _ _ ht ↦ ht.1.leftover (hL s)
  rintro a t ⟨ht, hnot⟩
  exact wp_mono (hf a t ht) (fun _ _ hu ↦ ⟨hL s, hu.2⟩) fun _ _ hu ↦ (hu.1 hnot).leftover (hL s)

theorem bind_pure {x : SessionM ω S α} {f : α → β} (hx : ConservesUnless L x) :
    ConservesUnless L (x >>= fun a ↦ Pure.pure (f a)) := by
  intro s hs
  rw [wp_bind]
  exact hx s hs

end ConservesUnless

theorem conservesUnless_withAttached {L : ω → Prop} {body : SessionM ω S α}
    (h : SettlesUnless account (fun s ↦ L s.world) body [] fun _ ↦ []) :
    ConservesUnless (fun s ↦ vm.OnceAttached L s.world s.thread) (withAttached vm body) := by
  intro s hs
  rw [withAttached, wp_bind]
  refine wp_mono wp_attachCurrentThread ?_ ?_
  · rintro env t ⟨hattached, -, hevents, hattaches, hworld⟩
    have ht := hs.congr hevents
    have hL := vm.onceAttached_iff (L := L) hattaches
    rw [← hworld] at hL
    rw [wp_defer]
    refine wp_mono (h t [] ⟨hattached, ht.tracked⟩ ht.holds) ?_ ?_
    · intro _ u hu
      exact ⟨mt hL.1 hu.1, clean_dropEnv env ⟨hu.2.1.2, hu.2.2⟩⟩
    · rintro _ u ⟨hready, lost, hlost, hholds⟩
      exact leftover_dropEnv env hready ⟨lost, hlost.trans hL.symm, hholds⟩
  · rintro _ t ⟨-, hevents, hattaches⟩
    exact (hs.congr hevents).leftover fun h ↦ hattaches h.1

theorem conserves_withAttached {body : SessionM ω S α} (h : Settles account body [] fun _ ↦ []) :
    Conserves (withAttached vm body) := by
  intro s hs
  have hbody : ConservesUnless (fun s ↦ vm.OnceAttached (fun _ ↦ False) s.world s.thread)
      (withAttached vm body) := conservesUnless_withAttached (.of_settles h fun _ ↦ not_false)
  exact wp_mono (hbody s hs) (fun _ _ ht ↦ ht.2) fun _ _ ht ↦ ht.1 And.right

end Conserves

end JavaBridge.Java.Members

import JavaBridge.Art.Memory
import JavaBridge.Art.Strings
import JavaBridge.Descriptor.Names
import JavaBridge.Library.Fallible

/-!
# Enumeration

The class loaders, the loaded classes and the instances of a class, as visitors of the runtime give
them: each object that is wanted gets a global reference, which may be refused.

Main results:

* `wp_promoteLoaders`, `visitUntil_class`: a walk that goes through has a reference for each object;
  one that is cut short leaves those before the cut.
* `wp_enumerateHeapInstanceHandles`: the references to instances are handed out or deleted.
-/

namespace JavaBridge.Art

def FEATURE_HEAP_ENUMERATION : String := "ART heap enumeration"

/-! ## Global references -/

/-- The global references of the VM, each with its object. -/
structure GlobalRefs (R : Type) where
  live : List (R × BitVec 64)
  /-- How often a reference was asked for. -/
  calls : Nat

/-- An exception that is pending: its object, and the text that `throwable_to_string` makes of it. -/
structure PendingException where
  object : BitVec 64
  summary : String

/-- What the VM answers where a reference is asked for. -/
structure RefAnswers (θ R : Type) where
  /-- The request is refused. -/
  refused : Nat → Bool
  /-- The exception that is pending behind a request of `NewGlobalRef`: one that was pending before,
  or that it has raised. -/
  pending : Nat → Option PendingException
  /-- A reference that is not in use. -/
  fresh : (live : List (R × BitVec 64)) → { raw : R // raw ∉ live.map Prod.fst }
  /-- `JavaThrowable::from_global_raw`. -/
  throwable : R → θ

/-- The runtime, as the visitors find it. -/
structure ArtRuntime (θ R : Type) where
  memory : MemoryRanges
  contents : ByteMemory
  references : RefAnswers θ R
  getClassDescriptor : BitVec 64 → Option (List UInt8)
  prettyMethod : BitVec 64 → Bool → ArtStdString
  /-- The bytes from a pointer to characters on. -/
  chars : BitVec 64 → List UInt8

section

variable {θ R : Type}

/-- `JavaVMExt::AddGlobalRef`: a reference, or null. -/
def addGlobalRef (art : ArtRuntime θ R) (object : BitVec 64) :
    EStateM (Error θ) (GlobalRefs R) (Option R) :=
  modifyGet fun refs ↦
    if art.references.refused refs.calls then (none, ⟨refs.live, refs.calls + 1⟩)
    else
      let raw := art.references.fresh refs.live
      (some raw, ⟨refs.live ++ [(raw.1, object)], refs.calls + 1⟩)

/-- `global_throwable_from_local`. -/
def globalThrowableFromLocal (art : ArtRuntime θ R) (exception : BitVec 64) :
    EStateM (Error θ) (GlobalRefs R) (Option θ) := do
  let request := (← get).calls
  let global ← addGlobalRef art exception
  match art.references.pending request with
  -- the exception is cleared, and the reference is forgotten
  | some _ => pure none
  | none => pure (global.map art.references.throwable)

/-- `check_pending_exception`, with the exception that is pending. -/
def checkPendingException (art : ArtRuntime θ R) (operation : String) :
    Option PendingException → EStateM (Error θ) (GlobalRefs R) Unit
  | none => pure ()
  | some exception => do
    if exception.object = 0 then throw (.javaException operation "unknown Java exception" none)
    else
      let throwable ← globalThrowableFromLocal art exception.object
      throw (.javaException operation exception.summary throwable)

/-- `NewGlobalRef`, of an object or of null. -/
def requestGlobalRef (art : ArtRuntime θ R) :
    Option (BitVec 64) → EStateM (Error θ) (GlobalRefs R) (Option R)
  | none => modifyGet fun refs ↦ (none, { refs with calls := refs.calls + 1 })
  | some object => addGlobalRef art object

/-- `new_global_ref_raw`. The check comes first, so that a reference that has been granted is
forgotten where an exception is pending. -/
def newGlobalRefRaw (art : ArtRuntime θ R) (object : Option (BitVec 64)) :
    EStateM (Error θ) (GlobalRefs R) (Option R) := do
  let request := (← get).calls
  let reference ← requestGlobalRef art object
  checkPendingException art "JNIEnv::NewGlobalRef" (art.references.pending request)
  if object.isNone ∨ reference.isSome then pure reference
  else throw (.nullReturn "JNIEnv::NewGlobalRef")

/-- `new_global_ref`, of an object. -/
def newGlobalRef (art : ArtRuntime θ R) (object : BitVec 64) :
    EStateM (Error θ) (GlobalRefs R) R := do
  match ← newGlobalRefRaw art (some object) with
  | some raw => pure raw
  | none => throw (.nullReturn "JNI global reference")

/-- A handle is null, or the place of a reference to its object. -/
def handleObject (art : ArtRuntime θ R) (handle : BitVec 64) : Option (BitVec 64) :=
  if handle = 0 then none else some (BitVec.ofNat 64 (art.contents.load handle 4))

def deleteGlobalRefRaw [DecidableEq R] (raw : R) (refs : GlobalRefs R) : GlobalRefs R :=
  { refs with live := refs.live.filter (·.1 ≠ raw) }

def deleteGlobalRefs [DecidableEq R] (raws : List R) (refs : GlobalRefs R) : GlobalRefs R :=
  raws.foldl (fun refs raw ↦ deleteGlobalRefRaw raw refs) refs

/-- A walk that starts with nothing taken in, and deletes the references that it has taken in where
it fails. -/
def deletingOnError [DecidableEq R] {σ α : Type} (refs : σ → GlobalRefs R) (raws : σ → List R)
    (start : GlobalRefs R → σ) (result : σ → α) (walk : EStateM (Error θ) σ Unit) :
    EStateM (Error θ) (GlobalRefs R) α := fun s ↦
  match walk (start s) with
  | .ok _ t => .ok (result t) (refs t)
  | .error error t => .error error (deleteGlobalRefs (raws t) (refs t))

/-! ## Class loaders -/

structure ArtClassLoaderHandle (R : Type) where
  raw : R
  deriving DecidableEq

/-- The loop over the loaders that the visitor took. -/
def promoteLoaders (art : ArtRuntime θ R) :
    List R → List (BitVec 64) → EStateM (Error θ) (GlobalRefs R) (List R)
  | loaderGlobals, [] => pure loaderGlobals
  | loaderGlobals, loader :: loaders => do
    match ← addGlobalRef art loader with
    | none => throw (.nullReturn "JavaVMExt::AddGlobalRef")
    | some global => promoteLoaders art (loaderGlobals ++ [global]) loaders

/-- What the calls before a walk give: the support of the feature, the attachment of the thread and
the layout, then the transition to a runnable thread. -/
abbrev Prepared (θ : Type) := Except (Error θ) Unit

/-- `visited` is what `VisitClassLoaders` passes to the visitor. -/
def enumerateClassLoaderHandles (art : ArtRuntime θ R) (prepared : Prepared θ)
    (visited : List (BitVec 64)) :
    EStateM (Error θ) (GlobalRefs R) (List (ArtClassLoaderHandle R)) := do
  MonadExcept.ofExcept prepared
  let loaderGlobals ← promoteLoaders art [] (visited.filter (· ≠ 0))
  pure (loaderGlobals.map fun raw ↦ ⟨raw⟩)

/-! ## Loaded classes -/

structure ArtLoadedClassHandle (R : Type) where
  name : String
  raw : R
  deriving DecidableEq

structure ArtClassProcessor (θ R : Type) where
  seen : List (BitVec 64)
  classes : List (ArtLoadedClassHandle R)
  error : Option (Error θ)

/-- A walk of `VisitClasses`, until the visitor says that it is enough. Null pointers are passed
over. -/
def visitUntil {σ : Type} (visit : BitVec 64 → σ → Bool × σ) : List (BitVec 64) → σ → σ
  | [], s => s
  | holder :: classes, s =>
    if holder = 0 then visitUntil visit classes s
    else
      match visit holder s with
      | (true, s) => visitUntil visit classes s
      | (false, s) => s

namespace ArtClassProcessor

def promote (art : ArtRuntime θ R) (holder : BitVec 64) :
    EStateM (Error θ) (GlobalRefs R) (ArtLoadedClassHandle R) := do
  let descriptor ← MonadExcept.ofExcept (classDescriptorFromArt (art.getClassDescriptor holder))
  match ← addGlobalRef art holder with
  | none => throw (.nullReturn "JavaVMExt::AddGlobalRef")
  | some raw => pure ⟨classNameFromDescriptor descriptor, raw⟩

def visit (art : ArtRuntime θ R) (holder : BitVec 64)
    (s : ArtClassProcessor θ R × GlobalRefs R) : Bool × ArtClassProcessor θ R × GlobalRefs R :=
  let (processor, refs) := s
  if holder ∈ processor.seen then (true, processor, refs)
  else
    let seen := processor.seen ++ [holder]
    match promote art holder refs with
    | .ok handle refs => (true, ⟨seen, processor.classes ++ [handle], processor.error⟩, refs)
    | .error error refs => (false, ⟨seen, processor.classes, some error⟩, refs)

end ArtClassProcessor

def enumerateLoadedClassHandles (art : ArtRuntime θ R) (prepared : Prepared θ)
    (visited : List (BitVec 64)) :
    EStateM (Error θ) (GlobalRefs R) (List (ArtLoadedClassHandle R)) := do
  MonadExcept.ofExcept prepared
  let (processor, refs) :=
    visitUntil (ArtClassProcessor.visit art) visited (⟨[], [], none⟩, ← get)
  set refs
  match processor.error with
  | some error => throw error
  | none => pure processor.classes

/-! ## Instances -/

/-- Null only for a handle that is null. -/
structure ArtHeapInstanceHandle (R : Type) where
  raw : Option R
  deriving DecidableEq

/-- The references and the instances that have one. -/
structure HeapQuery (R : Type) where
  instances : List (ArtHeapInstanceHandle R)
  refs : GlobalRefs R

/-- Runs a function of the references. -/
def HeapQuery.onRefs {α : Type} (x : EStateM (Error θ) (GlobalRefs R) α) :
    EStateM (Error θ) (HeapQuery R) α :=
  Fallible.zoom HeapQuery.refs (fun refs s ↦ { s with refs := refs }) x

def HeapQuery.push (raw : Option R) (s : HeapQuery R) : HeapQuery R :=
  { s with instances := s.instances ++ [⟨raw⟩] }

def objectClassReference (art : ArtRuntime θ R) (object : BitVec 64) : BitVec 32 :=
  BitVec.ofNat 32 (art.contents.load object 4)

/-- `ArtHeapInstanceProcessor::visit`, for each object that `Heap::VisitObjects` passes. -/
def visitHeapObjects (art : ArtRuntime θ R) (needleClassReference : BitVec 32) :
    List (BitVec 64) → EStateM (Error θ) (HeapQuery R) Unit
  | [] => pure ()
  | object :: objects => do
    if object = 0 ∨ objectClassReference art object ≠ needleClassReference then pure ()
    else
      match ← HeapQuery.onRefs (addGlobalRef art object) with
      | some raw => modify (HeapQuery.push (some raw))
      | none => pure ()
    visitHeapObjects art needleClassReference objects

/-- The loop over the handles that `Heap::GetInstances` gives. -/
def promoteHandles (art : ArtRuntime θ R) :
    List (BitVec 64) → EStateM (Error θ) (HeapQuery R) Unit
  | [] => pure ()
  | handle :: handles => do
    let raw ← HeapQuery.onRefs (newGlobalRefRaw art (handleObject art handle))
    modify (HeapQuery.push raw)
    promoteHandles art handles

/-- What the runtime answers to a walk over the heap. -/
structure HeapAnswers (θ : Type) where
  prepared : Prepared θ
  /-- The object of the class, where the symbol is there. -/
  decodeGlobal : Option (BitVec 64)
  /-- What `Heap::VisitObjects` passes, where the symbol is there. -/
  visitObjects : Option (List (BitVec 64))
  /-- What `Heap::GetInstances` fills in, where the symbol is there. -/
  getInstances : Option (List (BitVec 64))
  /-- The memory ranges, the handle scope and the handle of the class. -/
  scope : Except (Error θ) Unit
  attached : Except (Error θ) Unit

def decodeGlobalObjectReference (answers : HeapAnswers θ) : Except (Error θ) (BitVec 32) :=
  match answers.decodeGlobal with
  | none =>
    .error (.unsupportedFeature FEATURE_HEAP_ENUMERATION "JavaVMExt::DecodeGlobal is unavailable")
  | some decoded =>
    if decoded = 0 then .error (.nullReturn "JavaVMExt::DecodeGlobal")
    else .ok (decoded.setWidth 32)

def chooseInstances (art : ArtRuntime θ R) (answers : HeapAnswers θ) :
    EStateM (Error θ) (HeapQuery R) Unit := do
  let needle ← MonadExcept.ofExcept (decodeGlobalObjectReference answers)
  match answers.visitObjects with
  | some objects => visitHeapObjects art needle objects
  | none =>
    match answers.getInstances with
    | none =>
      throw (.unsupportedFeature FEATURE_HEAP_ENUMERATION
        "Heap::VisitObjects and Heap::GetInstances are unavailable")
    | some handles =>
      MonadExcept.ofExcept answers.scope
      MonadExcept.ofExcept answers.attached
      promoteHandles art handles

def enumerateHeapInstanceHandles [DecidableEq R] (art : ArtRuntime θ R) (answers : HeapAnswers θ) :
    EStateM (Error θ) (GlobalRefs R) (List (ArtHeapInstanceHandle R)) := do
  MonadExcept.ofExcept answers.prepared
  deletingOnError HeapQuery.refs (fun s ↦ s.instances.filterMap (·.raw)) (HeapQuery.mk [])
    HeapQuery.instances (chooseInstances art answers)

end

/-! ## References that are made -/

section

variable {θ R : Type} {art : ArtRuntime θ R} {s t u : GlobalRefs R}
  {created more : List (R × BitVec 64)}

/-- The references of `created` have been made, and nothing else has changed. -/
structure Extends (s t : GlobalRefs R) (created : List (R × BitVec 64)) : Prop where
  live : t.live = s.live ++ created
  fresh : ∀ raw ∈ created.map Prod.fst, raw ∉ s.live.map Prod.fst

theorem Extends.refl (s : GlobalRefs R) : Extends s s [] where
  live := (List.append_nil _).symm
  fresh := nofun

theorem Extends.of_live (h : t.live = s.live) : Extends s t [] where
  live := by rw [h, List.append_nil]
  fresh := nofun

theorem Extends.trans (h : Extends s t created) (h' : Extends t u more) :
    Extends s u (created ++ more) where
  live := by rw [h'.live, h.live, List.append_assoc]
  fresh raw hraw := by
    rw [List.map_append] at hraw
    rcases List.mem_append.1 hraw with hraw | hraw
    · exact h.fresh raw hraw
    · intro hold
      refine h'.fresh raw hraw ?_
      rw [h.live, List.map_append]
      exact List.mem_append_left _ hold

theorem deleteGlobalRefs_live [DecidableEq R] (raws : List R) (s : GlobalRefs R) :
    (deleteGlobalRefs raws s).live = s.live.filter (·.1 ∉ raws) := by
  induction raws generalizing s with
  | nil => simp [deleteGlobalRefs]
  | cons raw raws ih =>
    rw [deleteGlobalRefs, List.foldl_cons, ← deleteGlobalRefs, ih, deleteGlobalRefRaw,
      List.filter_filter]
    congr 1
    funext ref
    simp [not_or, Bool.and_comm]

/-- What was made and is deleted leaves the references as they were. -/
theorem Extends.deleteGlobalRefs [DecidableEq R] (h : Extends s t created) :
    (deleteGlobalRefs (created.map Prod.fst) t).live = s.live := by
  rw [deleteGlobalRefs_live, h.live, List.filter_append, List.filter_eq_self.2, List.filter_eq_nil_iff.2,
    List.append_nil]
  · intro ref href
    simpa using ⟨ref.2, href⟩
  · intro ref href
    rw [decide_eq_true_eq]
    exact fun hraw ↦ h.fresh ref.1 hraw (List.mem_map_of_mem href)

theorem wp_addGlobalRef {object : BitVec 64} {E : Error θ → GlobalRefs R → Prop} :
    Fallible.wp (addGlobalRef art object)
      (fun answer t ↦ t.calls = s.calls + 1 ∧
        match answer with
        | none => art.references.refused s.calls = true ∧ t.live = s.live
        | some raw => art.references.refused s.calls = false ∧ Extends s t [(raw, object)]) E s := by
  rw [addGlobalRef, Fallible.wp_modifyGet]
  split
  · next hrefused => exact ⟨rfl, hrefused, rfl⟩
  · next hgiven =>
    refine ⟨rfl, Bool.eq_false_iff.2 hgiven, rfl, ?_⟩
    intro raw hraw
    obtain rfl := List.mem_singleton.1 hraw
    exact (art.references.fresh s.live).2

/-! ### Exceptions -/

/-- A reference to the exception is made. -/
def Captures (art : ArtRuntime θ R) (request : Nat) (exception : PendingException) : Prop :=
  exception.object ≠ 0 ∧ art.references.refused request = false

/-- What is forgotten or handed out with an error: nothing exactly where `C` holds. -/
def Leaves (C : Prop) (s t : GlobalRefs R) : Prop :=
  ∃ created, Extends s t created ∧ (created = [] ↔ C)

theorem Leaves.of_live {C : Prop} (h : t.live = s.live) (hC : C) : Leaves C s t :=
  ⟨[], .of_live h, iff_of_true rfl hC⟩

/-- What a check leaves, behind a request that has made some references. -/
theorem Extends.leaves {C : Prop} (h : Extends s t created) (h' : Leaves C t u) :
    Leaves (created = [] ∧ C) s u := by
  obtain ⟨more, hmore, hC⟩ := h'
  exact ⟨created ++ more, h.trans hmore, by rw [List.append_eq_nil_iff, hC]⟩

theorem wp_globalThrowableFromLocal {exception : BitVec 64} {Q : GlobalRefs R → Prop}
    (hQ : ∀ t, Leaves (art.references.refused s.calls = true) s t → Q t) :
    Fallible.wp (globalThrowableFromLocal art exception) (fun _ t ↦ Q t) (fun _ _ ↦ False) s := by
  rw [globalThrowableFromLocal, Fallible.wp_bind, Fallible.wp_get, Fallible.wp_bind]
  refine Fallible.wp_mono wp_addGlobalRef ?_ fun _ _ h ↦ h
  rintro answer t ⟨-, hanswer⟩
  have ht : Q t := by
    refine hQ t ?_
    cases answer with
    | none => exact .of_live hanswer.2 hanswer.1
    | some raw =>
      refine ⟨_, hanswer.2, iff_of_false (List.cons_ne_nil _ _) ?_⟩
      rw [hanswer.1]
      exact Bool.false_ne_true
  split
  · exact ht
  · exact ht

/-- A check that finds an exception leaves a reference to it, unless that is refused. -/
theorem wp_checkPendingException {operation : String} {exception : PendingException} :
    Fallible.wp (checkPendingException art operation (some exception)) (fun _ _ ↦ False)
      (fun _ t ↦ Leaves (¬Captures art s.calls exception) s t) s := by
  rw [checkPendingException, Fallible.wp_ite]
  constructor
  · intro hnull
    exact .of_live rfl fun h ↦ h.1 hnull
  · intro hobject
    rw [Fallible.wp_bind]
    refine Fallible.wp_mono (wp_globalThrowableFromLocal fun t ht ↦ ?_) (fun _ _ h ↦ h)
      fun _ _ h ↦ h.elim
    obtain ⟨created, hextends, hnil⟩ := ht
    refine ⟨created, hextends, hnil.trans ?_⟩
    rw [Captures, and_iff_right hobject, Bool.not_eq_false]

/-- The request comes back with a reference, or with null for null. -/
def Served (art : ArtRuntime θ R) (request : Nat) (object : Option (BitVec 64)) : Prop :=
  art.references.pending request = none ∧
    (object.isSome → art.references.refused request = false)

/-- A request that does not leaves nothing: neither a reference that it has been granted, nor one to
the exception. -/
def LeavesNothing (art : ArtRuntime θ R) (request : Nat) (object : Option (BitVec 64)) : Prop :=
  ∀ exception, art.references.pending request = some exception →
    (object.isSome → art.references.refused request = true) ∧ ¬Captures art (request + 1) exception

theorem Served.leavesNothing {request : Nat} {object : Option (BitVec 64)}
    (h : Served art request object) : LeavesNothing art request object :=
  fun _ hpending ↦ nomatch h.1.symm.trans hpending

/-- The references that a request makes. -/
def requested (object : Option (BitVec 64)) (reference : Option R) : List (R × BitVec 64) :=
  (reference.bind fun raw ↦ object.map fun object ↦ (raw, object)).toList

theorem wp_requestGlobalRef {object : Option (BitVec 64)} {E : Error θ → GlobalRefs R → Prop} :
    Fallible.wp (requestGlobalRef art object)
      (fun reference t ↦ t.calls = s.calls + 1 ∧ Extends s t (requested object reference) ∧
        (reference.isSome ↔ object.isSome ∧ art.references.refused s.calls = false)) E s := by
  cases object with
  | none =>
    rw [requestGlobalRef, Fallible.wp_modifyGet]
    exact ⟨rfl, .of_live rfl, iff_of_false nofun fun h ↦ Bool.false_ne_true h.1⟩
  | some object =>
    refine Fallible.wp_mono wp_addGlobalRef ?_ fun _ _ h ↦ h
    rintro (_ | raw) t ⟨hcalls, hanswer⟩
    · refine ⟨hcalls, .of_live hanswer.2, ?_⟩
      rw [hanswer.1]
      exact iff_of_false nofun fun h ↦ Bool.noConfusion h.2
    · exact ⟨hcalls, hanswer.2, iff_of_true rfl ⟨rfl, hanswer.1⟩⟩

/-- What is left of a request is nothing exactly where it gave no reference. -/
theorem requested_eq_nil_iff {object : Option (BitVec 64)} {reference : Option R} {granted : Prop}
    (h : reference.isSome ↔ object.isSome ∧ granted) :
    requested object reference = [] ↔ (object.isSome → ¬granted) := by
  rw [← not_and, ← h]
  cases reference with
  | none => exact iff_of_true rfl Bool.false_ne_true
  | some raw =>
    obtain ⟨object, rfl⟩ := Option.isSome_iff_exists.mp (h.mp rfl).1
    exact iff_of_false (List.cons_ne_nil _ _) (absurd rfl)

theorem wp_newGlobalRefRaw {object : Option (BitVec 64)} :
    Fallible.wp (newGlobalRefRaw art object)
      (fun reference t ↦ Served art s.calls object ∧ t.calls = s.calls + 1 ∧
        reference.isSome = object.isSome ∧ Extends s t (requested object reference))
      (fun _ t ↦ ¬Served art s.calls object ∧ Leaves (LeavesNothing art s.calls object) s t)
      s := by
  rw [newGlobalRefRaw, Fallible.wp_bind, Fallible.wp_get, Fallible.wp_bind]
  refine Fallible.wp_mono wp_requestGlobalRef ?_ fun _ _ h ↦ h
  rintro reference t ⟨hcalls, hextends, hsome⟩
  cases hpending : art.references.pending s.calls with
  | some exception =>
    rw [Fallible.wp_bind]
    refine Fallible.wp_mono wp_checkPendingException (fun _ _ h ↦ h.elim) ?_
    rintro _ u hu
    refine ⟨fun h ↦ (nomatch hpending.symm.trans h.1), ?_⟩
    obtain ⟨left, hleft, hnil⟩ := hextends.leaves hu
    refine ⟨left, hleft, hnil.trans ?_⟩
    rw [requested_eq_nil_iff hsome, LeavesNothing, hpending, hcalls]
    simp only [Option.some.injEq, forall_eq', Bool.not_eq_false]
  | none =>
    show Fallible.wp (if object.isNone ∨ reference.isSome then _ else _) _ _ t
    rw [Fallible.wp_ite]
    constructor
    · intro hserved
      have hobject : object.isSome → reference.isSome := fun hobject ↦
        hserved.resolve_left (Option.isSome_iff_ne_none.mp hobject ∘ Option.isNone_iff_eq_none.mp)
      refine ⟨⟨hpending, fun h ↦ (hsome.mp (hobject h)).2⟩, hcalls, ?_, hextends⟩
      exact Bool.eq_iff_iff.mpr ⟨fun h ↦ (hsome.mp h).1, hobject⟩
    · intro hnull
      obtain ⟨hobject, hreference⟩ := not_or.mp hnull
      rw [Option.isNone_iff_eq_none, ← ne_eq, Option.ne_none_iff_isSome] at hobject
      refine ⟨fun h ↦ hreference (hsome.mpr ⟨hobject, h.2 hobject⟩), ?_⟩
      obtain rfl := Option.not_isSome_iff_eq_none.mp hreference
      refine ⟨[], hextends, iff_of_true rfl fun exception hexception ↦ ?_⟩
      cases hpending.symm.trans hexception

theorem wp_newGlobalRef {object : BitVec 64} :
    Fallible.wp (newGlobalRef art object)
      (fun raw t ↦ Served art s.calls (some object) ∧ t.calls = s.calls + 1 ∧
        Extends s t [(raw, object)])
      (fun _ t ↦ ¬Served art s.calls (some object) ∧
        Leaves (LeavesNothing art s.calls (some object)) s t) s := by
  rw [newGlobalRef, Fallible.wp_bind]
  refine Fallible.wp_mono wp_newGlobalRefRaw ?_ fun _ _ h ↦ h
  rintro (_ | raw) t ⟨hserved, hcalls, hsome, hextends⟩
  · cases hsome
  · exact ⟨hserved, hcalls, hextends⟩

/-! ## Walks -/

/-- `P` holds of every object with the number of its request, which is `start` for the first. -/
def AllFrom (P : Nat → BitVec 64 → Prop) : Nat → List (BitVec 64) → Prop
  | _, [] => True
  | start, object :: objects => P start object ∧ AllFrom P (start + 1) objects

/-- A walk that goes through: every object has a reference. -/
def WentThrough (P : Nat → BitVec 64 → Prop) (objects : List (BitVec 64)) (s t : GlobalRefs R)
    (created : List (R × BitVec 64)) : Prop :=
  AllFrom P s.calls objects ∧ Extends s t created ∧ created.map Prod.snd = objects

/-- A walk that is cut short: the objects before the cut have references. -/
def CutShort (P : Nat → BitVec 64 → Prop) (objects : List (BitVec 64)) (s t : GlobalRefs R)
    (created : List (R × BitVec 64)) : Prop :=
  ∃ object rest, objects = created.map Prod.snd ++ object :: rest ∧
    AllFrom P s.calls (created.map Prod.snd) ∧ ¬P (s.calls + created.length) object ∧
    Extends s t created

section

variable {P : Nat → BitVec 64 → Prop} {object : BitVec 64} {objects : List (BitVec 64)} {raw : R}

theorem WentThrough.nil : WentThrough P [] s s [] := ⟨trivial, .refl s, rfl⟩

theorem WentThrough.cons (hP : P s.calls object) (h : Extends s t [(raw, object)])
    (hcalls : t.calls = s.calls + 1) (ht : WentThrough P objects t u created) :
    WentThrough P (object :: objects) s u ((raw, object) :: created) := by
  obtain ⟨hall, hextends, rfl⟩ := ht
  exact ⟨⟨hP, hcalls ▸ hall⟩, h.trans hextends, rfl⟩

theorem CutShort.head (hP : ¬P s.calls object) (ht : t.live = s.live) :
    CutShort P (object :: objects) s t [] :=
  ⟨object, objects, rfl, trivial, hP, .of_live ht⟩

theorem CutShort.cons (hP : P s.calls object) (h : Extends s t [(raw, object)])
    (hcalls : t.calls = s.calls + 1) (ht : CutShort P objects t u created) :
    CutShort P (object :: objects) s u ((raw, object) :: created) := by
  obtain ⟨cut, rest, rfl, hall, hcut, hextends⟩ := ht
  refine ⟨cut, rest, rfl, ⟨hP, hcalls ▸ hall⟩, ?_, h.trans hextends⟩
  rw [hcalls] at hcut
  rwa [List.length_cons, ← Nat.add_assoc, Nat.add_right_comm]

end

/-- What every visit keeps, a walk keeps. -/
theorem visitUntil_invariant {σ : Type} {visit : BitVec 64 → σ → Bool × σ} {I : σ → Prop}
    (hvisit : ∀ holder s, I s → I (visit holder s).2) {s : σ} (hs : I s)
    (visited : List (BitVec 64)) : I (visitUntil visit visited s) := by
  induction visited generalizing s with
  | nil => exact hs
  | cons holder visited ih =>
    rw [visitUntil]
    split
    · exact ih hs
    · have hnext := hvisit holder s hs
      split
      · next t ht =>
        rw [ht] at hnext
        exact ih hnext
      · next t ht =>
        rw [ht] at hnext
        exact hnext

/-! ### Class loaders -/

/-- The request is granted. -/
def Granted (art : ArtRuntime θ R) (request : Nat) (_object : BitVec 64) : Prop :=
  art.references.refused request = false

theorem wp_promoteLoaders (loaderGlobals : List R) (loaders : List (BitVec 64)) :
    Fallible.wp (promoteLoaders art loaderGlobals loaders)
      (fun globals t ↦ ∃ created, WentThrough (Granted art) loaders s t created ∧
        globals = loaderGlobals ++ created.map Prod.fst)
      (fun _ t ↦ ∃ created, CutShort (Granted art) loaders s t created) s := by
  induction loaders generalizing s loaderGlobals with
  | nil => exact ⟨[], .nil, (List.append_nil _).symm⟩
  | cons loader loaders ih =>
    rw [promoteLoaders, Fallible.wp_bind]
    refine Fallible.wp_mono wp_addGlobalRef ?_ fun _ _ h ↦ h
    rintro (_ | raw) t ⟨hcalls, hanswer⟩
    · refine ⟨[], .head ?_ hanswer.2⟩
      rw [Granted, hanswer.1]
      exact nofun
    · refine Fallible.wp_mono (ih (loaderGlobals ++ [raw])) ?_ ?_
      · rintro globals u ⟨created, hthrough, rfl⟩
        refine ⟨(raw, loader) :: created, hthrough.cons hanswer.1 hanswer.2 hcalls, ?_⟩
        rw [List.append_assoc, List.map_cons, List.singleton_append]
      · rintro _ u ⟨created, hcut⟩
        exact ⟨_, hcut.cons hanswer.1 hanswer.2 hcalls⟩

/-! ### Loaded classes -/

/-- The classes of a walk that have not been seen, in the order they come. -/
def newClasses : List (BitVec 64) → List (BitVec 64) → List (BitVec 64)
  | _, [] => []
  | seen, holder :: classes =>
    if holder = 0 ∨ holder ∈ seen then newClasses seen classes
    else holder :: newClasses (seen ++ [holder]) classes

/-- The descriptor can be read, and the request is granted. -/
def Promotable (art : ArtRuntime θ R) (request : Nat) (holder : BitVec 64) : Prop :=
  (∃ descriptor, classDescriptorFromArt (θ := θ) (art.getClassDescriptor holder) = .ok descriptor) ∧
    Granted art request holder

theorem wp_promote (art : ArtRuntime θ R) (holder : BitVec 64) (s : GlobalRefs R) :
    Fallible.wp (ArtClassProcessor.promote art holder)
      (fun handle t ↦ Promotable art s.calls holder ∧ t.calls = s.calls + 1 ∧
        Extends s t [(handle.raw, holder)])
      (fun _ t ↦ ¬Promotable art s.calls holder ∧ t.live = s.live) s := by
  rw [ArtClassProcessor.promote, Fallible.wp_bind, Fallible.wp_ofExcept]
  constructor
  · intro descriptor hdescriptor
    rw [Fallible.wp_bind]
    refine Fallible.wp_mono wp_addGlobalRef ?_ fun _ _ h ↦ h
    rintro (_ | raw) t ⟨hcalls, hanswer⟩
    · refine ⟨fun h ↦ ?_, hanswer.2⟩
      rw [Promotable, Granted, hanswer.1] at h
      exact absurd h.2 nofun
    · exact ⟨⟨⟨descriptor, hdescriptor⟩, hanswer.1⟩, hcalls, hanswer.2⟩
  · intro error herror
    refine ⟨?_, rfl⟩
    rintro ⟨⟨descriptor, hdescriptor⟩, -⟩
    rw [herror] at hdescriptor
    cases hdescriptor

/-- What a walk over classes leaves: handles of all that are new, or an error. -/
theorem visitUntil_class (art : ArtRuntime θ R) (visited seen : List (BitVec 64))
    (classes : List (ArtLoadedClassHandle R)) (s : GlobalRefs R) :
    ∃ created,
      WentThrough (Promotable art) (newClasses seen visited) s
          (visitUntil (ArtClassProcessor.visit art) visited (⟨seen, classes, none⟩, s)).2 created ∧
        (visitUntil (ArtClassProcessor.visit art) visited (⟨seen, classes, none⟩, s)).1.error =
          none ∧
        (visitUntil (ArtClassProcessor.visit art) visited
            (⟨seen, classes, none⟩, s)).1.classes.map (·.raw) =
          classes.map (·.raw) ++ created.map Prod.fst ∨
      CutShort (Promotable art) (newClasses seen visited) s
          (visitUntil (ArtClassProcessor.visit art) visited (⟨seen, classes, none⟩, s)).2 created ∧
        (visitUntil (ArtClassProcessor.visit art) visited (⟨seen, classes, none⟩, s)).1.error ≠
          none := by
  induction visited generalizing seen classes s with
  | nil => exact ⟨[], .inl ⟨.nil, rfl, (List.append_nil _).symm⟩⟩
  | cons holder visited ih =>
    rw [visitUntil, newClasses]
    by_cases hnull : holder = 0
    · rw [if_pos hnull, if_pos (.inl hnull)]
      exact ih seen classes s
    · rw [if_neg hnull, ArtClassProcessor.visit]
      by_cases hseen : holder ∈ seen
      · rw [if_pos hseen, if_pos (.inr hseen)]
        exact ih seen classes s
      · rw [if_neg hseen, if_neg (not_or.2 ⟨hnull, hseen⟩)]
        have hpromote := wp_promote art holder s
        rw [Fallible.wp] at hpromote
        split at hpromote
        · next handle t hrun =>
          obtain ⟨hP, hcalls, hextends⟩ := hpromote
          rw [hrun]
          obtain ⟨created, ⟨hthrough, hnone, hclasses⟩ | ⟨hcut, hsome⟩⟩ :=
            ih (seen ++ [holder]) (classes ++ [handle]) t
          · refine ⟨_, .inl ⟨hthrough.cons hP hextends hcalls, hnone, ?_⟩⟩
            rw [hclasses]
            simp
          · exact ⟨_, .inr ⟨hcut.cons hP hextends hcalls, hsome⟩⟩
        · next error t hrun =>
          rw [hrun]
          exact ⟨[], .inr ⟨.head hpromote.1 hpromote.2, nofun⟩⟩

/-! ### Instances -/

/-- The references that were made since `s` are those that the state has taken in. -/
def TakenIn {σ : Type} (refs : σ → GlobalRefs R) (raws : σ → List R) (s t : σ) : Prop :=
  ∃ created, Extends (refs s) (refs t) created ∧ raws t = raws s ++ created.map Prod.fst

section

variable {σ : Type} {refs : σ → GlobalRefs R} {raws : σ → List R} {s t u : σ}

theorem TakenIn.of_live (hrefs : (refs t).live = (refs s).live) (hraws : raws t = raws s) :
    TakenIn refs raws s t :=
  ⟨[], .of_live hrefs, by rw [hraws, List.map_nil, List.append_nil]⟩

theorem TakenIn.trans (h : TakenIn refs raws s t) (h' : TakenIn refs raws t u) :
    TakenIn refs raws s u := by
  obtain ⟨created, hextends, hraws⟩ := h
  obtain ⟨more, hextends', hraws'⟩ := h'
  refine ⟨created ++ more, hextends.trans hextends', ?_⟩
  rw [hraws', hraws, List.map_append, List.append_assoc]

/-- What is lost behind the references that the state has taken in: nothing exactly where `C`
holds. -/
def Loses (C : Prop) (refs : σ → GlobalRefs R) (raws : σ → List R) (s t : σ) : Prop :=
  ∃ u, TakenIn refs raws s u ∧ Leaves C (refs u) (refs t) ∧ raws t = raws u

theorem TakenIn.loses {C : Prop} (h : TakenIn refs raws s t) (hC : C) : Loses C refs raws s t :=
  ⟨t, h, .of_live rfl hC, rfl⟩

theorem Loses.after {C : Prop} (h : TakenIn refs raws s t) (h' : Loses C refs raws t u) :
    Loses C refs raws s u := by
  obtain ⟨v, hv, hleaves, hraws⟩ := h'
  exact ⟨v, h.trans hv, hleaves, hraws⟩

theorem Loses.congr {C D : Prop} (h : Loses C refs raws s t) (hCD : C ↔ D) :
    Loses D refs raws s t :=
  propext hCD ▸ h

/-- What was taken in is deleted, and what was lost remains. -/
theorem Loses.deleteGlobalRefs [DecidableEq R] {C : Prop} (h : Loses C refs raws s t)
    (hs : raws s = []) : Leaves C (refs s) (deleteGlobalRefs (raws t) (refs t)) := by
  obtain ⟨u, ⟨created, hcreated, hu⟩, ⟨left, hleft, hC⟩, ht⟩ := h
  refine ⟨left, ⟨?_, fun raw hraw hold ↦ hleft.fresh raw hraw ?_⟩, hC⟩
  · have hdeleted := hcreated.deleteGlobalRefs
    rw [deleteGlobalRefs_live] at hdeleted ⊢
    rw [hleft.live, List.filter_append, ht, hu, hs, List.nil_append, hdeleted,
      List.filter_eq_self.2]
    intro ref href
    rw [decide_eq_true_eq]
    intro hmade
    refine hleft.fresh ref.1 (List.mem_map_of_mem href) ?_
    rw [hcreated.live, List.map_append]
    exact List.mem_append_right _ hmade
  · rw [hcreated.live, List.map_append]
    exact List.mem_append_left _ hold

/-- A state that had taken in nothing has all that was made. -/
theorem TakenIn.live (h : TakenIn refs raws s t) (hs : raws s = []) :
    (refs t).live.map Prod.fst = (refs s).live.map Prod.fst ++ raws t := by
  obtain ⟨created, hextends, hraws⟩ := h
  rw [hraws, hs, hextends.live, List.map_append, List.nil_append]

theorem wp_deletingOnError_iff [DecidableEq R] {α : Type} {start : GlobalRefs R → σ}
    {result : σ → α} {walk : EStateM (Error θ) σ Unit} {s : GlobalRefs R}
    {Q : α → GlobalRefs R → Prop} {E : Error θ → GlobalRefs R → Prop} :
    Fallible.wp (deletingOnError refs raws start result walk) Q E s ↔
      Fallible.wp walk (fun _ t ↦ Q (result t) (refs t))
        (fun error t ↦ E error (Art.deleteGlobalRefs (raws t) (refs t))) (start s) := by
  unfold Fallible.wp deletingOnError
  cases walk (start s) <;> rfl

/-- A walk that takes in what it does not lose leaves what it hands out, or what it lost. -/
theorem wp_deletingOnError [DecidableEq R] {α : Type} (refs : σ → GlobalRefs R)
    (raws : σ → List R) {start : GlobalRefs R → σ} {result : σ → α}
    {walk : EStateM (Error θ) σ Unit} {C : Prop} (s : GlobalRefs R) (hrefs : refs (start s) = s)
    (hraws : raws (start s) = [])
    (hwalk : Fallible.wp walk (fun _ t ↦ C ∧ TakenIn refs raws (start s) t)
      (fun _ t ↦ Loses C refs raws (start s) t) (start s)) :
    Fallible.wp (deletingOnError refs raws start result walk)
      (fun a t ↦ C ∧ ∃ u, result u = a ∧ t.live.map Prod.fst = s.live.map Prod.fst ++ raws u)
      (fun _ t ↦ Leaves C s t) s := by
  rw [wp_deletingOnError_iff]
  refine Fallible.wp_mono hwalk ?_ ?_
  · rintro _ t ⟨hC, ht⟩
    have hlive := ht.live hraws
    rw [hrefs] at hlive
    exact ⟨hC, t, rfl, hlive⟩
  · intro _ t ht
    have hleaves := ht.deleteGlobalRefs hraws
    rwa [hrefs] at hleaves

end

/-- Each request leaves nothing, up to the first that does not come back with what it should. -/
def LeaveNothing (art : ArtRuntime θ R) : Nat → List (Option (BitVec 64)) → Prop
  | _, [] => True
  | request, object :: objects =>
    LeavesNothing art request object ∧
      (Served art request object → LeaveNothing art (request + 1) objects)

/-- The handles are promoted without a loss, where it comes to them. -/
def HeapAnswers.PromotesCleanly (art : ArtRuntime θ R) (request : Nat) (answers : HeapAnswers θ) :
    Prop :=
  ∀ needle handles, decodeGlobalObjectReference answers = .ok needle →
    answers.visitObjects = none → answers.getInstances = some handles →
    answers.scope = .ok () → answers.attached = .ok () →
    LeaveNothing art request (handles.map (handleObject art))

namespace HeapQuery

/-- The references of the instances. -/
def raws (s : HeapQuery R) : List R := s.instances.filterMap (·.raw)

theorem raws_push (raw : Option R) (s : HeapQuery R) :
    (s.push raw).raws = s.raws ++ raw.toList := by
  rw [raws, push, List.filterMap_append]
  cases raw <;> rfl

/-- A reference that was made is taken in. -/
theorem takenIn_push {s : HeapQuery R} {t : GlobalRefs R} {raw : Option R}
    {object : Option (BitVec 64)} (h : Extends s.refs t (requested object raw))
    (hsome : raw.isSome = object.isSome) :
    TakenIn refs raws s (push raw { s with refs := t }) := by
  refine ⟨_, h, ?_⟩
  rw [raws_push]
  cases raw with
  | none => rfl
  | some raw =>
    obtain ⟨object, rfl⟩ := Option.isSome_iff_exists.mp hsome.symm
    rfl

variable {s : HeapQuery R}

theorem wp_visitHeapObjects (needleClassReference : BitVec 32) (objects : List (BitVec 64)) :
    Fallible.wp (visitHeapObjects art needleClassReference objects)
      (fun _ t ↦ TakenIn refs raws s t) (fun _ _ ↦ False) s := by
  induction objects generalizing s with
  | nil => exact .of_live rfl rfl
  | cons object objects ih =>
    rw [visitHeapObjects]
    simp only [Fallible.wp_bind, Fallible.wp_ite, onRefs, Fallible.wp_zoom]
    refine ⟨fun _ ↦ ih, fun _ ↦ ?_⟩
    refine Fallible.wp_mono wp_addGlobalRef ?_ fun _ _ h ↦ h
    rintro (_ | raw) t ⟨-, hanswer⟩
    · have hsame : TakenIn refs raws s { s with refs := t } := .of_live hanswer.2 rfl
      exact Fallible.wp_mono ih (fun _ _ h ↦ hsame.trans h) fun _ _ h ↦ h
    · have hextends : Extends s.refs t (requested (some object) (some raw)) := hanswer.2
      have hpush := takenIn_push hextends rfl
      exact Fallible.wp_mono ih (fun _ _ h ↦ hpush.trans h) fun _ _ h ↦ h

theorem wp_promoteHandles (handles : List (BitVec 64)) :
    Fallible.wp (promoteHandles art handles)
      (fun _ t ↦ LeaveNothing art s.refs.calls (handles.map (handleObject art)) ∧
        TakenIn refs raws s t)
      (fun _ t ↦ Loses (LeaveNothing art s.refs.calls (handles.map (handleObject art)))
        refs raws s t) s := by
  induction handles generalizing s with
  | nil => exact ⟨trivial, .of_live rfl rfl⟩
  | cons handle handles ih =>
    rw [promoteHandles, List.map_cons, LeaveNothing]
    simp only [Fallible.wp_bind, onRefs, Fallible.wp_zoom, Fallible.wp_modify]
    refine Fallible.wp_mono wp_newGlobalRefRaw ?_ ?_
    · rintro raw t ⟨hserved, hcalls, hsome, hextends⟩
      have hnothing := hserved.leavesNothing
      have hpush := takenIn_push hextends hsome
      refine Fallible.wp_mono ih ?_ ?_
      · rintro _ u ⟨hrest, hu⟩
        refine ⟨⟨hnothing, fun _ ↦ ?_⟩, hpush.trans hu⟩
        rwa [← hcalls]
      · intro _ u hu
        refine (Loses.after hpush hu).congr ?_
        show LeaveNothing art t.calls _ ↔ _
        rw [hcalls, and_iff_right hnothing, forall_prop_of_true hserved]
    · rintro _ t ⟨hserved, hleaves⟩
      refine ⟨s, .of_live rfl rfl, ?_, rfl⟩
      rwa [and_iff_left fun h ↦ absurd h hserved]

theorem wp_chooseInstances (answers : HeapAnswers θ) :
    Fallible.wp (chooseInstances art answers)
      (fun _ t ↦ answers.PromotesCleanly art s.refs.calls ∧ TakenIn refs raws s t)
      (fun _ t ↦ Loses (answers.PromotesCleanly art s.refs.calls) refs raws s t) s := by
  have hsame : TakenIn refs raws s s := .of_live rfl rfl
  rw [chooseInstances, Fallible.wp_bind, Fallible.wp_ofExcept]
  constructor
  · intro needle hneedle
    split
    · next objects hobjects =>
      refine Fallible.wp_mono (wp_visitHeapObjects needle _) (fun _ t ht ↦ ⟨?_, ht⟩)
        fun _ _ h ↦ h.elim
      intro _ _ _ hnone
      cases hobjects.symm.trans hnone
    · next hobjects =>
      split
      · next hnone =>
        refine hsame.loses fun _ _ _ _ hhandles ↦ ?_
        cases hnone.symm.trans hhandles
      · next handles hhandles =>
        simp only [Fallible.wp_bind, Fallible.wp_ofExcept]
        constructor
        · rintro ⟨⟩ hscope
          constructor
          · rintro ⟨⟩ hattached
            have hclean : answers.PromotesCleanly art s.refs.calls ↔
                LeaveNothing art s.refs.calls (handles.map (handleObject art)) := by
              refine ⟨fun h ↦ h needle handles hneedle hobjects hhandles hscope hattached, ?_⟩
              intro h _ _ _ _ hhandles' _ _
              rwa [← Option.some.inj (hhandles.symm.trans hhandles')]
            rw [hclean]
            exact wp_promoteHandles handles
          · intro _ herror
            refine hsame.loses fun _ _ _ _ _ _ hattached ↦ ?_
            cases herror.symm.trans hattached
        · intro _ herror
          refine hsame.loses fun _ _ _ _ _ hscope ↦ ?_
          cases herror.symm.trans hscope
  · intro _ herror
    refine hsame.loses fun _ _ hneedle ↦ ?_
    cases herror.symm.trans hneedle

end HeapQuery

/-- The references to instances are handed out, or deleted; what is lost is a reference that was
granted, or one to the exception, where an exception was pending. -/
theorem wp_enumerateHeapInstanceHandles [DecidableEq R] (answers : HeapAnswers θ)
    (s : GlobalRefs R) :
    Fallible.wp (enumerateHeapInstanceHandles art answers)
      (fun instances t ↦ answers.PromotesCleanly art s.calls ∧
        t.live.map Prod.fst = s.live.map Prod.fst ++ instances.filterMap (·.raw))
      (fun _ t ↦ Leaves (answers.prepared = .ok () → answers.PromotesCleanly art s.calls) s t)
      s := by
  rw [enumerateHeapInstanceHandles, Fallible.wp_bind, Fallible.wp_ofExcept]
  constructor
  · rintro ⟨⟩ hprepared
    rw [forall_prop_of_true hprepared]
    refine Fallible.wp_mono (wp_deletingOnError HeapQuery.refs HeapQuery.raws s rfl rfl
      (HeapQuery.wp_chooseInstances answers)) ?_ fun _ _ h ↦ h
    rintro _ t ⟨hclean, u, rfl, hlive⟩
    exact ⟨hclean, hlive⟩
  · intro _ herror
    refine .of_live rfl fun h ↦ ?_
    cases herror.symm.trans h

end

end JavaBridge.Art

import JavaBridge.Library.Custody
import JavaBridge.MethodQuery.Reflection
import JavaBridge.Vm.Attachment

/-!
# Handles from enumerations

The enumerations give lists of raw global references. Each is wrapped, and from then on deleted when
its wrapper is dropped; the others are plain numbers that a failure has to delete.

Main results:

* `settles_wrapEach`, `settles_publishGroups`, `settles_deliver`: what a loop does not hand out it
  has deleted.
* `conservesHandles_iff`: when every reference of a list ends in the result or is deleted, once.
-/

namespace JavaBridge.Java

open Fallible Art

/-! ## The session of a thread -/

/-- A thread at work, with an account of the references of the lists. -/
structure Session (ω R : Type) where
  world : ω
  thread : Vm.NativeThread
  obtained : List R
  deleted : List R
  /-- The objects that the callback was called with. -/
  shown : List R

abbrev SessionM (θ ω R : Type) := EStateM (Error θ) (Session ω R)

/-- The calls that are answered by the VM, whose state is `ω`. -/
structure Jvm (θ ω R : Type) where
  /-- What a detached thread is answered that attaches itself. -/
  attach : ω → Vm.AttachAnswer × ω
  findClass : (name : String) → ω → Except (Error θ) R × ω
  isInstanceOf : (object holder : R) → ω → Except (Error θ) Bool × ω
  getObjectClass : (object : R) → ω → Except (Error θ) R × ω
  address : R → String

section

variable {θ ω R α β : Type} (vm : Jvm θ ω R)

def call (f : ω → Except (Error θ) α × ω) : SessionM θ ω R α := fun s ↦
  match f s.world with
  | (.ok a, world) => .ok a { s with world := world }
  | (.error error, world) => .error error { s with world := world }

def attachCurrentThread : SessionM θ ω R Vm.AttachedEnv := do
  let answer ← modifyGet fun s ↦ ((vm.attach s.world).1, { s with world := (vm.attach s.world).2 })
  zoom Session.thread (fun thread s ↦ { s with thread := thread }) (Vm.attachCurrentThread answer)

def dropEnv (env : Vm.AttachedEnv) (s : Session ω R) : Session ω R :=
  { s with thread := env.drop s.thread }

/-- The body of a function that attaches the thread first. -/
def withAttached (body : SessionM θ ω R α) : SessionM θ ω R α := do
  let env ← attachCurrentThread vm
  defer (dropEnv env) body

/-! ### References -/

/-- Nothing is done for null. -/
def deleteGlobalRefRaw (object : Option R) (s : Session ω R) : Session ω R :=
  { s with deleted := s.deleted ++ object.toList }

def deleteEach (objects : List (Option R)) (s : Session ω R) : Session ω R :=
  objects.foldl (fun s object ↦ deleteGlobalRefRaw object s) s

def deleteGlobalRefBestEffort (object : R) (s : Session ω R) : Session ω R :=
  match attachCurrentThread vm s with
  | .ok env t => dropEnv env (deleteGlobalRefRaw (some object) t)
  | .error _ t => t

namespace GlobalRef

def fromRaw : Option R → Except (Error θ) R
  | none => .error (.nullReturn "JNI global reference")
  | some raw => .ok raw

def drop (raw : R) (s : Session ω R) : Session ω R := deleteGlobalRefBestEffort vm raw s

end GlobalRef

def dropEach (globals : List R) (s : Session ω R) : Session ω R :=
  globals.foldl (fun s global ↦ GlobalRef.drop vm global s) s

/-! ### Class loaders -/

inductive ClassLoaderKind
  | system
  | app
  | object
  | enumerated
  deriving DecidableEq

/-- A global reference to a class loader. -/
structure ClassLoaderRef (R : Type) where
  object : R
  kind : ClassLoaderKind
  deriving DecidableEq

def validateClassLoader (loader : R) (operation : String) : SessionM θ ω R Unit := do
  let classLoaderClass ← call (vm.findClass "java/lang/ClassLoader")
  if ← call (vm.isInstanceOf loader classLoaderClass) then pure ()
  else
    let actual ← call (vm.getObjectClass loader)
    throw (.invalidObjectType operation "java.lang.ClassLoader" (vm.address actual))

/-- `ClassLoaderRef::from_global_raw_attached`. -/
def ClassLoaderRef.fromGlobalRawAttached (raw : Option R) (kind : ClassLoaderKind) :
    SessionM θ ω R (ClassLoaderRef R) := do
  let object ← MonadExcept.ofExcept (GlobalRef.fromRaw raw)
  onError (GlobalRef.drop vm object)
    (validateClassLoader vm object "ClassLoaderRef::from_global_raw")
  pure ⟨object, kind⟩

/-! ## The consumers -/

/-- The loop that wraps the handles of a list. A handle that cannot be wrapped ends it: those that
are left are deleted, from the last on, and then those that are wrapped are dropped. -/
def wrapEach (wrap : α → SessionM θ ω R β) (raw : α → Option R) (global : β → R) :
    List β → List α → SessionM θ ω R (List β)
  | wrapped, [] => pure wrapped
  | wrapped, handle :: handles => do
    let next ← onError
      (fun s ↦ dropEach vm (wrapped.map global) (deleteEach (handles.reverse.map raw) s))
      (wrap handle)
    wrapEach wrap raw global (wrapped ++ [next]) handles

def classLoaderRefsFromArtHandles (handles : List (ArtClassLoaderHandle (Option R))) :
    SessionM θ ω R (List (ClassLoaderRef R)) :=
  wrapEach vm (fun raw ↦ ClassLoaderRef.fromGlobalRawAttached vm raw .enumerated) (fun raw ↦ raw)
    ClassLoaderRef.object [] (handles.map (·.raw))

/-- `raw::Class`. -/
structure RawClass (R : Type) where
  name : String
  global : R
  deriving DecidableEq

def rawClassesFromArtHandles (handles : List (ArtLoadedClassHandle (Option R))) :
    SessionM θ ω R (List (RawClass R)) :=
  wrapEach vm
    (fun handle ↦ do
      let global ← MonadExcept.ofExcept (GlobalRef.fromRaw handle.raw)
      pure (RawClass.mk handle.name global))
    (·.raw) RawClass.global [] handles

section

variable [DecidableEq R]

/-- The loader of a group, where `remainingLoaders` are those of the groups after it. -/
def publicLoader (remainingLoaders : List (Option R))
    (publicGroups : List (JavaMethodQueryGroup R)) : Option (Option R) → SessionM θ ω R (Option R)
  | none => pure none
  | some raw => do
    let loader ← onError
      (fun s ↦ dropEach vm (publicGroups.filterMap (·.loader)) (deleteEach remainingLoaders s))
      (ClassLoaderRef.fromGlobalRawAttached vm raw .enumerated)
    pure (some loader.object)

/-- The loop of `method_query_groups_from_art_groups`. -/
def publishGroups : List (Option R) → List (JavaMethodQueryGroup R) →
    List (ArtMethodQueryGroup (Option R)) → SessionM θ ω R (List (JavaMethodQueryGroup R))
  | _, publicGroups, [] => pure publicGroups
  | remainingLoaders, publicGroups, group :: groups => do
    let remainingLoaders := group.loader.elim remainingLoaders remainingLoaders.erase
    let loader ← publicLoader vm remainingLoaders publicGroups group.loader
    let classes := group.classes.map fun found ↦ JavaMethodQueryClass.mk found.name found.methods
    publishGroups remainingLoaders (publicGroups ++ [⟨loader, classes⟩]) groups

def methodQueryGroupsFromArtGroups (groups : List (ArtMethodQueryGroup (Option R))) :
    SessionM θ ω R (List (JavaMethodQueryGroup R)) :=
  withAttached vm (publishGroups vm (groups.filterMap (·.loader)) [] groups)

end

inductive JavaChooseControl
  | continues
  | stops
  deriving DecidableEq

/-- What the user does with an object, which is not to detach the thread or delete the object. It
returns: a callback that panics, whose unwinding leaves the other handles undeleted, is not an outcome
here. -/
abbrev ChooseCallback (θ ω R : Type) := R → ω → Except (Error θ) JavaChooseControl × ω

def callback (user : ChooseCallback θ ω R) (object : R) : SessionM θ ω R JavaChooseControl := do
  modify fun s ↦ { s with shown := s.shown ++ [object] }
  call (user object)

def deleteHeapInstanceHandles (handles : List (ArtHeapInstanceHandle R)) (s : Session ω R) :
    Session ω R :=
  deleteEach (handles.map (·.raw)) s

def deliverHeapInstanceHandles (user : ChooseCallback θ ω R) :
    List (ArtHeapInstanceHandle R) → SessionM θ ω R Unit
  | [] => pure ()
  | handle :: handles => do
    let object ← onError (deleteHeapInstanceHandles handles.reverse)
      (MonadExcept.ofExcept (GlobalRef.fromRaw handle.raw))
    let control ← onError (deleteHeapInstanceHandles handles.reverse)
      (defer (GlobalRef.drop vm object) (callback user object))
    match control with
    | .continues => deliverHeapInstanceHandles user handles
    | .stops => modify (deleteHeapInstanceHandles handles.reverse)

/-! ## Their callers -/

/-- What an enumeration answers. -/
abbrev Enumeration (θ ω α : Type) := ω → Except (Error θ) (List α) × ω

/-- The enumeration, whose list is entered into the account. -/
def enumerateHandles (enumerate : Enumeration θ ω α) (raw : α → Option R) :
    SessionM θ ω R (List α) := do
  let handles ← call enumerate
  modify fun s ↦
    { s with obtained := s.obtained ++ handles.flatMap fun handle ↦ (raw handle).toList }
  pure handles

def enumerateClassLoaders (enumerate : Enumeration θ ω (ArtClassLoaderHandle (Option R))) :
    SessionM θ ω R (List (ClassLoaderRef R)) :=
  withAttached vm do
    let handles ← enumerateHandles enumerate (·.raw)
    classLoaderRefsFromArtHandles vm handles

def enumerateLoadedRawClasses (enumerate : Enumeration θ ω (ArtLoadedClassHandle (Option R))) :
    SessionM θ ω R (List (RawClass R)) :=
  withAttached vm do
    let handles ← enumerateHandles enumerate (·.raw)
    rawClassesFromArtHandles vm handles

/-- Where the direct query is supported. -/
def enumerateMethods [DecidableEq R]
    (enumerate : Enumeration θ ω (ArtMethodQueryGroup (Option R))) :
    SessionM θ ω R (List (JavaMethodQueryGroup R)) := do
  let groups ← enumerateHandles enumerate fun group ↦ group.loader.join
  methodQueryGroupsFromArtGroups vm groups

/-- `Java::choose_instances` looks up the class first, and then does the same. -/
def chooseInstances (enumerate : Enumeration θ ω (ArtHeapInstanceHandle R))
    (user : ChooseCallback θ ω R) : SessionM θ ω R Unit :=
  withAttached vm do
    let handles ← enumerateHandles enumerate (·.raw)
    deliverHeapInstanceHandles vm user handles

/-- A call that goes through a list of handles. -/
inductive Consumer (θ ω R : Type)
  | classLoaders (enumerate : Enumeration θ ω (ArtClassLoaderHandle (Option R)))
  | loadedClasses (enumerate : Enumeration θ ω (ArtLoadedClassHandle (Option R)))
  | methods (enumerate : Enumeration θ ω (ArtMethodQueryGroup (Option R)))
  | instances (enumerate : Enumeration θ ω (ArtHeapInstanceHandle R))
    (user : ChooseCallback θ ω R)

/-- The call, and the references that its result owns. -/
def Consumer.run [DecidableEq R] : Consumer θ ω R → SessionM θ ω R (List R)
  | .classLoaders enumerate => do
    let loaders ← enumerateClassLoaders vm enumerate
    pure (loaders.map (·.object))
  | .loadedClasses enumerate => do
    let classes ← enumerateLoadedRawClasses vm enumerate
    pure (classes.map (·.global))
  | .methods enumerate => do
    let groups ← enumerateMethods vm enumerate
    pure (groups.filterMap (·.loader))
  | .instances enumerate user => do
    chooseInstances vm enumerate user
    pure []

end

/-! ## What is claimed of a call -/

section

variable {θ ω R α β : Type}

/-- Before the call. -/
def Session.start (world : ω) (thread : Vm.NativeThread) : Session ω R :=
  ⟨world, thread, [], [], []⟩

/-- Every reference of the list is owned or has been deleted, once, and the callback has seen the
first references of the list in order, each once. -/
structure Accounted (owned : List R) (s : Session ω R) : Prop where
  perm : (owned ++ s.deleted).Perm s.obtained
  shown : s.shown <+: s.obtained

def ConservesHandles [DecidableEq R] (vm : Jvm θ ω R) (consumer : Consumer θ ω R) (world : ω)
    (thread : Vm.NativeThread) : Prop :=
  wp (consumer.run vm) (fun owned t ↦ Accounted owned t) (fun _ t ↦ Accounted [] t)
    (.start world thread)

/-- The thread of a direct query that has found loaders is attached, or can be attached again. -/
def Consumer.CanAttach (vm : Jvm θ ω R) (world : ω) (thread : Vm.NativeThread) :
    Consumer θ ω R → Prop
  | .methods enumerate => ∀ groups world', enumerate world = (.ok groups, world') →
      (∃ group ∈ groups, ∃ raw, group.loader = some (some raw)) →
      thread.attached = true ∨ ∃ env, (vm.attach world').1 = .ok env
  | _ => True

/-! ## The account -/

/-- The thread is attached, and `I` holds of what the callback has seen. -/
def account (I : List R → Prop) : Custody.Account (Session ω R) R where
  obtained := Session.obtained
  released := Session.deleted
  Ready s := s.thread.attached = true ∧ I s.shown

/-- Only the world and the thread may have changed. -/
structure SameAccount (s t : Session ω R) : Prop where
  obtained : t.obtained = s.obtained
  deleted : t.deleted = s.deleted
  shown : t.shown = s.shown

section

variable (vm : Jvm θ ω R) {I : List R → Prop} {s t : Session ω R}

open Custody

@[simp] theorem wp_call {f : ω → Except (Error θ) α × ω} {Q : α → Session ω R → Prop}
    {E : Error θ → Session ω R → Prop} :
    wp (call f) Q E s ↔
      (∀ a world, f s.world = (.ok a, world) → Q a { s with world := world }) ∧
        ∀ error world, f s.world = (.error error, world) → E error { s with world := world } := by
  unfold wp call
  rcases f s.world with ⟨_ | _, world⟩ <;> simp

/-- An attached thread is lent its attachment. -/
theorem wp_attachCurrentThread :
    wp (attachCurrentThread vm)
      (fun env t ↦ SameAccount s t ∧ t.thread.attached = true ∧
        env.detachOnDrop = (!s.thread.attached) ∧
        (s.thread.attached = true ∨ ∃ env, (vm.attach s.world).1 = .ok env))
      (fun _ t ↦ SameAccount s t ∧ s.thread.attached = false ∧
        ∃ code, (vm.attach s.world).1 = .error code) s := by
  rw [attachCurrentThread]
  simp only [wp_bind, wp_modifyGet, wp_zoom]
  refine wp_mono (Vm.wp_attachCurrentThread s.thread (vm.attach s.world).1) ?_ ?_
  · rintro env thread ⟨hattached, hdetach, hcan⟩
    exact ⟨⟨rfl, rfl, rfl⟩, hattached, hdetach, hcan⟩
  · rintro error thread ⟨hdetached, -, hcode⟩
    exact ⟨⟨rfl, rfl, rfl⟩, hdetached, hcode⟩

/-! ### Deletions -/

theorem releases_deleteGlobalRefRaw (object : Option R) :
    Releases (account (ω := ω) I) (deleteGlobalRefRaw object) object.toList := by
  intro s rest hready hheld
  refine ⟨hready, ?_⟩
  have hmove :
      (rest ++ (s.deleted ++ object.toList)).Perm (object.toList ++ rest ++ s.deleted) := by
    rw [← List.append_assoc, List.append_assoc object.toList]
    exact List.perm_append_comm
  exact hmove.trans hheld

theorem releases_deleteEach (objects : List (Option R)) :
    Releases (account (ω := ω) I) (deleteEach objects) (objects.flatMap Option.toList) :=
  .foldl releases_deleteGlobalRefRaw objects

/-- While the thread is attached, a wrapper that is dropped deletes its reference. -/
theorem releases_drop (raw : R) :
    Releases (account I) (GlobalRef.drop vm raw) [raw] := by
  intro s rest hready hheld
  have hwp := wp_attachCurrentThread vm (s := s)
  rw [wp] at hwp
  rw [GlobalRef.drop, deleteGlobalRefBestEffort]
  split at hwp
  · next env t hrun =>
    obtain ⟨hsame, hattached, hdetach, -⟩ := hwp
    rw [hrun]
    rw [hready.1] at hdetach
    have hready' : (account I).Ready t := ⟨hattached, hsame.shown ▸ hready.2⟩
    have hheld' : (account I).Holds t ([raw] ++ rest) := by
      rw [Account.Holds]
      show ([raw] ++ rest ++ t.deleted).Perm t.obtained
      rw [hsame.deleted, hsame.obtained]
      exact hheld
    obtain ⟨hready'', hheld''⟩ := releases_deleteGlobalRefRaw (some raw) t rest hready' hheld'
    refine ⟨⟨?_, hready''.2⟩, hheld''⟩
    show (env.drop _).attached = true
    rw [env.attached_drop, hdetach, Bool.not_true, Bool.not_false, Bool.and_true]
    exact hready''.1
  · next error t hrun =>
    exact absurd (hwp.2.1.symm.trans hready.1) Bool.false_ne_true

theorem releases_dropEach (globals : List R) :
    Releases (account I) (dropEach vm globals) globals := by
  have h := Releases.foldl (releases_drop (I := I) vm) globals
  rwa [List.flatMap_singleton'] at h

/-! ### Programs -/

theorem settles_call (f : ω → Except (Error θ) α × ω) :
    Settles (account (R := R) I) (call f) [] fun _ ↦ [] := by
  intro s rest hready hheld
  rw [wp_call]
  exact ⟨fun _ _ _ ↦ ⟨hready, hheld⟩, fun _ _ _ ↦ ⟨hready, hheld⟩⟩

theorem settles_throw (error : Error θ) (held : α → List R) :
    Settles (account (ω := ω) I) (throw error : SessionM θ ω R α) [] held :=
  fun _ _ hready hheld ↦ ⟨hready, hheld⟩

theorem settles_validateClassLoader (loader : R) (operation : String) :
    Settles (account I) (validateClassLoader vm loader operation) [] fun _ ↦ [] := by
  rw [validateClassLoader]
  refine (settles_call _).bind fun holder ↦ (settles_call _).bind fun result ↦ ?_
  cases result with
  | true => exact .pure (.refl [])
  | false => exact (settles_call _).bind fun actual ↦ settles_throw _ _

/-- A wrapper owns its handle. Null is nobody's. -/
theorem settles_fromRaw (raw : Option R) :
    Settles (account I) (MonadExcept.ofExcept (GlobalRef.fromRaw raw) : SessionM θ ω R R)
      raw.toList fun global ↦ [global] := by
  cases raw with
  | none => exact .ofExcept (fun _ h ↦ by cases h) fun _ _ ↦ rfl
  | some raw =>
    refine .ofExcept ?_ fun _ h ↦ by cases h
    rintro _ ⟨⟩
    rfl

/-- A loader that is not valid has been deleted. -/
theorem settles_fromGlobalRawAttached (raw : Option R) (kind : ClassLoaderKind) :
    Settles (account I) (ClassLoaderRef.fromGlobalRawAttached vm raw kind) raw.toList
      fun loader ↦ [loader.object] := by
  rw [ClassLoaderRef.fromGlobalRawAttached]
  refine (settles_fromRaw raw).bind fun object ↦ ?_
  have hvalidate := (settles_validateClassLoader vm (I := I) object
    "ClassLoaderRef::from_global_raw").onError (releases_drop vm object)
  exact hvalidate.bind fun _ ↦ .pure (.refl _)

/-! ### Loops -/

/-- The references of handles. -/
def rawsOf (raw : α → Option R) (handles : List α) : List R :=
  handles.flatMap fun handle ↦ (raw handle).toList

theorem releases_reverse (raw : α → Option R) (handles : List α) :
    Releases (account (ω := ω) I) (deleteEach (handles.reverse.map raw)) (rawsOf raw handles) := by
  have h := releases_deleteEach (ω := ω) (I := I) (handles.reverse.map raw)
  rw [List.flatMap_map] at h
  exact h.perm (handles.reverse_perm.flatMap_right _)

theorem perm_append_swap (as bs cs : List α) : (as ++ bs ++ cs).Perm (as ++ (cs ++ bs)) := by
  rw [List.append_assoc]
  exact List.perm_append_comm.append_left as

/-- What cannot be wrapped is deleted, with all that was wrapped and all that is left. -/
theorem settles_wrapEach {wrap : α → SessionM θ ω R β} {raw : α → Option R} {global : β → R}
    (hwrap : ∀ handle, Settles (account I) (wrap handle) (raw handle).toList
      fun wrapped ↦ [global wrapped]) (wrapped : List β) (handles : List α) :
    Settles (account I) (wrapEach vm wrap raw global wrapped handles)
      (wrapped.map global ++ rawsOf raw handles) fun wrapped ↦ wrapped.map global := by
  induction handles generalizing wrapped with
  | nil => exact .pure (.of_eq (List.append_nil _).symm)
  | cons handle handles ih =>
    have hcleanup := ((releases_reverse (ω := ω) (I := I) raw handles).comp
      (releases_dropEach vm (wrapped.map global))).perm List.perm_append_comm
    rw [wrapEach]
    refine (((hwrap handle).onError hcleanup).perm (perm_append_swap _ _ _)).bind fun next ↦ ?_
    refine (ih (wrapped ++ [next])).perm ?_
    rw [List.map_append, List.append_assoc]
    exact (perm_append_swap _ _ _).symm

theorem releases_loaders {remainingLoaders : List (Option R)}
    {groups : List (ArtMethodQueryGroup (Option R))}
    (h : remainingLoaders.Perm (groups.filterMap (·.loader))) :
    Releases (account (ω := ω) I) (deleteEach remainingLoaders)
      (rawsOf (fun group ↦ group.loader.join) groups) := by
  refine (releases_deleteEach remainingLoaders).perm ((h.flatMap_right _).trans (.of_eq ?_))
  rw [rawsOf, List.filterMap_eq_flatMap_toList, List.flatMap_assoc]
  congr 1
  funext group
  rcases group.loader with _ | _ | raw <;> rfl

/-- The loader of a group, with what is held of the other groups. -/
theorem settles_publicLoader {remainingLoaders : List (Option R)}
    {groups : List (ArtMethodQueryGroup (Option R))} (publicGroups : List (JavaMethodQueryGroup R))
    (h : remainingLoaders.Perm (groups.filterMap (·.loader))) (loader : Option (Option R)) :
    Settles (account I) (publicLoader vm remainingLoaders publicGroups loader)
      (publicGroups.filterMap (·.loader) ++ rawsOf (fun group ↦ group.loader.join) groups ++
        loader.join.toList)
      fun published ↦ publicGroups.filterMap (·.loader) ++
        rawsOf (fun group ↦ group.loader.join) groups ++ published.toList := by
  cases loader with
  | none => exact .pure (.refl _)
  | some raw =>
    have hcleanup := ((releases_loaders (ω := ω) (I := I) h).comp
      (releases_dropEach vm (publicGroups.filterMap (·.loader)))).perm List.perm_append_comm
    have hwrap := (settles_fromGlobalRawAttached vm (I := I) raw .enumerated).onError
      hcleanup
    exact hwrap.bind fun loader ↦ .pure (.refl _)

section

variable [DecidableEq R]

/-- The first loader that remains is that of the group. -/
theorem remainingLoaders_perm {remainingLoaders : List (Option R)}
    {group : ArtMethodQueryGroup (Option R)} {groups : List (ArtMethodQueryGroup (Option R))}
    (h : remainingLoaders.Perm ((group :: groups).filterMap (·.loader))) :
    (group.loader.elim remainingLoaders remainingLoaders.erase).Perm
      (groups.filterMap (·.loader)) := by
  obtain ⟨key, loader, classes⟩ := group
  cases loader with
  | none => exact h
  | some raw =>
    have hraw : remainingLoaders.Perm (raw :: groups.filterMap (·.loader)) := h
    have herase := hraw.erase raw
    rwa [List.erase_cons_head] at herase

/-- The loaders of the groups that are left are those that remain. -/
theorem settles_publishGroups {remainingLoaders : List (Option R)}
    {groups : List (ArtMethodQueryGroup (Option R))} (publicGroups : List (JavaMethodQueryGroup R))
    (h : remainingLoaders.Perm (groups.filterMap (·.loader))) :
    Settles (account I) (publishGroups vm remainingLoaders publicGroups groups)
      (publicGroups.filterMap (·.loader) ++ rawsOf (fun group ↦ group.loader.join) groups)
      fun published ↦ published.filterMap (·.loader) := by
  induction groups generalizing remainingLoaders publicGroups with
  | nil => exact .pure (.of_eq (List.append_nil _).symm)
  | cons group groups ih =>
    have hremaining := remainingLoaders_perm h
    rw [publishGroups]
    refine ((settles_publicLoader vm publicGroups hremaining group.loader).perm
      (perm_append_swap _ _ _)).bind fun loader ↦ ?_
    refine (ih (publicGroups ++ [⟨loader, _⟩]) hremaining).perm ?_
    have hloader (classes : List JavaMethodQueryClass) :
        [JavaMethodQueryGroup.mk loader classes].filterMap (·.loader) = loader.toList := by
      cases loader <;> rfl
    rw [List.filterMap_append, hloader, List.append_assoc]
    exact (perm_append_swap _ _ _).symm

end

/-! ### Instances -/

theorem settles_callback (user : ChooseCallback θ ω R) (object : R) :
    Settles (account fun _ ↦ True) (callback user object) [] fun _ ↦ [] := by
  rw [callback]
  have hshow : Settles (account fun _ ↦ True)
      (modify fun s ↦ { s with shown := s.shown ++ [object] } : SessionM θ ω R Unit) []
      fun _ ↦ [] := fun _ _ hready hheld ↦ ⟨⟨hready.1, trivial⟩, hheld⟩
  exact hshow.bind fun _ ↦ settles_call _

theorem releases_deleteHeapInstanceHandles (handles : List (ArtHeapInstanceHandle R)) :
    Releases (account (ω := ω) I) (deleteHeapInstanceHandles handles.reverse)
      (rawsOf (·.raw) handles) := releases_reverse (·.raw) handles

/-- Each object is deleted after its callback, and the others where the loop ends early. -/
theorem settles_deliver (user : ChooseCallback θ ω R) (handles : List (ArtHeapInstanceHandle R)) :
    Settles (account fun _ ↦ True) (deliverHeapInstanceHandles vm user handles)
      (rawsOf (·.raw) handles) fun _ ↦ [] := by
  induction handles with
  | nil => exact .pure (.refl [])
  | cons handle handles ih =>
    have hdelete := releases_deleteHeapInstanceHandles (ω := ω) (I := fun _ ↦ True) handles
    have hwrap := (settles_fromRaw (θ := θ) handle.raw).onError hdelete
    rw [deliverHeapInstanceHandles]
    refine (hwrap.perm List.perm_append_comm).bind fun object ↦ ?_
    have hcallback := (settles_callback user object).defer (releases_drop vm object)
    refine (hcallback.onError hdelete).bind fun control ↦ ?_
    rw [List.append_nil]
    cases control with
    | continues => exact ih
    | stops => exact .modify hdelete

/-! ### What the callback sees -/

/-- Nothing was obtained, and the callback was not called. -/
structure SameView (s t : Session ω R) : Prop where
  obtained : t.obtained = s.obtained
  shown : t.shown = s.shown

theorem SameView.trans {u : Session ω R} (h : SameView s t) (h' : SameView t u) : SameView s u :=
  ⟨h'.obtained.trans h.obtained, h'.shown.trans h.shown⟩

theorem sameView_deleteEach (handles : List (Option R)) (s : Session ω R) :
    SameView s (deleteEach handles s) := by
  induction handles generalizing s with
  | nil => exact ⟨rfl, rfl⟩
  | cons handle handles ih =>
    have hrest := ih (deleteGlobalRefRaw handle s)
    exact ⟨hrest.obtained, hrest.shown⟩

theorem sameView_drop (raw : R) (s : Session ω R) :
    SameView s (GlobalRef.drop vm raw s) := by
  have hwp := wp_attachCurrentThread vm (s := s)
  rw [wp] at hwp
  rw [GlobalRef.drop, deleteGlobalRefBestEffort]
  split at hwp
  · next env t hrun =>
    rw [hrun]
    exact ⟨hwp.1.obtained, hwp.1.shown⟩
  · next error t hrun =>
    rw [hrun]
    exact ⟨hwp.1.obtained, hwp.1.shown⟩

/-- Since `s` the callback has seen the first of the objects, each once. -/
structure Shows (objects : List R) (s t : Session ω R) : Prop where
  obtained : t.obtained = s.obtained
  shown : ∃ seen, seen <+: objects ∧ t.shown = s.shown ++ seen

theorem SameView.shows (h : SameView s t) (objects : List R) : Shows objects s t :=
  ⟨h.obtained, [], List.nil_prefix, h.shown.trans (List.append_nil _).symm⟩

theorem SameView.trans_shows {objects : List R} {u : Session ω R} (h : SameView s t)
    (hrest : Shows objects t u) : Shows objects s u := by
  obtain ⟨hobtained, seen, hseen, hshown⟩ := hrest
  exact ⟨hobtained.trans h.obtained, seen, hseen, by rw [hshown, h.shown]⟩

theorem Shows.cons {object : R} {objects : List R}
    (h : Shows objects { s with shown := s.shown ++ [object] } t) :
    Shows (object :: objects) s t := by
  obtain ⟨hobtained, seen, hseen, hshown⟩ := h
  refine ⟨hobtained, object :: seen, (List.prefix_cons_inj object).2 hseen, ?_⟩
  rw [hshown, List.append_assoc, List.singleton_append]

theorem wp_deliver_shows (user : ChooseCallback θ ω R)
    (handles : List (ArtHeapInstanceHandle R)) :
    wp (deliverHeapInstanceHandles vm user handles)
      (fun _ t ↦ Shows (rawsOf (·.raw) handles) s t)
      (fun _ t ↦ Shows (rawsOf (·.raw) handles) s t) s := by
  induction handles generalizing s with
  | nil => exact SameView.shows ⟨rfl, rfl⟩ []
  | cons handle handles ih =>
    obtain ⟨_ | raw⟩ := handle
    · exact (sameView_deleteEach _ s).shows _
    · rw [deliverHeapInstanceHandles]
      simp only [wp_bind, wp_onError, wp_ofExcept, wp_defer, callback, wp_modify, wp_call]
      refine ⟨?_, fun _ h ↦ by cases h⟩
      rintro _ ⟨⟩
      have hdrop (world : ω) : SameView { s with shown := s.shown ++ [raw] }
          (GlobalRef.drop vm raw { s with world := world, shown := s.shown ++ [raw] }) := by
        have hsame := sameView_drop vm raw { s with world := world, shown := s.shown ++ [raw] }
        exact ⟨hsame.obtained, hsame.shown⟩
      have hdelete (world : ω) : Shows (raw :: rawsOf (·.raw) handles) s
          (deleteHeapInstanceHandles handles.reverse
            (GlobalRef.drop vm raw { s with world := world, shown := s.shown ++ [raw] })) :=
        (((hdrop world).trans (sameView_deleteEach _ _)).shows _).cons
      refine ⟨fun control world _ ↦ ?_, fun _ world _ ↦ hdelete world⟩
      cases control with
      | continues =>
        have hrest : ∀ t, Shows (rawsOf (·.raw) handles) _ t →
            Shows (raw :: rawsOf (·.raw) handles) s t :=
          fun t ht ↦ ((hdrop world).trans_shows ht).cons
        exact wp_mono ih (fun _ t ht ↦ hrest t ht) fun _ t ht ↦ hrest t ht
      | stops => exact hdelete world

/-! ## The calls -/

theorem wp_enumerateHandles {enumerate : Enumeration θ ω α} {raw : α → Option R}
    {Q : List α → Session ω R → Prop} {E : Error θ → Session ω R → Prop} :
    wp (enumerateHandles enumerate raw) Q E s ↔
      (∀ handles world, enumerate s.world = (.ok handles, world) →
        Q handles { s with world := world, obtained := s.obtained ++ rawsOf raw handles }) ∧
      ∀ error world, enumerate s.world = (.error error, world) →
        E error { s with world := world } := by
  simp only [enumerateHandles, wp_bind, wp_call, wp_modify, wp_pure, rawsOf]

theorem settles_enumerateHandles (enumerate : Enumeration θ ω α) (raw : α → Option R) :
    Settles (account I) (enumerateHandles enumerate raw) [] (rawsOf raw) := by
  intro s rest hready hheld
  rw [wp_enumerateHandles]
  refine ⟨fun handles _ _ ↦ ⟨hready, ?_⟩, fun _ _ _ ↦ ⟨hready, hheld⟩⟩
  show (rawsOf raw handles ++ rest ++ s.deleted).Perm (s.obtained ++ rawsOf raw handles)
  rw [List.append_assoc]
  exact (List.Perm.append_left _ hheld).trans List.perm_append_comm

/-- What is left at the end, where the callback was not called. -/
theorem wp_of_settles {body : SessionM θ ω R α} {taken : List R} {held : α → List R}
    (h : Settles (account (· = [])) body taken held) (hattached : s.thread.attached = true)
    (hshown : s.shown = []) (hheld : (taken ++ s.deleted).Perm s.obtained) :
    wp body (fun a t ↦ Accounted (held a) t) (fun _ t ↦ Accounted [] t) s := by
  have htaken : (account (· = [])).Holds s (taken ++ []) := by
    rw [List.append_nil]
    exact hheld
  refine wp_mono (h s [] ⟨hattached, hshown⟩ htaken) ?_ ?_
  · rintro a t ⟨⟨-, hshown⟩, hperm⟩
    rw [List.append_nil] at hperm
    exact ⟨hperm, hshown ▸ List.nil_prefix⟩
  · rintro error t ⟨⟨-, hshown⟩, hperm⟩
    exact ⟨hperm, hshown ▸ List.nil_prefix⟩

/-- The attachment leaves the account alone. -/
theorem wp_withAttached {body : SessionM θ ω R α} {held : α → List R}
    (hbody : ∀ t, SameAccount s t → t.thread.attached = true →
      wp body (fun a u ↦ Accounted (held a) u) (fun _ u ↦ Accounted [] u) t)
    (hfail : ∀ t, SameAccount s t → s.thread.attached = false →
      (∃ code, (vm.attach s.world).1 = .error code) → Accounted [] t) :
    wp (withAttached vm body) (fun a t ↦ Accounted (held a) t) (fun _ t ↦ Accounted [] t) s := by
  rw [withAttached, wp_bind]
  refine wp_mono (wp_attachCurrentThread vm) ?_ ?_
  · rintro env t ⟨hsame, hattached, -⟩
    rw [wp_defer]
    exact wp_mono (hbody t hsame hattached) (fun _ _ h ↦ ⟨h.perm, h.shown⟩)
      fun _ _ h ↦ ⟨h.perm, h.shown⟩
  · rintro error t ⟨hsame, hdetached, hcode⟩
    exact hfail t hsame hdetached hcode

/-- Before the list was obtained, nothing can be lost. -/
theorem accounted_of_sameAccount {world : ω} {thread : Vm.NativeThread}
    (h : SameAccount (.start world thread) s) : Accounted [] s := by
  refine ⟨?_, ?_⟩
  · rw [h.deleted, h.obtained]
    exact .refl _
  · rw [h.shown]
    exact List.nil_prefix

/-- What a body does that obtains its list itself. -/
theorem wp_withAttached_of_settles {body : SessionM θ ω R α} {held : α → List R}
    (h : Settles (account (· = [])) body [] held) (world : ω) (thread : Vm.NativeThread) :
    wp (withAttached vm body) (fun a t ↦ Accounted (held a) t) (fun _ t ↦ Accounted [] t)
      (.start world thread) := by
  refine wp_withAttached vm ?_ fun t ht _ _ ↦ accounted_of_sameAccount ht
  intro t ht hattached
  refine wp_of_settles h hattached ht.shown ?_
  rw [ht.deleted, ht.obtained]
  exact .refl _

theorem settles_classLoaderRefs (handles : List (ArtClassLoaderHandle (Option R))) :
    Settles (account I) (classLoaderRefsFromArtHandles vm handles) (rawsOf (·.raw) handles)
      fun loaders ↦ loaders.map (·.object) := by
  have hwrap (raw : Option R) := settles_fromGlobalRawAttached vm (I := I) raw .enumerated
  have h := settles_wrapEach vm hwrap [] (handles.map (·.raw))
  rw [rawsOf, List.flatMap_map] at h
  exact h

theorem settles_rawClasses (handles : List (ArtLoadedClassHandle (Option R))) :
    Settles (account I) (rawClassesFromArtHandles vm handles) (rawsOf (·.raw) handles)
      fun classes ↦ classes.map (·.global) := by
  refine settles_wrapEach vm (fun handle ↦ ?_) [] handles
  exact (settles_fromRaw handle.raw).bind fun global ↦ .pure (.refl _)

theorem wp_chooseInstances_shown (user : ChooseCallback θ ω R)
    (enumerate : Enumeration θ ω (ArtHeapInstanceHandle R))
    (hs : SameAccount (.start s.world s.thread) s) :
    wp (do
        let handles ← enumerateHandles enumerate (·.raw)
        deliverHeapInstanceHandles vm user handles)
      (fun _ t ↦ t.shown <+: t.obtained) (fun _ t ↦ t.shown <+: t.obtained) s := by
  rw [wp_bind, wp_enumerateHandles]
  constructor
  · intro handles world _
    have hend : ∀ t, Shows (rawsOf (·.raw) handles)
        { s with world := world, obtained := s.obtained ++ rawsOf (·.raw) handles } t →
          t.shown <+: t.obtained := by
      rintro t ⟨hobtained, seen, hseen, hshown⟩
      rw [hobtained, hshown]
      show s.shown ++ seen <+: s.obtained ++ rawsOf (·.raw) handles
      rw [hs.shown, hs.obtained]
      exact hseen
    exact wp_mono (wp_deliver_shows vm user handles) (fun _ t ht ↦ hend t ht)
      fun _ t ht ↦ hend t ht
  · intro error world _
    rw [hs.shown]
    exact List.nil_prefix

/-- Every object is deleted after its callback has seen it, or unseen. -/
theorem accounted_chooseInstances (user : ChooseCallback θ ω R)
    (enumerate : Enumeration θ ω (ArtHeapInstanceHandle R)) (hattached : s.thread.attached = true)
    (hs : SameAccount (.start s.world s.thread) s) :
    wp (do
        let handles ← enumerateHandles enumerate (·.raw)
        deliverHeapInstanceHandles vm user handles)
      (fun _ t ↦ Accounted [] t) (fun _ t ↦ Accounted [] t) s := by
  have hheld : (account fun _ ↦ True).Holds s ([] ++ []) := by
    show (s.deleted).Perm s.obtained
    rw [hs.deleted, hs.obtained]
    exact .refl _
  have hsettles := (settles_enumerateHandles enumerate (·.raw)).bind
    fun handles ↦ settles_deliver vm user handles
  refine wp_mono (wp_and (hsettles s [] ⟨hattached, trivial⟩ hheld)
    (wp_chooseInstances_shown vm user enumerate hs)) ?_ ?_
  · rintro _ t ⟨⟨-, hperm⟩, hshown⟩
    exact ⟨hperm, hshown⟩
  · rintro _ t ⟨⟨-, hperm⟩, hshown⟩
    exact ⟨hperm, hshown⟩

/-! ## The result -/

variable [DecidableEq R]

omit [DecidableEq R] in
theorem rawsOf_loaders_ne_nil {groups : List (ArtMethodQueryGroup (Option R))} :
    rawsOf (fun group ↦ group.loader.join) groups ≠ [] ↔
      ∃ group ∈ groups, ∃ raw, group.loader = some (some raw) := by
  rw [rawsOf, Ne, List.flatMap_eq_nil_iff, not_forall]
  refine exists_congr fun group ↦ ?_
  rw [Classical.not_imp, Option.toList_eq_nil_iff, ← Ne, Option.ne_none_iff_exists']
  simp only [Option.join_eq_some_iff]

/-- The list of a direct query has been obtained. -/
def queried (groups : List (ArtMethodQueryGroup (Option R))) (world : ω)
    (thread : Vm.NativeThread) : Session ω R :=
  ⟨world, thread, rawsOf (fun group ↦ group.loader.join) groups, [], []⟩

/-- The groups are handed out, or their loaders deleted, unless the thread cannot be attached. -/
theorem wp_methodQueryGroups (groups : List (ArtMethodQueryGroup (Option R))) (world : ω)
    (thread : Vm.NativeThread) :
    wp (methodQueryGroupsFromArtGroups vm groups)
      (fun published t ↦ Accounted (published.filterMap (·.loader)) t)
      (fun _ t ↦ Accounted [] t) (queried groups world thread) ↔
    (rawsOf (fun group ↦ group.loader.join) groups ≠ [] →
      thread.attached = true ∨ ∃ env, (vm.attach world).1 = .ok env) := by
  have hattach := wp_attachCurrentThread vm (s := queried groups world thread)
  constructor
  · intro h hloaders
    rw [methodQueryGroupsFromArtGroups, withAttached, wp_bind] at h
    have hboth := wp_and h hattach
    rw [wp] at hboth
    split at hboth
    · exact hboth.2.2.2.2
    · next t _ =>
      obtain ⟨hnothing, hsame, -⟩ := hboth
      have hperm := hnothing.perm
      rw [hsame.deleted, hsame.obtained] at hperm
      exact absurd hperm.nil_eq.symm hloaders
  · intro hcan
    refine wp_withAttached vm ?_ ?_
    · intro t ht hattached
      have hsettles := settles_publishGroups vm (I := (· = [])) []
        (.refl (groups.filterMap (·.loader)))
      refine wp_of_settles hsettles hattached ht.shown ?_
      rw [ht.deleted, ht.obtained]
      exact .of_eq (List.append_nil _)
    · rintro t ht hdetached ⟨code, hcode⟩
      have hnone : rawsOf (fun group ↦ group.loader.join) groups = [] := by
        by_contra hloaders
        rcases hcan hloaders with hattached | ⟨env, henv⟩
        · exact absurd (hdetached.symm.trans hattached) Bool.false_ne_true
        · cases hcode.symm.trans henv
      refine ⟨?_, ht.shown ▸ List.nil_prefix⟩
      rw [ht.deleted, ht.obtained]
      exact .of_eq hnone.symm

/-- A direct query leaves loaders exactly where the thread cannot be attached again. -/
theorem conservesHandles_methods_iff (enumerate : Enumeration θ ω (ArtMethodQueryGroup (Option R)))
    (world : ω) (thread : Vm.NativeThread) :
    ConservesHandles vm (.methods enumerate) world thread ↔
      (Consumer.methods enumerate).CanAttach vm world thread := by
  rw [ConservesHandles, Consumer.run, wp_bind, enumerateMethods, wp_bind, wp_enumerateHandles,
    Consumer.CanAttach]
  have hqueried (groups : List (ArtMethodQueryGroup (Option R))) (world' : ω) :=
    wp_methodQueryGroups vm groups world' thread
  simp only [rawsOf_loaders_ne_nil] at hqueried
  constructor
  · rintro ⟨hgroups, -⟩ groups world' henumerate
    exact (hqueried groups world').1 (hgroups groups world' henumerate)
  · intro hcan
    refine ⟨?_, fun _ _ _ ↦ accounted_of_sameAccount ⟨rfl, rfl, rfl⟩⟩
    intro groups world' henumerate
    exact (hqueried groups world').2 (hcan groups world' henumerate)

/-- Every reference of a list ends in the result or is deleted, once, exactly where the thread can
be attached when a direct query has found loaders. -/
theorem conservesHandles_iff (consumer : Consumer θ ω R) (world : ω) (thread : Vm.NativeThread) :
    ConservesHandles vm consumer world thread ↔ consumer.CanAttach vm world thread := by
  cases consumer with
  | classLoaders enumerate =>
    refine iff_of_true ?_ trivial
    have hsettles := (settles_enumerateHandles (I := (· = [])) enumerate (·.raw)).bind
      fun handles ↦ settles_classLoaderRefs vm handles
    rw [ConservesHandles, Consumer.run, wp_bind]
    exact wp_withAttached_of_settles vm hsettles world thread
  | loadedClasses enumerate =>
    refine iff_of_true ?_ trivial
    have hsettles := (settles_enumerateHandles (I := (· = [])) enumerate (·.raw)).bind
      fun handles ↦ settles_rawClasses vm handles
    rw [ConservesHandles, Consumer.run, wp_bind]
    exact wp_withAttached_of_settles vm hsettles world thread
  | methods enumerate => exact conservesHandles_methods_iff vm enumerate world thread
  | instances enumerate user =>
    refine iff_of_true ?_ trivial
    rw [ConservesHandles, Consumer.run, wp_bind]
    refine wp_withAttached vm ?_ fun t ht _ _ ↦ accounted_of_sameAccount ht
    intro t ht hattached
    exact accounted_chooseInstances vm user enumerate hattached
      ⟨ht.obtained, ht.deleted, ht.shown⟩

end

end

/-! ## A thread that cannot be attached again -/

theorem neg_one_ne_ok : (-1 : Int) ≠ Hook.JNI_OK := by decide

/-- The VM attaches no thread. -/
def refusingJvm : Jvm Empty Unit Nat where
  attach := fun world ↦ (.error ⟨-1, neg_one_ne_ok⟩, world)
  findClass := fun _ world ↦ (.ok 0, world)
  isInstanceOf := fun _ _ world ↦ (.ok true, world)
  getObjectClass := fun _ world ↦ (.ok 0, world)
  address := fun _ ↦ ""

/-- A group whose loader has the reference 1. -/
def oneLoader : Enumeration Empty Unit (ArtMethodQueryGroup (Option Nat)) :=
  fun world ↦ (.ok [⟨8, some (some 1), []⟩], world)

/-- The reference is neither owned nor deleted. -/
theorem not_conservesHandles :
    ¬ConservesHandles refusingJvm (.methods oneLoader) () ⟨none⟩ := by
  have hrun : (Consumer.methods oneLoader).run refusingJvm (.start () ⟨none⟩) =
      .error (.jniCallFailed "JavaVM::AttachCurrentThread" (-1)) ⟨(), ⟨none⟩, [1], [], []⟩ := rfl
  rw [ConservesHandles, wp, hrun]
  rintro ⟨hperm, -⟩
  exact absurd hperm.length_eq (by decide)

end JavaBridge.Java

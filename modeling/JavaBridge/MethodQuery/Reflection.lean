import JavaBridge.Art.MethodQuery
import JavaBridge.MethodQuery.Shown

/-!
# The method query by reflection

Where the direct query is not supported, the methods of each loaded class come from
`Class.getDeclaredMethods` and `Class.getDeclaredConstructors`, and its loader from
`Class.getClassLoader`, each time with a new global reference.

Main results:

* `wp_reflectClass`: a class that matches goes into a group, which is new where it has a loader.
* `wp_enumerateMethodsWithReflection`: the groups that come of all the classes.
-/

namespace JavaBridge

open Art

def ACC_STATIC : BitVec 32 := 0x8

/-! ## Reflected methods -/

/-- A `Method` or a `Constructor`, as its getters answer. -/
structure ReflectedMethod where
  getName : String
  getModifiers : BitVec 32
  getParameterTypes : List JavaType
  getReturnType : JavaType
  /-- `FromReflectedMethod`. -/
  id : BitVec 64

def methodMetadataFromReflection (reflected : ReflectedMethod) (fallbackKind : MethodKind) :
    MethodMetadata :=
  let kind : MethodKind :=
    if fallbackKind = .constructor then .constructor
    else if reflected.getModifiers &&& ACC_STATIC ≠ 0 then .staticMethod
    else .instanceMethod
  { name := if fallbackKind = .constructor then "<init>" else reflected.getName
    kind
    signature :=
      ⟨reflected.getParameterTypes,
        if kind = .constructor then .void else reflected.getReturnType⟩
    modifiers := reflected.getModifiers
    id := reflected.id }

/-- `sort_methods`, where `a` does not come after `b`. -/
def sortMethods (a b : MethodMetadata) : Bool :=
  a.name < b.name ∨ a.name = b.name ∧
    (a.signature.descriptor < b.signature.descriptor ∨
      a.signature.descriptor = b.signature.descriptor ∧ a.id ≤ b.id)

def declaredMethods (methods constructors : List ReflectedMethod) : List MethodMetadata :=
  (methods.map (methodMetadataFromReflection · .instanceMethod) ++
    constructors.map (methodMetadataFromReflection · .constructor)).mergeSort sortMethods

/-! ## The query -/

/-- A loaded class, and what reflection answers of it. -/
structure ReflectedClass (θ : Type) where
  name : String
  getClassLoader : Except (Error θ) (Option (BitVec 64))
  /-- `validate_class_loader`, of a new reference. -/
  validated : Except (Error θ) Unit
  /-- `getDeclaredMethods` and `getDeclaredConstructors`, with all their elements. -/
  reflected : Except (Error θ) (List ReflectedMethod × List ReflectedMethod)

structure JavaMethodQueryClass where
  name : String
  methods : List MethodMetadata
  deriving DecidableEq

structure JavaMethodQueryGroup (R : Type) where
  loader : Option R
  classes : List JavaMethodQueryClass
  deriving DecidableEq

namespace MethodQuery

/-- The loop over the declared methods of a class. -/
def matchMethods (query : MethodQuery) :
    List MethodMetadata → List String → List MethodMetadata → List MethodMetadata
  | [], _, methods => methods
  | method :: declared, seen, methods =>
    if method.name = "<clinit>" then matchMethods query declared seen methods
    else
      let displayName :=
        queryMethodName method.kind method.name method.signature query.includeSignature
      if query.includeSignature = false ∧ displayName ∈ seen then
        matchMethods query declared seen methods
      else
        matchMethods query declared (seen ++ [displayName])
          (if matchesMethod query method then methods ++ [method] else methods)

end MethodQuery

section

variable {θ R : Type} [DecidableEq R]

/-- `drop` of a reference to a loader. -/
def dropLoader (loader : Option R) (refs : GlobalRefs R) : GlobalRefs R :=
  deleteGlobalRefs loader.toList refs

/-- `metadata::class_loader`: a new reference for each call. -/
def classLoader (art : ArtRuntime θ R) (holder : ReflectedClass θ) :
    EStateM (Error θ) (GlobalRefs R) (Option R) := do
  match ← MonadExcept.ofExcept holder.getClassLoader with
  | none => pure none
  | some loader =>
    let raw ← newGlobalRef art loader
    Fallible.onError (dropLoader (some raw)) (MonadExcept.ofExcept holder.validated)
    pure (some raw)

def findMethodQueryGroup (groups : List (JavaMethodQueryGroup R)) (loader : Option R) :
    Option Nat :=
  groups.findIdx? fun group ↦
    match group.loader, loader with
    | none, none => true
    | some a, some b => a = b
    | _, _ => false

/-- The class goes into the group of its loader, which is moved or dropped. -/
def addToGroup (groups : List (JavaMethodQueryGroup R)) (loader : Option R)
    (found : JavaMethodQueryClass) :
    EStateM (Error θ) (GlobalRefs R) (List (JavaMethodQueryGroup R)) :=
  match findMethodQueryGroup groups loader with
  | some index => do
    modify (dropLoader loader)
    pure (groups.modify index fun group ↦ { group with classes := group.classes ++ [found] })
  | none => pure (groups ++ [⟨loader, [found]⟩])

/-- The part of the loop after the loader of a class is asked for. -/
def reflectMethods (art : ArtRuntime θ R) (query : MethodQuery) (holder : ReflectedClass θ)
    (groups : List (JavaMethodQueryGroup R)) (loader : Option R) :
    EStateM (Error θ) (GlobalRefs R) (List (JavaMethodQueryGroup R)) := do
  let (methods, constructors) ← Fallible.onError (dropLoader loader)
    (MonadExcept.ofExcept holder.reflected)
  let found := query.matchMethods (declaredMethods methods constructors) [] []
  if found = [] then
    modify (dropLoader loader)
    pure groups
  else
    match loader with
    | some raw => addToGroup groups (some raw) ⟨holder.name, found⟩
    | none =>
      let loader ← classLoader art holder
      addToGroup groups loader ⟨holder.name, found⟩

/-- The loop body of `enumerate_methods_with_reflection`. -/
def reflectClass (art : ArtRuntime θ R) (query : MethodQuery) (holder : ReflectedClass θ)
    (groups : List (JavaMethodQueryGroup R)) :
    EStateM (Error θ) (GlobalRefs R) (List (JavaMethodQueryGroup R)) :=
  if query.skipSystemClasses ∧ MethodQuery.isPlatformClass holder.name then pure groups
  else if MethodQuery.globMatches query.classPattern
      (MethodQuery.normalizeCase holder.name query.ignoreCase) = false then pure groups
  else if query.skipSystemClasses then do
    match ← classLoader art holder with
    | none => pure groups
    | some raw => reflectMethods art query holder groups (some raw)
  else reflectMethods art query holder groups none

/-- The loop over the loaded classes. Where it fails, the groups are dropped with their loaders. -/
def enumerateMethodsWithReflection (art : ArtRuntime θ R) (query : MethodQuery) :
    List (ReflectedClass θ) → List (JavaMethodQueryGroup R) →
      EStateM (Error θ) (GlobalRefs R) (List (JavaMethodQueryGroup R))
  | [], groups => pure groups
  | holder :: classes, groups => do
    let groups ← Fallible.onError (deleteGlobalRefs (groups.filterMap (·.loader)))
      (reflectClass art query holder groups)
    enumerateMethodsWithReflection art query classes groups

end

namespace MethodQuery

variable {query : MethodQuery}

theorem matchMethods_eq (declared : List MethodMetadata) (seen : List String)
    (methods : List MethodMetadata) :
    query.matchMethods declared seen methods =
      query.selectMethods (declared.filter (·.name ≠ "<clinit>")) seen methods := by
  induction declared generalizing seen methods with
  | nil => rfl
  | cons method declared ih =>
    rw [matchMethods]
    by_cases hclinit : method.name = "<clinit>"
    · rw [if_pos hclinit, ih, List.filter_cons_of_neg (by simpa using hclinit)]
    · rw [if_neg hclinit, List.filter_cons_of_pos (by simpa using hclinit), selectMethods, ← ih,
        ← ih]
      rfl

end MethodQuery

/-! ## Groups -/

/-- What reflection answers of a class. -/
structure ReflectedClass.Sees {θ : Type} (holder : ReflectedClass θ) (loaded : LoadedClass) :
    Prop where
  name : holder.name = loaded.name
  loader : holder.getClassLoader = .ok loaded.loader
  validated : holder.validated = .ok ()
  methods : ∃ methods constructors, holder.reflected = .ok (methods, constructors) ∧
    SameShapes ((declaredMethods methods constructors).filter (·.name ≠ "<clinit>")) loaded.methods

/-- What a class has to show, found by the loop. -/
theorem MethodQuery.classView_matchMethods {query : MethodQuery} {declared : List MethodMetadata}
    {loaded : LoadedClass} (name : String)
    (h : SameShapes (declared.filter (·.name ≠ "<clinit>")) loaded.methods) :
    query.classView name (query.matchMethods declared [] []) =
      (name, query.shown loaded.methods) := by
  rw [matchMethods_eq, classView_selectMethods, shown_congr h]

theorem MethodQuery.matchMethods_eq_nil {query : MethodQuery} {declared : List MethodMetadata}
    {loaded : LoadedClass}
    (h : SameShapes (declared.filter (·.name ≠ "<clinit>")) loaded.methods) :
    query.matchMethods declared [] [] = [] ↔
      ¬∃ method ∈ loaded.methods, query.matchesMethod method = true := by
  rw [matchMethods_eq, selectMethods_eq_nil, shown_congr h, shown_eq_empty]

section

variable {θ R : Type} [DecidableEq R] {art : ArtRuntime θ R} {query : MethodQuery}
  {groups : List (JavaMethodQueryGroup R)} {s t : GlobalRefs R}

/-- Groups by the objects of their loaders, and classes by what is shown of them. -/
def views (query : MethodQuery) (refs : GlobalRefs R) (groups : List (JavaMethodQueryGroup R)) :
    List (Option (Option (BitVec 64)) × List (String × Finset Displayed)) :=
  groups.map fun group ↦
    (group.loader.map refs.object, group.classes.map fun found ↦
      query.classView found.name found.methods)

/-- The groups hold live references. -/
def Referred (refs : GlobalRefs R) (groups : List (JavaMethodQueryGroup R)) : Prop :=
  ∀ group ∈ groups, ∀ raw, group.loader = some raw → ∃ object, refs.object raw = some object

/-- The answer for a loader: a new reference to it, or none for the bootstrap loader. -/
structure NewLoader (s t : GlobalRefs R) (loader : Option R) (object : Option (BitVec 64)) :
    Prop where
  taken : ∃ created, Extends s t created ∧ created.map Prod.fst = loader.toList
  object : loader.map t.object = object.map some

theorem GlobalRefs.object_congr (h : t.live = s.live) : t.object = s.object := by
  funext raw
  rw [GlobalRefs.object, h, GlobalRefs.object]

theorem views_congr (h : t.live = s.live) : views query t groups = views query s groups := by
  rw [views, GlobalRefs.object_congr h, views]

theorem Referred.nil (s : GlobalRefs R) : Referred s ([] : List (JavaMethodQueryGroup R)) := nofun

theorem Referred.congr (h : t.live = s.live) (hgroups : Referred s groups) :
    Referred t groups := by
  rw [Referred, GlobalRefs.object_congr h]
  exact hgroups

namespace NewLoader

variable {loader : Option R} {object : Option (BitVec 64)}

/-- The groups are as they were. -/
theorem views (h : NewLoader s t loader object) (hgroups : Referred s groups) :
    JavaBridge.views query t groups = JavaBridge.views query s groups := by
  obtain ⟨created, hextends, -⟩ := h.taken
  refine List.map_congr_left fun group hgroup ↦ ?_
  cases hloader : group.loader with
  | none => rfl
  | some raw =>
    obtain ⟨object, hobject⟩ := hgroups group hgroup raw hloader
    rw [Option.map_some, Option.map_some, hobject, hextends.object_of_some hobject]

theorem referred (h : NewLoader s t loader object) (hgroups : Referred s groups) :
    Referred t groups := by
  obtain ⟨created, hextends, -⟩ := h.taken
  intro group hgroup raw hloader
  obtain ⟨object, hobject⟩ := hgroups group hgroup raw hloader
  exact ⟨object, hextends.object_of_some hobject⟩

/-- A loader that is dropped leaves the references as they were. -/
theorem live_dropLoader (h : NewLoader s t loader object) :
    (dropLoader loader t).live = s.live := by
  obtain ⟨created, hextends, hcreated⟩ := h.taken
  rw [dropLoader, ← hcreated]
  exact hextends.deleteGlobalRefs

/-- No group has a new reference. -/
theorem find_eq_none {raw : R} (h : NewLoader s t (some raw) object) (hgroups : Referred s groups) :
    findMethodQueryGroup groups (some raw) = none := by
  obtain ⟨created, hextends, hcreated⟩ := h.taken
  rw [findMethodQueryGroup, List.findIdx?_eq_none_iff]
  intro group hgroup
  cases hloader : group.loader with
  | none => rfl
  | some other =>
    obtain ⟨object, hobject⟩ := hgroups group hgroup other hloader
    refine decide_eq_false ?_
    rintro rfl
    have hlive : other ∈ s.live.map Prod.fst := by
      obtain ⟨before, after, hlive, -⟩ := List.lookup_eq_some_iff.1 hobject
      rw [hlive, List.map_append, List.map_cons]
      exact List.mem_append_right _ List.mem_cons_self
    exact hextends.fresh other (by rw [hcreated]; exact List.mem_singleton.2 rfl) hlive

theorem eq_none_iff (h : NewLoader s t loader object) : loader = none ↔ object = none := by
  have hobject := congrArg Option.isNone h.object
  rw [Option.isNone_map, Option.isNone_map] at hobject
  rw [← Option.isNone_iff_eq_none, hobject, Option.isNone_iff_eq_none]

theorem refl (s : GlobalRefs R) : NewLoader s s none none where
  taken := ⟨[], .refl s, rfl⟩
  object := rfl

end NewLoader

theorem wp_classLoader (hart : AllGranted art) (hpending : NothingPending art)
    {holder : ReflectedClass θ} {loaded : LoadedClass}
    (h : holder.Sees loaded) :
    Fallible.wp (classLoader art holder) (fun loader t ↦ NewLoader s t loader loaded.loader)
      (fun _ _ ↦ False) s := by
  rw [classLoader, h.loader, h.validated]
  cases hloader : loaded.loader with
  | none => exact .refl s
  | some object =>
    show Fallible.wp (do
      let raw ← newGlobalRef art object
      Fallible.onError (dropLoader (some raw)) (MonadExcept.ofExcept (.ok ()))
      pure (some raw)) _ _ s
    rw [Fallible.wp_bind]
    refine Fallible.wp_mono wp_newGlobalRef ?_ fun _ _ ⟨hserved, _⟩ ↦
      hserved ⟨hpending _, fun _ ↦ hart _⟩
    rintro raw t ⟨-, -, hextends⟩
    refine ⟨⟨[(raw, object)], hextends, rfl⟩, ?_⟩
    rw [Option.map_some, hextends.object, Option.map_some]

/-- The group of the bootstrap loader is found by its loader, which is none. -/
theorem findMethodQueryGroup_none (query : MethodQuery) (refs : GlobalRefs R)
    (groups : List (JavaMethodQueryGroup R)) :
    findMethodQueryGroup groups none = (views query refs groups).findIdx? (·.1 = none) := by
  rw [findMethodQueryGroup, views, List.findIdx?_map]
  congr 1
  funext group
  cases h : group.loader <;> simp [h]

theorem views_modify (index : Nat) (found : JavaMethodQueryClass) (refs : GlobalRefs R) :
    views query refs (groups.modify index fun group ↦
        { group with classes := group.classes ++ [found] }) =
      (views query refs groups).modify index fun group ↦
        (group.1, group.2 ++ [query.classView found.name found.methods]) := by
  induction groups generalizing index with
  | nil => simp [views]
  | cons group groups ih =>
    cases index with
    | zero => simp [views]
    | succ index =>
      rw [List.modify_succ_cons, views, List.map_cons, ← views, ih]
      rfl

theorem Referred.modify (h : Referred s groups) (index : Nat) (found : JavaMethodQueryClass) :
    Referred s (groups.modify index fun group ↦
      { group with classes := group.classes ++ [found] }) := by
  intro group hgroup raw hraw
  obtain ⟨i, hi, rfl⟩ := List.mem_iff_getElem.1 hgroup
  rw [List.getElem_modify] at hraw
  rw [List.length_modify] at hi
  refine h groups[i] (List.getElem_mem hi) raw ?_
  split at hraw
  · exact hraw
  · exact hraw

/-- A class with a loader begins a group. -/
theorem wp_addToGroup {loader : Option R} {object : Option (BitVec 64)}
    (h : NewLoader s t loader object) (hgroups : Referred s groups) (found : JavaMethodQueryClass) :
    Fallible.wp (addToGroup (θ := θ) groups loader found)
      (fun groups' u ↦ Referred u groups' ∧ views query u groups' =
        Grouping.insertApart (object.map some) (query.classView found.name found.methods)
          (views query s groups)) (fun _ _ ↦ False) t := by
  have hpush : Referred t (groups ++ [⟨loader, [found]⟩]) ∧
      views query t (groups ++ [⟨loader, [found]⟩]) = views query s groups ++
        [(object.map some, [query.classView found.name found.methods])] := by
    constructor
    · intro group hgroup raw hraw
      rcases List.mem_append.1 hgroup with hgroup | hgroup
      · exact h.referred hgroups group hgroup raw hraw
      · obtain rfl := List.mem_singleton.1 hgroup
        have hobject := h.object
        rw [show loader = some raw from hraw] at hobject
        cases object with
        | none => cases hobject
        | some object => exact ⟨object, Option.some.inj hobject⟩
    · rw [← h.views hgroups, views, List.map_append, ← views, ← h.object]
      rfl
  cases loader with
  | some raw =>
    rw [addToGroup, h.find_eq_none hgroups]
    obtain ⟨object, rfl⟩ := Option.ne_none_iff_exists'.1 (mt h.eq_none_iff.2 (Option.some_ne_none raw))
    exact hpush
  | none =>
    obtain rfl := h.eq_none_iff.1 rfl
    rw [addToGroup, findMethodQueryGroup_none query s]
    split
    · next index hindex =>
      refine ⟨(h.referred hgroups).modify index found, ?_⟩
      show views query t _ = _
      rw [views_modify, h.views hgroups]
      exact (Grouping.insert_of_findIdx? hindex).symm
    · next hnone =>
      refine ⟨hpush.1, ?_⟩
      rw [hpush.2]
      refine (Grouping.insert_of_not_mem ?_).symm
      intro hmem
      obtain ⟨group, hgroup, hkey⟩ := List.mem_map.1 hmem
      exact of_decide_eq_false (List.findIdx?_eq_none_iff.1 hnone group hgroup) hkey

/-- What becomes of the groups: they have the class, where it has something to show. -/
theorem wp_reflectMethods (hart : AllGranted art) (hpending : NothingPending art)
    {holder : ReflectedClass θ} {loaded : LoadedClass} {loader : Option R} (h : holder.Sees loaded) (hgroups : Referred s groups)
    (hloader : (loader = none ∧ t = s) ∨
      ∃ raw, loader = some raw ∧ NewLoader s t (some raw) loaded.loader) :
    Fallible.wp (reflectMethods art query holder groups loader)
      (fun groups' u ↦ Referred u groups' ∧ views query u groups' =
        if ∃ method ∈ loaded.methods, query.matchesMethod method = true then
          Grouping.insertApart (loaded.entry query).1 (loaded.entry query).2 (views query s groups)
        else views query s groups) (fun _ _ ↦ False) t := by
  obtain ⟨methods, constructors, hreflected, hshapes⟩ := h.methods
  rw [reflectMethods, hreflected, Fallible.wp_bind]
  show Fallible.wp (if query.matchMethods (declaredMethods methods constructors) [] [] = [] then _
    else _) _ _ t
  rw [Fallible.wp_ite, MethodQuery.matchMethods_eq_nil hshapes]
  refine ⟨fun hnone ↦ ?_, fun hsome ↦ ?_⟩
  · have hdropped : (dropLoader loader t).live = s.live := by
      rcases hloader with ⟨rfl, rfl⟩ | ⟨raw, rfl, hnew⟩
      · rfl
      · exact hnew.live_dropLoader
    rw [Fallible.wp_bind, Fallible.wp_modify, Fallible.wp_pure, if_neg hnone]
    exact ⟨hgroups.congr hdropped, views_congr hdropped⟩
  · rw [if_pos (not_not.1 hsome), LoadedClass.entry, ← h.name,
      ← MethodQuery.classView_matchMethods holder.name hshapes]
    rcases hloader with ⟨rfl, rfl⟩ | ⟨raw, rfl, hnew⟩
    · rw [Fallible.wp_bind]
      refine Fallible.wp_mono (wp_classLoader hart hpending h) ?_ fun _ _ h ↦ h
      intro loader u hnew
      exact wp_addToGroup hnew hgroups _
    · exact wp_addToGroup hnew hgroups _

/-- What becomes of the groups: they have the class, where it matches, and a class with a loader
begins a group. -/
theorem wp_reflectClass (hart : AllGranted art) (hpending : NothingPending art)
    {holder : ReflectedClass θ} {loaded : LoadedClass}
    (h : holder.Sees loaded) (hgroups : Referred s groups) :
    Fallible.wp (reflectClass art query holder groups)
      (fun groups' t ↦ Referred t groups' ∧ views query t groups' =
        if loaded.Matches query then
          Grouping.insertApart (loaded.entry query).1 (loaded.entry query).2 (views query s groups)
        else views query s groups) (fun _ _ ↦ False) s := by
  rw [reflectClass, h.name]
  simp only [Fallible.wp_ite]
  refine ⟨fun hplatform ↦ ?_, fun hplatform ↦ ⟨fun hglob ↦ ?_, fun hglob ↦ ?_⟩⟩
  · rw [Fallible.wp_pure, if_neg fun hmatches ↦ hmatches.1 ⟨hplatform.1, .inl hplatform.2⟩]
    exact ⟨hgroups, rfl⟩
  · rw [Fallible.wp_pure, if_neg]
    · exact ⟨hgroups, rfl⟩
    · rintro ⟨-, hclass, -⟩
      rw [hglob] at hclass
      cases hclass
  · rw [Bool.not_eq_false] at hglob
    constructor
    · intro hskip
      rw [Fallible.wp_bind]
      refine Fallible.wp_mono (wp_classLoader hart hpending h) ?_ fun _ _ h ↦ h
      intro loader t hnew
      cases loader with
      | none =>
        have hnone := hnew.eq_none_iff.1 rfl
        rw [Fallible.wp_pure, if_neg fun hmatches ↦ hmatches.1 ⟨hskip, .inr hnone⟩]
        exact ⟨hnew.referred hgroups, hnew.views hgroups⟩
      | some raw =>
        have hsome := mt hnew.eq_none_iff.2 (Option.some_ne_none raw)
        simp only [LoadedClass.matches_iff (fun hloader ↦ hsome hloader.2) hplatform hglob]
        exact wp_reflectMethods hart hpending h hgroups (.inr ⟨raw, rfl, hnew⟩)
    · intro hskip
      simp only [LoadedClass.matches_iff (fun hloader ↦ hskip hloader.1) hplatform hglob]
      exact wp_reflectMethods hart hpending h hgroups (.inl ⟨rfl, rfl⟩)

/-- The classes that match go into groups in which each loader is told apart from all others. -/
theorem wp_enumerateMethodsWithReflection (hart : AllGranted art) (hpending : NothingPending art)
    (query : MethodQuery)
    {classes : List (ReflectedClass θ)} {loaded : List LoadedClass}
    (h : List.Forall₂ ReflectedClass.Sees classes loaded) (hgroups : Referred s groups) :
    Fallible.wp (enumerateMethodsWithReflection art query classes groups)
      (fun groups' t ↦ views query t groups' =
        ((loaded.filter (·.Matches query)).map (·.entry query)).foldl
          (fun groups entry ↦ Grouping.insertApart entry.1 entry.2 groups) (views query s groups))
      (fun _ _ ↦ False) s := by
  induction h generalizing groups s with
  | nil => rfl
  | @cons holder loaded classes rest hsees _ ih =>
    rw [enumerateMethodsWithReflection, Fallible.wp_bind, Fallible.wp_onError]
    refine Fallible.wp_mono (wp_reflectClass hart hpending hsees hgroups) ?_ fun _ _ h ↦ h
    rintro groups' t ⟨hreferred, hviews⟩
    refine Fallible.wp_mono (ih hreferred) ?_ fun _ _ h ↦ h
    rintro groups'' u hrest
    rw [hrest, hviews, List.filter_cons]
    split
    · next hmatches => rw [if_pos (by simpa using hmatches)]; rfl
    · next hmatches => rw [if_neg (by simpa using hmatches)]

end

end JavaBridge

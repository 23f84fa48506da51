import JavaBridge.Art.Enumeration
import JavaBridge.Art.Replace
import JavaBridge.Library.Grouping
import JavaBridge.MethodQuery

/-!
# The direct method query

The methods of each class that `VisitClasses` passes, read from the class and named by
`ArtMethod::PrettyMethod`, grouped by the loader of the class. A group has the global reference to its
loader.

Main results:

* `wp_collectClass`: a class adds at most one reference, and that to a new group.
* `wp_enumerateMethods`: the references to loaders are handed out or deleted.
* `wp_enumerateMethods_of_granted`: where no reference is refused, the query fails exactly where a
  class cannot be read, and else groups what matches by the loader.
-/

namespace JavaBridge.Art

def FEATURE_METHOD_QUERY : String := "ART direct method enumeration"

/-! ## Memory of classes -/

structure ArtMethodQueryLayout where
  classMethodsOffset : BitVec 64
  classCopiedMethodsOffset : BitVec 64
  methodSize : BitVec 64
  methodAccessFlagsOffset : BitVec 64

structure ArtArray where
  data : BitVec 64
  length : Nat

def readU16 (pointer : BitVec 64) (memory : MemoryRanges) (m : ByteMemory) : Option (BitVec 16) :=
  let address := normalizeAddress pointer
  if memory.contains address 2 then some (BitVec.ofNat 16 (m.load address 2)) else none

def readArtArray (object offset : BitVec 64) (lengthSize : Nat) (memory : MemoryRanges)
    (m : ByteMemory) : Option ArtArray := do
  let header ← readUsize (object + offset) memory m
  if header = 0 ∨ memory.contains header lengthSize = false then none
  else
    let length ←
      if lengthSize = 4 then (readU32 header memory m).map BitVec.toNat
      else (readUsize header memory m).map BitVec.toNat
    if length = 0 then none else some ⟨header + BitVec.ofNat 64 lengthSize, length⟩

def classLoaderKey (holder : BitVec 64) (m : ByteMemory) : BitVec 32 :=
  BitVec.ofNat 32 (m.load (holder + 8) 4)

/-! ## Methods -/

/-- How errors and texts are printed. -/
structure Formats (θ : Type) where
  /-- An error by `{}`. -/
  display : Error θ → String
  /-- A text by `{:?}`. -/
  debug : String → String

section

variable {θ R : Type}

def unsupportedMethodQuery {α : Type} (reason : String) : Except (Error θ) α :=
  .error (.unsupportedFeature FEATURE_METHOD_QUERY reason)

/-- `PrettyMethodFunction::call`. -/
def callPrettyMethod (art : ArtRuntime θ R) (method : BitVec 64) (withSignature : Bool) :
    Except (Error θ) String :=
  (art.prettyMethod method withSignature).toString art.chars

/-- The name and the arguments in a text `name(arguments)`, whose closing parenthesis is its last
character. -/
def splitArguments (formats : Formats θ) (pretty : String) (nameAndArguments : List Char) :
    Except (Error θ) (List Char × List Char) :=
  match Text.splitOnce '(' nameAndArguments with
  | none =>
    unsupportedMethodQuery ("PrettyMethod output has no arguments: " ++ formats.debug pretty)
  | some (name, _) =>
    match Text.stripSuffix [')'] nameAndArguments with
    | none =>
      unsupportedMethodQuery ("PrettyMethod output has no closing ')': " ++ formats.debug pretty)
    | some arguments => .ok (name, arguments.drop (name.length + 1))

/-- What is made of the text that `ArtMethod::PrettyMethod` gives: nothing of a class initialiser. -/
def prettyMetadata (formats : Formats θ) (className : String) (method : BitVec 64)
    (accessFlags : BitVec 32) (pretty : String) : Except (Error θ) (Option MethodMetadata) :=
  match Text.splitOnce ' ' pretty.toList with
  | none => unsupportedMethodQuery ("unexpected PrettyMethod output: " ++ formats.debug pretty)
  | some (returnType, rest) =>
    match Text.stripPrefix (className ++ ".").toList rest with
    | none =>
      unsupportedMethodQuery ("PrettyMethod output " ++ formats.debug pretty ++
        " does not start with class " ++ formats.debug className)
    | some nameAndArguments => do
      let (name, arguments) ← splitArguments formats pretty nameAndArguments
      if String.ofList name = "<clinit>" then .ok none
      else
        let kind : MethodKind :=
          if accessFlags &&& K_ACC_CONSTRUCTOR ≠ 0 then .constructor
          else if accessFlags &&& K_ACC_STATIC ≠ 0 then .staticMethod
          else .instanceMethod
        let name := if kind = .constructor then "<init>" else String.ofList name
        let signature ← (MethodSignature.fromPrettyTypes (String.ofList returnType)
          (String.ofList arguments)).mapError fun error ↦
            .unsupportedFeature FEATURE_METHOD_QUERY ("unable to parse PrettyMethod signature " ++
              formats.debug pretty ++ ": " ++ formats.display error)
        .ok (some ⟨name, kind, signature, accessFlags &&& 0xffff, method⟩)

def artMethodMetadata (formats : Formats θ) (art : ArtRuntime θ R) (className : String)
    (method : BitVec 64) (accessFlags : BitVec 32) :
    Except (Error θ) (Option MethodMetadata) := do
  let pretty ← (callPrettyMethod art method true).mapError fun error ↦
    .unsupportedFeature FEATURE_METHOD_QUERY
      ("ArtMethod::PrettyMethod failed: " ++ formats.display error)
  prettyMetadata formats className method accessFlags pretty

/-- The method at `index` of an array, with its access flags. -/
def methodAt (art : ArtRuntime θ R) (layout : ArtMethodQueryLayout) (data : BitVec 64)
    (index : Nat) : BitVec 64 × BitVec 32 :=
  let method := data + BitVec.ofNat 64 index * layout.methodSize
  (method, (readU32 (method + layout.methodAccessFlagsOffset) art.memory art.contents).getD 0)

/-- The loop over the methods of a class, from `index` on. -/
def collectMethods (formats : Formats θ) (art : ArtRuntime θ R) (query : MethodQuery)
    (layout : ArtMethodQueryLayout) (className : String) (data : BitVec 64) :
    Nat → Nat → List String → List MethodMetadata → Except (Error θ) (List MethodMetadata)
  | 0, _, _, methods => .ok methods
  | count + 1, index, seen, methods => do
    let (method, accessFlags) := methodAt art layout data index
    match ← artMethodMetadata formats art className method accessFlags with
    | none => collectMethods formats art query layout className data count (index + 1) seen methods
    | some metadata =>
      let displayName := MethodQuery.queryMethodName metadata.kind metadata.name metadata.signature
        query.includeSignature
      if query.includeSignature = false ∧ displayName ∈ seen then
        collectMethods formats art query layout className data count (index + 1) seen methods
      else
        let methods :=
          if MethodQuery.globMatches query.methodPattern
              (MethodQuery.normalizeCase displayName query.ignoreCase) then methods ++ [metadata]
          else methods
        collectMethods formats art query layout className data count (index + 1)
          (seen ++ [displayName]) methods

/-! ## Groups -/

structure ArtMethodQueryClass where
  name : String
  methods : List MethodMetadata
  deriving DecidableEq

structure ArtMethodQueryGroup (R : Type) where
  loaderKey : BitVec 32
  loader : Option R
  classes : List ArtMethodQueryClass
  deriving DecidableEq

/-- The groups and the references. -/
structure QueryState (R : Type) where
  groups : List (ArtMethodQueryGroup R)
  refs : GlobalRefs R

/-- Runs a function of the references. -/
def QueryState.onRefs {α : Type} (x : EStateM (Error θ) (GlobalRefs R) α) :
    EStateM (Error θ) (QueryState R) α :=
  Fallible.zoom QueryState.refs (fun refs s ↦ { s with refs := refs }) x

def QueryState.pushGroup (loaderKey : BitVec 32) (loader : Option R) (s : QueryState R) :
    QueryState R :=
  { s with groups := s.groups ++ [⟨loaderKey, loader, []⟩] }

/-- The class goes into the group at `index`. -/
def QueryState.pushClass (index : Nat) (holder : ArtMethodQueryClass) (s : QueryState R) :
    QueryState R :=
  { s with groups := s.groups.modify index fun group ↦
    { group with classes := group.classes ++ [holder] } }

/-- The reference of a group to its loader: none for the bootstrap loader. -/
def groupLoader (art : ArtRuntime θ R) (loaderKey : BitVec 32) :
    EStateM (Error θ) (QueryState R) (Option R) := do
  if loaderKey = 0 then return none
  match ← QueryState.onRefs (addGlobalRef art (loaderKey.setWidth 64)) with
  | none => throw (.nullReturn "JavaVMExt::AddGlobalRef")
  | some raw => return some raw

def findOrAddGroup (art : ArtRuntime θ R) (loaderKey : BitVec 32) :
    EStateM (Error θ) (QueryState R) Nat := do
  let state ← get
  match state.groups.findIdx? (·.loaderKey = loaderKey) with
  | some index => pure index
  | none =>
    let loader ← groupLoader art loaderKey
    modify (QueryState.pushGroup loaderKey loader)
    pure state.groups.length

/-- The methods that a class declares: those of its array before the copied ones. -/
def declaredArray (art : ArtRuntime θ R) (layout : ArtMethodQueryLayout) (holder : BitVec 64) :
    Option ArtArray := do
  let methodsArray ← readArtArray holder layout.classMethodsOffset 8 art.memory art.contents
  let copiedMethods := ((readU16 (holder + layout.classCopiedMethodsOffset) art.memory
    art.contents).getD 0).toNat
  some ⟨methodsArray.data, min copiedMethods methodsArray.length⟩

/-- The methods of a class that the query reads, where there are some and not too many. -/
def declaredMethods (art : ArtRuntime θ R) (layout : ArtMethodQueryLayout) (holder : BitVec 64) :
    Option ArtArray :=
  (declaredArray art layout holder).filter fun declared ↦
    ¬(declared.length = 0 ∨ 10000 < declared.length)

/-- The name of a class whose methods the query reads. -/
def queriedClass (query : MethodQuery) (descriptor : String) : Option String :=
  if descriptor.toList.head? ≠ some 'L' then none
  else
    let className := classNameFromDescriptor descriptor
    if query.skipSystemClasses ∧ MethodQuery.isPlatformClass className then none
    else if MethodQuery.globMatches query.classPattern
        (MethodQuery.normalizeCase className query.ignoreCase) = false then none
    else some className

/-- The methods of a class that the query is for, with the name of the class: nothing where the
query passes over it. -/
def matchClass (formats : Formats θ) (art : ArtRuntime θ R) (query : MethodQuery)
    (layout : ArtMethodQueryLayout) (holder : BitVec 64) :
    Except (Error θ) (Option ArtMethodQueryClass) := do
  if query.skipSystemClasses ∧ classLoaderKey holder art.contents = 0 then return none
  let descriptor ← classDescriptorFromArt (art.getClassDescriptor holder)
  match queriedClass query descriptor, declaredMethods art layout holder with
  | some className, some declared =>
    let methods ← collectMethods formats art query layout className declared.data declared.length 0
      [] []
    if methods = [] then return none
    return some ⟨className, methods⟩
  | _, _ => return none

def collectClass (formats : Formats θ) (art : ArtRuntime θ R) (query : MethodQuery)
    (layout : ArtMethodQueryLayout) (holder : BitVec 64) :
    EStateM (Error θ) (QueryState R) Unit := do
  match ← MonadExcept.ofExcept (matchClass formats art query layout holder) with
  | none => pure ()
  | some found =>
    let groupIndex ← findOrAddGroup art (classLoaderKey holder art.contents)
    modify (QueryState.pushClass groupIndex found)

structure ArtMethodQueryProcessor (θ : Type) where
  seenClasses : List (BitVec 64)
  error : Option (Error θ)

def ArtMethodQueryProcessor.visit (formats : Formats θ) (art : ArtRuntime θ R)
    (query : MethodQuery) (layout : ArtMethodQueryLayout) (holder : BitVec 64)
    (s : ArtMethodQueryProcessor θ × QueryState R) :
    Bool × ArtMethodQueryProcessor θ × QueryState R :=
  let (processor, state) := s
  if holder ∈ processor.seenClasses then (true, processor, state)
  else
    let seenClasses := processor.seenClasses ++ [holder]
    match collectClass formats art query layout holder state with
    | .ok _ state => (true, ⟨seenClasses, processor.error⟩, state)
    | .error error state => (false, ⟨seenClasses, some error⟩, state)

/-- What ends the calls before a query: an error, or an exception that is pending behind a lookup. -/
inductive PrepareFailure (θ : Type)
  | error (error : Error θ)
  | pending (operation : String) (exception : PendingException)

/-- What the runtime answers to a query. -/
structure QueryAnswers (θ : Type) where
  prepared : Except (PrepareFailure θ) Unit
  /-- What `detect_method_query_layout` finds. -/
  layout : Except (Error θ) ArtMethodQueryLayout
  /-- What `VisitClasses` passes to the visitor. -/
  visited : List (BitVec 64)

/-- The closure that runs on the runnable thread. -/
def queryMethods (formats : Formats θ) (art : ArtRuntime θ R) (query : MethodQuery)
    (answers : QueryAnswers θ) : EStateM (Error θ) (QueryState R) Unit := do
  let layout ← MonadExcept.ofExcept answers.layout
  let (processor, state) := visitUntil (ArtMethodQueryProcessor.visit formats art query layout)
    answers.visited (⟨[], none⟩, ← get)
  set state
  match processor.error with
  | some error => throw error
  | none => pure ()

/-- The calls before a query, to the lookups of the methods that the layout is found by. -/
def prepareQuery (art : ArtRuntime θ R) :
    Except (PrepareFailure θ) Unit → EStateM (Error θ) (GlobalRefs R) Unit
  | .ok _ => pure ()
  | .error (.error error) => throw error
  | .error (.pending operation exception) => checkPendingException art operation (some exception)

def enumerateMethods [DecidableEq R] (formats : Formats θ) (art : ArtRuntime θ R) (query : MethodQuery)
    (answers : QueryAnswers θ) :
    EStateM (Error θ) (GlobalRefs R) (List (ArtMethodQueryGroup R)) := do
  prepareQuery art answers.prepared
  deletingOnError QueryState.refs (fun s ↦ s.groups.filterMap (·.loader)) (QueryState.mk [])
    QueryState.groups (queryMethods formats art query answers)

end

/-! ## References to loaders -/

section

variable {θ R : Type} {formats : Formats θ} {art : ArtRuntime θ R} {query : MethodQuery}
  {layout : ArtMethodQueryLayout} {holder : BitVec 64}

namespace QueryState

/-- The references of the groups. -/
def raws (s : QueryState R) : List R := s.groups.filterMap (·.loader)

theorem raws_pushGroup (loaderKey : BitVec 32) (loader : Option R) (s : QueryState R) :
    (s.pushGroup loaderKey loader).raws = s.raws ++ loader.toList := by
  rw [raws, pushGroup, List.filterMap_append]
  cases loader <;> rfl

theorem raws_pushClass (index : Nat) (found : ArtMethodQueryClass) (s : QueryState R) :
    (s.pushClass index found).raws = s.raws := by
  obtain ⟨groups, globalRefs⟩ := s
  rw [raws, raws, pushClass]
  induction groups generalizing index with
  | nil => simp
  | cons group groups ih =>
    cases index with
    | zero => simp [List.modify_zero_cons, List.filterMap_cons]
    | succ index =>
      rw [List.modify_succ_cons, List.filterMap_cons, List.filterMap_cons, ih]

variable {s : QueryState R}

theorem wp_groupLoader (loaderKey : BitVec 32) :
    Fallible.wp (groupLoader art loaderKey)
      (fun loader t ↦ t.groups = s.groups ∧
        ∃ created, Extends s.refs t.refs created ∧ loader.toList = created.map Prod.fst)
      (fun _ t ↦ TakenIn refs raws s t) s := by
  rw [groupLoader, Fallible.wp_ite]
  refine ⟨fun _ ↦ ?_, fun _ ↦ ?_⟩
  · rw [Fallible.wp_pure]
    exact ⟨rfl, [], .refl _, rfl⟩
  · rw [Fallible.wp_bind, onRefs, Fallible.wp_zoom]
    refine Fallible.wp_mono wp_addGlobalRef ?_ fun _ _ h ↦ h
    rintro (_ | raw) t ⟨-, hanswer⟩
    · exact .of_live hanswer.2 rfl
    · exact ⟨rfl, _, hanswer.2, rfl⟩

theorem wp_findOrAddGroup (loaderKey : BitVec 32) :
    Fallible.wp (findOrAddGroup art loaderKey)
      (fun _ t ↦ TakenIn refs raws s t) (fun _ t ↦ TakenIn refs raws s t) s := by
  rw [findOrAddGroup, Fallible.wp_bind, Fallible.wp_get]
  split
  · exact .of_live rfl rfl
  · rw [Fallible.wp_bind]
    refine Fallible.wp_mono (wp_groupLoader _) ?_ fun _ _ h ↦ h
    rintro loader t ⟨hgroups, created, hextends, hloader⟩
    rw [Fallible.wp_bind, Fallible.wp_modify]
    refine ⟨created, hextends, ?_⟩
    rw [raws_pushGroup, raws, raws, hgroups, hloader]

end QueryState

open QueryState

variable {s : QueryState R}

theorem wp_collectClass (formats : Formats θ) (art : ArtRuntime θ R) (query : MethodQuery)
    (layout : ArtMethodQueryLayout) (holder : BitVec 64) (s : QueryState R) :
    Fallible.wp (collectClass formats art query layout holder)
      (fun _ t ↦ TakenIn refs raws s t) (fun _ t ↦ TakenIn refs raws s t) s := by
  rw [collectClass, Fallible.wp_bind, Fallible.wp_ofExcept]
  refine ⟨fun found _ ↦ ?_, fun _ _ ↦ .of_live rfl rfl⟩
  cases found with
  | none => exact .of_live rfl rfl
  | some found =>
    rw [Fallible.wp_bind]
    refine Fallible.wp_mono (wp_findOrAddGroup _) ?_ fun _ _ h ↦ h
    intro index t ht
    rw [Fallible.wp_modify]
    exact ht.trans (.of_live rfl (raws_pushClass index found t))

theorem wp_queryMethods (answers : QueryAnswers θ) :
    Fallible.wp (queryMethods formats art query answers)
      (fun _ t ↦ TakenIn refs raws s t) (fun _ t ↦ TakenIn refs raws s t) s := by
  rw [queryMethods, Fallible.wp_bind, Fallible.wp_ofExcept]
  refine ⟨fun layout _ ↦ ?_, fun _ _ ↦ .of_live rfl rfl⟩
  rw [Fallible.wp_bind, Fallible.wp_get]
  have hwalk : TakenIn refs raws s (visitUntil
      (ArtMethodQueryProcessor.visit formats art query layout) answers.visited
        (⟨[], none⟩, s)).2 := by
    refine visitUntil_invariant (I := fun r : ArtMethodQueryProcessor θ × _ ↦
      TakenIn refs raws s r.2) ?_ (.of_live rfl rfl) _
    rintro holder ⟨processor, t⟩ ht
    rw [ArtMethodQueryProcessor.visit]
    split
    · exact ht
    · have hcollect := wp_collectClass formats art query layout holder t
      rw [Fallible.wp] at hcollect
      split at hcollect
      · next hrun =>
        rw [hrun]
        exact ht.trans hcollect
      · next hrun =>
        rw [hrun]
        exact ht.trans hcollect
  generalize visitUntil (ArtMethodQueryProcessor.visit formats art query layout) answers.visited
    (⟨[], none⟩, s) = r at hwalk ⊢
  obtain ⟨processor, t⟩ := r
  show Fallible.wp (do set t; _) _ _ s
  rw [Fallible.wp_bind]
  show Fallible.wp (match processor.error with | some error => throw error | none => pure ()) _ _ t
  cases processor.error with
  | none => exact hwalk
  | some error => exact hwalk

/-- No reference to an exception is made before the walk. -/
def QueryAnswers.PreparesCleanly (art : ArtRuntime θ R) (request : Nat) (answers : QueryAnswers θ) :
    Prop :=
  ∀ operation exception, answers.prepared = .error (.pending operation exception) →
    ¬Captures art request exception

/-- The references to loaders are handed out, or deleted; what is lost is a reference to an exception
that was pending before the walk. -/
theorem wp_enumerateMethods [DecidableEq R] (answers : QueryAnswers θ) (s : GlobalRefs R) :
    Fallible.wp (enumerateMethods formats art query answers)
      (fun groups t ↦ answers.PreparesCleanly art s.calls ∧
        t.live.map Prod.fst = s.live.map Prod.fst ++ groups.filterMap (·.loader))
      (fun _ t ↦ Leaves (answers.PreparesCleanly art s.calls) s t) s := by
  rw [enumerateMethods, Fallible.wp_bind]
  cases hprepared : answers.prepared with
  | error failure =>
    cases failure with
    | error e =>
      refine .of_live rfl fun _ _ h ↦ ?_
      cases hprepared.symm.trans h
    | pending operation exception =>
      refine Fallible.wp_mono wp_checkPendingException (fun _ _ h ↦ h.elim) ?_
      rintro _ t ⟨created, hextends, hnil⟩
      refine ⟨created, hextends, hnil.trans ⟨fun h _ _ hpending ↦ ?_, fun h ↦ h _ _ hprepared⟩⟩
      cases hprepared.symm.trans hpending
      exact h
  | ok =>
    have hclean : answers.PreparesCleanly art s.calls := fun _ _ h ↦
      nomatch hprepared.symm.trans h
    show Fallible.wp (deletingOnError _ _ _ _ _) _ _ s
    refine Fallible.wp_mono (wp_deletingOnError refs raws s rfl rfl (Fallible.wp_mono
      (wp_queryMethods answers) (fun _ _ h ↦ ⟨hclean, h⟩) fun _ _ h ↦ h.loses hclean)) ?_
      fun _ _ h ↦ h
    rintro _ t ⟨-, u, rfl, hlive⟩
    exact ⟨hclean, hlive⟩

/-! ## Groups by loader -/

/-- No request for a reference is refused. -/
def AllGranted (art : ArtRuntime θ R) : Prop :=
  ∀ request, art.references.refused request = false

/-- No exception is pending behind a request. -/
def NothingPending (art : ArtRuntime θ R) : Prop :=
  ∀ request, art.references.pending request = none

/-- The object of a reference. -/
def GlobalRefs.object [DecidableEq R] (refs : GlobalRefs R) (raw : R) : Option (BitVec 64) :=
  refs.live.lookup raw

/-- The loader of the classes with a key, which is its address. -/
def loaderOf (loaderKey : BitVec 32) : Option (BitVec 64) :=
  if loaderKey = 0 then none else some (loaderKey.setWidth 64)

/-- The class with the key of its loader, where it matches. -/
def matchedEntry (formats : Formats θ) (art : ArtRuntime θ R) (query : MethodQuery)
    (layout : ArtMethodQueryLayout) (holder : BitVec 64) :
    Option (BitVec 32 × ArtMethodQueryClass) :=
  match matchClass formats art query layout holder with
  | .ok (some found) => some (classLoaderKey holder art.contents, found)
  | _ => none

theorem Extends.object [DecidableEq R] {s t : GlobalRefs R} {raw : R} {object : BitVec 64}
    (h : Extends s t [(raw, object)]) : t.object raw = some object := by
  have hfresh : s.live.lookup raw = none := by
    rw [List.lookup_eq_none_iff]
    intro ref href
    refine bne_iff_ne.2 ?_
    rintro rfl
    exact h.fresh _ (List.mem_singleton.2 rfl) (List.mem_map.2 ⟨ref, href, rfl⟩)
  rw [GlobalRefs.object, h.live, List.lookup_append, hfresh, Option.none_or, List.lookup_cons_self]

theorem Extends.object_of_some [DecidableEq R] {s t : GlobalRefs R}
    {created : List (R × BitVec 64)} {raw : R} {object : BitVec 64} (h : Extends s t created)
    (hraw : s.object raw = some object) : t.object raw = some object := by
  rw [GlobalRefs.object] at hraw
  rw [GlobalRefs.object, h.live, List.lookup_append, hraw, Option.some_or]

namespace QueryState

/-- The groups by their keys. -/
def keyed (s : QueryState R) : List (BitVec 32 × List ArtMethodQueryClass) :=
  s.groups.map fun group ↦ (group.loaderKey, group.classes)

/-- The keys with the references. -/
def loaders (s : QueryState R) : List (BitVec 32 × Option R) :=
  s.groups.map fun group ↦ (group.loaderKey, group.loader)

/-- Every group refers to its loader. -/
def HasLoaders [DecidableEq R] (s : QueryState R) : Prop :=
  ∀ p ∈ s.loaders, p.2.map s.refs.object = (loaderOf p.1).map some

theorem keyed_pushClass (index : Nat) (found : ArtMethodQueryClass) (s : QueryState R) :
    (s.pushClass index found).keyed =
      s.keyed.modify index fun group ↦ (group.1, group.2 ++ [found]) := by
  obtain ⟨groups, globalRefs⟩ := s
  rw [keyed, keyed, pushClass]
  induction groups generalizing index with
  | nil => simp
  | cons group groups ih =>
    cases index with
    | zero => rfl
    | succ index =>
      rw [List.modify_succ_cons, List.map_cons, List.map_cons, List.modify_succ_cons, ih]

theorem loaders_pushClass (index : Nat) (found : ArtMethodQueryClass) (s : QueryState R) :
    (s.pushClass index found).loaders = s.loaders := by
  obtain ⟨groups, globalRefs⟩ := s
  rw [loaders, loaders, pushClass]
  induction groups generalizing index with
  | nil => simp
  | cons group groups ih =>
    cases index with
    | zero => rfl
    | succ index => rw [List.modify_succ_cons, List.map_cons, List.map_cons, ih]

variable [DecidableEq R] {s : QueryState R}

theorem HasLoaders.pushClass (h : s.HasLoaders) (index : Nat) (found : ArtMethodQueryClass) :
    (s.pushClass index found).HasLoaders := by
  rw [HasLoaders, loaders_pushClass]
  exact h

/-- A new group refers to its loader. -/
theorem HasLoaders.pushGroup {loaderKey : BitVec 32} {loader : Option R} {refs : GlobalRefs R}
    {created : List (R × BitVec 64)} (h : s.HasLoaders) (hextends : Extends s.refs refs created)
    (hloader : loader.map refs.object = (loaderOf loaderKey).map some) :
    (QueryState.pushGroup loaderKey loader { s with refs := refs }).HasLoaders := by
  intro p hp
  rw [loaders, QueryState.pushGroup, List.map_append, List.mem_append] at hp
  rcases hp with hp | hp
  · have hold := h p hp
    obtain ⟨key, loader⟩ := p
    cases loader with
    | none => exact hold
    | some raw =>
      cases hkey : loaderOf key with
      | none => simp [hkey] at hold
      | some object =>
        simp only [hkey, Option.map_some, Option.some.injEq] at hold ⊢
        exact hextends.object_of_some hold
  · obtain rfl := List.mem_singleton.1 hp
    exact hloader

theorem wp_groupLoader_of_granted (hart : AllGranted art) (loaderKey : BitVec 32) :
    Fallible.wp (groupLoader art loaderKey)
      (fun loader t ↦ ∃ created, Extends s.refs t.refs created ∧ t = { s with refs := t.refs } ∧
        loader.map t.refs.object = (loaderOf loaderKey).map some)
      (fun _ _ ↦ False) s := by
  rw [groupLoader, Fallible.wp_ite]
  refine ⟨fun hzero ↦ ?_, fun hkey ↦ ?_⟩
  · rw [Fallible.wp_pure, loaderOf, if_pos hzero]
    exact ⟨[], .refl _, rfl, rfl⟩
  · rw [Fallible.wp_bind, onRefs, Fallible.wp_zoom]
    refine Fallible.wp_mono wp_addGlobalRef ?_ fun _ _ h ↦ h
    rintro (_ | raw) t ⟨-, hanswer⟩
    · have hrefused : art.references.refused s.refs.calls = true := hanswer.1
      rw [hart] at hrefused
      cases hrefused
    · refine ⟨_, hanswer.2, rfl, ?_⟩
      rw [Option.map_some, hanswer.2.object, loaderOf, if_neg hkey]
      rfl

theorem wp_findOrAddGroup_of_granted (hart : AllGranted art) (loaderKey : BitVec 32)
    (found : ArtMethodQueryClass) :
    Fallible.wp (findOrAddGroup art loaderKey)
      (fun index t ↦ (t.pushClass index found).keyed = Grouping.insert loaderKey found s.keyed ∧
        (s.HasLoaders → t.HasLoaders)) (fun _ _ ↦ False) s := by
  have hfind : s.groups.findIdx? (·.loaderKey = loaderKey) =
      s.keyed.findIdx? (·.1 = loaderKey) := by
    rw [keyed, List.findIdx?_map]
    rfl
  rw [findOrAddGroup, Fallible.wp_bind, Fallible.wp_get, hfind]
  split
  · next index hindex =>
    refine ⟨?_, id⟩
    rw [keyed_pushClass, Grouping.insert_of_findIdx? hindex]
  · next hnone =>
    rw [Fallible.wp_bind]
    refine Fallible.wp_mono (wp_groupLoader_of_granted hart loaderKey) ?_ fun _ _ h ↦ h
    rintro loader t ⟨created, hextends, ht, hloader⟩
    rw [Fallible.wp_bind, Fallible.wp_modify, ht]
    refine ⟨?_, fun h ↦ h.pushGroup hextends hloader⟩
    rw [keyed_pushClass, Grouping.insert_of_findIdx?_eq_none hnone, keyed, pushGroup,
      List.map_append, keyed, List.length_map]
    rfl

end QueryState

theorem wp_collectClass_of_granted [DecidableEq R] (formats : Formats θ) {art : ArtRuntime θ R}
    (hart : AllGranted art) (query : MethodQuery) (layout : ArtMethodQueryLayout)
    (holder : BitVec 64) (s : QueryState R) :
    Fallible.wp (collectClass formats art query layout holder)
      (fun _ t ↦ (∃ found, matchClass formats art query layout holder = .ok found) ∧
        t.keyed = (matchedEntry formats art query layout holder).toList.foldl
          (fun groups entry ↦ Grouping.insert entry.1 entry.2 groups) s.keyed ∧
        (s.HasLoaders → t.HasLoaders))
      (fun _ _ ↦ ∃ e, matchClass formats art query layout holder = .error e) s := by
  rw [collectClass, Fallible.wp_bind, Fallible.wp_ofExcept, matchedEntry]
  refine ⟨fun found hfound ↦ ?_, fun e he ↦ ⟨e, he⟩⟩
  rw [hfound]
  cases found with
  | none => exact ⟨⟨_, rfl⟩, rfl, id⟩
  | some found =>
    rw [Fallible.wp_bind]
    refine Fallible.wp_mono (wp_findOrAddGroup_of_granted hart _ found) ?_ fun _ _ h ↦ h.elim
    rintro index t ⟨hkeyed, hloaders⟩
    rw [Fallible.wp_modify]
    exact ⟨⟨_, rfl⟩, hkeyed, fun h ↦ (hloaders h).pushClass index found⟩

/-- A walk ends with an error where a class cannot be read, and else with all groups. -/
theorem visitUntil_query [DecidableEq R] (formats : Formats θ) {art : ArtRuntime θ R}
    (hart : AllGranted art) (query : MethodQuery) (layout : ArtMethodQueryLayout)
    (visited seen : List (BitVec 64)) (s : QueryState R) :
    let r := visitUntil (ArtMethodQueryProcessor.visit formats art query layout) visited
      (⟨seen, none⟩, s)
    (r.1.error = none ∧
      (∀ holder ∈ newClasses seen visited,
        ∃ found, matchClass formats art query layout holder = .ok found) ∧
      r.2.keyed = ((newClasses seen visited).filterMap
        (matchedEntry formats art query layout)).foldl
          (fun groups entry ↦ Grouping.insert entry.1 entry.2 groups) s.keyed ∧
      (s.HasLoaders → r.2.HasLoaders)) ∨
    r.1.error ≠ none ∧
      ∃ holder ∈ newClasses seen visited,
        ∃ e, matchClass formats art query layout holder = .error e := by
  induction visited generalizing seen s with
  | nil => exact .inl ⟨rfl, List.forall_mem_nil _, rfl, id⟩
  | cons holder visited ih =>
    dsimp only
    rw [visitUntil, newClasses]
    by_cases hnull : holder = 0
    · rw [if_pos hnull, if_pos (.inl hnull)]
      exact ih seen s
    · rw [if_neg hnull, ArtMethodQueryProcessor.visit]
      by_cases hseen : holder ∈ seen
      · rw [if_pos hseen, if_pos (.inr hseen)]
        exact ih seen s
      · rw [if_neg hseen, if_neg (not_or.2 ⟨hnull, hseen⟩)]
        have hcollect := wp_collectClass_of_granted formats hart query layout holder s
        rw [Fallible.wp] at hcollect
        split at hcollect
        · next t hrun =>
          obtain ⟨hfound, hkeyed, hloaders⟩ := hcollect
          rw [hrun]
          rcases ih (seen ++ [holder]) t with ⟨herror, hall, hgroups, hwalk⟩ | ⟨herror, bad, hbad, he⟩
          · refine .inl ⟨herror, List.forall_mem_cons.2 ⟨hfound, hall⟩, ?_, hwalk ∘ hloaders⟩
            rw [hgroups, hkeyed, ← List.foldl_append, List.filterMap_cons]
            cases matchedEntry formats art query layout holder <;> rfl
          · exact .inr ⟨herror, bad, List.mem_cons_of_mem _ hbad, he⟩
        · next e t hrun =>
          rw [hrun]
          exact .inr ⟨Option.some_ne_none e, holder, List.mem_cons_self, hcollect⟩

/-- A query is the walk, and fails with the error that the walk left. -/
theorem queryMethods_run (formats : Formats θ) (art : ArtRuntime θ R) (query : MethodQuery)
    (layout : ArtMethodQueryLayout) (visited : List (BitVec 64)) (s : QueryState R) :
    queryMethods formats art query ⟨.ok (), .ok layout, visited⟩ s =
      let r := visitUntil (ArtMethodQueryProcessor.visit formats art query layout) visited
        (⟨[], none⟩, s)
      match r.1.error with
      | some error => .error error r.2
      | none => .ok () r.2 := by
  show (match (visitUntil (ArtMethodQueryProcessor.visit formats art query layout) visited
    (⟨[], none⟩, s)).1.error with
    | some error => throw error
    | none => pure () : EStateM (Error θ) (QueryState R) Unit) (visitUntil
      (ArtMethodQueryProcessor.visit formats art query layout) visited (⟨[], none⟩, s)).2 = _
  generalize visitUntil (ArtMethodQueryProcessor.visit formats art query layout) visited
    (⟨[], none⟩, s) = r
  obtain ⟨⟨seen, error⟩, t⟩ := r
  cases error <;> rfl

/-- Where no reference is refused, the query fails exactly where a class cannot be read, and else
groups what matches by the loader. -/
theorem wp_enumerateMethods_of_granted [DecidableEq R] (formats : Formats θ) {art : ArtRuntime θ R}
    (hart : AllGranted art) (query : MethodQuery) (layout : ArtMethodQueryLayout)
    (visited : List (BitVec 64)) (s : GlobalRefs R) :
    Fallible.wp (enumerateMethods formats art query ⟨.ok (), .ok layout, visited⟩)
      (fun groups t ↦
        (∀ holder ∈ newClasses [] visited,
          ∃ found, matchClass formats art query layout holder = .ok found) ∧
        groups.map (fun group ↦ (group.loaderKey, group.classes)) = Grouping.group
          ((newClasses [] visited).filterMap (matchedEntry formats art query layout)) ∧
        ∀ group ∈ groups, group.loader.map t.object = (loaderOf group.loaderKey).map some)
      (fun _ _ ↦ ∃ holder ∈ newClasses [] visited,
        ∃ e, matchClass formats art query layout holder = .error e) s := by
  have hwalk := visitUntil_query formats hart query layout visited [] ⟨[], s⟩
  rw [enumerateMethods, Fallible.wp_bind]
  show Fallible.wp (deletingOnError _ _ _ _ _) _ _ s
  rw [Fallible.wp, deletingOnError, queryMethods_run]
  dsimp only at hwalk ⊢
  rcases hwalk with ⟨herror, hall, hgroups, hloaders⟩ | ⟨herror, hbad⟩
  · rw [herror]
    refine ⟨hall, hgroups, fun group hgroup ↦ ?_⟩
    exact hloaders (List.forall_mem_nil _) _ (List.mem_map.2 ⟨group, hgroup, rfl⟩)
  · obtain ⟨error, herror⟩ := Option.ne_none_iff_exists'.1 herror
    rw [herror]
    exact hbad

end

end JavaBridge.Art

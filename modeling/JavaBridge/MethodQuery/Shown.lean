import JavaBridge.MethodQuery
import Mathlib.Data.Finset.Insert

/-!
# What a query shows

A query shows the display names that match, each once; with the flag `s` it shows every method that
matches. Both queries go through the methods of a class with the same loop, each in its own order.

Main results:

* `mem_selectMethods`: what the loop shows of some methods, whatever order they come in.
* `selectMethods_eq_nil`: where a class has nothing to show.
-/

namespace JavaBridge

/-! ## What is shown -/

/-- What a query shows of a method: its name, or with the flag `s` its kind, name and signature. -/
inductive Displayed
  | name (name : String)
  | method (kind : MethodKind) (name : String) (signature : MethodSignature)
  deriving DecidableEq

/-- What two methods have in common that a query does not tell apart. -/
def MethodMetadata.shape (method : MethodMetadata) : MethodKind × String × MethodSignature :=
  (method.kind, method.name, method.signature)

/-- The methods have the same shapes, however often. -/
def SameShapes (methods methods' : List MethodMetadata) : Prop :=
  methods.map MethodMetadata.shape ⊆ methods'.map MethodMetadata.shape ∧
    methods'.map MethodMetadata.shape ⊆ methods.map MethodMetadata.shape

namespace MethodQuery

variable (query : MethodQuery)

def displayName (method : MethodMetadata) : String :=
  queryMethodName method.kind method.name method.signature query.includeSignature

/-- The display name of a method matches. -/
def matchesMethod (method : MethodMetadata) : Bool :=
  globMatches query.methodPattern (normalizeCase (query.displayName method) query.ignoreCase)

def display (method : MethodMetadata) : Displayed :=
  if query.includeSignature then .method method.kind method.name method.signature
  else .name (query.displayName method)

/-- What a query shows of some methods. -/
def shown (methods : List MethodMetadata) : Finset Displayed :=
  ((methods.filter query.matchesMethod).map query.display).toFinset

/-- A class by its name and what is shown of it. -/
def classView (name : String) (methods : List MethodMetadata) : String × Finset Displayed :=
  (name, (methods.map query.display).toFinset)

/-- The loop of both queries, over methods that are no class initialisers. -/
def selectMethods : List MethodMetadata → List String → List MethodMetadata → List MethodMetadata
  | [], _, methods => methods
  | method :: declared, seen, methods =>
    if query.includeSignature = false ∧ query.displayName method ∈ seen then
      selectMethods declared seen methods
    else
      selectMethods declared (seen ++ [query.displayName method])
        (if query.matchesMethod method then methods ++ [method] else methods)

variable {query}

/-- What was seen has been shown, where it matches. -/
def SeenShown (query : MethodQuery) (seen : List String) (methods : List MethodMetadata) : Prop :=
  query.includeSignature = false → ∀ method, query.displayName method ∈ seen →
    query.matchesMethod method = true → query.display method ∈ methods.map query.display

theorem SeenShown.push {seen : List String} {methods : List MethodMetadata}
    (h : query.SeenShown seen methods) (method : MethodMetadata) :
    query.SeenShown (seen ++ [query.displayName method])
      (if query.matchesMethod method then methods ++ [method] else methods) := by
  intro hflag other hother hmatches
  rcases List.mem_append.1 hother with hseen | hnew
  · have hshown := h hflag other hseen hmatches
    split
    · rw [List.map_append]
      exact List.mem_append_left _ hshown
    · exact hshown
  · -- without signatures a method is matched and shown by its display name
    have hname : query.displayName other = query.displayName method := List.mem_singleton.1 hnew
    have hmethod : query.matchesMethod method = true := by
      rw [matchesMethod, ← hname]
      exact hmatches
    have hdisplay : query.display other = query.display method := by
      rw [display, display, hname, hflag]
      rfl
    rw [if_pos hmethod, List.map_append, hdisplay]
    exact List.mem_append_right _ (List.mem_singleton.2 rfl)

/-- The loop shows what matches, whatever it passes over. -/
theorem mem_selectMethods {declared : List MethodMetadata} {seen : List String}
    {methods : List MethodMetadata} {displayed : Displayed} (h : query.SeenShown seen methods) :
    displayed ∈ (query.selectMethods declared seen methods).map query.display ↔
      displayed ∈ methods.map query.display ∨
        ∃ method ∈ declared, query.matchesMethod method = true ∧
          query.display method = displayed := by
  induction declared generalizing seen methods with
  | nil => simp [selectMethods]
  | cons method declared ih =>
    rw [selectMethods]
    split
    · next hseen =>
      rw [ih h]
      refine or_congr_right' fun hnew ↦ ?_
      constructor
      · rintro ⟨other, hother, hmatches⟩
        exact ⟨other, List.mem_cons_of_mem _ hother, hmatches⟩
      · rintro ⟨other, hother, hmatches, rfl⟩
        rcases List.mem_cons.1 hother with rfl | hother
        · exact absurd (h hseen.1 other hseen.2 hmatches) hnew
        · exact ⟨other, hother, hmatches, rfl⟩
    · rw [ih (h.push method)]
      by_cases hmatches : query.matchesMethod method = true
      · rw [if_pos hmatches, List.map_append, List.mem_append, or_assoc]
        refine or_congr_right ?_
        simp [hmatches, @eq_comm _ displayed]
      · rw [if_neg hmatches]
        simp [hmatches]

theorem mem_shown {methods : List MethodMetadata} {displayed : Displayed} :
    displayed ∈ query.shown methods ↔
      ∃ method ∈ methods, query.matchesMethod method = true ∧ query.display method = displayed := by
  simp [shown, and_assoc]

theorem shown_eq_empty {methods : List MethodMetadata} :
    query.shown methods = ∅ ↔ ¬∃ method ∈ methods, query.matchesMethod method = true := by
  rw [shown, List.toFinset_eq_empty_iff, List.map_eq_nil_iff, List.filter_eq_nil_iff]
  push Not
  rfl

theorem classView_selectMethods (name : String) (declared : List MethodMetadata) :
    query.classView name (query.selectMethods declared [] []) = (name, query.shown declared) := by
  rw [classView, Prod.mk.injEq]
  refine ⟨rfl, Finset.ext fun displayed ↦ ?_⟩
  rw [List.mem_toFinset, mem_selectMethods fun _ _ h ↦ absurd h List.not_mem_nil, mem_shown]
  simp

theorem selectMethods_eq_nil {declared : List MethodMetadata} :
    query.selectMethods declared [] [] = [] ↔ query.shown declared = ∅ := by
  have hview : _ = query.shown declared :=
    congrArg Prod.snd (classView_selectMethods "" declared)
  rw [← hview, classView, List.toFinset_eq_empty_iff, List.map_eq_nil_iff]

/-- The same shapes are shown alike. -/
theorem shown_congr {methods methods' : List MethodMetadata} (h : SameShapes methods methods') :
    query.shown methods = query.shown methods' := by
  have hsub {methods methods' : List MethodMetadata} {displayed : Displayed}
      (h : methods.map MethodMetadata.shape ⊆ methods'.map MethodMetadata.shape)
      (hmem : displayed ∈ query.shown methods) : displayed ∈ query.shown methods' := by
    obtain ⟨method, hmethod, hmatches, rfl⟩ := mem_shown.1 hmem
    obtain ⟨other, hother, hshape⟩ := List.mem_map.1 (h (List.mem_map_of_mem hmethod))
    obtain ⟨hkind, hname, hsignature⟩ : other.kind = method.kind ∧ other.name = method.name ∧
        other.signature = method.signature := by
      simpa [MethodMetadata.shape] using hshape
    refine mem_shown.2 ⟨other, hother, ?_, ?_⟩
    · rw [matchesMethod, displayName, hkind, hname, hsignature]
      exact hmatches
    · rw [display, display, displayName, displayName, hkind, hname, hsignature]
  exact Finset.ext fun _ ↦ ⟨hsub h.1, hsub h.2⟩

end MethodQuery

/-! ## Loaded classes -/

/-- A loaded class, with the object of its loader and its methods, class initialisers left out. -/
structure LoadedClass where
  name : String
  loader : Option (BitVec 64)
  methods : List MethodMetadata

namespace LoadedClass

variable (query : MethodQuery) (loaded : LoadedClass)

/-- The class is shown, with a method at least. -/
def Matches : Prop :=
  ¬(query.skipSystemClasses ∧ (MethodQuery.isPlatformClass loaded.name ∨ loaded.loader = none)) ∧
    MethodQuery.globMatches query.classPattern
        (MethodQuery.normalizeCase loaded.name query.ignoreCase) = true ∧
      ∃ method ∈ loaded.methods, query.matchesMethod method = true

instance : Decidable (loaded.Matches query) := inferInstanceAs (Decidable (_ ∧ _ ∧ _))

variable {query loaded} in
/-- Where its loader and its name are wanted, a class matches by one of its methods. -/
theorem matches_iff (hloader : ¬(query.skipSystemClasses ∧ loaded.loader = none))
    (hplatform : ¬(query.skipSystemClasses ∧ MethodQuery.isPlatformClass loaded.name))
    (hglob : MethodQuery.globMatches query.classPattern
      (MethodQuery.normalizeCase loaded.name query.ignoreCase) = true) :
    loaded.Matches query ↔
      ∃ method ∈ loaded.methods, query.matchesMethod method = true := by
  rw [Matches, and_iff_right, and_iff_right hglob]
  rintro ⟨hskip, hname | hnone⟩
  · exact hplatform ⟨hskip, hname⟩
  · exact hloader ⟨hskip, hnone⟩

/-- What is shown of a class, under its loader. -/
def entry : Option (Option (BitVec 64)) × String × Finset Displayed :=
  (loaded.loader.map some, loaded.name, query.shown loaded.methods)

end LoadedClass

end JavaBridge

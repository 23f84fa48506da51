import JavaBridge.Library.Fallible
import JavaBridge.Library.Shadowing
import JavaBridge.MethodQuery.Reflection

/-!
# Visible members

The methods and the fields of a class wrapper: those that the class declares, and from its
superclasses those whose names no class on the way declares.

Main results:

* `visibleMembers_eq`: the recursion up the superclasses, as what is seen of their declarations laid
  over each other.
* `membersFollowNearest`: every member comes from the nearest class that declares its name.
-/

namespace JavaBridge

open Shadowing

/-! ## Reflected classes -/

inductive FieldKind
  | instanceField
  | staticField
  deriving DecidableEq

structure JavaFieldMetadata where
  name : String
  kind : FieldKind
  ty : JavaType
  modifiers : BitVec 32
  id : BitVec 64
  deriving DecidableEq

/-- A `Field`, as its getters answer. -/
structure ReflectedField where
  getName : String
  getModifiers : BitVec 32
  getType : JavaType
  /-- `FromReflectedField`. -/
  id : BitVec 64

def fieldMetadataFromReflection (reflected : ReflectedField) : JavaFieldMetadata where
  name := reflected.getName
  kind := if reflected.getModifiers &&& ACC_STATIC ≠ 0 then .staticField else .instanceField
  ty := reflected.getType
  modifiers := reflected.getModifiers
  id := reflected.id

/-- `sort_fields`, where `a` does not come after `b`. -/
def sortFields (a b : JavaFieldMetadata) : Bool :=
  a.name < b.name ∨ a.name = b.name ∧
    (a.ty.descriptor < b.ty.descriptor ∨ a.ty.descriptor = b.ty.descriptor ∧ a.id ≤ b.id)

/-- A class object, as reflection answers of it and of its superclasses. The elements of the arrays
are answered for with the arrays. -/
inductive ClassObject (θ : Type)
  | mk (getDeclaredMethods : Except (Error θ) (List ReflectedMethod))
    (getDeclaredFields : Except (Error θ) (List ReflectedField))
    (getSuperclass : Except (Error θ) (Option (ClassObject θ)))

variable {θ : Type} {α : Type}

namespace ClassObject

def declaredMethodMetadata : ClassObject θ → Except (Error θ) (List MethodMetadata)
  | mk methods _ _ => methods.map fun methods ↦
    methods.map (methodMetadataFromReflection · .instanceMethod)

def declaredFieldMetadata : ClassObject θ → Except (Error θ) (List JavaFieldMetadata)
  | mk _ fields _ => fields.map fun fields ↦ fields.map fieldMetadataFromReflection

end ClassObject

/-! ## Visible members -/

/-- `append_unshadowed_methods` and `append_unshadowed_fields`. -/
def appendUnshadowed (name : α → String) (members : List α) (declaredNames : List String)
    (inherited : List α) : List α :=
  members ++ inherited.filter fun member ↦ name member ∉ declaredNames

/-- `visible_methods` and `visible_fields`, of the members that `declaredOf` finds. -/
def visibleMembers (name : α → String) (le : α → α → Bool)
    (declaredOf : ClassObject θ → Except (Error θ) (List α)) :
    ClassObject θ → Except (Error θ) (List α)
  | .mk methods fields getSuperclass => do
    let declared ← declaredOf (.mk methods fields getSuperclass)
    let declared := declared.mergeSort le
    match getSuperclass with
    | .error e => .error e
    | .ok none => .ok declared
    | .ok (some superclass) => do
      let inherited ← visibleMembers name le declaredOf superclass
      .ok (appendUnshadowed name declared (declared.map name) inherited)

/-- The declared methods that `visible_methods` keeps. -/
def declaredNonConstructors (c : ClassObject θ) : Except (Error θ) (List MethodMetadata) :=
  c.declaredMethodMetadata.map (List.filter (·.kind ≠ .constructor))

def visibleMethods : ClassObject θ → Except (Error θ) (List MethodMetadata) :=
  visibleMembers MethodMetadata.name sortMethods declaredNonConstructors

def visibleFields : ClassObject θ → Except (Error θ) (List JavaFieldMetadata) :=
  visibleMembers JavaFieldMetadata.name sortFields ClassObject.declaredFieldMetadata

def visibleMethodsByName (c : ClassObject θ) (name : String) :
    Except (Error θ) (List MethodMetadata) :=
  (visibleMethods c).map (List.filter (·.name = name))

def fieldMatchesByName (c : ClassObject θ) (name : String) :
    Except (Error θ) (List JavaFieldMetadata) :=
  (visibleFields c).map (List.filter (·.name = name))

/-! ## The superclass chain -/

/-- What the class declares and what each superclass does, the nearest first. -/
def declaredUpwards (declaredOf : ClassObject θ → Except (Error θ) (List α)) :
    ClassObject θ → Except (Error θ) (List (List α))
  | .mk methods fields getSuperclass => do
    let declared ← declaredOf (.mk methods fields getSuperclass)
    match getSuperclass with
    | .error e => .error e
    | .ok none => .ok [declared]
    | .ok (some superclass) => do
      let inherited ← declaredUpwards declaredOf superclass
      .ok (declared :: inherited)

section Chain

variable (name : α → String) (le : α → α → Bool)
  (declaredOf : ClassObject θ → Except (Error θ) (List α))

/-- The recursion lays the sorted declarations over each other, and fails where one of them fails. -/
theorem visibleMembers_eq : ∀ c, visibleMembers name le declaredOf c =
    (declaredUpwards declaredOf c).map fun chain ↦
      visible name (chain.map fun declared ↦ declared.mergeSort le)
  | .mk methods fields getSuperclass => by
    rw [visibleMembers, declaredUpwards]
    cases declaredOf (.mk methods fields getSuperclass) with
    | error e => rfl
    | ok declared =>
      rcases getSuperclass with e | _ | superclass
      · rfl
      · simp [bind, Except.bind, Except.map, visible]
      · dsimp only [bind, Except.bind]
        rw [visibleMembers_eq superclass]
        cases declaredUpwards declaredOf superclass with
        | error e => rfl
        | ok inherited => rfl

variable {name le declaredOf}

theorem visibleMembers_of_declaredUpwards {c : ClassObject θ} {chain : List (List α)}
    (h : declaredUpwards declaredOf c = .ok chain) : visibleMembers name le declaredOf c =
      .ok (visible name (chain.map fun declared ↦ declared.mergeSort le)) := by
  rw [visibleMembers_eq, h]
  rfl

theorem hides_map_mergeSort {chain : List (List α)} {n : String} :
    Hides name (chain.map fun declared ↦ declared.mergeSort le) n ↔ Hides name chain n := by
  simp [Hides]

end Chain

/-- The members seen are, class by class up the chain, those whose names no class before declares. -/
structure FollowNearest (name : α → String) (le : α → α → Bool) (chain : List (List α))
    (members : List α) : Prop where
  /-- The sorted members of each class in the order of the chain, without those that are hidden. -/
  listed : members = (List.range chain.length).flatMap fun i ↦
    ((chain[i]?.getD []).mergeSort le).filter fun member ↦
      ¬Hides name (chain.take i) (name member)
  /-- The class's own come first. -/
  own : ∃ inherited, members = (chain.head?.getD []).mergeSort le ++ inherited
  contains : ∀ member, member ∈ members ↔ ∃ i declared, chain[i]? = some declared ∧
    member ∈ declared ∧ ¬Hides name (chain.take i) (name member)
  /-- A member that only one class declares, and once, is listed once or is hidden. -/
  once : chain.flatten.Nodup → members.Nodup ∧ ∀ i declared member, chain[i]? = some declared →
    member ∈ declared → (member ∈ members ↔ ¬Hides name (chain.take i) (name member))
  /-- What has a name comes from the nearest class that declares the name. -/
  named : ∀ n, members.filter (name · = n) =
    (((chain.find? fun declared ↦ n ∈ declared.map name).getD []).mergeSort le).filter (name · = n)

section FollowNearest

variable (name : α → String) (le : α → α → Bool) (chain : List (List α))

theorem find?_map_mergeSort (n : String) :
    ((chain.map fun declared ↦ declared.mergeSort le).find? fun declared ↦ n ∈ declared.map name) =
      (chain.find? fun declared ↦ n ∈ declared.map name).map (List.mergeSort · le) := by
  rw [List.find?_map]
  congr 2
  funext declared
  simp

theorem flatten_map_mergeSort_perm :
    (chain.map fun declared ↦ declared.mergeSort le).flatten.Perm chain.flatten := by
  induction chain with
  | nil => exact .refl []
  | cons declared chain ih => exact (List.mergeSort_perm declared le).append ih

theorem followNearest_visible (hne : chain ≠ []) :
    FollowNearest name le chain (visible name (chain.map fun declared ↦ declared.mergeSort le)) where
  listed := by
    rw [visible_eq_flatMap, List.length_map]
    congr 1
    funext i
    rw [List.getElem?_map, ← List.map_take]
    simp only [hides_map_mergeSort]
    cases chain[i]? <;> simp
  own := by
    obtain ⟨declared, chain, rfl⟩ := List.exists_cons_of_ne_nil hne
    exact ⟨_, rfl⟩
  contains member := by
    rw [mem_visible_iff]
    simp only [← List.map_take, hides_map_mergeSort, List.getElem?_map, Option.map_eq_some_iff]
    constructor
    · rintro ⟨i, _, ⟨declared, hi, rfl⟩, hmember, hhides⟩
      exact ⟨i, declared, hi, List.mem_mergeSort.1 hmember, hhides⟩
    · rintro ⟨i, declared, hi, hmember, hhides⟩
      exact ⟨i, _, ⟨declared, hi, rfl⟩, List.mem_mergeSort.2 hmember, hhides⟩
  once h := by
    have hnodup := (flatten_map_mergeSort_perm le chain).nodup_iff.2 h
    refine ⟨nodup_visible hnodup, fun i declared member hi hmember ↦ ?_⟩
    have hsorted : (chain.map fun declared ↦ declared.mergeSort le)[i]? =
        some (declared.mergeSort le) := by
      rw [List.getElem?_map, hi, Option.map_some]
    rw [mem_visible_iff_of_nodup hnodup hsorted (List.mem_mergeSort.2 hmember), ← List.map_take,
      hides_map_mergeSort]
  named n := by
    rw [filter_visible, find?_map_mergeSort]
    cases chain.find? fun declared ↦ n ∈ declared.map name <;> simp

variable {name le chain} {declaredOf : ClassObject θ → Except (Error θ) (List α)}

theorem ne_nil_of_declaredUpwards {c : ClassObject θ}
    (h : declaredUpwards declaredOf c = .ok chain) : chain ≠ [] := by
  obtain ⟨methods, fields, getSuperclass⟩ := c
  rw [declaredUpwards] at h
  obtain ⟨declared, -, h⟩ := Fallible.bind_eq_ok.1 h
  rcases getSuperclass with e | _ | superclass
  · cases h
  · cases h
    exact List.cons_ne_nil _ _
  · obtain ⟨inherited, -, h⟩ := Fallible.bind_eq_ok.1 h
    cases h
    exact List.cons_ne_nil _ _

/-- Where every class of the chain answers, its members are listed. -/
theorem followNearest_visibleMembers {c : ClassObject θ}
    (h : declaredUpwards declaredOf c = .ok chain) :
    ∃ members, visibleMembers name le declaredOf c = .ok members ∧
      FollowNearest name le chain members :=
  ⟨_, visibleMembers_of_declaredUpwards h,
    followNearest_visible name le chain (ne_nil_of_declaredUpwards h)⟩

end FollowNearest

/-- The methods and the fields that are seen of a class, and those that are found by name. -/
theorem membersFollowNearest (c : ClassObject θ) :
    (∀ chain, declaredUpwards declaredNonConstructors c = .ok chain →
      ∃ methods, visibleMethods c = .ok methods ∧
        FollowNearest MethodMetadata.name sortMethods chain methods ∧
        ∀ name, visibleMethodsByName c name =
          .ok ((((chain.find? fun declared ↦ name ∈ declared.map MethodMetadata.name).getD
            []).mergeSort sortMethods).filter (·.name = name))) ∧
    ∀ chain, declaredUpwards ClassObject.declaredFieldMetadata c = .ok chain →
      ∃ fields, visibleFields c = .ok fields ∧
        FollowNearest JavaFieldMetadata.name sortFields chain fields ∧
        ∀ name, fieldMatchesByName c name =
          .ok ((((chain.find? fun declared ↦ name ∈ declared.map JavaFieldMetadata.name).getD
            []).mergeSort sortFields).filter (·.name = name)) := by
  constructor
  · intro chain hchain
    obtain ⟨methods, hmethods, hnearest⟩ := followNearest_visibleMembers hchain
    refine ⟨methods, hmethods, hnearest, fun name ↦ ?_⟩
    rw [visibleMethodsByName, visibleMethods, hmethods, ← hnearest.named]
    rfl
  · intro chain hchain
    obtain ⟨fields, hfields, hnearest⟩ := followNearest_visibleMembers hchain
    refine ⟨fields, hfields, hnearest, fun name ↦ ?_⟩
    rw [fieldMatchesByName, visibleFields, hfields, ← hnearest.named]
    rfl

/-! ## A class and its superclass -/

section Example

/-- `static int base()` and `Object value(int)`. -/
def superclassObject : ClassObject Unit :=
  .mk
    (.ok [⟨"value", 0, [.int], .object "java/lang/Object", 3⟩, ⟨"base", ACC_STATIC, [], .int, 2⟩])
    (.ok [⟨"number", 0, .long, 12⟩]) (.ok none)

/-- `String value()` hides the method of the superclass. -/
def classObject : ClassObject Unit :=
  .mk (.ok [⟨"value", 0, [], .object "java/lang/String", 1⟩])
    (.ok [⟨"number", ACC_STATIC, .int, 11⟩]) (.ok (some superclassObject))

def valueMethod : MethodMetadata :=
  ⟨"value", .instanceMethod, ⟨[], .object "java/lang/String"⟩, 0, 1⟩

def baseMethod : MethodMetadata := ⟨"base", .staticMethod, ⟨[], .int⟩, ACC_STATIC, 2⟩

def hiddenMethod : MethodMetadata :=
  ⟨"value", .instanceMethod, ⟨[.int], .object "java/lang/Object"⟩, 0, 3⟩

theorem membersFollowNearest_classObject :
    visibleMethods classObject = .ok [valueMethod, baseMethod] ∧
      FollowNearest MethodMetadata.name sortMethods [[valueMethod], [hiddenMethod, baseMethod]]
        [valueMethod, baseMethod] ∧
    ∃ fields, visibleFields classObject = .ok fields ∧
      FollowNearest JavaFieldMetadata.name sortFields
        [[⟨"number", .staticField, .int, ACC_STATIC, 11⟩],
          [⟨"number", .instanceField, .long, 0, 12⟩]] fields := by
  have hsort : [hiddenMethod, baseMethod].mergeSort sortMethods = [baseMethod, hiddenMethod] := by
    have hle : sortMethods hiddenMethod baseMethod = false := by decide +kernel
    rw [List.mergeSort]
    simp [List.MergeSort.Internal.splitInTwo, hle]
  have hvisible : visibleMethods classObject = .ok [valueMethod, baseMethod] := by
    rw [visibleMethods, visibleMembers_of_declaredUpwards
      (show declaredUpwards declaredNonConstructors classObject =
        .ok [[valueMethod], [hiddenMethod, baseMethod]] from rfl)]
    simp only [List.map_cons, List.map_nil, List.mergeSort_singleton, hsort]
    decide +kernel
  obtain ⟨methods, hmethods, hnearest, -⟩ := (membersFollowNearest classObject).1 _ rfl
  obtain ⟨fields, hfields, hnearestField, -⟩ := (membersFollowNearest classObject).2 _ rfl
  rw [hvisible] at hmethods
  obtain rfl := Except.ok.inj hmethods
  exact ⟨hvisible, hnearest, fields, hfields, hnearestField⟩

end Example

end JavaBridge

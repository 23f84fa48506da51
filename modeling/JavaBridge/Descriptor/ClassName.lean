import JavaBridge.Descriptor.FromName

/-!
# Names of classes

The types that a `Class` object stands for, and their names as `Class.getName` gives them.

Main results:

* `JavaType.slashed_dotted`: a name without dots comes back from its dotted form.
* `JavaType.descriptor_inj`: two classes have two descriptors.
-/

namespace JavaBridge

namespace Text

variable {old new : Char} {cs : List Char}

theorem replace_eq_self (h : old ∉ cs) : replace old new cs = cs := by
  rw [replace]
  refine (List.map_congr_left fun c hc ↦ if_neg ?_).trans (List.map_id cs)
  rintro rfl
  exact h hc

/-- A replacement is undone where the new character was not there before. -/
theorem replace_replace (h : new ∉ cs) : replace new old (replace old new cs) = cs := by
  rw [replace, replace, List.map_map]
  refine (List.map_congr_left fun c hc ↦ ?_).trans (List.map_id cs)
  by_cases hold : c = old
  · simp [hold]
  · have hnew : c ≠ new := by
      rintro rfl
      exact h hc
    simp [hold, hnew]

theorem not_mem_replace (h : old ≠ new) : old ∉ replace old new cs := by
  rw [replace, List.mem_map]
  rintro ⟨c, -, hc⟩
  split at hc
  · exact h hc.symm
  · next hne => exact hne hc

end Text

/-! ## Classes -/

/-- A name that a class file can hold between two separators. -/
def IsUnqualified (part : List Char) : Prop :=
  part ≠ [] ∧ ∀ c ∈ part, c ∉ ['.', ';', '[', '/']

instance (part : List Char) : Decidable (IsUnqualified part) :=
  @instDecidableAnd _ _ inferInstance (List.decidableBAll _ part)

/-- A package path and a name, with slashes between them. -/
def IsInternalName (name : String) : Prop :=
  ∀ part ∈ name.toList.splitOn '/', IsUnqualified part

instance (name : String) : Decidable (IsInternalName name) := List.decidableBAll _ _

theorem IsInternalName.ne_nil {name : String} (h : IsInternalName name) : name.toList ≠ [] := by
  intro hnil
  rw [IsInternalName, hnil] at h
  exact (h [] (by simp)).1 rfl

theorem IsInternalName.not_mem {name : String} (h : IsInternalName name) {c : Char}
    (hc : c = '.' ∨ c = ';' ∨ c = '[') : c ∉ name.toList := by
  intro hmem
  have hslash : c ≠ '/' := by rcases hc with rfl | rfl | rfl <;> decide
  obtain ⟨part, hpart, hmem⟩ := (Text.mem_iff_splitOn hslash).1 hmem
  refine (h part hpart).2 c hmem ?_
  rcases hc with rfl | rfl | rfl <;> decide

/-- A name with dots. -/
def dotted (name : String) : String := String.ofList (Text.replace '/' '.' name.toList)

/-- A name with slashes. -/
def slashed (name : String) : String := String.ofList (Text.replace '.' '/' name.toList)

namespace JavaType

/-- There is a `Class` object for the type. -/
def IsClass : JavaType → Prop
  | object name => IsInternalName name
  | array element => element ≠ void ∧ element.IsClass
  | _ => True

instance decidableIsClass : (ty : JavaType) → Decidable ty.IsClass
  | object name => inferInstanceAs (Decidable (IsInternalName name))
  | array element =>
    have := decidableIsClass element
    inferInstanceAs (Decidable (element ≠ void ∧ element.IsClass))
  | boolean | byte | char | short | int | long | float | double | void =>
    inferInstanceAs (Decidable True)

/-- `Class.getName`. -/
def className : JavaType → String
  | boolean => "boolean"
  | byte => "byte"
  | char => "char"
  | short => "short"
  | int => "int"
  | long => "long"
  | float => "float"
  | double => "double"
  | void => "void"
  | object name => dotted name
  | array element => dotted (array element).descriptor

theorem isField_of_isClass {ty : JavaType} (h : ty.IsClass) (hvoid : ty ≠ void) : ty.IsField := by
  induction ty with
  | object name =>
    refine ⟨?_, h.not_mem (.inr (.inl rfl))⟩
    rintro rfl
    exact h.ne_nil rfl
  | array element ih => exact ih h.2 h.1
  | void => exact absurd rfl hvoid
  | _ => trivial

theorem not_mem_descriptor {ty : JavaType} (h : ty.IsClass) : '.' ∉ ty.descriptor.toList := by
  induction ty with
  | object name =>
    have hname := IsInternalName.not_mem h (.inl rfl)
    simp [descriptor, hname]
  | array element ih =>
    have helement := ih h.2
    simp [descriptor, helement]
  | _ => decide

theorem slashed_dotted {name : String} (h : '.' ∉ name.toList) : slashed (dotted name) = name := by
  rw [slashed, dotted, String.toList_ofList, Text.replace_replace h, String.ofList_toList]

/-- Two classes have two descriptors. -/
theorem descriptor_inj {ty ty' : JavaType} (h : ty.IsClass) (h' : ty'.IsClass) (hvoid : ty ≠ void)
    (hvoid' : ty' ≠ void) (heq : ty.descriptor = ty'.descriptor) : ty = ty' := by
  have hparse := parse_descriptor_iff (θ := Empty).2 (isField_of_isClass h hvoid)
  rw [heq, parse_descriptor_iff.2 (isField_of_isClass h' hvoid')] at hparse
  exact (Except.ok.inj hparse).symm

end JavaType

end JavaBridge

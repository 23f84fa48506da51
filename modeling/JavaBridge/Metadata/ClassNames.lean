import JavaBridge.Descriptor.ClassName
import JavaBridge.Overload.Dispatch

/-!
# Names and descriptors

`class_name_to_descriptor` takes what `Class.getName` gives, and `class_name_from_descriptor` what
JNI calls a class.

Main results:

* `classNameToDescriptor_className`: which names give the descriptor of their class.
* `classNames_inverse_iff`: where the two functions are inverse.
-/

namespace JavaBridge.Metadata

open Overload (classNameToDescriptor)

/-- The names of the primitive types and of `void`. -/
def keywords : List String :=
  ["boolean", "byte", "char", "short", "int", "long", "float", "double", "void"]

variable {ty : JavaType} {name : String}

/-! ## From names -/

theorem classNameToDescriptor_of_not_mem (h : name ∉ keywords) :
    classNameToDescriptor name =
      if name.toList.head? = some '[' then slashed name else "L" ++ slashed name ++ ";" := by
  unfold classNameToDescriptor
  split
  case h_10 => rfl
  all_goals exact absurd (by decide) h

theorem head?_dotted (name : String) (h : name.toList.head? ≠ some '[') :
    (dotted name).toList.head? ≠ some '[' := by
  rw [dotted, String.toList_ofList, Text.replace, List.head?_map]
  cases hname : name.toList.head? with
  | none => exact fun h ↦ by cases h
  | some c =>
    rw [Option.map_some, Ne, Option.some.injEq]
    split
    · decide
    · rintro rfl
      exact h hname

theorem head?_object (h : IsInternalName name) : (dotted name).toList.head? ≠ some '[' := by
  refine head?_dotted name fun hhead ↦ ?_
  exact h.not_mem (.inr (.inr rfl)) (List.mem_of_mem_head? hhead)

/-- The name of an array class is not a keyword, and starts with a bracket. -/
theorem toList_className_array (element : JavaType) :
    ∃ rest, (JavaType.array element).className.toList = '[' :: rest := by
  simp [JavaType.className, dotted, JavaType.descriptor, Text.replace]

theorem not_mem_keywords_array (element : JavaType) :
    (JavaType.array element).className ∉ keywords := by
  obtain ⟨rest, hrest⟩ := toList_className_array element
  intro hmem
  have hall : keywords.all (fun keyword ↦ keyword.toList.head? ≠ some '[') = true := by decide
  have hhead := of_decide_eq_true (List.all_eq_true.1 hall _ hmem)
  rw [hrest] at hhead
  exact hhead rfl

/-- A name that is no keyword gives the descriptor of its class. -/
theorem classNameToDescriptor_className (h : ty.IsClass) (hname : ty.className ∉ keywords) :
    classNameToDescriptor ty.className = ty.descriptor := by
  rw [classNameToDescriptor_of_not_mem hname]
  cases ty with
  | object name =>
    rw [JavaType.className, if_neg (head?_object h),
      JavaType.slashed_dotted (h.not_mem (.inl rfl)), JavaType.descriptor]
  | array element =>
    obtain ⟨rest, hrest⟩ := toList_className_array element
    rw [if_pos (by rw [hrest]; rfl), JavaType.className, JavaType.slashed_dotted]
    exact JavaType.not_mem_descriptor h
  | _ => exact absurd (by decide) hname

/-! ## From descriptors -/

theorem classNameFromDescriptor_object (name : String) :
    classNameFromDescriptor (JavaType.object name).descriptor = dotted name := by
  have hlist : (JavaType.object name).descriptor.toList = ('L' :: name.toList) ++ [';'] := by
    simp [JavaType.descriptor]
  rw [classNameFromDescriptor, hlist, if_pos ⟨rfl, List.getLast?_concat⟩]
  simp [dotted]

theorem classNameFromDescriptor_array (element : JavaType) :
    classNameFromDescriptor (JavaType.array element).descriptor =
      (JavaType.array element).className := by
  have hlist : (JavaType.array element).descriptor.toList = '[' :: element.descriptor.toList := by
    simp [JavaType.descriptor]
  rw [classNameFromDescriptor, if_neg]
  · rfl
  · rintro ⟨h, -⟩
    rw [hlist] at h
    cases h

/-- A reference type's name comes from its descriptor. -/
theorem classNameFromDescriptor_descriptor (h : ty.isReference = true) :
    classNameFromDescriptor ty.descriptor = ty.className := by
  cases ty with
  | object name => exact classNameFromDescriptor_object name
  | array element => exact classNameFromDescriptor_array element
  | _ => cases h

/-! ## Round trips -/

theorem isReference_of_not_mem (hname : ty.className ∉ keywords) : ty.isReference = true := by
  cases ty with
  | object name => rfl
  | array element => rfl
  | _ => exact absurd (by decide) hname

/-- A name comes back from its descriptor, unless it is a keyword. -/
theorem className_comes_back_iff (h : ty.IsClass) :
    classNameFromDescriptor (classNameToDescriptor ty.className) = ty.className ↔
      ty.className ∉ keywords := by
  constructor
  · intro hinverse hname
    have hkeywords : keywords.all (fun keyword ↦
        classNameFromDescriptor (classNameToDescriptor keyword) ≠ keyword) = true := by
      decide +kernel
    exact of_decide_eq_true (List.all_eq_true.1 hkeywords _ hname) hinverse
  · intro hname
    rw [classNameToDescriptor_className h hname,
      classNameFromDescriptor_descriptor (isReference_of_not_mem hname)]

/-- No primitive type, and no class that is named by a keyword. -/
theorem not_keyword_of_comes_back (hvoid : ty ≠ .void)
    (hinverse : classNameToDescriptor (classNameFromDescriptor ty.descriptor) = ty.descriptor) :
    ty.isReference = true ∧ ∀ keyword ∈ keywords, ty ≠ .object keyword := by
  constructor
  · cases ty with
    | object name => rfl
    | array element => rfl
    | void => exact absurd rfl hvoid
    | _ => exact absurd hinverse (by decide +kernel)
  · rintro keyword hkeyword rfl
    have hkeywords : keywords.all (fun keyword ↦
        classNameToDescriptor (classNameFromDescriptor (JavaType.object keyword).descriptor) ≠
          (JavaType.object keyword).descriptor) = true := by
      decide +kernel
    exact of_decide_eq_true (List.all_eq_true.1 hkeywords _ hkeyword) hinverse

theorem className_not_mem_keywords (h : ty.IsClass) (href : ty.isReference = true)
    (hname : ∀ keyword ∈ keywords, ty ≠ .object keyword) : ty.className ∉ keywords := by
  intro hmem
  cases ty with
  | object name =>
    have hslashed : slashed (dotted name) = name := JavaType.slashed_dotted (h.not_mem (.inl rfl))
    have hsame : keywords.all (fun keyword ↦ slashed keyword = keyword) = true := by
      decide +kernel
    have heq := of_decide_eq_true (List.all_eq_true.1 hsame _ hmem)
    rw [JavaType.className, hslashed] at heq
    refine hname name ?_ rfl
    rw [heq]
    exact hmem
  | array element => exact not_mem_keywords_array element hmem
  | _ => cases href

/-- **The two are inverse** on the names that are no keywords, and on the descriptors of reference
types whose class is not named by a keyword; and nowhere else. -/
theorem classNames_inverse_iff (ty : JavaType) (h : ty.IsClass) :
    (classNameFromDescriptor (classNameToDescriptor ty.className) = ty.className ↔
      ty.className ∉ keywords) ∧
    (ty ≠ .void →
      (classNameToDescriptor (classNameFromDescriptor ty.descriptor) = ty.descriptor ↔
        ty.isReference = true ∧ ∀ keyword ∈ keywords, ty ≠ .object keyword)) := by
  refine ⟨className_comes_back_iff h, fun hvoid ↦ ⟨not_keyword_of_comes_back hvoid, ?_⟩⟩
  rintro ⟨href, hname⟩
  rw [classNameFromDescriptor_descriptor href]
  exact classNameToDescriptor_className h (className_not_mem_keywords h href hname)

/-- The type `int`, by its name and by its descriptor, and a class with that name. -/
theorem not_classNames_inverse :
    classNameFromDescriptor (classNameToDescriptor JavaType.int.className) ≠
        JavaType.int.className ∧
      classNameToDescriptor (classNameFromDescriptor JavaType.int.descriptor) ≠
        JavaType.int.descriptor ∧
      (JavaType.object "int").IsClass ∧
      classNameToDescriptor (classNameFromDescriptor (JavaType.object "int").descriptor) ≠
        (JavaType.object "int").descriptor := by
  decide +kernel

theorem classNames_inverse_iff_entry :
    (classNameFromDescriptor (classNameToDescriptor "java.util.Map$Entry") = "java.util.Map$Entry" ↔
      "java.util.Map$Entry" ∉ keywords) ∧
    (classNameToDescriptor (classNameFromDescriptor "[Ljava/util/Map;") = "[Ljava/util/Map;" ↔
      (JavaType.array (.object "java/util/Map")).isReference = true ∧
        ∀ keyword ∈ keywords, JavaType.array (.object "java/util/Map") ≠ .object keyword) :=
  ⟨(classNames_inverse_iff (.object "java/util/Map$Entry") (by decide +kernel)).1,
    (classNames_inverse_iff (.array (.object "java/util/Map")) (by decide +kernel)).2 (by decide)⟩

end JavaBridge.Metadata

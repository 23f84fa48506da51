import JavaBridge.Descriptor.Splits
import JavaBridge.MethodQuery

/-!
# Parsing of method queries

Main results:

* `MethodQuery.parseMethodQuery_flags`, `MethodQuery.parseMethodQuery_plain`: what is parsed of a
  class pattern with a rest that ends in flags, or does not.
* `MethodQuery.parseMethodQuery_format`: parsing undoes formatting, and what it rejects.
-/

universe u

namespace JavaBridge.MethodQuery

variable {θ : Type u}

def toAsciiLowercase (value : String) : String := String.ofList (value.toList.map Char.toLower)

/-- A letter of the modifiers. -/
def IsFlag (c : Char) : Prop := c = 'i' ∨ c = 's' ∨ c = 'u'

/-- The text ends in a slash and flags. -/
def EndsInFlags (rest : List Char) : Prop :=
  ∃ method flags, rest = method ++ '/' :: flags ∧ ∀ c ∈ flags, IsFlag c

/-- The query that a class pattern and a method pattern are parsed to, with flags. -/
def withFlags (classPattern methodPattern : String) (flags : List Char) : MethodQuery where
  classPattern := if 'i' ∈ flags then toAsciiLowercase classPattern else classPattern
  methodPattern := if 'i' ∈ flags then toAsciiLowercase methodPattern else methodPattern
  includeSignature := 's' ∈ flags
  ignoreCase := 'i' ∈ flags
  skipSystemClasses := 'u' ∈ flags

/-! ## Parts -/

theorem all_isFlag {flags : List Char} :
    flags.all (· ∈ ['i', 's', 'u']) = true ↔ ∀ c ∈ flags, IsFlag c := by
  simp [IsFlag]

theorem not_mem_slash {flags : List Char} (h : ∀ c ∈ flags, IsFlag c) : '/' ∉ flags :=
  fun hmem ↦ by rcases h '/' hmem with h | h | h <;> cases h

theorem endsInFlags_iff {rest : List Char} : EndsInFlags rest ↔
    (Text.rsplitOnce '/' rest).any (fun parts ↦ parts.2.all (· ∈ ['i', 's', 'u'])) = true := by
  rw [Option.any_eq_true]
  constructor
  · rintro ⟨method, flags, rfl, hflags⟩
    exact ⟨_, Text.rsplitOnce_eq_some_iff.2 ⟨rfl, not_mem_slash hflags⟩, all_isFlag.2 hflags⟩
  · rintro ⟨⟨method, flags⟩, hsplit, hflags⟩
    exact ⟨method, flags, (Text.rsplitOnce_eq_some_iff.1 hsplit).1, all_isFlag.1 hflags⟩

instance (rest : List Char) : Decidable (EndsInFlags rest) :=
  decidable_of_iff _ endsInFlags_iff.symm

/-- The method pattern and the modifiers of what follows the class pattern. -/
def splitModifiers (rest : List Char) : List Char × List Char :=
  match Text.rsplitOnce '/' rest with
  | some (method, modifiers) =>
    if modifiers.all (· ∈ ['i', 's', 'u']) then (method, modifiers) else (rest, [])
  | none => (rest, [])

theorem splitModifiers_flags {method flags : List Char} (h : ∀ c ∈ flags, IsFlag c) :
    splitModifiers (method ++ '/' :: flags) = (method, flags) := by
  have hsplit : Text.rsplitOnce '/' (method ++ '/' :: flags) = some (method, flags) :=
    Text.rsplitOnce_eq_some_iff.2 ⟨rfl, not_mem_slash h⟩
  rw [splitModifiers, hsplit]
  exact if_pos (all_isFlag.2 h)

theorem splitModifiers_plain {rest : List Char} (h : ¬EndsInFlags rest) :
    splitModifiers rest = (rest, []) := by
  rw [splitModifiers]
  split
  · next method modifiers hsplit =>
    obtain ⟨rfl, -⟩ := Text.rsplitOnce_eq_some_iff.1 hsplit
    exact if_neg fun hflags ↦ h ⟨method, modifiers, rfl, all_isFlag.1 hflags⟩
  · rfl

theorem parseMethodQuery_eq (query : String) : parseMethodQuery (θ := θ) query =
    match Text.splitOnce '!' query.toList with
    | none => .error (.invalidQuery query "expected class!method query")
    | some (classPattern, rest) =>
      if classPattern = [] then .error (.invalidQuery query "class pattern cannot be empty")
      else if (splitModifiers rest).1 = [] then
        .error (.invalidQuery query "method pattern cannot be empty")
      else
        .ok (withFlags (String.ofList classPattern) (String.ofList (splitModifiers rest).1)
          (splitModifiers rest).2) := by
  rw [parseMethodQuery]
  cases Text.splitOnce '!' query.toList with
  | none => rfl
  | some parts =>
    obtain ⟨classPattern, rest⟩ := parts
    have hcase (value : String) (flags : List Char) : normalizeCase value ('i' ∈ flags) =
        if 'i' ∈ flags then toAsciiLowercase value else value := by
      simp only [normalizeCase, decide_eq_true_eq, toAsciiLowercase]
    unfold withFlags
    dsimp only
    rw [← hcase, ← hcase]
    rfl

/-- The class pattern ends at the first `!`. -/
theorem parseMethodQuery_split {classPattern : String} (hclass : '!' ∉ classPattern.toList)
    (rest : String) : parseMethodQuery (θ := θ) (classPattern ++ "!" ++ rest) =
      if classPattern = "" then
        .error (.invalidQuery (classPattern ++ "!" ++ rest) "class pattern cannot be empty")
      else if (splitModifiers rest.toList).1 = [] then
        .error (.invalidQuery (classPattern ++ "!" ++ rest) "method pattern cannot be empty")
      else
        .ok (withFlags classPattern (String.ofList (splitModifiers rest.toList).1)
          (splitModifiers rest.toList).2) := by
  have hsplit : Text.splitOnce '!' (classPattern ++ "!" ++ rest).toList =
      some (classPattern.toList, rest.toList) :=
    Text.splitOnce_eq_some_iff.2 ⟨by simp, hclass⟩
  have hempty : classPattern.toList = [] ↔ classPattern = "" := by
    rw [← String.toList_inj]
    rfl
  rw [parseMethodQuery_eq, hsplit]
  simp only [hempty, String.ofList_toList]

theorem parseMethodQuery_flags {classPattern methodPattern flags : String}
    (hne : classPattern ≠ "") (hclass : '!' ∉ classPattern.toList) (hmethod : methodPattern ≠ "")
    (hflags : ∀ c ∈ flags.toList, IsFlag c) :
    parseMethodQuery (θ := θ) (classPattern ++ "!" ++ (methodPattern ++ "/" ++ flags)) =
      .ok (withFlags classPattern methodPattern flags.toList) := by
  have hrest : (methodPattern ++ "/" ++ flags).toList =
      methodPattern.toList ++ '/' :: flags.toList := by simp
  have hnil : methodPattern.toList ≠ [] := fun h ↦ hmethod (String.toList_inj.1 h)
  rw [parseMethodQuery_split hclass, hrest, splitModifiers_flags hflags, if_neg hne, if_neg hnil,
    String.ofList_toList]

theorem parseMethodQuery_plain {classPattern rest : String} (hne : classPattern ≠ "")
    (hclass : '!' ∉ classPattern.toList) (hrest : ¬EndsInFlags rest.toList) :
    parseMethodQuery (θ := θ) (classPattern ++ "!" ++ rest) =
      if rest = "" then
        .error (.invalidQuery (classPattern ++ "!" ++ rest) "method pattern cannot be empty")
      else .ok ⟨classPattern, rest, false, false, false⟩ := by
  have hempty : rest.toList = [] ↔ rest = "" := by
    rw [← String.toList_inj]
    rfl
  rw [parseMethodQuery_split hclass, splitModifiers_plain hrest, if_neg hne]
  simp only [hempty, String.ofList_toList]
  rfl

/-! ## What is rejected -/

/-- There is no `!`, or nothing before it, or no method pattern after it. -/
def Incomplete (query : List Char) : Prop :=
  '!' ∉ query ∨ (∃ rest, query = '!' :: rest) ∨
    ∃ classPattern, query = classPattern ++ ['!'] ∧ '!' ∉ classPattern ∨
      ∃ flags, query = classPattern ++ '!' :: '/' :: flags ∧ '!' ∉ classPattern ∧
        ∀ c ∈ flags, IsFlag c

theorem splitModifiers_eq_nil_iff {rest : List Char} :
    (splitModifiers rest).1 = [] ↔ rest = [] ∨ ∃ flags, rest = '/' :: flags ∧
      ∀ c ∈ flags, IsFlag c := by
  by_cases hrest : EndsInFlags rest
  · obtain ⟨method, flags, rfl, hflags⟩ := hrest
    rw [splitModifiers_flags hflags]
    constructor
    · rintro rfl
      exact .inr ⟨flags, rfl, hflags⟩
    · rintro (hnil | ⟨flags', heq, hflags'⟩)
      · exact absurd (List.append_eq_nil_iff.1 hnil).2 (List.cons_ne_nil _ _)
      · have hsplit := @splitModifiers_flags [] flags' hflags'
        rw [List.nil_append, ← heq, splitModifiers_flags hflags] at hsplit
        exact congrArg Prod.fst hsplit
  · rw [splitModifiers_plain hrest, or_iff_left]
    rintro ⟨flags, rfl, hflags⟩
    exact hrest ⟨[], flags, rfl, hflags⟩

theorem incomplete_append_iff {classPattern rest : List Char} (hclass : '!' ∉ classPattern) :
    Incomplete (classPattern ++ '!' :: rest) ↔
      classPattern = [] ∨ (splitModifiers rest).1 = [] := by
  have hunique {classPattern' rest' : List Char}
      (h : classPattern ++ '!' :: rest = classPattern' ++ '!' :: rest')
      (hclass' : '!' ∉ classPattern') : classPattern' = classPattern ∧ rest' = rest := by
    have hsplit : Text.splitOnce '!' (classPattern ++ '!' :: rest) = some (classPattern, rest) :=
      Text.splitOnce_eq_some_iff.2 ⟨rfl, hclass⟩
    have hsplit' := Text.splitOnce_eq_some_iff.2 ⟨h, hclass'⟩
    cases hsplit.symm.trans hsplit'
    exact ⟨rfl, rfl⟩
  rw [splitModifiers_eq_nil_iff]
  constructor
  · rintro (hnone | ⟨rest', h⟩ | ⟨classPattern', ⟨h, hclass'⟩ | ⟨flags, h, hclass', hflags⟩⟩)
    · exact absurd (List.mem_append_right _ List.mem_cons_self) hnone
    · exact .inl (@hunique [] rest' h List.not_mem_nil).1.symm
    · exact .inr (.inl (hunique h hclass').2.symm)
    · exact .inr (.inr ⟨flags, (hunique h hclass').2.symm, hflags⟩)
  · rintro (rfl | rfl | ⟨flags, rfl, hflags⟩)
    · exact .inr (.inl ⟨rest, rfl⟩)
    · exact .inr (.inr ⟨classPattern, .inl ⟨rfl, hclass⟩⟩)
    · exact .inr (.inr ⟨classPattern, .inr ⟨flags, rfl, hclass, hflags⟩⟩)

theorem parseMethodQuery_error_iff {query : String} :
    (∃ e, parseMethodQuery (θ := θ) query = .error e) ↔ Incomplete query.toList := by
  rw [parseMethodQuery_eq]
  cases hsplit : Text.splitOnce '!' query.toList with
  | none => exact iff_of_true ⟨_, rfl⟩ (.inl (Text.splitOnce_eq_none_iff.1 hsplit))
  | some parts =>
    obtain ⟨classPattern, rest⟩ := parts
    obtain ⟨hquery, hclass⟩ := Text.splitOnce_eq_some_iff.1 hsplit
    rw [hquery, incomplete_append_iff hclass]
    dsimp only
    split
    · next hempty => exact iff_of_true ⟨_, rfl⟩ (.inl hempty)
    · next hne =>
      split
      · next hempty => exact iff_of_true ⟨_, rfl⟩ (.inr hempty)
      · next hmethod =>
        refine iff_of_false ?_ (not_or.2 ⟨hne, hmethod⟩)
        rintro ⟨e, h⟩
        cases h

/-- **Parsing undoes formatting**: flags come off the end, a rest that does not end in flags is the
method pattern, and the incomplete queries are rejected, and no others. -/
theorem parseMethodQuery_format :
    (∀ classPattern : String, classPattern ≠ "" → '!' ∉ classPattern.toList →
      (∀ methodPattern flags : String, methodPattern ≠ "" → (∀ c ∈ flags.toList, IsFlag c) →
        parseMethodQuery (θ := θ) (classPattern ++ "!" ++ (methodPattern ++ "/" ++ flags)) =
          .ok (withFlags classPattern methodPattern flags.toList)) ∧
      ∀ rest : String, ¬EndsInFlags rest.toList →
        parseMethodQuery (θ := θ) (classPattern ++ "!" ++ rest) =
          if rest = "" then
            .error (.invalidQuery (classPattern ++ "!" ++ rest) "method pattern cannot be empty")
          else .ok ⟨classPattern, rest, false, false, false⟩) ∧
    ∀ query : String, (∃ e, parseMethodQuery (θ := θ) query = .error e) ↔
      Incomplete query.toList :=
  ⟨fun _ hne hclass ↦ ⟨fun _ _ hmethod hflags ↦ parseMethodQuery_flags hne hclass hmethod hflags,
    fun _ hrest ↦ parseMethodQuery_plain hne hclass hrest⟩, fun _ ↦ parseMethodQuery_error_iff⟩

theorem parseMethodQuery_format_slashes :
    parseMethodQuery (θ := Empty) ("Lib" ++ "!" ++ ("a!b/c" ++ "/" ++ "si")) =
        .ok (withFlags "Lib" "a!b/c" "si".toList) ∧
      parseMethodQuery (θ := Empty) ("Lib" ++ "!" ++ "foo/bar") =
        .ok ⟨"Lib", "foo/bar", false, false, false⟩ := by
  have h := (parseMethodQuery_format (θ := Empty)).1 "Lib" (by decide) (by decide)
  exact ⟨h.1 "a!b/c" "si" (by decide) (by simp [IsFlag]), h.2 "foo/bar" (by decide)⟩

end JavaBridge.MethodQuery

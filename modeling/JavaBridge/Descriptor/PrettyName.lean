import JavaBridge.Descriptor.ClassName
import JavaBridge.Descriptor.Splits

/-!
# Printed names of types

Types as source text names them, and how they are read back.

Main results:

* `JavaType.fromPrettyName_prettyName`: a printed type is read back.
* `MethodSignature.fromPrettyTypes_pretty`: so is a printed signature.
-/

universe u

namespace JavaBridge

variable {θ : Type u}

/-! ## Text without outer white space -/

namespace Text

/-- There is text, and no white space leads or trails. -/
structure IsTrimmed (cs : List Char) : Prop where
  ne_nil : cs ≠ []
  head : ∀ c ∈ cs.head?, isWhitespace c = false
  last : ∀ c ∈ cs.getLast?, isWhitespace c = false

variable {cs cs' : List Char}

theorem all_not_isWhitespace_iff {c? : Option Char} :
    (c?.all fun c ↦ !isWhitespace c) = true ↔ ∀ c ∈ c?, isWhitespace c = false := by
  cases c? <;> simp

theorem isTrimmed_iff : IsTrimmed cs ↔ cs.isEmpty = false ∧
    (cs.head?.all fun c ↦ !isWhitespace c) = true ∧
      (cs.getLast?.all fun c ↦ !isWhitespace c) = true := by
  rw [List.isEmpty_eq_false_iff, all_not_isWhitespace_iff, all_not_isWhitespace_iff]
  exact ⟨fun h ↦ ⟨h.ne_nil, h.head, h.last⟩, fun h ↦ ⟨h.1, h.2.1, h.2.2⟩⟩

instance (cs : List Char) : Decidable (IsTrimmed cs) := decidable_of_iff _ isTrimmed_iff.symm

namespace IsTrimmed

theorem trimEnd_eq (h : IsTrimmed cs) : trimEnd cs = cs := by
  rw [Text.trimEnd_eq, List.rdropWhile_eq_self_iff]
  intro hne
  rw [h.last _ (List.getLast?_eq_some_getLast hne)]
  exact Bool.false_ne_true

theorem trim_eq (h : IsTrimmed cs) : trim cs = cs := by
  rw [trim, List.dropWhile_eq_self_iff.2, h.trimEnd_eq]
  intro hlength
  rw [h.head _ (List.head?_eq_getElem? .. ▸ List.getElem?_eq_getElem hlength)]
  exact Bool.false_ne_true

theorem append (h : IsTrimmed cs) (h' : IsTrimmed cs') (between : List Char) :
    IsTrimmed (cs ++ between ++ cs') where
  ne_nil := fun hnil ↦ h'.ne_nil (List.append_eq_nil_iff.1 hnil).2
  head := by
    rw [List.append_assoc, List.head?_append_of_ne_nil _ h.ne_nil]
    exact h.head
  last := by
    rw [List.getLast?_append_of_ne_nil _ h'.ne_nil]
    exact h'.last

theorem intercalate {parts : List (List Char)} (separator : List Char) (hne : parts ≠ [])
    (h : ∀ part ∈ parts, IsTrimmed part) : IsTrimmed (separator.intercalate parts) := by
  induction parts with
  | nil => exact absurd rfl hne
  | cons part parts ih =>
    have hpart := h part List.mem_cons_self
    have hparts : ∀ part' ∈ parts, IsTrimmed part' :=
      fun part' hmem ↦ h part' (List.mem_cons_of_mem _ hmem)
    by_cases hnil : parts = []
    · rwa [hnil, List.intercalate_singleton]
    · rw [List.intercalate_cons_of_ne_nil hnil]
      exact hpart.append (ih hnil hparts) separator

/-- A replacement keeps it, unless it brings in white space. -/
theorem replace {old new : Char} (h : IsTrimmed cs) (hnew : isWhitespace new = false) :
    IsTrimmed (Text.replace old new cs) where
  ne_nil := fun hnil ↦ h.ne_nil (replace_eq_nil_iff.1 hnil)
  head := by
    intro c hc
    rw [Text.replace, List.head?_map] at hc
    obtain ⟨d, hd, rfl⟩ := Option.map_eq_some_iff.1 hc
    split
    · exact hnew
    · exact h.head d hd
  last := by
    intro c hc
    rw [Text.replace, List.getLast?_map] at hc
    obtain ⟨d, hd, rfl⟩ := Option.map_eq_some_iff.1 hc
    split
    · exact hnew
    · exact h.last d hd

end IsTrimmed

end Text

/-! ## Types -/

/-- A part of a class name. There may be spaces inside it. -/
structure IsSegment (part : List Char) : Prop where
  trimmed : Text.IsTrimmed part
  not_mem : ∀ c ∈ part, c ∉ ['.', '/', ';', '[', '(', ')', ',']

instance (part : List Char) : Decidable (IsSegment part) :=
  have := List.decidableBAll (fun c ↦ c ∉ ['.', '/', ';', '[', '(', ')', ',']) part
  decidable_of_iff (Text.IsTrimmed part ∧ ∀ c ∈ part, c ∉ ['.', '/', ';', '[', '(', ')', ','])
    ⟨fun h ↦ ⟨h.1, h.2⟩, fun h ↦ ⟨h.trimmed, h.not_mem⟩⟩

namespace JavaType

def prettyName : JavaType → String
  | boolean => "boolean"
  | byte => "byte"
  | char => "char"
  | short => "short"
  | int => "int"
  | long => "long"
  | float => "float"
  | double => "double"
  | void => "void"
  | object name => dotted name
  | array element => element.prettyName ++ "[]"

/-- The names in the type are no keywords, and are put together of parts. -/
def IsNamed : JavaType → Prop
  | object name =>
    (∀ part ∈ name.toList.splitOn '/', IsSegment part) ∧
      dotted name ∉ "void" :: primitiveKeywords
  | array element => element ≠ void ∧ element.IsNamed
  | _ => True

instance decidableIsNamed : (ty : JavaType) → Decidable ty.IsNamed
  | object name =>
    have := List.decidableBAll IsSegment (name.toList.splitOn '/')
    inferInstanceAs (Decidable ((∀ part ∈ name.toList.splitOn '/', IsSegment part) ∧
      dotted name ∉ "void" :: primitiveKeywords))
  | array element =>
    have := decidableIsNamed element
    inferInstanceAs (Decidable (element ≠ void ∧ element.IsNamed))
  | boolean | byte | char | short | int | long | float | double | void =>
    inferInstanceAs (Decidable True)

theorem array_addDimensions (dimensions : Nat) (base : JavaType) :
    array (addDimensions dimensions base) = addDimensions dimensions (array base) := by
  induction dimensions generalizing base with
  | zero => rfl
  | succ dimensions ih => exact ih (array base)

theorem isTrimmed_append_suffixes {element : List Char} (h : Text.IsTrimmed element)
    (dimensions : Nat) : Text.IsTrimmed (element ++ suffixes dimensions) := by
  cases dimensions with
  | zero => rwa [suffixes, List.replicate_zero, List.flatten_nil, List.append_nil]
  | succ dimensions =>
    rw [suffixes_succ, ← List.append_assoc]
    exact h.append (by decide) (suffixes dimensions)

theorem stripDimensions_trimmed {element : List Char} (h : Text.IsTrimmed element)
    (hopen : '[' ∉ element) (dimensions : Nat) :
    stripDimensions (element ++ suffixes dimensions).length (element ++ suffixes dimensions) 0 =
      (element, dimensions) := by
  rw [stripDimensions_suffixes ?_ ?_ (le_length_append_suffixes element dimensions), Nat.zero_add]
  · rw [Option.eq_none_iff_forall_ne_some]
    intro stripped hstripped
    refine hopen ?_
    rw [Text.eq_append_of_stripSuffix hstripped]
    simp
  · intro k
    exact (isTrimmed_append_suffixes h k).trimEnd_eq

/-- A named type is not an array, or its elements are. -/
theorem exists_base {ty : JavaType} (h : ty.IsNamed) :
    ∃ base dimensions, ty = addDimensions dimensions base ∧
      ty.prettyName.toList = base.prettyName.toList ++ suffixes dimensions ∧ base.IsNamed ∧
      (∀ element, base ≠ array element) ∧ (base = void → dimensions = 0) := by
  induction ty with
  | array element ih =>
    obtain ⟨base, dimensions, rfl, hprint, hbase, harray, hvoid⟩ := ih h.2
    refine ⟨base, dimensions + 1, array_addDimensions dimensions base, ?_, hbase, harray, ?_⟩
    · rw [suffixes_succ, ← List.append_assoc, ← hprint, prettyName, String.toList_append]
      rfl
    · intro hbase'
      rw [hvoid hbase'] at h
      exact absurd hbase' h.1
  | _ =>
    refine ⟨_, 0, rfl, (List.append_nil _).symm, h, ?_, fun _ ↦ rfl⟩
    intro element harray
    cases harray

theorem isTrimmed_dotted {name : String} (h : ∀ part ∈ name.toList.splitOn '/', IsSegment part) :
    Text.IsTrimmed (dotted name).toList := by
  have hname : Text.IsTrimmed name.toList := by
    rw [← @List.intercalate_splitOn _ name.toList _ _ '/']
    exact Text.IsTrimmed.intercalate _ (List.splitOn_ne_nil _ _) fun part hpart ↦
      (h part hpart).trimmed
  rw [dotted, String.toList_ofList]
  exact hname.replace (by decide)

theorem not_mem_dotted {name : String} (h : ∀ part ∈ name.toList.splitOn '/', IsSegment part)
    {c : Char} (hc : c = '[' ∨ c = ',') : c ∉ (dotted name).toList := by
  have hslash : c ≠ '/' := by rcases hc with rfl | rfl <;> decide
  have hdot : c ≠ '.' := by rcases hc with rfl | rfl <;> decide
  rw [dotted, String.toList_ofList, Text.mem_replace hslash hdot, Text.mem_iff_splitOn hslash]
  rintro ⟨part, hpart, hmem⟩
  refine (h part hpart).not_mem c hmem ?_
  rcases hc with rfl | rfl <;> decide

theorem fromPrettyName_object {name printed : String} {dimensions : Nat}
    (h : (object name).IsNamed)
    (hprinted : Text.trim printed.toList = (dotted name).toList ++ suffixes dimensions) :
    fromPrettyName (θ := θ) printed = .ok (addDimensions dimensions (.object name)) := by
  obtain ⟨hparts, hkeyword⟩ := h
  have htrimmed := isTrimmed_dotted hparts
  have hstrip := stripDimensions_trimmed htrimmed (not_mem_dotted hparts (.inl rfl)) dimensions
  have hdot : '.' ∉ name.toList := by
    have hslash : '.' ≠ '/' := by decide
    rw [Text.mem_iff_splitOn hslash]
    rintro ⟨part, hpart, hmem⟩
    exact (hparts part hpart).not_mem _ hmem (by decide)
  have hback : Text.replace '.' '/' (dotted name).toList = name.toList := by
    rw [dotted, String.toList_ofList, Text.replace_replace hdot]
  simp only [fromPrettyName, hprinted, hstrip, String.ofList_toList, hback]
  split
  case h_10 hempty => exact absurd (congrArg String.toList hempty) htrimmed.ne_nil
  case h_11 => rfl
  all_goals
    next heq =>
      rw [heq] at hkeyword
      exact absurd (by decide) hkeyword

theorem isTrimmed_keyword {base : JavaType} (h : base.isReference = false) :
    Text.IsTrimmed base.prettyName.toList ∧ '[' ∉ base.prettyName.toList ∧
      ',' ∉ base.prettyName.toList := by
  cases base with
  | object name => cases h
  | array element => cases h
  | _ => decide

/-- A printed base is read back, with its dimensions. -/
theorem fromPrettyName_base {base : JavaType} {printed : String} {dimensions : Nat}
    (h : base.IsNamed) (harray : ∀ element, base ≠ array element)
    (hvoid : base = void → dimensions = 0)
    (hprinted : Text.trim printed.toList = base.prettyName.toList ++ suffixes dimensions) :
    fromPrettyName (θ := θ) printed = .ok (addDimensions dimensions base) := by
  cases hreference : base.isReference with
  | true =>
    cases base with
    | object name => exact fromPrettyName_object h hprinted
    | array element => exact absurd rfl (harray element)
    | _ => cases hreference
  | false =>
    obtain ⟨htrimmed, hopen, -⟩ := isTrimmed_keyword hreference
    have hstrip := stripDimensions_trimmed htrimmed hopen dimensions
    cases base with
    | object name => cases hreference
    | array element => cases hreference
    | void =>
      obtain rfl := hvoid rfl
      simp only [fromPrettyName, hprinted, hstrip, String.ofList_toList]
      rfl
    | _ =>
      simp only [fromPrettyName, hprinted, hstrip, String.ofList_toList]
      rfl

theorem fromPrettyName_of_trim {ty : JavaType} (h : ty.IsNamed) {printed : String}
    (hprinted : Text.trim printed.toList = ty.prettyName.toList) :
    fromPrettyName (θ := θ) printed = .ok ty := by
  obtain ⟨base, dimensions, rfl, hprint, hbase, harray, hvoid⟩ := exists_base h
  exact fromPrettyName_base hbase harray hvoid (hprinted.trans hprint)

theorem fromPrettyName_piece {ty : JavaType} (h : ty.IsNamed) {piece : List Char}
    (hpiece : Text.trim piece = ty.prettyName.toList) :
    fromPrettyName (θ := θ) (String.ofList (Text.trim piece)) = .ok ty := by
  refine fromPrettyName_of_trim h ?_
  rw [String.toList_ofList, Text.trim_trim, hpiece]

theorem isTrimmed_prettyName {ty : JavaType} (h : ty.IsNamed) :
    Text.IsTrimmed ty.prettyName.toList ∧ ',' ∉ ty.prettyName.toList := by
  induction ty with
  | object name => exact ⟨isTrimmed_dotted h.1, not_mem_dotted h.1 (.inr rfl)⟩
  | array element ih =>
    obtain ⟨htrimmed, hcomma⟩ := ih h.2
    have hlist : (array element).prettyName.toList =
        element.prettyName.toList ++ [] ++ ['[', ']'] := by
      rw [prettyName, String.toList_append, List.append_nil]
      rfl
    rw [hlist]
    refine ⟨htrimmed.append (by decide) [], ?_⟩
    simpa using hcomma
  | _ => decide

/-- A printed type is read back. -/
theorem fromPrettyName_prettyName {ty : JavaType} (h : ty.IsNamed) :
    fromPrettyName (θ := θ) ty.prettyName = .ok ty :=
  fromPrettyName_of_trim h (isTrimmed_prettyName h).1.trim_eq

end JavaType

/-! ## Signatures -/

/-- The arguments of a signature as they are printed. -/
def prettyArguments (arguments : List JavaType) : List Char :=
  [',', ' '].intercalate (arguments.map (·.prettyName.toList))

/-- The spaces after the commas stay with what follows. -/
theorem intercalate_comma_space (name : List Char) (names : List (List Char)) :
    [',', ' '].intercalate (name :: names) =
      [','].intercalate (name :: names.map (' ' :: ·)) := by
  induction names generalizing name with
  | nil => rfl
  | cons next names ih =>
    rw [List.intercalate_cons_cons, ih, List.map_cons, List.intercalate_cons_cons,
      List.intercalate_cons_cons_left]
    simp

theorem trim_cons_space (cs : List Char) : Text.trim (' ' :: cs) = Text.trim cs := rfl

namespace MethodSignature

theorem splitOn_prettyArguments {ty : JavaType} {tys : List JavaType}
    (h : ∀ ty' ∈ ty :: tys, ty'.IsNamed) :
    (prettyArguments (ty :: tys)).splitOn ',' =
      ty.prettyName.toList :: tys.map fun ty' ↦ ' ' :: ty'.prettyName.toList := by
  rw [prettyArguments, List.map_cons, intercalate_comma_space, List.splitOn_intercalate,
    List.map_map]
  · rfl
  · intro piece hpiece
    rcases List.mem_cons.1 hpiece with rfl | hpiece
    · exact (JavaType.isTrimmed_prettyName (h ty List.mem_cons_self)).2
    · rw [List.map_map] at hpiece
      obtain ⟨ty', hty', rfl⟩ := List.mem_map.1 hpiece
      have hcomma := (JavaType.isTrimmed_prettyName (h ty' (List.mem_cons_of_mem _ hty'))).2
      simpa using hcomma
  · exact List.cons_ne_nil _ _

/-- A signature is read back from its printed types. -/
theorem fromPrettyTypes_pretty {signature : MethodSignature}
    (harguments : ∀ ty ∈ signature.arguments, ty.IsNamed) (hreturn : signature.returnType.IsNamed) :
    fromPrettyTypes (θ := θ) signature.returnType.prettyName
      (String.ofList (prettyArguments signature.arguments)) = .ok signature := by
  obtain ⟨arguments, returnType⟩ := signature
  dsimp only at harguments hreturn ⊢
  have hread := JavaType.fromPrettyName_piece (θ := θ) hreturn
    (JavaType.isTrimmed_prettyName hreturn).1.trim_eq
  rw [fromPrettyTypes, String.toList_ofList]
  cases arguments with
  | nil =>
    have hblank : Text.trim (prettyArguments []) = [] := rfl
    rw [if_pos hblank, hread]
    rfl
  | cons ty tys =>
    have htrimmed : Text.IsTrimmed (prettyArguments (ty :: tys)) := by
      refine Text.IsTrimmed.intercalate _ (List.cons_ne_nil _ _) ?_
      intro piece hpiece
      obtain ⟨ty', hty', rfl⟩ := List.mem_map.1 hpiece
      exact (JavaType.isTrimmed_prettyName (harguments ty' hty')).1
    have hpieces : List.Forall₂ (fun piece ty' ↦
        JavaType.fromPrettyName (θ := θ) (String.ofList (Text.trim piece)) = .ok ty')
        ((prettyArguments (ty :: tys)).splitOn ',') (ty :: tys) := by
      rw [splitOn_prettyArguments harguments]
      refine .cons ?_ ?_
      · have hty := harguments ty List.mem_cons_self
        exact JavaType.fromPrettyName_piece hty (JavaType.isTrimmed_prettyName hty).1.trim_eq
      · rw [List.forall₂_map_left_iff, List.forall₂_same]
        intro ty' hty'
        have hnamed := harguments ty' (List.mem_cons_of_mem _ hty')
        refine JavaType.fromPrettyName_piece hnamed ?_
        rw [trim_cons_space, (JavaType.isTrimmed_prettyName hnamed).1.trim_eq]
    have hnot : Text.trim (prettyArguments (ty :: tys)) ≠ [] := by
      rw [htrimmed.trim_eq]
      exact htrimmed.ne_nil
    rw [if_neg hnot, Fallible.mapM_eq_ok_of_forall₂ hpieces, hread]
    rfl

end MethodSignature

end JavaBridge

import JavaBridge.Descriptor.Names
import Mathlib.Data.List.DropRight

/-!
# Types from names

`JavaType::from_name` takes a descriptor, a name as `Class.getName` gives it or a name as source
text writes it, and tells them apart by whether the text parses and by its first letter.

Main results:

* `MethodSignature.isField_of_fromPrettyName_iff`: which printed names give the type of a field.
* `JavaType.fromName_reparses`, `MethodSignature.fromPrettyTypes_reparses`: which of the accepted
  names give types that their own descriptors parse to.
* `JavaType.fromName_sourceName_iff`: which source names are accepted.
-/

universe u

namespace JavaBridge

/-! ## Text -/

namespace Text

variable {c : Char} {cs : List Char}

theorem mem_dropWhile_isWhitespace (h : isWhitespace c = false) :
    c ∈ cs.dropWhile isWhitespace ↔ c ∈ cs := by
  induction cs with
  | nil => rfl
  | cons d cs ih =>
    rw [List.dropWhile_cons]
    split
    · next hd =>
      have hne : c ≠ d := by
        rintro rfl
        rw [h] at hd
        exact Bool.false_ne_true hd
      rw [ih, List.mem_cons, or_iff_right hne]
    · rfl

theorem mem_trimEnd (h : isWhitespace c = false) : c ∈ trimEnd cs ↔ c ∈ cs := by
  rw [trimEnd, List.mem_reverse, mem_dropWhile_isWhitespace h, List.mem_reverse]

theorem mem_trim (h : isWhitespace c = false) : c ∈ trim cs ↔ c ∈ cs := by
  rw [trim, mem_trimEnd h, mem_dropWhile_isWhitespace h]

theorem trimEnd_eq (cs : List Char) : trimEnd cs = cs.rdropWhile isWhitespace := rfl

theorem trimEnd_eq_self (h : ∀ c ∈ cs, isWhitespace c = false) : trimEnd cs = cs := by
  rw [trimEnd_eq, List.rdropWhile_eq_self_iff]
  intro hne
  rw [h _ (List.getLast_mem hne)]
  exact Bool.false_ne_true

theorem trim_eq_self (h : ∀ c ∈ cs, isWhitespace c = false) : trim cs = cs := by
  rw [trim, List.dropWhile_eq_self_iff.2, trimEnd_eq_self h]
  intro hlength
  rw [h _ (List.getElem_mem hlength)]
  exact Bool.false_ne_true

theorem trim_trim (cs : List Char) : trim (trim cs) = trim cs := by
  have hhead : (trim cs).dropWhile isWhitespace = trim cs := by
    rw [List.dropWhile_eq_self_iff]
    intro hlength
    have hinitial : trim cs <+: cs.dropWhile isWhitespace := List.rdropWhile_prefix isWhitespace _
    have hpos : 0 < (cs.dropWhile isWhitespace).length :=
      Nat.lt_of_lt_of_le hlength hinitial.length_le
    rw [hinitial.getElem hlength]
    exact List.dropWhile_get_zero_not isWhitespace cs hpos
  calc trim (trim cs) = trimEnd (trim cs) := by rw [trim, hhead]
    _ = trim cs := List.rdropWhile_idempotent isWhitespace _

theorem stripPrefix_append (ps cs : List Char) : stripPrefix ps (ps ++ cs) = some cs := by
  induction ps with
  | nil => rfl
  | cons p ps ih => rw [List.cons_append, stripPrefix, if_pos rfl, ih]

theorem eq_append_of_stripPrefix {ps cs rest : List Char} (h : stripPrefix ps cs = some rest) :
    cs = ps ++ rest := by
  induction ps generalizing cs with
  | nil => exact Option.some.inj h
  | cons p ps ih =>
    obtain _ | ⟨c, cs⟩ := cs
    · cases h
    rw [stripPrefix] at h
    split at h
    · next hc => rw [ih h, hc, List.cons_append]
    · cases h

theorem stripSuffix_append (suffix cs : List Char) : stripSuffix suffix (cs ++ suffix) = some cs := by
  rw [stripSuffix, List.reverse_append, stripPrefix_append, Option.map_some, List.reverse_reverse]

theorem eq_append_of_stripSuffix {suffix cs rest : List Char}
    (h : stripSuffix suffix cs = some rest) : cs = rest ++ suffix := by
  obtain ⟨before, hbefore, rfl⟩ := Option.map_eq_some_iff.1 h
  rw [← List.reverse_inj, eq_append_of_stripPrefix hbefore]
  simp

theorem mem_replace {c old new : Char} (hold : c ≠ old) (hnew : c ≠ new) {cs : List Char} :
    c ∈ replace old new cs ↔ c ∈ cs := by
  rw [replace, List.mem_map]
  constructor
  · rintro ⟨d, hd, h⟩
    split at h
    · exact absurd h.symm hnew
    · exact h ▸ hd
  · intro h
    exact ⟨c, h, if_neg hold⟩

/-- Splitting loses the delimiters only. -/
theorem mem_iff_splitOn {c delimiter : Char} (h : c ≠ delimiter) {cs : List Char} :
    c ∈ cs ↔ ∃ piece ∈ cs.splitOn delimiter, c ∈ piece := by
  induction cs with
  | nil => simp
  | cons d cs ih =>
    rw [List.splitOn_cons_eq_if_modifyHead, List.mem_cons, ih]
    split
    · next hd =>
      have hne : c ≠ d := (eq_of_beq hd).symm ▸ h
      simp [hne]
    · obtain ⟨piece, pieces, hpieces⟩ := List.exists_cons_of_ne_nil (List.splitOn_ne_nil delimiter cs)
      rw [hpieces]
      simp [or_assoc]

theorem replace_eq_nil_iff {old new : Char} {cs : List Char} : replace old new cs = [] ↔ cs = [] :=
  List.map_eq_nil_iff

end Text

variable {θ : Type u}

namespace JavaType

/-! ## The source -/

/-- The bytes compared are ASCII, so that the first byte is one of them where the first character
is. -/
def looksLikeDescriptor (name : String) : Bool :=
  match name.toList with
  | [] => false
  | c :: _ => c ∈ ['Z', 'B', 'C', 'S', 'I', 'J', 'F', 'D', 'V', 'L', '[']

def rejectVoidArgumentType (ty : JavaType) (source : String) : Except (Error θ) JavaType :=
  match ty with
  | .void => .error (.invalidSignature source 0 "void is not valid in this position")
  | ty => .ok ty

def normalizeObjectType : JavaType → JavaType
  | .object name => .object (String.ofList (Text.replace '.' '/' name.toList))
  | .array element => .array element.normalizeObjectType
  | ty => ty

/-- Parses an overload argument type from either a JNI descriptor or Java source-style name. -/
def fromName (name : String) : Except (Error θ) JavaType :=
  match JavaType.parse name with
  | .ok ty => rejectVoidArgumentType ty.normalizeObjectType name
  | .error descriptorError =>
    if looksLikeDescriptor name then .error descriptorError
    else
      match fromPrettyName (θ := θ) name with
      | .ok ty => rejectVoidArgumentType ty name
      | .error _ => .error descriptorError

/-! ## Well-formed types -/

theorem rejectVoidArgumentType_eq_ok_iff {ty ty' : JavaType} {source : String} :
    rejectVoidArgumentType (θ := θ) ty source = .ok ty' ↔ ty ≠ .void ∧ ty' = ty := by
  cases ty <;> simp [rejectVoidArgumentType, eq_comm]

theorem isField_object_iff {name : List Char} :
    (object (String.ofList name)).IsField ↔ name ≠ [] ∧ ';' ∉ name := by
  simp [IsField]

theorem isField_normalizeObjectType {ty : JavaType} (h : ty.IsField) :
    ty.normalizeObjectType.IsField := by
  induction ty with
  | object name =>
    obtain ⟨hne, hsemicolon⟩ := h
    refine isField_object_iff.2 ⟨?_, ?_⟩
    · rw [Ne, Text.replace_eq_nil_iff]
      intro hnil
      exact hne (String.toList_inj.1 hnil)
    · rwa [Text.mem_replace (by decide) (by decide)]
  | array element ih => exact ih h
  | _ => exact h

theorem isField_addDimensions_iff {dimensions : Nat} {ty : JavaType} :
    (addDimensions dimensions ty).IsField ↔ ty.IsField := by
  induction dimensions generalizing ty with
  | zero => rfl
  | succ dimensions ih => exact ih

theorem addDimensions_ne_void {dimensions : Nat} {ty : JavaType} (h : ty ≠ .void) :
    addDimensions dimensions ty ≠ .void := by
  induction dimensions generalizing ty with
  | zero => exact h
  | succ dimensions ih => exact ih JavaType.noConfusion

theorem parse_descriptor_iff {ty : JavaType} :
    JavaType.parse (θ := θ) ty.descriptor = .ok ty ↔ ty.IsField := by
  rw [parse_eq_ok_iff, and_iff_left rfl]

/-- Whatever parses starts with the letter of a descriptor. -/
theorem looksLikeDescriptor_of_parse {name : String} {ty : JavaType}
    (h : JavaType.parse (θ := θ) name = .ok ty) : looksLikeDescriptor name = true := by
  obtain ⟨-, rfl⟩ := parse_eq_ok_iff.1 h
  cases ty <;> simp [looksLikeDescriptor, descriptor]

/-! ## Printed names -/

/-- Suffixes and white space are all that goes. -/
theorem mem_stripDimensions {c : Char} (hspace : Text.isWhitespace c = false) (hopen : c ≠ '[')
    (hclose : c ≠ ']') (fuel : Nat) (element : List Char) (dimensions : Nat) :
    c ∈ (stripDimensions fuel element dimensions).1 ↔ c ∈ element := by
  induction fuel generalizing element dimensions with
  | zero => rfl
  | succ fuel ih =>
    rw [stripDimensions]
    split
    · next stripped hstripped =>
      rw [ih, Text.mem_trimEnd hspace, Text.eq_append_of_stripSuffix hstripped]
      simp [hopen, hclose]
    · rfl

theorem le_stripDimensions (fuel : Nat) (element : List Char) (dimensions : Nat) :
    dimensions ≤ (stripDimensions fuel element dimensions).2 := by
  induction fuel generalizing element dimensions with
  | zero => exact Nat.le_refl dimensions
  | succ fuel ih =>
    rw [stripDimensions]
    split
    · exact Nat.le_of_succ_le (ih _ (dimensions + 1))
    · exact Nat.le_refl dimensions

/-- Where no dimension is found, nothing was taken off. -/
theorem eq_of_stripDimensions {fuel : Nat} {element rest : List Char}
    (h : stripDimensions fuel element 0 = (rest, 0)) : element = rest := by
  obtain _ | fuel := fuel
  · exact congrArg Prod.fst h
  rw [stripDimensions] at h
  split at h
  · next stripped _ =>
    have := le_stripDimensions fuel (Text.trimEnd stripped) 1
    rw [h] at this
    cases this
  · exact congrArg Prod.fst h

/-- What the keyword of a primitive type and the suffixes after it give. -/
theorem primitive_of_keyword {name keyword : String} {element : List Char} {dimensions : Nat}
    {primitive ty : JavaType} (hmem : ';' ∈ element ↔ ';' ∈ name.toList)
    (helement : String.ofList element = keyword) (hkeyword : ';' ∉ keyword.toList)
    (h : Except.ok (ε := Error θ) (addDimensions dimensions primitive) = .ok ty)
    (hprimitive : primitive.IsField) (hvoid : primitive ≠ .void) :
    ty ≠ .void ∧ (ty.IsField ↔ ';' ∉ name.toList) := by
  cases h
  refine ⟨addDimensions_ne_void hvoid, iff_of_true (isField_addDimensions_iff.2 hprimitive) ?_⟩
  rwa [← hmem, ← String.toList_ofList (l := element), helement]

/-- A printed name is that of `void`, or gives a type with the class name that is left of it. -/
theorem fromPrettyName_eq_ok {name : String} {ty : JavaType}
    (h : fromPrettyName (θ := θ) name = .ok ty) :
    ty = .void ∧ Text.trim name.toList = ['v', 'o', 'i', 'd'] ∨
      ty ≠ .void ∧ (ty.IsField ↔ ';' ∉ name.toList) := by
  have hmem := mem_stripDimensions (c := ';') (by decide) (by decide) (by decide)
    (Text.trim name.toList).length (Text.trim name.toList) 0
  rw [Text.mem_trim (by decide)] at hmem
  rw [fromPrettyName] at h
  obtain ⟨element, dimensions, hstrip⟩ : ∃ element dimensions, stripDimensions
      (Text.trim name.toList).length (Text.trim name.toList) 0 = (element, dimensions) :=
    ⟨_, _, rfl⟩
  rw [hstrip] at hmem
  simp only [hstrip] at h
  split at h
  case h_9 helement =>
    left
    split at h
    · next hdimensions =>
      subst hdimensions
      refine ⟨(Except.ok.inj h).symm, ?_⟩
      rw [eq_of_stripDimensions hstrip, ← String.toList_ofList (l := element), helement]
      rfl
    · cases h
  case h_10 => cases h
  case h_11 hempty =>
    right
    cases h
    refine ⟨addDimensions_ne_void JavaType.noConfusion, ?_⟩
    rw [isField_addDimensions_iff, isField_object_iff, Ne, Text.replace_eq_nil_iff,
      Text.mem_replace (by decide) (by decide), hmem, and_iff_right]
    rintro rfl
    exact hempty rfl
  all_goals
    next helement =>
      exact .inr (primitive_of_keyword hmem helement (by decide) h trivial JavaType.noConfusion)

/-- A type that is accepted comes back from its own descriptor exactly where the name has no `;` in
it, or is taken for a descriptor. -/
theorem fromName_reparses {name : String} {ty : JavaType} (h : fromName (θ := θ) name = .ok ty) :
    JavaType.parse (θ := θ) ty.descriptor = .ok ty ↔
      ';' ∉ name.toList ∨ looksLikeDescriptor name = true := by
  rw [parse_descriptor_iff]
  rw [fromName] at h
  split at h
  · next parsed hparsed =>
    obtain ⟨-, rfl⟩ := rejectVoidArgumentType_eq_ok_iff.1 h
    refine iff_of_true ?_ (.inr (looksLikeDescriptor_of_parse hparsed))
    exact isField_normalizeObjectType (parse_eq_ok_iff.1 hparsed).1
  · split at h
    · cases h
    · next hlooks =>
      rw [or_iff_left hlooks]
      split at h
      · next pretty hpretty =>
        obtain ⟨hvoid, rfl⟩ := rejectVoidArgumentType_eq_ok_iff.1 h
        rcases fromPrettyName_eq_ok hpretty with ⟨rfl, -⟩ | ⟨-, hfield⟩
        · exact absurd rfl hvoid
        · exact hfield
      · cases h

end JavaType

/-! ## Signatures of printed names -/

namespace MethodSignature

/-- The accepted signature, type by type. -/
theorem fromPrettyTypes_eq_ok {returnType arguments : String} {signature : MethodSignature}
    (h : fromPrettyTypes (θ := θ) returnType arguments = .ok signature) :
    (Text.trim arguments.toList = [] ∧ signature.arguments = [] ∨
      List.Forall₂ (fun argument ty ↦
        JavaType.fromPrettyName (θ := θ) (String.ofList (Text.trim argument)) = .ok ty)
        (arguments.toList.splitOn ',') signature.arguments) ∧
      JavaType.fromPrettyName (θ := θ) (String.ofList (Text.trim returnType.toList)) =
        .ok signature.returnType := by
  rw [fromPrettyTypes] at h
  split at h
  · next hempty =>
    obtain ⟨tys, htys, h⟩ := Fallible.bind_eq_ok.1 h
    obtain ⟨ty, hty, h⟩ := Fallible.bind_eq_ok.1 h
    cases htys
    cases h
    exact ⟨.inl ⟨hempty, rfl⟩, hty⟩
  · obtain ⟨tys, htys, h⟩ := Fallible.bind_eq_ok.1 h
    obtain ⟨ty, hty, h⟩ := Fallible.bind_eq_ok.1 h
    cases h
    exact ⟨.inr (Fallible.forall₂_of_mapM_eq_ok htys), hty⟩

/-- What an argument of a printed list has to be. -/
def IsArgumentName (argument : List Char) : Prop :=
  ';' ∉ argument ∧ Text.trim argument ≠ ['v', 'o', 'i', 'd']

theorem isField_of_fromPrettyName_iff {argument : List Char} {ty : JavaType}
    (h : JavaType.fromPrettyName (θ := θ) (String.ofList (Text.trim argument)) = .ok ty) :
    ty.IsField ↔ IsArgumentName argument := by
  have hmem : ';' ∈ Text.trim argument ↔ ';' ∈ argument := Text.mem_trim (by decide)
  rcases JavaType.fromPrettyName_eq_ok h with ⟨rfl, hname⟩ | ⟨hvoid, hfield⟩
  · rw [String.toList_ofList, Text.trim_trim] at hname
    exact iff_of_false id fun hargument ↦ hargument.2 hname
  · rw [hfield, String.toList_ofList, hmem, IsArgumentName, and_iff_left]
    intro hname
    rw [hname] at h
    exact hvoid (Except.ok.inj h).symm

theorem forall_isField_iff {pieces : List (List Char)} {tys : List JavaType}
    (h : List.Forall₂ (fun argument ty ↦
      JavaType.fromPrettyName (θ := θ) (String.ofList (Text.trim argument)) = .ok ty) pieces tys) :
    (∀ ty ∈ tys, ty.IsField) ↔ ∀ piece ∈ pieces, IsArgumentName piece := by
  induction h with
  | nil => exact iff_of_true (List.forall_mem_nil _) (List.forall_mem_nil _)
  | cons hty _ ih => rw [List.forall_mem_cons, List.forall_mem_cons, ih,
      isField_of_fromPrettyName_iff hty]

/-- A blank list of arguments is one piece, which names nothing. -/
theorem isArgumentName_of_blank {arguments : List Char} (h : Text.trim arguments = []) :
    ∀ piece ∈ arguments.splitOn ',', IsArgumentName piece := by
  have hmem : ∀ c, Text.isWhitespace c = false → c ∉ arguments := by
    intro c hc hmem
    rw [← Text.mem_trim hc, h] at hmem
    exact List.not_mem_nil hmem
  rw [List.splitOn_eq_singleton (hmem ',' (by decide)), List.forall_mem_singleton]
  refine ⟨hmem ';' (by decide), ?_⟩
  rw [h]
  exact (List.cons_ne_nil _ _).symm

theorem isField_returnType_iff {returnType : List Char} {ty : JavaType}
    (h : JavaType.fromPrettyName (θ := θ) (String.ofList (Text.trim returnType)) = .ok ty) :
    ty = .void ∨ ty.IsField ↔ ';' ∉ returnType := by
  have hmem : ';' ∈ Text.trim returnType ↔ ';' ∈ returnType := Text.mem_trim (by decide)
  rcases JavaType.fromPrettyName_eq_ok h with ⟨rfl, hname⟩ | ⟨hvoid, hfield⟩
  · rw [String.toList_ofList, Text.trim_trim] at hname
    rw [← hmem, hname]
    exact iff_of_true (.inl rfl) (by decide)
  · rw [or_iff_right hvoid, hfield, String.toList_ofList, hmem]

theorem parse_descriptor_iff {signature : MethodSignature} :
    parse (θ := θ) signature.descriptor = .ok signature ↔ signature.WellFormed := by
  rw [parse_eq_ok_iff, and_iff_left rfl]

/-- A signature that is accepted comes back from its own descriptor exactly where there is no `;` in
the names, and no argument is `void`. -/
theorem fromPrettyTypes_reparses {returnType arguments : String} {signature : MethodSignature}
    (h : fromPrettyTypes (θ := θ) returnType arguments = .ok signature) :
    parse (θ := θ) signature.descriptor = .ok signature ↔
      ';' ∉ returnType.toList ∧ ';' ∉ arguments.toList ∧
        ∀ argument ∈ arguments.toList.splitOn ',', Text.trim argument ≠ ['v', 'o', 'i', 'd'] := by
  obtain ⟨harguments, hreturn⟩ := fromPrettyTypes_eq_ok h
  have hpieces : (∀ ty ∈ signature.arguments, ty.IsField) ↔
      ∀ piece ∈ arguments.toList.splitOn ',', IsArgumentName piece := by
    rcases harguments with ⟨hblank, hnil⟩ | harguments
    · rw [hnil]
      exact iff_of_true (List.forall_mem_nil _) (isArgumentName_of_blank hblank)
    · exact forall_isField_iff harguments
  have hsemicolon : ';' ∉ arguments.toList ↔ ∀ piece ∈ arguments.toList.splitOn ',', ';' ∉ piece := by
    have hne : ';' ≠ ',' := by decide
    rw [Text.mem_iff_splitOn hne]
    push Not
    rfl
  rw [parse_descriptor_iff, hsemicolon, ← isField_returnType_iff hreturn, ← forall_and]
  constructor
  · rintro ⟨hfields, hreturn⟩
    exact ⟨hreturn, fun piece ↦ forall_and.1 (hpieces.1 hfields piece)⟩
  · rintro ⟨hreturn, hall⟩
    exact ⟨hpieces.2 fun piece hpiece ↦ ⟨(hall piece).1 hpiece, (hall piece).2 hpiece⟩, hreturn⟩

end MethodSignature

/-- Which of the accepted names give types that their own descriptors parse to. -/
theorem names_reparse_iff :
    (∀ (name : String) (ty : JavaType), JavaType.fromName (θ := θ) name = .ok ty →
      (JavaType.parse (θ := θ) ty.descriptor = .ok ty ∧ ty.IsField ↔
        ';' ∉ name.toList ∨ JavaType.looksLikeDescriptor name = true)) ∧
    ∀ (returnType arguments : String) (signature : MethodSignature),
      MethodSignature.fromPrettyTypes (θ := θ) returnType arguments = .ok signature →
      (MethodSignature.parse (θ := θ) signature.descriptor = .ok signature ∧ signature.WellFormed ↔
        ';' ∉ returnType.toList ∧ ';' ∉ arguments.toList ∧
          ∀ argument ∈ arguments.toList.splitOn ',',
            Text.trim argument ≠ ['v', 'o', 'i', 'd']) := by
  constructor
  · intro name ty h
    rw [and_iff_left_of_imp JavaType.parse_descriptor_iff.1]
    exact JavaType.fromName_reparses h
  · intro returnType arguments signature h
    rw [and_iff_left_of_imp MethodSignature.parse_descriptor_iff.1]
    exact MethodSignature.fromPrettyTypes_reparses h

/-- A class name with a `;` after it, and an argument of type `void`. -/
theorem not_names_reparse :
    (JavaType.fromName (θ := Unit) "foo;" = .ok (.object "foo;") ∧
      JavaType.parse (θ := Unit) (JavaType.object "foo;").descriptor ≠ .ok (.object "foo;")) ∧
    MethodSignature.fromPrettyTypes (θ := Unit) "int" "void" = .ok ⟨[.void], .int⟩ ∧
      MethodSignature.parse (θ := Unit) (MethodSignature.mk [.void] .int).descriptor ≠
        .ok ⟨[.void], .int⟩ := by
  decide +kernel

theorem names_reparse_iff_entry :
    (JavaType.parse (θ := Unit) (JavaType.array (.object "java/util/Map$Entry")).descriptor =
        .ok (.array (.object "java/util/Map$Entry")) ∧
      (JavaType.array (.object "java/util/Map$Entry")).IsField ↔
        ';' ∉ "java.util.Map$Entry []".toList ∨
          JavaType.looksLikeDescriptor "java.util.Map$Entry []" = true) ∧
    (MethodSignature.parse (θ := Unit) (MethodSignature.mk [.int, .array .long] .void).descriptor =
        .ok ⟨[.int, .array .long], .void⟩ ∧
      (MethodSignature.mk [.int, .array .long] .void).WellFormed ↔
        ';' ∉ "void".toList ∧ ';' ∉ "int, long[]".toList ∧
          ∀ argument ∈ "int, long[]".toList.splitOn ',',
            Text.trim argument ≠ ['v', 'o', 'i', 'd']) :=
  ⟨names_reparse_iff.1 "java.util.Map$Entry []" _ (by decide +kernel),
    names_reparse_iff.2 "void" "int, long[]" _ (by decide +kernel)⟩

/-! ## Source names -/

/-- A name that a class file can hold between two dots, without white space. -/
def IsIdentifier (identifier : List Char) : Prop :=
  identifier ≠ [] ∧
    ∀ c ∈ identifier, Text.isWhitespace c = false ∧ c ∉ ['.', ';', '[', ']', '/']

instance (identifier : List Char) : Decidable (IsIdentifier identifier) :=
  @instDecidableAnd _ _ inferInstance (List.decidableBAll _ identifier)

/-- The keywords of the primitive types, without `void`. -/
def primitiveKeywords : List String :=
  ["boolean", "byte", "char", "short", "int", "long", "float", "double"]

/-- The name of a primitive type, or identifiers with dots between them. -/
def IsElementName (element : List Char) : Prop :=
  (∃ keyword ∈ primitiveKeywords, element = keyword.toList) ∨
    element ≠ ['v', 'o', 'i', 'd'] ∧ ∀ identifier ∈ element.splitOn '.', IsIdentifier identifier

/-- A suffix for each dimension of an array. -/
def suffixes (dimensions : Nat) : List Char := (List.replicate dimensions ['[', ']']).flatten

/-- A name as source text writes it. -/
def IsSourceName (name : String) : Prop :=
  ∃ element dimensions, IsElementName element ∧ name.toList = element ++ suffixes dimensions

theorem suffixes_succ (dimensions : Nat) :
    suffixes (dimensions + 1) = suffixes dimensions ++ ['[', ']'] := by
  rw [suffixes, List.replicate_succ', List.flatten_append]
  rfl

theorem primitiveKeywords_spec : ∀ keyword ∈ primitiveKeywords, keyword.toList ≠ [] ∧
    keyword.toList ≠ ['v', 'o', 'i', 'd'] ∧
      ∀ c ∈ keyword.toList, Text.isWhitespace c = false ∧ c ≠ ']' := by
  have hspec : ∀ keyword ∈ primitiveKeywords, keyword.toList ≠ [] ∧
      keyword.toList ≠ ['v', 'o', 'i', 'd'] ∧
        keyword.toList.all (fun c ↦ Text.isWhitespace c = false ∧ c ≠ ']') = true := by
    decide
  intro keyword hkeyword
  obtain ⟨hne, hvoid, hall⟩ := hspec keyword hkeyword
  exact ⟨hne, hvoid, fun c hc ↦ of_decide_eq_true (List.all_eq_true.1 hall c hc)⟩

theorem IsElementName.ne_nil {element : List Char} (h : IsElementName element) : element ≠ [] := by
  rcases h with ⟨keyword, hkeyword, rfl⟩ | ⟨-, h⟩
  · exact (primitiveKeywords_spec keyword hkeyword).1
  · rintro rfl
    exact (h [] (by simp)).1 rfl

theorem IsElementName.ne_void {element : List Char} (h : IsElementName element) :
    element ≠ ['v', 'o', 'i', 'd'] := by
  rcases h with ⟨keyword, hkeyword, rfl⟩ | ⟨h, -⟩
  · exact (primitiveKeywords_spec keyword hkeyword).2.1
  · exact h

theorem IsElementName.char {element : List Char} (h : IsElementName element) {c : Char}
    (hc : c ∈ element) : Text.isWhitespace c = false ∧ c ≠ ']' := by
  rcases h with ⟨keyword, hkeyword, rfl⟩ | ⟨-, h⟩
  · exact (primitiveKeywords_spec keyword hkeyword).2.2 c hc
  · by_cases hdot : c = '.'
    · subst hdot
      decide
    · obtain ⟨identifier, hidentifier, hc⟩ := (Text.mem_iff_splitOn hdot).1 hc
      obtain ⟨hspace, hnot⟩ := (h identifier hidentifier).2 c hc
      refine ⟨hspace, ?_⟩
      rintro rfl
      exact hnot (by simp)

theorem mem_suffixes {c : Char} {dimensions : Nat} (h : c ∈ suffixes dimensions) :
    c = '[' ∨ c = ']' := by
  obtain ⟨suffix, hsuffix, hc⟩ := List.mem_flatten.1 h
  rw [List.eq_of_mem_replicate hsuffix] at hc
  simpa using hc

theorem isWhitespace_append_suffixes {element : List Char} (h : IsElementName element)
    (dimensions : Nat) : ∀ c ∈ element ++ suffixes dimensions, Text.isWhitespace c = false := by
  intro c hc
  rcases List.mem_append.1 hc with hc | hc
  · exact (h.char hc).1
  · rcases mem_suffixes hc with rfl | rfl <;> decide

namespace JavaType

/-- Each suffix is a dimension. -/
theorem stripDimensions_suffixes {element : List Char}
    (hnone : Text.stripSuffix ['[', ']'] element = none)
    (htrim : ∀ k, Text.trimEnd (element ++ suffixes k) = element ++ suffixes k) {fuel k : Nat}
    (hfuel : k ≤ fuel) (dimensions : Nat) :
    stripDimensions fuel (element ++ suffixes k) dimensions = (element, dimensions + k) := by
  induction k generalizing fuel dimensions with
  | zero =>
    rw [show element ++ suffixes 0 = element from List.append_nil element]
    cases fuel with
    | zero => rfl
    | succ fuel => rw [stripDimensions, hnone]; rfl
  | succ k ih =>
    obtain _ | fuel := fuel
    · cases hfuel
    rw [stripDimensions, suffixes_succ, ← List.append_assoc, Text.stripSuffix_append]
    simp only [htrim]
    rw [ih (Nat.le_of_succ_le_succ hfuel), Nat.add_assoc, Nat.add_comm 1]

theorem length_suffixes (dimensions : Nat) : (suffixes dimensions).length = dimensions * 2 := by
  simp [suffixes]

theorem le_length_append_suffixes (element : List Char) (dimensions : Nat) :
    dimensions ≤ (element ++ suffixes dimensions).length := by
  rw [List.length_append, length_suffixes]
  omega

theorem stripDimensions_append {element : List Char} (h : IsElementName element) {fuel k : Nat}
    (hfuel : k ≤ fuel) (dimensions : Nat) :
    stripDimensions fuel (element ++ suffixes k) dimensions = (element, dimensions + k) := by
  refine stripDimensions_suffixes ?_ ?_ hfuel dimensions
  · rw [Option.eq_none_iff_forall_ne_some]
    intro stripped hstripped
    have hmem : ']' ∈ element := by
      rw [Text.eq_append_of_stripSuffix hstripped]
      simp
    exact (h.char hmem).2 rfl
  · intro k
    exact Text.trimEnd_eq_self (isWhitespace_append_suffixes h k)

theorem fromPrettyName_sourceName {name : String} (h : IsSourceName name) :
    ∃ ty, fromPrettyName (θ := θ) name = .ok ty ∧ ty ≠ .void := by
  obtain ⟨element, dimensions, helement, hname⟩ := h
  have htrim := Text.trim_eq_self (isWhitespace_append_suffixes helement dimensions)
  have hstrip := stripDimensions_append helement (le_length_append_suffixes element dimensions) 0
  simp only [fromPrettyName, hname, htrim, hstrip]
  split
  case h_9 hvoid => exact absurd (congrArg String.toList hvoid) (by simpa using helement.ne_void)
  case h_10 hempty => exact absurd (congrArg String.toList hempty) (by simpa using helement.ne_nil)
  all_goals exact ⟨_, rfl, addDimensions_ne_void JavaType.noConfusion⟩

/-- A source name that is no descriptor is accepted, with the meaning that the parser of printed
names gives it, exactly where it does not start with the letter of a descriptor. -/
theorem fromName_sourceName_iff {name : String} (hname : IsSourceName name)
    (hdescriptor : ∀ ty, JavaType.parse (θ := θ) name ≠ .ok ty) :
    (∃ ty, fromName (θ := θ) name = .ok ty ∧ fromPrettyName (θ := θ) name = .ok ty) ↔
      looksLikeDescriptor name = false := by
  obtain ⟨pretty, hpretty, hvoid⟩ := fromPrettyName_sourceName (θ := θ) hname
  cases hparse : JavaType.parse (θ := θ) name with
  | ok ty => exact absurd hparse (hdescriptor ty)
  | error descriptorError =>
    cases hlooks : looksLikeDescriptor name with
    | true =>
      refine iff_of_false ?_ Bool.true_eq_false.mp
      rintro ⟨ty, hty, -⟩
      simp [fromName, hparse, hlooks] at hty
    | false =>
      refine iff_of_true ⟨pretty, ?_, hpretty⟩ rfl
      simp only [fromName, hparse, hlooks, hpretty, Bool.false_eq_true, if_false]
      exact rejectVoidArgumentType_eq_ok_iff.2 ⟨hvoid, rfl⟩

end JavaType

/-- A class in a package of its own, and one without a package. -/
theorem not_fromName_sourceName :
    IsSourceName "Foo" ∧ (∀ ty, JavaType.parse (θ := Unit) "Foo" ≠ .ok ty) ∧
      JavaType.fromPrettyName (θ := Unit) "Foo" = .ok (.object "Foo") ∧
      JavaType.fromName (θ := Unit) "Foo" =
        .error (.invalidSignature "Foo" 1 "trailing characters after type descriptor") := by
  refine ⟨⟨['F', 'o', 'o'], 0, ?_, by decide⟩, ?_, by decide +kernel, by decide +kernel⟩
  · exact .inr (by decide +kernel)
  · intro ty h
    have hparse : JavaType.parse (θ := Unit) "Foo" =
        .error (.invalidSignature "Foo" 1 "trailing characters after type descriptor") := by
      decide +kernel
    rw [hparse] at h
    cases h

theorem fromName_sourceName_iff_names :
    (∃ ty, JavaType.fromName (θ := Unit) "java.util.List[]" = .ok ty ∧
        JavaType.fromPrettyName (θ := Unit) "java.util.List[]" = .ok ty) ↔
      JavaType.looksLikeDescriptor "java.util.List[]" = false := by
  refine JavaType.fromName_sourceName_iff ⟨"java.util.List".toList, 1, ?_, by decide⟩ ?_
  · exact .inr (by decide +kernel)
  · intro ty h
    have hlooks := JavaType.looksLikeDescriptor_of_parse h
    revert hlooks
    decide

end JavaBridge

import JavaBridge.Error
import JavaBridge.Library.Fallible
import JavaBridge.Signature

/-!
# Parsing of descriptors

The recursive descent over a JNI descriptor. The source walks the bytes of a `&str`; every byte it
compares is ASCII, so the walk is over characters here, and `offset` counts the bytes.

Main results:

* `MethodSignature.isAbout_of_parse`: every error names the descriptor.
* `MethodSignature.parse_descriptor`: a well-formed signature is parsed back from its descriptor.
* `JavaType.parse_eq_ok_iff`, `MethodSignature.parse_eq_ok_iff`: what is parsed is the descriptor of
  what comes out, and nothing else is accepted.
-/

universe u

namespace JavaBridge

namespace Parser

variable {θ : Type u}

/-- What a parser leaves: the characters still to read and the byte offset they start at. -/
abbrev Rest := List Char × Nat

/-- Reads a class name up to its `;`. The characters of the name read so far come in reverse. -/
def parseObject (descriptor : String) :
    List Char → List Char → Nat → Except (Error θ) (JavaType × Rest)
  | _, [], offset => .error (.invalidSignature descriptor offset "object type is missing ';'")
  | name, c :: rest, offset =>
    if c = ';' then
      if name = [] then
        .error (.invalidSignature descriptor (offset + 1) "object type is missing a class name")
      else .ok (.object (String.ofList name.reverse), rest, offset + 1)
    else parseObject descriptor (c :: name) rest (offset + c.utf8Size)

def parseType (descriptor : String) :
    Bool → List Char → Nat → Except (Error θ) (JavaType × Rest)
  | _, [], offset => .error (.invalidSignature descriptor offset "expected type descriptor")
  | allowVoid, c :: rest, offset =>
    match c with
    | 'Z' => .ok (.boolean, rest, offset + 1)
    | 'B' => .ok (.byte, rest, offset + 1)
    | 'C' => .ok (.char, rest, offset + 1)
    | 'S' => .ok (.short, rest, offset + 1)
    | 'I' => .ok (.int, rest, offset + 1)
    | 'J' => .ok (.long, rest, offset + 1)
    | 'F' => .ok (.float, rest, offset + 1)
    | 'D' => .ok (.double, rest, offset + 1)
    | 'V' =>
      if allowVoid then .ok (.void, rest, offset + 1)
      else .error (.invalidSignature descriptor (offset + 1) "void is not valid in this position")
    | 'L' => parseObject descriptor [] rest (offset + 1)
    | '[' =>
      match parseType descriptor false rest (offset + 1) with
      | .error e => .error e
      | .ok (.void, _, offset) =>
        .error (.invalidSignature descriptor offset "array element cannot be void")
      | .ok (element, rest) => .ok (.array element, rest)
    | _ => .error (.invalidSignature descriptor (offset + 1) "unknown type descriptor")

/-- The argument loop of `MethodSignature::parse`. Every argument takes a character at least, so
that the length of the text is fuel enough. -/
def parseArguments (descriptor : String) :
    Nat → List JavaType → List Char → Nat → Except (Error θ) (List JavaType × Rest)
  | 0, _, _, offset | _, _, [], offset =>
    .error (.invalidSignature descriptor offset "method descriptor is missing ')'")
  | fuel + 1, arguments, c :: rest, offset =>
    if c = ')' then .ok (arguments, rest, offset + 1)
    else
      match parseType descriptor false (c :: rest) offset with
      | .error e => .error e
      | .ok (argument, rest, offset) =>
        parseArguments descriptor fuel (arguments ++ [argument]) rest offset

end Parser

/-- Parses one JNI type descriptor. -/
def JavaType.parse {θ : Type u} (descriptor : String) : Except (Error θ) JavaType := do
  let (ty, rest, offset) ← Parser.parseType descriptor false descriptor.toList 0
  if rest = [] then .ok ty
  else .error (.invalidSignature descriptor offset "trailing characters after type descriptor")

namespace MethodSignature

open JavaBridge.Parser

variable {θ : Type u}

/-- Parses a JNI method descriptor such as `(Ljava/lang/String;)I`. -/
def parse (descriptor : String) : Except (Error θ) MethodSignature :=
  match descriptor.toList with
  | '(' :: rest => do
    let (arguments, rest, offset) ← parseArguments descriptor rest.length [] rest 1
    let (returnType, rest, offset) ← parseType descriptor true rest offset
    if rest = [] then .ok ⟨arguments, returnType⟩
    else .error (.invalidSignature descriptor offset "trailing characters after method descriptor")
  | [] => .error (.invalidSignature descriptor 0 "unexpected method descriptor character")
  | _ :: _ => .error (.invalidSignature descriptor 1 "unexpected method descriptor character")

/-- This method signature as a JNI descriptor. -/
def descriptor (signature : MethodSignature) : String :=
  "(" ++ String.join (signature.arguments.map JavaType.descriptor) ++ ")" ++
    signature.returnType.descriptor

end MethodSignature

/-! ## Errors -/

/-- The error names the descriptor. -/
def Error.IsAbout {θ : Type u} (descriptor : String) (e : Error θ) : Prop :=
  ∃ offset message, e = .invalidSignature descriptor offset message

namespace Parser

variable {θ : Type u} {descriptor : String} {e : Error θ}

theorem isAbout_of_parseObject {name rest : List Char} {offset : Nat}
    (h : parseObject descriptor name rest offset = .error e) : e.IsAbout descriptor := by
  induction rest generalizing name offset with
  | nil => exact ⟨_, _, (Except.error.inj h).symm⟩
  | cons c rest ih =>
    rw [parseObject] at h
    split at h
    · split at h
      · exact ⟨_, _, (Except.error.inj h).symm⟩
      · contradiction
    · exact ih h

theorem isAbout_of_parseType {allowVoid : Bool} {rest : List Char} {offset : Nat}
    (h : parseType descriptor allowVoid rest offset = .error e) : e.IsAbout descriptor := by
  fun_induction parseType descriptor allowVoid rest offset with
  | case12 => exact isAbout_of_parseObject h
  | case13 _ _ _ _ helement ih => exact ih (helement.trans h)
  | _ => first | contradiction | exact ⟨_, _, (Except.error.inj h).symm⟩

theorem isAbout_of_parseArguments {fuel : Nat} {arguments : List JavaType} {rest : List Char}
    {offset : Nat} (h : parseArguments descriptor fuel arguments rest offset = .error e) :
    e.IsAbout descriptor := by
  fun_induction parseArguments descriptor fuel arguments rest offset with
  | case1 => exact ⟨_, _, (Except.error.inj h).symm⟩
  | case2 => exact ⟨_, _, (Except.error.inj h).symm⟩
  | case3 => contradiction
  | case4 _ _ _ _ _ _ _ htype =>
    obtain rfl := Except.error.inj h
    exact isAbout_of_parseType htype
  | case5 _ _ _ _ _ _ _ _ _ _ ih => exact ih h

end Parser

theorem MethodSignature.isAbout_of_parse {θ : Type u} {descriptor : String} {e : Error θ}
    (h : MethodSignature.parse descriptor = .error e) : e.IsAbout descriptor := by
  unfold MethodSignature.parse at h
  split at h
  · next rest _ =>
    cases harguments : Parser.parseArguments (θ := θ) descriptor rest.length [] rest 1 with
    | error e' =>
      rw [harguments] at h
      obtain rfl := Except.error.inj h
      exact Parser.isAbout_of_parseArguments harguments
    | ok result =>
      obtain ⟨arguments, rest', offset⟩ := result
      rw [harguments] at h
      cases hreturn : Parser.parseType (θ := θ) descriptor true rest' offset with
      | error e' =>
        simp only [bind, Except.bind, hreturn] at h
        obtain rfl := Except.error.inj h
        exact Parser.isAbout_of_parseType hreturn
      | ok result =>
        simp only [bind, Except.bind, hreturn] at h
        split at h
        · contradiction
        · exact ⟨_, _, (Except.error.inj h).symm⟩
  · exact ⟨_, _, (Except.error.inj h).symm⟩
  · exact ⟨_, _, (Except.error.inj h).symm⟩

/-! ## Round trip -/

/-- The type of a field or an argument, whose class names a descriptor can hold. -/
def JavaType.IsField : JavaType → Prop
  | .void => False
  | .object name => name ≠ "" ∧ ';' ∉ name.toList
  | .array element => element.IsField
  | _ => True

/-- A signature whose descriptor is one. -/
structure MethodSignature.WellFormed (signature : MethodSignature) : Prop where
  arguments : ∀ ty ∈ signature.arguments, ty.IsField
  returnType : signature.returnType = .void ∨ signature.returnType.IsField

namespace Parser

variable {θ : Type u}

theorem parseObject_append (descriptor : String) {name : List Char} (hname : ';' ∉ name)
    (before : List Char) (hne : before ++ name ≠ []) (rest : List Char) (offset : Nat) :
    ∃ offset', parseObject (θ := θ) descriptor before (name ++ ';' :: rest) offset =
      .ok (.object (String.ofList (before.reverse ++ name)), rest, offset') := by
  induction name generalizing before offset with
  | nil =>
    have hbefore : before ≠ [] := by simpa using hne
    exact ⟨offset + 1, by simp [parseObject, hbefore]⟩
  | cons c name ih =>
    have hc : c ≠ ';' := fun h ↦ hname (h ▸ List.mem_cons_self)
    obtain ⟨offset', h⟩ := ih (fun h ↦ hname (List.mem_cons_of_mem c h)) (c :: before) (by simp)
      (offset + c.utf8Size)
    refine ⟨offset', ?_⟩
    rw [List.cons_append, parseObject, if_neg hc, h]
    simp

theorem parseType_descriptor (descriptor : String) {ty : JavaType} (hty : ty.IsField)
    (allowVoid : Bool) (rest : List Char) (offset : Nat) :
    ∃ offset', parseType (θ := θ) descriptor allowVoid (ty.descriptor.toList ++ rest) offset =
      .ok (ty, rest, offset') := by
  induction ty generalizing allowVoid offset with
  | object name =>
    obtain ⟨offset', h⟩ := parseObject_append (θ := θ) descriptor hty.2 [] (by simpa using hty.1)
      rest (offset + 1)
    refine ⟨offset', ?_⟩
    have hlist : (JavaType.object name).descriptor.toList ++ rest =
        'L' :: (name.toList ++ ';' :: rest) := by
      simp [JavaType.descriptor]
    rw [hlist]
    simpa [parseType] using h
  | array element ih =>
    obtain ⟨offset', h⟩ := ih hty false (offset + 1)
    refine ⟨offset', ?_⟩
    have hlist : (JavaType.array element).descriptor.toList ++ rest =
        '[' :: (element.descriptor.toList ++ rest) := by
      simp [JavaType.descriptor]
    rw [hlist]
    simp only [parseType, h]
    cases element <;> first | rfl | exact hty.elim
  | void => exact hty.elim
  | _ => exact ⟨offset + 1, rfl⟩

/-- A descriptor does not start with `)`. -/
theorem exists_cons_descriptor (ty : JavaType) :
    ∃ c cs, ty.descriptor.toList = c :: cs ∧ c ≠ ')' := by
  cases ty <;> simp [JavaType.descriptor]

theorem parseArguments_descriptors (descriptor : String) {arguments : List JavaType}
    (h : ∀ ty ∈ arguments, ty.IsField) (before : List JavaType) (rest : List Char)
    (fuel offset : Nat) (hfuel : arguments.length < fuel) :
    ∃ offset', parseArguments (θ := θ) descriptor fuel before
        (arguments.flatMap (fun ty ↦ ty.descriptor.toList) ++ ')' :: rest) offset =
      .ok (before ++ arguments, rest, offset') := by
  induction arguments generalizing before fuel offset with
  | nil =>
    obtain _ | fuel := fuel
    · cases hfuel
    · exact ⟨offset + 1, by simp [parseArguments]⟩
  | cons ty arguments ih =>
    obtain _ | fuel := fuel
    · cases hfuel
    obtain ⟨c, cs, hcs, hc⟩ := exists_cons_descriptor ty
    obtain ⟨middle, hmiddle⟩ := parseType_descriptor (θ := θ) descriptor
      (h ty List.mem_cons_self) false
      (arguments.flatMap (fun ty ↦ ty.descriptor.toList) ++ ')' :: rest) offset
    obtain ⟨offset', hrest⟩ := ih (fun t ht ↦ h t (List.mem_cons_of_mem ty ht)) (before ++ [ty])
      fuel middle (Nat.lt_of_succ_lt_succ hfuel)
    refine ⟨offset', ?_⟩
    rw [List.flatMap_cons, List.append_assoc]
    rw [hcs, List.cons_append] at hmiddle ⊢
    rw [parseArguments, if_neg hc, hmiddle]
    simpa using hrest

end Parser

namespace MethodSignature

open JavaBridge.Parser

variable {θ : Type u}

theorem length_le_flatMap_descriptor (arguments : List JavaType) :
    arguments.length ≤ (arguments.flatMap fun ty ↦ ty.descriptor.toList).length := by
  induction arguments with
  | nil => exact Nat.le_refl 0
  | cons ty arguments ih =>
    obtain ⟨c, cs, hcs, -⟩ := exists_cons_descriptor ty
    rw [List.flatMap_cons, hcs, List.length_append, List.length_cons, List.length_cons]
    omega

theorem toList_descriptor (signature : MethodSignature) :
    signature.descriptor.toList = '(' :: (signature.arguments.flatMap
      (fun ty ↦ ty.descriptor.toList) ++ ')' :: signature.returnType.descriptor.toList) := by
  simp [descriptor, List.flatMap_map]

/-- A well-formed signature is parsed back from its descriptor. -/
theorem parse_descriptor {signature : MethodSignature} (h : signature.WellFormed) :
    parse (θ := θ) signature.descriptor = .ok signature := by
  obtain ⟨arguments, returnType⟩ := signature
  obtain ⟨offset, harguments⟩ := parseArguments_descriptors (θ := θ)
    (MethodSignature.mk arguments returnType).descriptor h.arguments []
    returnType.descriptor.toList _ 1
    (show arguments.length < (arguments.flatMap (fun ty ↦ ty.descriptor.toList) ++
        ')' :: returnType.descriptor.toList).length by
      have := length_le_flatMap_descriptor arguments
      rw [List.length_append, List.length_cons]
      omega)
  have hreturn : ∃ offset', parseType (θ := θ) (MethodSignature.mk arguments returnType).descriptor
      true returnType.descriptor.toList offset = .ok (returnType, [], offset') := by
    rcases h.returnType with hvoid | hfield
    · exact ⟨offset + 1, by rw [show returnType = .void from hvoid]; rfl⟩
    · simpa using parseType_descriptor (θ := θ) (MethodSignature.mk arguments returnType).descriptor
        hfield true [] offset
  obtain ⟨offset', hreturn⟩ := hreturn
  rw [parse, toList_descriptor]
  simp only [harguments, hreturn, bind, Except.bind, List.nil_append, if_pos]

end MethodSignature

/-! ## What is accepted -/

namespace Parser

variable {θ : Type u} {descriptor : String}

theorem parseObject_eq_ok {name rest rest' : List Char} {offset offset' : Nat} {ty : JavaType}
    (h : parseObject (θ := θ) descriptor name rest offset = .ok (ty, rest', offset')) :
    ∃ more, ';' ∉ more ∧ name.reverse ++ more ≠ [] ∧ rest = more ++ ';' :: rest' ∧
      ty = .object (String.ofList (name.reverse ++ more)) := by
  induction rest generalizing name offset with
  | nil => cases h
  | cons c rest ih =>
    rw [parseObject] at h
    split at h
    · next hc =>
      split at h
      · cases h
      · next hname =>
        cases h
        refine ⟨[], List.not_mem_nil, ?_, by rw [hc]; rfl, by rw [List.append_nil]⟩
        simpa using hname
    · next hc =>
      obtain ⟨more, hmore, hne, rfl, rfl⟩ := ih h
      refine ⟨c :: more, ?_, ?_, rfl, ?_⟩
      · rintro (_ | hmem)
        · exact hc rfl
        · next hmem => exact hmore hmem
      · simp
      · simp

/-- What `parseType` takes off the text is the descriptor of the type it returns. -/
theorem parseType_eq_ok {allowVoid : Bool} {rest rest' : List Char} {offset offset' : Nat}
    {ty : JavaType}
    (h : parseType (θ := θ) descriptor allowVoid rest offset = .ok (ty, rest', offset')) :
    rest = ty.descriptor.toList ++ rest' ∧ (ty.IsField ∨ allowVoid = true ∧ ty = .void) := by
  fun_induction parseType (θ := θ) descriptor allowVoid rest offset generalizing ty rest' offset' with
  | case12 =>
    obtain ⟨more, hmore, hne, rfl, rfl⟩ := parseObject_eq_ok h
    refine ⟨by simp [JavaType.descriptor], .inl ⟨?_, ?_⟩⟩
    · simpa using hne
    · simpa using hmore
  | case15 _ _ _ _ element _ helement ih =>
    cases h
    obtain ⟨rfl, hfield⟩ := ih helement
    rcases hfield with hfield | ⟨hvoid, -⟩
    · exact ⟨by simp [JavaType.descriptor], .inl hfield⟩
    · cases hvoid
  | case10 =>
    cases h
    exact ⟨rfl, .inr ⟨rfl, rfl⟩⟩
  | _ =>
    cases h
    try exact ⟨rfl, .inl trivial⟩

theorem length_lt_of_parseType {allowVoid : Bool} {rest rest' : List Char} {offset offset' : Nat}
    {ty : JavaType}
    (h : parseType (θ := θ) descriptor allowVoid rest offset = .ok (ty, rest', offset')) :
    rest'.length < rest.length := by
  obtain ⟨rfl, -⟩ := parseType_eq_ok h
  obtain ⟨c, cs, hcs, -⟩ := exists_cons_descriptor ty
  rw [hcs, List.length_append, List.length_cons]
  omega

theorem parseArguments_eq_ok {fuel : Nat} {before arguments : List JavaType}
    {rest rest' : List Char} {offset offset' : Nat}
    (h : parseArguments (θ := θ) descriptor fuel before rest offset =
      .ok (arguments, rest', offset')) :
    ∃ more, (∀ ty ∈ more, ty.IsField) ∧ arguments = before ++ more ∧
      rest = more.flatMap (fun ty ↦ ty.descriptor.toList) ++ ')' :: rest' := by
  fun_induction parseArguments (θ := θ) descriptor fuel before rest offset with
  | case1 => cases h
  | case2 => cases h
  | case3 before rest offset =>
    cases h
    exact ⟨[], nofun, (List.append_nil _).symm, rfl⟩
  | case4 => cases h
  | case5 _ _ _ _ _ _ argument _ _ hargument ih =>
    obtain ⟨more, hmore, rfl, rfl⟩ := ih h
    obtain ⟨hrest, hfield⟩ := parseType_eq_ok hargument
    have hfield : argument.IsField := hfield.resolve_right nofun
    refine ⟨argument :: more, ?_, by simp, ?_⟩
    · rintro ty (_ | hty)
      · exact hfield
      · next hty => exact hmore ty hty
    · rw [hrest, List.flatMap_cons, List.append_assoc]

end Parser

theorem JavaType.parse_eq_ok_iff {θ : Type u} {descriptor : String} {ty : JavaType} :
    JavaType.parse (θ := θ) descriptor = .ok ty ↔ ty.IsField ∧ descriptor = ty.descriptor := by
  constructor
  · intro h
    obtain ⟨⟨ty', rest, offset⟩, htype, h⟩ := Fallible.bind_eq_ok.1 h
    obtain ⟨hrest, hfield⟩ := Parser.parseType_eq_ok htype
    dsimp only at h
    split at h
    · next hnil =>
      cases h
      subst hnil
      refine ⟨hfield.resolve_right nofun, String.toList_inj.1 ?_⟩
      rw [hrest, List.append_nil]
    · cases h
  · rintro ⟨hfield, rfl⟩
    obtain ⟨offset, htype⟩ := Parser.parseType_descriptor (θ := θ) ty.descriptor hfield false [] 0
    rw [List.append_nil] at htype
    simp only [JavaType.parse, htype, bind, Except.bind, if_pos]

namespace MethodSignature

open JavaBridge.Parser

variable {θ : Type u}

/-- What is accepted is the descriptor of a well-formed signature. -/
theorem parse_eq_ok_iff {s : String} {signature : MethodSignature} :
    parse (θ := θ) s = .ok signature ↔ signature.WellFormed ∧ s = signature.descriptor := by
  constructor
  · intro h
    rw [parse] at h
    split at h
    · next rest hs =>
      obtain ⟨⟨arguments, middle, offset⟩, harguments, h⟩ := Fallible.bind_eq_ok.1 h
      obtain ⟨⟨returnType, rest', offset'⟩, hreturn, h⟩ := Fallible.bind_eq_ok.1 h
      dsimp only at h
      split at h
      · next hnil =>
        cases h
        subst hnil
        obtain ⟨more, hmore, rfl, rfl⟩ := parseArguments_eq_ok harguments
        obtain ⟨rfl, hfield⟩ := parseType_eq_ok hreturn
        refine ⟨⟨hmore, ?_⟩, String.toList_inj.1 ?_⟩
        · rcases hfield with hfield | hvoid
          · exact .inr hfield
          · exact .inl hvoid.2
        · rw [hs, toList_descriptor]
          simp
      · cases h
    · cases h
    · cases h
  · rintro ⟨hformed, rfl⟩
    exact parse_descriptor hformed

end MethodSignature

end JavaBridge

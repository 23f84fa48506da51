import JavaBridge.Descriptor
import JavaBridge.Library.Utf8

/-!
# Parsing of descriptors by bytes

The parser as the source has it: an offset into the bytes of a `&str`, and a class name cut out of
the text by two offsets, a panic where one of them is inside a character.

Main results:

* `Bytes.Parser.agrees_parseType`: by bytes, the parser does what it does by characters.
* `Bytes.JavaType.parse_eq`, `Bytes.MethodSignature.parse_eq`: so do both entry points, which
  therefore never panic.
* `Bytes.lawful_parse`: the grammar they accept, and the round trips.
-/

universe u

namespace JavaBridge.Bytes

namespace Parser

variable {θ : Type u}

/-- What a parser leaves: the bytes still to read and the offset they start at. -/
abbrev Rest := List UInt8 × Nat

/-- Reads a class name that starts at `start` up to its `;`. -/
def parseObject (descriptor : String) (start : Nat) :
    List UInt8 → Nat → Except (Failure θ) (JavaType × Rest)
  | [], offset => .error (.error (.invalidSignature descriptor offset "object type is missing ';'"))
  | byte :: rest, offset =>
    if Char.ofUInt8 byte = ';' then
      match Utf8.slice start offset descriptor.toList with
      | none => .error (.panic "byte index is not a char boundary")
      | some [] =>
        .error (.error
          (.invalidSignature descriptor (offset + 1) "object type is missing a class name"))
      | some name => .ok (.object (String.ofList name), rest, offset + 1)
    else parseObject descriptor start rest (offset + 1)

def parseType (descriptor : String) :
    Bool → List UInt8 → Nat → Except (Failure θ) (JavaType × Rest)
  | _, [], offset => .error (.error (.invalidSignature descriptor offset "expected type descriptor"))
  | allowVoid, byte :: rest, offset =>
    match Char.ofUInt8 byte with
    | 'Z' => .ok (.boolean, rest, offset + 1)
    | 'B' => .ok (.byte, rest, offset + 1)
    | 'C' => .ok (.char, rest, offset + 1)
    | 'S' => .ok (.short, rest, offset + 1)
    | 'I' => .ok (.int, rest, offset + 1)
    | 'J' => .ok (.long, rest, offset + 1)
    | 'F' => .ok (.float, rest, offset + 1)
    | 'D' => .ok (.double, rest, offset + 1)
    | 'V' =>
      if allowVoid then .ok (.void, rest, offset + 1)
      else
        .error (.error
          (.invalidSignature descriptor (offset + 1) "void is not valid in this position"))
    | 'L' => parseObject descriptor (offset + 1) rest (offset + 1)
    | '[' =>
      match parseType descriptor false rest (offset + 1) with
      | .error e => .error e
      | .ok (.void, _, offset) =>
        .error (.error (.invalidSignature descriptor offset "array element cannot be void"))
      | .ok (element, rest) => .ok (.array element, rest)
    | _ => .error (.error (.invalidSignature descriptor (offset + 1) "unknown type descriptor"))

/-- The argument loop of `MethodSignature::parse`, with the number of bytes as fuel. -/
def parseArguments (descriptor : String) :
    Nat → List JavaType → List UInt8 → Nat → Except (Failure θ) (List JavaType × Rest)
  | 0, _, _, offset | _, _, [], offset =>
    .error (.error (.invalidSignature descriptor offset "method descriptor is missing ')'"))
  | fuel + 1, arguments, byte :: rest, offset =>
    if Char.ofUInt8 byte = ')' then .ok (arguments, rest, offset + 1)
    else
      match parseType descriptor false (byte :: rest) offset with
      | .error e => .error e
      | .ok (argument, rest, offset) =>
        parseArguments descriptor fuel (arguments ++ [argument]) rest offset

end Parser

/-- Parses one JNI type descriptor. -/
def JavaType.parse {θ : Type u} (descriptor : String) : Except (Failure θ) JavaType := do
  let (ty, rest, offset) ←
    Parser.parseType descriptor false (Utf8.encode descriptor.toList) 0
  if rest = [] then .ok ty
  else .error (.error
    (.invalidSignature descriptor offset "trailing characters after type descriptor"))

/-- Parses a JNI method descriptor such as `(Ljava/lang/String;)I`. -/
def MethodSignature.parse {θ : Type u} (descriptor : String) :
    Except (Failure θ) MethodSignature :=
  match Utf8.encode descriptor.toList with
  | [] =>
    .error (.error (.invalidSignature descriptor 0 "unexpected method descriptor character"))
  | byte :: rest =>
    if Char.ofUInt8 byte = '(' then do
      let (arguments, rest, offset) ← Parser.parseArguments descriptor rest.length [] rest 1
      let (returnType, rest, offset) ← Parser.parseType descriptor true rest offset
      if rest = [] then .ok ⟨arguments, returnType⟩
      else .error (.error
        (.invalidSignature descriptor offset "trailing characters after method descriptor"))
    else
      .error (.error (.invalidSignature descriptor 1 "unexpected method descriptor character"))

/-! ## Agreement with the parser over characters -/

namespace Parser

variable {θ : Type u} {descriptor : String} {α : Type*}

/-- The same outcome, at the same place of the text. -/
inductive Agrees (descriptor : String) :
    Except (Failure θ) (α × Rest) → Except (Error θ) (α × JavaBridge.Parser.Rest) → Prop
  | error (e : Error θ) : Agrees descriptor (.error (.error e)) (.error e)
  | ok (a : α) {before rest : List Char} {offset : Nat} (htext : descriptor.toList = before ++ rest)
      (hoffset : offset = Utf8.size before) :
      Agrees descriptor (.ok (a, Utf8.encode rest, offset)) (.ok (a, rest, offset))

theorem Agrees.of_error {x : Except (Failure θ) (α × Rest)} {e : Error θ}
    (h : Agrees descriptor x (.error e)) : x = .error (.error e) := by
  cases h with
  | error => rfl

theorem Agrees.of_ok {x : Except (Failure θ) (α × Rest)} {a : α} {rest : List Char} {offset : Nat}
    (h : Agrees descriptor x (.ok (a, rest, offset))) :
    x = .ok (a, Utf8.encode rest, offset) ∧
      ∃ before, descriptor.toList = before ++ rest ∧ offset = Utf8.size before := by
  cases h with
  | ok _ htext hoffset => exact ⟨rfl, _, htext, hoffset⟩

/-- Past one ASCII character. -/
theorem Agrees.ok_succ {c : Char} (hc : Utf8.IsAscii c) (a : α) {before rest : List Char}
    {offset : Nat} (htext : descriptor.toList = before ++ c :: rest)
    (hoffset : offset = Utf8.size before) :
    Agrees (θ := θ) descriptor (.ok (a, Utf8.encode rest, offset + 1))
      (.ok (a, rest, offset + 1)) := by
  have htext' : descriptor.toList = before ++ [c] ++ rest := by simpa using htext
  refine .ok a htext' ?_
  rw [hoffset, Utf8.size_append, Utf8.size_cons, show c.utf8Size = 1 from hc, Utf8.size_nil]

/-- The walk of `parseObject` over bytes that are no `;`. -/
theorem parseObject_skip {start : Nat} {bytes : List UInt8}
    (h : ∀ b ∈ bytes, Char.ofUInt8 b ≠ ';') (rest : List UInt8) (offset : Nat) :
    parseObject (θ := θ) descriptor start (bytes ++ rest) offset =
      parseObject descriptor start rest (offset + bytes.length) := by
  induction bytes generalizing offset with
  | nil => rfl
  | cons b bytes ih =>
    rw [List.cons_append, parseObject, if_neg (h b List.mem_cons_self),
      ih (fun b' hb' ↦ h b' (List.mem_cons_of_mem b hb'))]
    congr 1
    simp only [List.length_cons]
    omega

theorem agrees_parseObject (before name rest : List Char)
    (htext : descriptor.toList = before ++ (name.reverse ++ rest)) :
    Agrees (θ := θ) descriptor
      (parseObject descriptor (Utf8.size before) (Utf8.encode rest)
        (Utf8.size before + Utf8.size name.reverse))
      (JavaBridge.Parser.parseObject descriptor name rest
        (Utf8.size before + Utf8.size name.reverse)) := by
  induction rest generalizing name with
  | nil => exact .error _
  | cons c rest ih =>
    by_cases hc : c = ';'
    · subst hc
      have hslice := Utf8.slice_append before name.reverse (';' :: rest)
      rw [← htext] at hslice
      rw [Utf8.encode_cons_of_ascii (by decide), parseObject, if_pos (by decide), hslice,
        JavaBridge.Parser.parseObject, if_pos rfl]
      by_cases hname : name = []
      · subst hname
        exact .error _
      · obtain ⟨c, cs, hcs⟩ := List.exists_cons_of_ne_nil (List.reverse_ne_nil_iff.2 hname)
        rw [if_neg hname, hcs]
        rw [hcs] at htext
        have htext' : descriptor.toList = before ++ (c :: cs ++ [';']) ++ rest := by
          simpa using htext
        exact .ok _ htext' (by simp [Nat.add_assoc, show ';'.utf8Size = 1 from rfl])
    · have hbytes : ∀ b ∈ String.utf8EncodeChar c, Char.ofUInt8 b ≠ ';' := by
        intro b hb hsemicolon
        have hascii : Utf8.IsAscii (Char.ofUInt8 b) := by rw [hsemicolon]; decide
        exact hc ((Utf8.ofUInt8_eq_of_mem hb hascii).symm.trans hsemicolon)
      rw [Utf8.encode_cons, parseObject_skip hbytes, JavaBridge.Parser.parseObject, if_neg hc]
      have := ih (c :: name) (by simpa using htext)
      simpa [Nat.add_assoc] using this

/-- What a type descriptor can start with. -/
def letters : List Char := ['Z', 'B', 'C', 'S', 'I', 'J', 'F', 'D', 'V', 'L', '[']

theorem isAscii_of_mem_letters {c : Char} (hc : c ∈ letters) : Utf8.IsAscii c := by
  have hall : letters.all (fun c ↦ decide (Utf8.IsAscii c)) = true := rfl
  exact of_decide_eq_true (List.all_eq_true.1 hall c hc)

/-- A byte that no type descriptor starts with. -/
theorem parseType_unknown {c : Char} (hc : c ∉ letters) (allowVoid : Bool)
    (rest : List Char) (offset : Nat) :
    parseType (θ := θ) descriptor allowVoid (Utf8.encode (c :: rest)) offset =
      .error (.error (.invalidSignature descriptor (offset + 1) "unknown type descriptor")) := by
  obtain ⟨b, bs, hbs, hb⟩ := Utf8.exists_cons_encode c rest
  have hletter : ∀ l ∈ letters, Char.ofUInt8 b ≠ l := by
    rintro l hl rfl
    exact hc (Utf8.ofUInt8_eq_of_mem hb (isAscii_of_mem_letters hl) ▸ hl)
  rw [hbs, parseType]
  split <;> simp_all [letters]

theorem parseType_array (allowVoid : Bool) (rest : List Char) (offset : Nat) :
    parseType (θ := θ) descriptor allowVoid (Utf8.encode ('[' :: rest)) offset =
      match parseType descriptor false (Utf8.encode rest) (offset + 1) with
      | .error e => .error e
      | .ok (.void, _, offset) =>
        .error (.error (.invalidSignature descriptor offset "array element cannot be void"))
      | .ok (element, rest) => .ok (.array element, rest) := by
  rw [Utf8.encode_cons_of_ascii (by decide)]
  rfl

theorem agrees_parseType (allowVoid : Bool) (before : List Char) {rest : List Char} {offset : Nat}
    (htext : descriptor.toList = before ++ rest) (hoffset : offset = Utf8.size before) :
    Agrees (θ := θ) descriptor (parseType descriptor allowVoid (Utf8.encode rest) offset)
      (JavaBridge.Parser.parseType descriptor allowVoid rest offset) := by
  fun_induction JavaBridge.Parser.parseType (θ := θ) descriptor allowVoid rest offset
    generalizing before with
  | case1 => exact .error _
  | case11 _ _ _ hvoid =>
    rw [Utf8.encode_cons_of_ascii (by decide), Bool.eq_false_iff.2 hvoid]
    exact .error _
  | case12 =>
    rw [Utf8.encode_cons_of_ascii (by decide)]
    have := agrees_parseObject (θ := θ) (before ++ ['L']) [] _ (by simpa using htext)
    subst hoffset
    simpa [show 'L'.utf8Size = 1 from rfl] using! this
  | case13 _ rest offset _ helement ih =>
    have ih := ih (before ++ ['[']) (by simpa using htext)
      (by simp [hoffset, show '['.utf8Size = 1 from rfl])
    rw [helement] at ih
    rw [parseType_array, ih.of_error]
    exact .error _
  | case14 _ rest offset _ _ helement ih =>
    have ih := ih (before ++ ['[']) (by simpa using htext)
      (by simp [hoffset, show '['.utf8Size = 1 from rfl])
    rw [helement] at ih
    rw [parseType_array, ih.of_ok.1]
    exact .error _
  | case15 _ rest offset element result hvoid helement ih =>
    have ih := ih (before ++ ['[']) (by simpa using htext)
      (by simp [hoffset, show '['.utf8Size = 1 from rfl])
    rw [helement] at ih
    obtain ⟨helement', before', htext', hoffset'⟩ := ih.of_ok
    have hne : element ≠ .void := fun hv ↦ hvoid _ _ hv rfl
    rw [parseType_array, helement']
    cases element <;> first | exact .ok _ htext' hoffset' | contradiction
  | case16 allowVoid offset c rest =>
    rw [parseType_unknown (by simp_all [letters])]
    exact .error _
  | _ =>
    rw [Utf8.encode_cons_of_ascii (by decide)]
    exact .ok_succ (by decide) _ htext hoffset

theorem ofUInt8_eq_iff {b : UInt8} {c l : Char} (hb : b ∈ String.utf8EncodeChar c)
    (hl : Utf8.IsAscii l) : Char.ofUInt8 b = l ↔ c = l := by
  constructor
  · rintro rfl
    exact (Utf8.ofUInt8_eq_of_mem hb hl).symm
  · rintro rfl
    rw [String.utf8EncodeChar_eq_singleton hl, List.mem_singleton] at hb
    rw [hb, Utf8.ofUInt8_of_ascii hl]

/-- Fuel for every character is fuel enough, on both sides. -/
theorem agrees_parseArguments {fuel fuel' : Nat} (arguments : List JavaType)
    (before : List Char) {rest : List Char} {offset : Nat} (htext : descriptor.toList = before ++ rest)
    (hoffset : offset = Utf8.size before) (hfuel : rest.length ≤ fuel)
    (hfuel' : rest.length ≤ fuel') :
    Agrees (θ := θ) descriptor
      (parseArguments descriptor fuel arguments (Utf8.encode rest) offset)
      (JavaBridge.Parser.parseArguments descriptor fuel' arguments rest offset) := by
  induction fuel' generalizing fuel arguments before rest offset with
  | zero =>
    obtain rfl := List.length_eq_zero_iff.1 (Nat.le_zero.1 hfuel')
    cases fuel <;> exact .error _
  | succ fuel' ih =>
    obtain _ | ⟨c, rest⟩ := rest
    · cases fuel <;> exact .error _
    obtain _ | fuel := fuel
    · cases hfuel
    obtain ⟨b, bs, hbs, hb⟩ := Utf8.exists_cons_encode c rest
    rw [JavaBridge.Parser.parseArguments, hbs, parseArguments]
    by_cases hc : c = ')'
    · have hb' := (ofUInt8_eq_iff hb (l := ')') (by decide)).2 hc
      subst hc
      rw [if_pos rfl, if_pos hb']
      rw [Utf8.encode_cons_of_ascii (by decide)] at hbs
      cases hbs
      exact .ok_succ (by decide) _ htext hoffset
    · rw [if_neg hc, if_neg (fun h ↦ hc ((ofUInt8_eq_iff hb (by decide)).1 h)), ← hbs]
      have htype := agrees_parseType (θ := θ) false before htext hoffset
      cases hresult : JavaBridge.Parser.parseType (θ := θ) descriptor false (c :: rest) offset with
      | error e =>
        rw [hresult] at htype
        rw [htype.of_error]
        exact .error _
      | ok result =>
        obtain ⟨ty, rest', offset'⟩ := result
        rw [hresult] at htype
        obtain ⟨htype, before', htext', hoffset'⟩ := htype.of_ok
        rw [htype]
        have hlt := JavaBridge.Parser.length_lt_of_parseType hresult
        exact ih _ before' htext' hoffset' (by simp at *; omega) (by simp at *; omega)

end Parser

/-! ## The entry points -/

variable {θ : Type u}

theorem JavaType.parse_eq (descriptor : String) :
    JavaType.parse (θ := θ) descriptor =
      (JavaBridge.JavaType.parse descriptor).mapError Failure.error := by
  have htype : Parser.Agrees (θ := θ) descriptor
      (Parser.parseType descriptor false (Utf8.encode descriptor.toList) 0)
      (JavaBridge.Parser.parseType descriptor false descriptor.toList 0) :=
    Parser.agrees_parseType false [] (List.nil_append _).symm rfl
  rw [JavaType.parse, JavaBridge.JavaType.parse]
  cases hresult : JavaBridge.Parser.parseType (θ := θ) descriptor false descriptor.toList 0 with
  | error e =>
    rw [hresult] at htype
    rw [htype.of_error]
    rfl
  | ok result =>
    rw [hresult] at htype
    rw [htype.of_ok.1]
    simp only [bind, Except.bind, Utf8.encode_eq_nil]
    split <;> rfl

theorem MethodSignature.parse_eq (descriptor : String) :
    MethodSignature.parse (θ := θ) descriptor =
      (JavaBridge.MethodSignature.parse descriptor).mapError Failure.error := by
  rw [MethodSignature.parse, JavaBridge.MethodSignature.parse]
  cases htext : descriptor.toList with
  | nil => rfl
  | cons c text =>
    by_cases hc : c = '('
    · subst hc
      rw [Utf8.encode_cons_of_ascii (by decide)]
      have harguments : Parser.Agrees (θ := θ) descriptor
          (Parser.parseArguments descriptor (Utf8.encode text).length [] (Utf8.encode text) 1)
          (JavaBridge.Parser.parseArguments descriptor text.length [] text 1) :=
        Parser.agrees_parseArguments [] ['('] htext rfl (Utf8.length_le_size text) (Nat.le_refl _)
      simp only []
      rw [if_pos (by decide)]
      cases hresult : JavaBridge.Parser.parseArguments (θ := θ) descriptor text.length [] text 1 with
      | error e =>
        rw [hresult] at harguments
        rw [harguments.of_error]
        rfl
      | ok result =>
        obtain ⟨arguments, rest, offset⟩ := result
        rw [hresult] at harguments
        obtain ⟨harguments, before, hbefore, hoffset⟩ := harguments.of_ok
        rw [harguments]
        have hreturn := Parser.agrees_parseType (θ := θ) true before hbefore hoffset
        simp only [bind, Except.bind]
        cases hresult :
            JavaBridge.Parser.parseType (θ := θ) descriptor true rest offset with
        | error e =>
          rw [hresult] at hreturn
          rw [hreturn.of_error]
          rfl
        | ok result =>
          rw [hresult] at hreturn
          rw [hreturn.of_ok.1]
          simp only [Utf8.encode_eq_nil]
          split <;> rfl
    · obtain ⟨b, bs, hbs, hb⟩ := Utf8.exists_cons_encode c text
      rw [hbs]
      simp only []
      rw [if_neg fun h ↦ hc ((Parser.ofUInt8_eq_iff hb (by decide)).1 h)]
      rfl

/-! ## The grammar -/

/-- The descriptors of fields: a letter, a class name between `L` and `;`, or `[` before another. -/
inductive IsFieldDescriptor : String → Prop
  | primitive (letter : Char) (h : letter ∈ ['Z', 'B', 'C', 'S', 'I', 'J', 'F', 'D']) :
    IsFieldDescriptor (String.singleton letter)
  | object {name : String} (hne : name ≠ "") (hname : ';' ∉ name.toList) :
    IsFieldDescriptor ("L" ++ name ++ ";")
  | array {element : String} (h : IsFieldDescriptor element) : IsFieldDescriptor ("[" ++ element)

/-- The descriptors of methods: fields in parentheses, and then a field or `V`. -/
inductive IsMethodDescriptor : String → Prop
  | mk {arguments : List String} {returnType : String}
    (harguments : ∀ argument ∈ arguments, IsFieldDescriptor argument)
    (hreturn : returnType = "V" ∨ IsFieldDescriptor returnType) :
    IsMethodDescriptor ("(" ++ String.join arguments ++ ")" ++ returnType)

theorem isFieldDescriptor_iff {s : String} :
    IsFieldDescriptor s ↔ ∃ ty : JavaBridge.JavaType, ty.IsField ∧ s = ty.descriptor := by
  constructor
  · intro h
    induction h with
    | primitive letter h =>
      simp only [List.mem_cons, List.not_mem_nil, or_false] at h
      rcases h with rfl | rfl | rfl | rfl | rfl | rfl | rfl | rfl
      · exact ⟨.boolean, trivial, rfl⟩
      · exact ⟨.byte, trivial, rfl⟩
      · exact ⟨.char, trivial, rfl⟩
      · exact ⟨.short, trivial, rfl⟩
      · exact ⟨.int, trivial, rfl⟩
      · exact ⟨.long, trivial, rfl⟩
      · exact ⟨.float, trivial, rfl⟩
      · exact ⟨.double, trivial, rfl⟩
    | object hne hname => exact ⟨.object _, ⟨hne, hname⟩, rfl⟩
    | array _ ih =>
      obtain ⟨ty, hty, rfl⟩ := ih
      exact ⟨.array ty, hty, rfl⟩
  · rintro ⟨ty, hty, rfl⟩
    induction ty with
    | void => exact hty.elim
    | object name => exact .object hty.1 hty.2
    | array element ih => exact .array (ih hty)
    | boolean => exact .primitive 'Z' (by decide)
    | byte => exact .primitive 'B' (by decide)
    | char => exact .primitive 'C' (by decide)
    | short => exact .primitive 'S' (by decide)
    | int => exact .primitive 'I' (by decide)
    | long => exact .primitive 'J' (by decide)
    | float => exact .primitive 'F' (by decide)
    | double => exact .primitive 'D' (by decide)

theorem exists_map_descriptor {arguments : List String}
    (h : ∀ argument ∈ arguments, IsFieldDescriptor argument) :
    ∃ types : List JavaBridge.JavaType, (∀ ty ∈ types, ty.IsField) ∧
      arguments = types.map JavaBridge.JavaType.descriptor := by
  induction arguments with
  | nil => exact ⟨[], nofun, rfl⟩
  | cons argument arguments ih =>
    obtain ⟨ty, hty, rfl⟩ := isFieldDescriptor_iff.1 (h argument List.mem_cons_self)
    obtain ⟨types, htypes, rfl⟩ := ih fun a ha ↦ h a (List.mem_cons_of_mem _ ha)
    exact ⟨ty :: types, List.forall_mem_cons.2 ⟨hty, htypes⟩, rfl⟩

theorem isMethodDescriptor_iff {s : String} :
    IsMethodDescriptor s ↔
      ∃ signature : JavaBridge.MethodSignature, signature.WellFormed ∧ s = signature.descriptor := by
  constructor
  · rintro ⟨harguments, hreturn⟩
    obtain ⟨types, htypes, rfl⟩ := exists_map_descriptor harguments
    rcases hreturn with rfl | hreturn
    · exact ⟨⟨types, .void⟩, ⟨htypes, .inl rfl⟩, rfl⟩
    · obtain ⟨ty, hty, rfl⟩ := isFieldDescriptor_iff.1 hreturn
      exact ⟨⟨types, ty⟩, ⟨htypes, .inr hty⟩, rfl⟩
  · rintro ⟨⟨types, returnType⟩, hformed, rfl⟩
    refine .mk (fun argument hargument ↦ ?_) ?_
    · obtain ⟨ty, hty, rfl⟩ := List.mem_map.1 hargument
      exact isFieldDescriptor_iff.2 ⟨ty, hformed.arguments ty hty, rfl⟩
    · rcases hformed.returnType with hvoid | hfield
      · exact .inl (congrArg JavaBridge.JavaType.descriptor hvoid)
      · exact .inr (isFieldDescriptor_iff.2 ⟨returnType, hfield, rfl⟩)

/-- A parser that accepts the texts of a grammar and nothing else, whose results spell what they
were parsed from, and that does not panic. -/
structure LawfulParser {T : Type*} (parse : String → Except (Failure θ) T)
    (descriptor : T → String) (Grammar : String → Prop) : Prop where
  isOk_iff : ∀ s, (∃ t, parse s = .ok t) ↔ Grammar s
  descriptor_of_parse : ∀ s t, parse s = .ok t → descriptor t = s
  parse_descriptor : ∀ s t, parse s = .ok t → parse (descriptor t) = .ok t
  ne_panic : ∀ s message, parse s ≠ .error (.panic message)

/-- A parser is lawful where it parses the descriptors of some values and nothing else. -/
theorem lawfulParser_of_iff {T : Type*} {parse : String → Except (Error θ) T}
    {parse' : String → Except (Failure θ) T} {descriptor : T → String} {Grammar : String → Prop}
    {Valid : T → Prop} (hparse' : ∀ s, parse' s = (parse s).mapError Failure.error)
    (hparse : ∀ s t, parse s = .ok t ↔ Valid t ∧ s = descriptor t)
    (hgrammar : ∀ s, Grammar s ↔ ∃ t, Valid t ∧ s = descriptor t) :
    LawfulParser parse' descriptor Grammar := by
  have hok : ∀ s t, parse' s = .ok t ↔ Valid t ∧ s = descriptor t := by
    intro s t
    rw [hparse', Fallible.mapError_eq_ok, hparse]
  refine ⟨fun s ↦ ?_, fun s t h ↦ ?_, fun s t h ↦ ?_, fun s message h ↦ ?_⟩
  · rw [hgrammar]
    exact exists_congr (hok s)
  · exact ((hok s t).1 h).2.symm
  · exact (hok _ t).2 ⟨((hok s t).1 h).1, rfl⟩
  · rw [hparse', Fallible.mapError_eq_error] at h
    obtain ⟨e, -, he⟩ := h
    cases he

/-- Both parsers accept their grammar and nothing else, and give back what they were given. -/
theorem lawful_parse :
    LawfulParser (JavaType.parse (θ := θ)) JavaBridge.JavaType.descriptor IsFieldDescriptor ∧
      LawfulParser (MethodSignature.parse (θ := θ)) JavaBridge.MethodSignature.descriptor
        IsMethodDescriptor := by
  constructor
  · exact lawfulParser_of_iff JavaType.parse_eq (fun _ _ ↦ JavaBridge.JavaType.parse_eq_ok_iff)
      (fun _ ↦ isFieldDescriptor_iff)
  · exact lawfulParser_of_iff MethodSignature.parse_eq
      (fun _ _ ↦ JavaBridge.MethodSignature.parse_eq_ok_iff) (fun _ ↦ isMethodDescriptor_iff)

example : JavaType.parse (θ := Unit) "[Lé;" = .ok (.array (.object "é")) := by decide +kernel

end JavaBridge.Bytes

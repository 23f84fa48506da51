import JavaBridge.Descriptor

/-!
# Names of types

The names that the runtime prints, and the functions on text that take them apart. Text is a list of
characters, as in the parser of descriptors.
-/

universe u

namespace JavaBridge

/-! ## Text -/

namespace Text

/-- `str::split_once`. -/
def splitOnce (delimiter : Char) : List Char → Option (List Char × List Char)
  | [] => none
  | c :: cs =>
    if c = delimiter then some ([], cs)
    else (splitOnce delimiter cs).map fun (before, after) ↦ (c :: before, after)

/-- `str::rsplit_once`. -/
def rsplitOnce (delimiter : Char) (cs : List Char) : Option (List Char × List Char) :=
  (splitOnce delimiter cs.reverse).map fun (after, before) ↦ (before.reverse, after.reverse)

/-- `str::strip_prefix`. -/
def stripPrefix : List Char → List Char → Option (List Char)
  | [], cs => some cs
  | _ :: _, [] => none
  | p :: ps, c :: cs => if p = c then stripPrefix ps cs else none

/-- `str::strip_suffix`. -/
def stripSuffix (suffix cs : List Char) : Option (List Char) :=
  (stripPrefix suffix.reverse cs.reverse).map List.reverse

/-- The `White_Space` property of Unicode. -/
def isWhitespace (c : Char) : Bool :=
  let v := c.toNat
  0x9 ≤ v ∧ v ≤ 0xd ∨ v = 0x20 ∨ v = 0x85 ∨ v = 0xa0 ∨ v = 0x1680 ∨ 0x2000 ≤ v ∧ v ≤ 0x200a ∨
    v = 0x2028 ∨ v = 0x2029 ∨ v = 0x202f ∨ v = 0x205f ∨ v = 0x3000

/-- `str::trim_end`. -/
def trimEnd (cs : List Char) : List Char := (cs.reverse.dropWhile isWhitespace).reverse

/-- `str::trim`. -/
def trim (cs : List Char) : List Char := trimEnd (cs.dropWhile isWhitespace)

/-- `str::replace`, of one character. -/
def replace (old new : Char) (cs : List Char) : List Char :=
  cs.map fun c ↦ if c = old then new else c

end Text

/-! ## Printed names -/

variable {θ : Type u}

def classNameFromDescriptor (descriptor : String) : String :=
  let cs := descriptor.toList
  if cs.head? = some 'L' ∧ cs.getLast? = some ';' then
    String.ofList (Text.replace '/' '.' (cs.drop 1).dropLast)
  else String.ofList (Text.replace '/' '.' cs)

namespace JavaType

/-- The suffixes `[]` of a name. Each takes two characters, so that the length is fuel enough. -/
def stripDimensions : Nat → List Char → Nat → List Char × Nat
  | 0, element, dimensions => (element, dimensions)
  | fuel + 1, element, dimensions =>
    match Text.stripSuffix ['[', ']'] element with
    | some stripped => stripDimensions fuel (Text.trimEnd stripped) (dimensions + 1)
    | none => (element, dimensions)

/-- An array of `dimensions` dimensions. -/
def addDimensions : Nat → JavaType → JavaType
  | 0, ty => ty
  | dimensions + 1, ty => addDimensions dimensions (.array ty)

def fromPrettyName (name : String) : Except (Error θ) JavaType :=
  let trimmed := Text.trim name.toList
  let (element, dimensions) := stripDimensions trimmed.length trimmed 0
  match String.ofList element with
  | "boolean" => .ok (addDimensions dimensions .boolean)
  | "byte" => .ok (addDimensions dimensions .byte)
  | "char" => .ok (addDimensions dimensions .char)
  | "short" => .ok (addDimensions dimensions .short)
  | "int" => .ok (addDimensions dimensions .int)
  | "long" => .ok (addDimensions dimensions .long)
  | "float" => .ok (addDimensions dimensions .float)
  | "double" => .ok (addDimensions dimensions .double)
  | "void" =>
    if dimensions = 0 then .ok .void
    else .error (.invalidSignature name 0 "array element cannot be void")
  | "" => .error (.invalidSignature name 0 "expected type descriptor")
  | _ => .ok (addDimensions dimensions (.object (String.ofList (Text.replace '.' '/' element))))

end JavaType

def MethodSignature.fromPrettyTypes (returnType arguments : String) :
    Except (Error θ) MethodSignature := do
  let arguments ←
    if Text.trim arguments.toList = [] then .ok []
    else (arguments.toList.splitOn ',').mapM fun argument ↦
      JavaType.fromPrettyName (String.ofList (Text.trim argument))
  let returnType ← JavaType.fromPrettyName (String.ofList (Text.trim returnType.toList))
  .ok ⟨arguments, returnType⟩

end JavaBridge

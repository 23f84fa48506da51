import JavaBridge.Descriptor.Names
import JavaBridge.Library.Utf8

/-!
# Method queries

The parser of `class!method` queries, the names that they are matched against, and the matcher.
-/

universe u

namespace JavaBridge

structure MethodQuery where
  classPattern : String
  methodPattern : String
  includeSignature : Bool
  ignoreCase : Bool
  skipSystemClasses : Bool
  deriving DecidableEq

/-- A method of a class, as either query reads it. -/
structure MethodMetadata where
  name : String
  kind : MethodKind
  signature : MethodSignature
  modifiers : BitVec 32
  id : BitVec 64
  deriving DecidableEq

namespace MethodQuery

variable {θ : Type u}

/-- `to_ascii_lowercase`, where the case is ignored. -/
def normalizeCase (value : String) (ignoreCase : Bool) : String :=
  if ignoreCase then String.ofList (value.toList.map Char.toLower) else value

def parseMethodQuery (query : String) : Except (Error θ) MethodQuery :=
  match Text.splitOnce '!' query.toList with
  | none => .error (.invalidQuery query "expected class!method query")
  | some (classPattern, rest) =>
    if classPattern = [] then .error (.invalidQuery query "class pattern cannot be empty")
    else
      let (methodPattern, modifiers) :=
        match Text.rsplitOnce '/' rest with
        | some (method, modifiers) =>
          if modifiers.all (· ∈ ['i', 's', 'u']) then (method, modifiers) else (rest, [])
        | none => (rest, [])
      if methodPattern = [] then .error (.invalidQuery query "method pattern cannot be empty")
      else
        let ignoreCase := 'i' ∈ modifiers
        .ok {
          classPattern := normalizeCase (String.ofList classPattern) ignoreCase
          methodPattern := normalizeCase (String.ofList methodPattern) ignoreCase
          includeSignature := 's' ∈ modifiers
          ignoreCase
          skipSystemClasses := 'u' ∈ modifiers }

def queryMethodName (kind : MethodKind) (name : String) (signature : MethodSignature)
    (includeSignature : Bool) : String :=
  let name := if kind = .constructor then "$init" else name
  if includeSignature then name ++ signature.descriptor else name

def isPlatformClass (name : String) : Bool :=
  ["java.", "javax.", "android.", "androidx.", "dalvik.", "com.android."].any
    fun package ↦ package.toList.isPrefixOf name.toList

/-- The loop of `glob_matches`, up to the value's end: the position in the pattern, where nothing
has failed. Between two returns to a star each step moves on in the pattern, and each return takes
the star further in the value, so that the fuel of `globMatches` is enough. -/
def globLoop (pattern value : List UInt8) : Nat → Nat → Nat → Option Nat → Nat → Option Nat
  | 0, _, _, _, _ => none
  | fuel + 1, p, v, star, starValue =>
    if v < value.length then
      if p < pattern.length ∧ (pattern[p]? = some '?'.val.toUInt8 ∨ pattern[p]? = value[v]?) then
        globLoop pattern value fuel (p + 1) (v + 1) star starValue
      else if p < pattern.length ∧ pattern[p]? = some '*'.val.toUInt8 then
        globLoop pattern value fuel (p + 1) v (some p) v
      else
        match star with
        | some starIndex =>
          globLoop pattern value fuel (starIndex + 1) (starValue + 1) star (starValue + 1)
        | none => none
    else some p

def globMatches (pattern value : String) : Bool :=
  let pattern := Utf8.encode pattern.toList
  let value := Utf8.encode value.toList
  match globLoop pattern value ((value.length + 1) * (pattern.length + 2)) 0 0 none 0 with
  | some p => ((pattern.drop p).dropWhile (· = '*'.val.toUInt8)).isEmpty
  | none => false

example : globMatches "f?o*" "foobar" = true := by decide +kernel

example : (parseMethodQuery (θ := Empty) "com.Example!foo/bar").toOption =
    some ⟨"com.Example", "foo/bar", false, false, false⟩ := by decide +kernel

end MethodQuery

end JavaBridge

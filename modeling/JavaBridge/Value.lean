import JavaBridge.Error
import JavaBridge.Signature

/-!
# Values that cross the JNI

`JavaValue R` is a Java value whose references are `R`s. `RawJavaReturn J` is what a raw JNI call or
a hook callback returns, where `J` is the type of raw references, null among them. Floating-point
values are carried as their bits.

Main results:

* `validateReturn_eq_ok`: `validateReturn` lets a value through just where its lane is that of the
  declared type.
* `matchesType_defaultReturn`: every default passes the check of its own type.
-/

universe u v

namespace JavaBridge

/-! ## Java values -/

/-- Java primitive, `void`, `null`, or nullable reference value. -/
inductive JavaValue (R : Type u) : Type u
  | void
  | boolean (value : Bool)
  | byte (value : BitVec 8)
  | char (value : BitVec 16)
  | short (value : BitVec 16)
  | int (value : BitVec 32)
  | long (value : BitVec 64)
  | float (bits : BitVec 32)
  | double (bits : BitVec 64)
  | object (value : Option R)
  deriving DecidableEq

namespace JavaValue

variable {R : Type u}

/-- A Java null reference. -/
abbrev null : JavaValue R := object none

/-- The same value with other references. -/
def map {R' : Type u} (f : R → R') : JavaValue R → JavaValue R'
  | void => .void
  | boolean value => .boolean value
  | byte value => .byte value
  | char value => .char value
  | short value => .short value
  | int value => .int value
  | long value => .long value
  | float bits => .float bits
  | double bits => .double bits
  | object value => .object (value.map f)

/-- The reference of the value, if it has one. -/
def reference : JavaValue R → Option R
  | object value => value
  | _ => none

theorem reference_map {R' : Type u} (f : R → R') (value : JavaValue R) :
    (value.map f).reference = value.reference.map f := by cases value <;> rfl

def matchesType : JavaValue R → JavaType → Bool
  | boolean _, .boolean
  | byte _, .byte
  | char _, .char
  | short _, .short
  | int _, .int
  | long _, .long
  | float _, .float
  | double _, .double => true
  | object _, expected => expected.isReference
  | void, .void => true
  | _, _ => false

def typeName : JavaValue R → String
  | void => "void"
  | boolean _ => "boolean"
  | byte _ => "byte"
  | char _ => "char"
  | short _ => "short"
  | int _ => "int"
  | long _ => "long"
  | float _ => "float"
  | double _ => "double"
  | object (some _) => "object"
  | object none => "null"

end JavaValue

/-! ## Raw returns -/

inductive RawJavaReturn (J : Type u) : Type u
  | void
  | boolean (value : BitVec 8)
  | byte (value : BitVec 8)
  | char (value : BitVec 16)
  | short (value : BitVec 16)
  | int (value : BitVec 32)
  | long (value : BitVec 64)
  | float (bits : BitVec 32)
  | double (bits : BitVec 64)
  | object (value : J)
  deriving DecidableEq

namespace RawJavaReturn

variable {J : Type u}

def rawReturnTypeName : RawJavaReturn J → String
  | void => "void"
  | boolean _ => "boolean"
  | byte _ => "byte"
  | char _ => "char"
  | short _ => "short"
  | int _ => "int"
  | long _ => "long"
  | float _ => "float"
  | double _ => "double"
  | object _ => "object"

/-- The value is of the type's return lane. -/
def matchesType : RawJavaReturn J → JavaType → Bool
  | void, .void
  | boolean _, .boolean
  | byte _, .byte
  | char _, .char
  | short _, .short
  | int _, .int
  | long _, .long
  | float _, .float
  | double _, .double
  | object _, .object _
  | object _, .array _ => true
  | _, _ => false

end RawJavaReturn

section Return

variable {J : Type u} {θ : Type v}

def invalidRawReturn (operation expected : String) (actual : RawJavaReturn J) : Error θ :=
  .invalidReturnType operation expected actual.rawReturnTypeName

/-- `ClosureReplacementState::validate_return`. -/
def validateReturn (returnType : JavaType) (value : RawJavaReturn J) :
    Except (Error θ) (RawJavaReturn J) :=
  if value.matchesType returnType then .ok value
  else .error (invalidRawReturn "closure replacement return" returnType.jniReturnName value)

/-- `ClosureReplacementState::default_return`, where `null` is the raw null reference. -/
def defaultReturn (null : J) : JavaType → RawJavaReturn J
  | .void => .void
  | .boolean => .boolean 0
  | .byte => .byte 0
  | .char => .char 0
  | .short => .short 0
  | .int => .int 0
  | .long => .long 0
  | .float => .float 0
  | .double => .double 0
  | .object _ | .array _ => .object null

theorem validateReturn_eq_ok {returnType : JavaType} {value value' : RawJavaReturn J} :
    validateReturn (θ := θ) returnType value = .ok value' ↔
      value.matchesType returnType = true ∧ value = value' := by
  rw [validateReturn]
  split
  · next h => exact ⟨fun h' ↦ ⟨h, Except.ok.inj h'⟩, fun h' ↦ congrArg _ h'.2⟩
  · next h => exact ⟨nofun, fun h' ↦ absurd h'.1 h⟩

theorem matchesType_defaultReturn (null : J) (returnType : JavaType) :
    (defaultReturn null returnType).matchesType returnType = true := by
  cases returnType <;> rfl

end Return

end JavaBridge

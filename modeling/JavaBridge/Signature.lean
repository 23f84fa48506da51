import Mathlib.Init

/-!
# Java types and method signatures
-/

namespace JavaBridge

/-- Java type as represented in JNI descriptors. -/
inductive JavaType
  | boolean
  | byte
  | char
  | short
  | int
  | long
  | float
  | double
  | void
  | object (name : String)
  | array (element : JavaType)
  deriving DecidableEq

namespace JavaType

/-- The JNI call-family name used by this type. -/
def jniReturnName : JavaType → String
  | boolean => "boolean"
  | byte => "byte"
  | char => "char"
  | short => "short"
  | int => "int"
  | long => "long"
  | float => "float"
  | double => "double"
  | void => "void"
  | object _ | array _ => "object"

/-- This type as a JNI descriptor. -/
def descriptor : JavaType → String
  | boolean => "Z"
  | byte => "B"
  | char => "C"
  | short => "S"
  | int => "I"
  | long => "J"
  | float => "F"
  | double => "D"
  | void => "V"
  | object name => "L" ++ name ++ ";"
  | array element => "[" ++ element.descriptor

def isReference : JavaType → Bool
  | object _ | array _ => true
  | _ => false

end JavaType

/-- Java method signature split into argument and return types. -/
structure MethodSignature where
  arguments : List JavaType
  returnType : JavaType
  deriving DecidableEq

/-- The kinds of Java method. -/
inductive MethodKind
  | constructor
  | instanceMethod
  | staticMethod
  deriving DecidableEq

end JavaBridge

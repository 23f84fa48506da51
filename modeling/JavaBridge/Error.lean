import Mathlib.Init

/-!
# Errors of the bridge

The variants of the bridge's `Error` that the modelled functions build or tell apart, with the
data each carries. `JavaThrowable` is the captured exception object: a global reference in the
source, a parameter here, since only the exception helpers look inside it.
-/

universe u

namespace JavaBridge

/-- Error returned while working with Java, JNI, or ART. -/
inductive Error (JavaThrowable : Type u) : Type u
  | unsupportedFeature (feature reason : String)
  | appClassLoaderUnavailable (reason : String)
  | appClassLoaderWaitTimedOut (timeout : Nat) (reason : String)
  | jniCallFailed (operation : String) (code : Int)
  | javaException (operation exception : String) (throwable : Option JavaThrowable)
  | nullReturn (operation : String)
  | invalidSignature (signature : String) (offset : Nat) (message : String)
  | invalidArguments (expected actual : Nat)
  | invalidArgumentType (index : Nat) (expected actual : String)
  | invalidArgumentValue (index : Nat) (expected actual : String)
  | invalidReturnType (operation expected actual : String)
  | invalidFieldValueType (operation expected actual : String)
  | invalidFieldValue (operation expected actual : String)
  | invalidObjectType (operation expected actual : String)
  | wrongMethodKind (operation : String)
  | wrongFieldKind (operation : String)
  | invalidReplacementState (operation reason : String)
  | invalidReplacementImplementation (operation expected actual : String)
  | classLookupMismatch (requested actual : String)
  | invalidQuery (query message : String)
  | noCompatibleOverload (holder kind name arguments : String) (candidates : List String)
  | interiorNul (value : String)
  | invalidUtf8
  | invalidUtf16
  deriving DecidableEq

namespace Error

variable {JavaThrowable : Type u}

/-- The captured exception object, where the error reports a Java exception and kept one. -/
def javaThrowable : Error JavaThrowable → Option JavaThrowable
  | javaException _ _ throwable => throwable
  | _ => none

/-- The error reports a Java exception. -/
def isJavaException : Error JavaThrowable → Bool
  | javaException _ _ _ => true
  | _ => false

end Error

/-- How a function that returns a `Result` can fail: with an error, or by a panic. -/
inductive Failure (JavaThrowable : Type u) : Type u
  | error (error : Error JavaThrowable)
  | panic (message : String)
  deriving DecidableEq

end JavaBridge

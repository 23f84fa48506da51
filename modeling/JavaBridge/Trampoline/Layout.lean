import JavaBridge.Error
import JavaBridge.Signature
import Mathlib.Algebra.Order.Ring.Nat
import Mathlib.Data.List.Basic

/-!
# Where a closure thunk finds its arguments

`closureReplacementLayout` hands out general registers from `x2`, vector registers from `v0` and
eight-byte stack slots by three counters that it carries through the argument types. `jniPlace` says
the same of one argument by counting the arguments before it: the JNI convention, in which every
register class fills on its own and every argument that finds its class full takes the next stack
slot.

Main results:

* `assignLocations_eq`: the counters give every argument its place by the convention.
* `closureReplacementLayout_eq_ok`: a layout exists just where no argument is `void` and a
  constructor returns `void`, and then it follows the convention.
* `validateClosureReplacementSignature_eq_ok`: what is accepted.
-/

universe u

namespace JavaBridge.Trampoline

variable {θ : Type u}

inductive ClosureValueLayout
  | void
  | general32
  | general64
  | float32
  | float64
  | reference
  deriving DecidableEq

inductive ClosureRegisterClass
  | general
  | float
  deriving DecidableEq

namespace ClosureValueLayout

def forType : JavaType → ClosureValueLayout
  | .void => void
  | .boolean | .byte | .char | .short | .int => general32
  | .long => general64
  | .float => float32
  | .double => float64
  | .object _ | .array _ => reference

def registerClass : ClosureValueLayout → Option ClosureRegisterClass
  | void => none
  | general32 | general64 | reference => some .general
  | float32 | float64 => some .float

theorem registerClass_eq_none {ty : JavaType} : (forType ty).registerClass = none ↔ ty = .void := by
  cases ty <;> simp [forType, registerClass]

end ClosureValueLayout

inductive ClosureArgumentLocation
  | generalRegister (register : Nat)
  | floatRegister (register : Nat)
  | stack (offset : Nat)
  deriving DecidableEq

structure ClosureArgumentLayout where
  ty : JavaType
  value : ClosureValueLayout
  location : ClosureArgumentLocation
  deriving DecidableEq

structure ClosureReplacementLayout where
  arguments : List ClosureArgumentLayout
  returnValue : ClosureValueLayout
  deriving DecidableEq

/-- What the next argument may take. -/
structure Counters where
  nextGeneralRegister : Nat
  nextFloatRegister : Nat
  nextStackOffset : Nat

namespace Counters

/-- The location that the next argument of a class gets, and the counters behind it. -/
def place (c : Counters) : ClosureRegisterClass → ClosureArgumentLocation × Counters
  | .general =>
    if c.nextGeneralRegister < 8 then
      (.generalRegister c.nextGeneralRegister,
        { c with nextGeneralRegister := c.nextGeneralRegister + 1 })
    else (.stack c.nextStackOffset, { c with nextStackOffset := c.nextStackOffset + 8 })
  | .float =>
    if c.nextFloatRegister < 8 then
      (.floatRegister c.nextFloatRegister, { c with nextFloatRegister := c.nextFloatRegister + 1 })
    else (.stack c.nextStackOffset, { c with nextStackOffset := c.nextStackOffset + 8 })

end Counters

/-- The loop of `closure_replacement_layout`. -/
def assignLocations : Counters → List JavaType →
    Except (Failure θ) (List ClosureArgumentLayout)
  | _, [] => .ok []
  | c, ty :: tys =>
    let value := ClosureValueLayout.forType ty
    match value.registerClass with
    | some cls =>
      (assignLocations (c.place cls).2 tys).map (⟨ty, value, (c.place cls).1⟩ :: ·)
    | none => .error (.panic "Java method arguments cannot be void")

def closureReplacementLayout (kind : MethodKind) (signature : MethodSignature) :
    Except (Failure θ) ClosureReplacementLayout :=
  if kind = .constructor ∧ signature.returnType ≠ .void then
    .error (.error (.invalidReplacementImplementation "java::replacement::replace_closure_method"
      "constructor replacement descriptor returning void" "non-void constructor descriptor"))
  else
    (assignLocations ⟨2, 0, 0⟩ signature.arguments).map fun arguments ↦
      ⟨arguments, ClosureValueLayout.forType signature.returnType⟩

def validateClosureSignatureForKind (kind : MethodKind) (signature : MethodSignature)
    (operation : String) : Except (Failure θ) ClosureReplacementLayout :=
  if kind = .constructor ∧ signature.returnType ≠ .void then
    .error (.error (.invalidReplacementImplementation operation
      "constructor replacement descriptor returning void" "non-void constructor descriptor"))
  else closureReplacementLayout kind signature

/-! ## The size of the invocation frame -/

def MAX_INVOCATION_FRAME_SIZE : Nat := 4096

/-- Six fields of eight bytes, and the arguments right behind them. -/
def closureArgumentsOffset : Nat := 48

/-- The frame with its arguments, rounded up to sixteen bytes; `none` where the sum overflows. -/
def closureInvocationFrameSize (layout : ClosureReplacementLayout) : Option Nat :=
  let withPadding := closureArgumentsOffset + layout.arguments.length * 8 + 15
  if withPadding < 2 ^ 64 then some (withPadding / 16 * 16) else none

def validateClosureTrampolineLayout (layout : ClosureReplacementLayout) (operation : String) :
    Except (Failure θ) Unit :=
  match closureInvocationFrameSize layout with
  | none => .error (.error (.invalidReplacementImplementation operation
      "closure replacement invocation frame up to 4096 bytes"
      "descriptor overflows closure invocation frame sizing"))
  | some frameSize =>
    if frameSize > MAX_INVOCATION_FRAME_SIZE then
      .error (.error (.invalidReplacementImplementation operation
        "closure replacement invocation frame up to 4096 bytes" "descriptor is too large"))
    else .ok ()

def validateClosureReplacementSignature (kind : MethodKind) (signature : MethodSignature)
    (operation : String) : Except (Failure θ) Unit :=
  (validateClosureSignatureForKind kind signature operation).bind fun layout ↦
    validateClosureTrampolineLayout layout operation

/-! ## The convention -/

/-- How many of the types are passed in the class's registers while there are any. -/
def classCount (cls : ClosureRegisterClass) (tys : List JavaType) : Nat :=
  tys.countP fun ty ↦ (ClosureValueLayout.forType ty).registerClass = some cls

@[simp] theorem classCount_nil (cls : ClosureRegisterClass) : classCount cls [] = 0 := rfl

theorem classCount_append (cls : ClosureRegisterClass) (tys : List JavaType) (ty : JavaType) :
    classCount cls (tys ++ [ty]) = classCount cls tys +
      if (ClosureValueLayout.forType ty).registerClass = some cls then 1 else 0 := by
  simp [classCount, List.countP_append, List.countP_singleton]

/-- The arguments that found their registers taken: six general and eight vector registers. -/
def spilled (tys : List JavaType) : Nat :=
  (classCount .general tys - 6) + (classCount .float tys - 8)

/-- Where the convention puts an argument of a class behind arguments of types `earlier`. -/
def jniPlace (earlier : List JavaType) : ClosureRegisterClass → ClosureArgumentLocation
  | .general =>
    if classCount .general earlier < 6 then .generalRegister (2 + classCount .general earlier)
    else .stack (8 * spilled earlier)
  | .float =>
    if classCount .float earlier < 8 then .floatRegister (classCount .float earlier)
    else .stack (8 * spilled earlier)

/-- The class that an argument type is passed in. -/
def argumentClass (ty : JavaType) : ClosureRegisterClass :=
  (ClosureValueLayout.forType ty).registerClass.getD .general

def jniLayout : List JavaType → List JavaType → List ClosureArgumentLayout
  | _, [] => []
  | earlier, ty :: tys =>
    ⟨ty, ClosureValueLayout.forType ty, jniPlace earlier (argumentClass ty)⟩ ::
      jniLayout (earlier ++ [ty]) tys

@[simp] theorem length_jniLayout (earlier tys : List JavaType) :
    (jniLayout earlier tys).length = tys.length := by
  induction tys generalizing earlier with
  | nil => rfl
  | cons ty tys ih => simp only [jniLayout, List.length_cons, ih]

/-! ## The counters follow the convention -/

/-- The counters behind arguments of types `earlier`. -/
def countersAfter (earlier : List JavaType) : Counters where
  nextGeneralRegister := 2 + min (classCount .general earlier) 6
  nextFloatRegister := min (classCount .float earlier) 8
  nextStackOffset := 8 * spilled earlier

theorem place_countersAfter (earlier : List JavaType) {ty : JavaType} {cls : ClosureRegisterClass}
    (h : (ClosureValueLayout.forType ty).registerClass = some cls) :
    (countersAfter earlier).place cls = (jniPlace earlier cls, countersAfter (earlier ++ [ty])) := by
  have hgeneral := classCount_append .general earlier ty
  have hfloat := classCount_append .float earlier ty
  cases cls with
  | general =>
    rw [h, if_pos rfl] at hgeneral
    rw [h, if_neg (by decide)] at hfloat
    by_cases hfull : classCount .general earlier < 6
    · have hregister : (countersAfter earlier).nextGeneralRegister < 8 := by
        show 2 + min _ 6 < 8
        omega
      rw [Counters.place, jniPlace, if_pos hfull, if_pos hregister]
      simp only [countersAfter, spilled, hgeneral, hfloat, Prod.mk.injEq,
        ClosureArgumentLocation.generalRegister.injEq, Counters.mk.injEq]
      omega
    · have hregister : ¬ (countersAfter earlier).nextGeneralRegister < 8 := by
        show ¬ 2 + min _ 6 < 8
        omega
      rw [Counters.place, jniPlace, if_neg hfull, if_neg hregister]
      simp only [countersAfter, spilled, hgeneral, hfloat, Prod.mk.injEq, Counters.mk.injEq,
        true_and]
      omega
  | float =>
    rw [h, if_neg (by decide)] at hgeneral
    rw [h, if_pos rfl] at hfloat
    by_cases hfull : classCount .float earlier < 8
    · have hregister : (countersAfter earlier).nextFloatRegister < 8 := by
        show min _ 8 < 8
        omega
      rw [Counters.place, jniPlace, if_pos hfull, if_pos hregister]
      simp only [countersAfter, spilled, hgeneral, hfloat, Prod.mk.injEq,
        ClosureArgumentLocation.floatRegister.injEq, Counters.mk.injEq]
      omega
    · have hregister : ¬ (countersAfter earlier).nextFloatRegister < 8 := by
        show ¬ min _ 8 < 8
        omega
      rw [Counters.place, jniPlace, if_neg hfull, if_neg hregister]
      simp only [countersAfter, spilled, hgeneral, hfloat, Prod.mk.injEq, Counters.mk.injEq,
        true_and]
      omega

theorem assignLocations_eq (earlier : List JavaType) {tys : List JavaType}
    (h : JavaType.void ∉ tys) :
    assignLocations (θ := θ) (countersAfter earlier) tys = .ok (jniLayout earlier tys) := by
  induction tys generalizing earlier with
  | nil => rfl
  | cons ty tys ih =>
    rw [List.mem_cons, not_or] at h
    have hclass : (ClosureValueLayout.forType ty).registerClass = some (argumentClass ty) := by
      cases hty : (ClosureValueLayout.forType ty).registerClass with
      | none => exact absurd (ClosureValueLayout.registerClass_eq_none.mp hty).symm h.1
      | some cls => rw [argumentClass, hty, Option.getD_some]
    rw [assignLocations, hclass]
    show (assignLocations ((countersAfter earlier).place (argumentClass ty)).2 tys).map _ = _
    rw [place_countersAfter earlier hclass, ih (earlier ++ [ty]) h.2]
    rfl

/-- A `void` argument stops the loop. -/
theorem void_notMem_of_assignLocations {c : Counters} {tys : List JavaType}
    {arguments : List ClosureArgumentLayout}
    (h : assignLocations (θ := θ) c tys = .ok arguments) : JavaType.void ∉ tys := by
  induction tys generalizing c arguments with
  | nil => exact List.not_mem_nil
  | cons ty tys ih =>
    rw [assignLocations] at h
    cases hclass : (ClosureValueLayout.forType ty).registerClass with
    | none =>
      rw [hclass] at h
      cases h
    | some cls =>
      rw [hclass] at h
      have hty : ty ≠ .void := fun hty ↦ by
        rw [ClosureValueLayout.registerClass_eq_none.mpr hty] at hclass
        cases hclass
      cases hrest : assignLocations (θ := θ) (c.place cls).2 tys with
      | error e =>
        simp only [hrest] at h
        cases h
      | ok rest =>
        rw [List.mem_cons, not_or]
        exact ⟨Ne.symm hty, ih hrest⟩

theorem closureReplacementLayout_eq_ok {kind : MethodKind} {signature : MethodSignature}
    {layout : ClosureReplacementLayout} :
    closureReplacementLayout (θ := θ) kind signature = .ok layout ↔
      (kind = .constructor → signature.returnType = .void) ∧ JavaType.void ∉ signature.arguments ∧
        layout = ⟨jniLayout [] signature.arguments,
          ClosureValueLayout.forType signature.returnType⟩ := by
  have hinit : (⟨2, 0, 0⟩ : Counters) = countersAfter [] := rfl
  rw [closureReplacementLayout]
  split
  · next h => exact ⟨nofun, fun h' ↦ absurd (h'.1 h.1) h.2⟩
  · next h =>
    have hreturn : kind = .constructor → signature.returnType = .void := fun hk ↦
      not_ne_iff.mp fun hr ↦ h ⟨hk, hr⟩
    constructor
    · intro h'
      cases hassign : assignLocations (θ := θ) ⟨2, 0, 0⟩ signature.arguments with
      | error e =>
        rw [hassign] at h'
        cases h'
      | ok arguments =>
        have hvoid := void_notMem_of_assignLocations hassign
        rw [hinit, assignLocations_eq [] hvoid] at hassign
        cases hassign
        rw [hinit, assignLocations_eq [] hvoid] at h'
        exact ⟨hreturn, hvoid, (Except.ok.inj h').symm⟩
    · rintro ⟨-, hvoid, rfl⟩
      rw [hinit, assignLocations_eq [] hvoid]
      rfl

theorem closureInvocationFrameSize_eq_some {layout : ClosureReplacementLayout} {frameSize : Nat} :
    closureInvocationFrameSize layout = some frameSize ↔
      48 + layout.arguments.length * 8 + 15 < 2 ^ 64 ∧
        (48 + layout.arguments.length * 8 + 15) / 16 * 16 = frameSize := by
  rw [closureInvocationFrameSize, closureArgumentsOffset, Option.ite_none_right_eq_some,
    Option.some.injEq]

theorem closureInvocationFrameSize_eq_none {layout : ClosureReplacementLayout} :
    closureInvocationFrameSize layout = none ↔
      2 ^ 64 ≤ 48 + layout.arguments.length * 8 + 15 := by
  rw [closureInvocationFrameSize, closureArgumentsOffset, ← Nat.not_lt]
  split <;> simp_all

/-- The frame of up to 506 arguments is small enough. -/
theorem validateClosureTrampolineLayout_eq_ok {layout : ClosureReplacementLayout}
    {operation : String} :
    validateClosureTrampolineLayout (θ := θ) layout operation = .ok () ↔
      layout.arguments.length ≤ 506 := by
  rw [validateClosureTrampolineLayout]
  cases hsize : closureInvocationFrameSize layout with
  | none =>
    rw [closureInvocationFrameSize_eq_none] at hsize
    exact ⟨nofun, fun h ↦ by omega⟩
  | some frameSize =>
    obtain ⟨-, rfl⟩ := closureInvocationFrameSize_eq_some.mp hsize
    show (if _ > MAX_INVOCATION_FRAME_SIZE then _ else _) = _ ↔ _
    rw [MAX_INVOCATION_FRAME_SIZE]
    split
    · next h => exact ⟨nofun, fun h' ↦ by omega⟩
    · next h => exact ⟨fun _ ↦ by omega, fun _ ↦ rfl⟩

/-- **What is accepted**: no `void` argument, a constructor returning `void`, and a frame of at most
506 arguments. -/
theorem validateClosureReplacementSignature_eq_ok {kind : MethodKind}
    {signature : MethodSignature} {operation : String} :
    validateClosureReplacementSignature (θ := θ) kind signature operation = .ok () ↔
      (kind = .constructor → signature.returnType = .void) ∧ JavaType.void ∉ signature.arguments ∧
        signature.arguments.length ≤ 506 := by
  rw [validateClosureReplacementSignature, validateClosureSignatureForKind]
  split
  · next h => exact ⟨nofun, fun h' ↦ absurd (h'.1 h.1) h.2⟩
  · cases hlayout : closureReplacementLayout (θ := θ) kind signature with
    | error e =>
      refine ⟨nofun, fun h ↦ ?_⟩
      rw [closureReplacementLayout_eq_ok.mpr ⟨h.1, h.2.1, rfl⟩] at hlayout
      cases hlayout
    | ok layout =>
      obtain ⟨hreturn, hvoid, rfl⟩ := closureReplacementLayout_eq_ok.mp hlayout
      show validateClosureTrampolineLayout _ operation = .ok () ↔ _
      rw [validateClosureTrampolineLayout_eq_ok]
      show (jniLayout [] signature.arguments).length ≤ 506 ↔ _
      rw [length_jniLayout]
      exact ⟨fun h ↦ ⟨hreturn, hvoid, h⟩, fun h ↦ h.2.2⟩

end JavaBridge.Trampoline

import JavaBridge.Library.Arm64
import JavaBridge.Trampoline.Frame
import JavaBridge.Trampoline.Layout

/-!
# The closure thunk

`writeClosureTrampoline` emits the thunk that a clone's native entrypoint leads to: it saves the
frame record, allocates and fills an invocation frame below it, hands the frame to
`dispatch_closure_invocation`, and returns what that left in `return_value`. An `unreachable!` of
the writer is `none`.

`Thunk` proves what it does.
-/

universe u

namespace JavaBridge.Trampoline

open Arm64

/-! ## The writer -/

def storeRegister (register : Reg) (offset : Nat) : List Instr := [.str register .sp offset]

def storeImmediate (value : BitVec 64) (offset : Nat) : List Instr :=
  .ldrImm (.x 16) value :: storeRegister (.x 16) offset

def general64Register (register : Nat) : Option Reg :=
  if h : register < 8 then some (.x ⟨register, by omega⟩) else none

def general32Register (register : Nat) : Option Reg :=
  if h : register < 8 then some (.w ⟨register, by omega⟩) else none

def float32Register (register : Nat) : Option Reg :=
  if h : register < 8 then some (.s ⟨register, by omega⟩) else none

def float64Register (register : Nat) : Option Reg :=
  if h : register < 8 then some (.d ⟨register, by omega⟩) else none

/-- The register an argument is stored from, where it is in one. -/
def argumentRegister (value : ClosureValueLayout) : ClosureArgumentLocation → Option Reg
  | .generalRegister register =>
    match value with
    | .general32 => general32Register register
    | .general64 | .reference => general64Register register
    | .void | .float32 | .float64 => none
  | .floatRegister register =>
    match value with
    | .float32 => float32Register register
    | .float64 => float64Register register
    | .void | .general32 | .general64 | .reference => none
  | .stack _ => none

/-- Captures the argument at `index` into its slot. Above the frame lie the frame record and the
caller's stack arguments. -/
def captureArgument (frameSize index : Nat) (argument : ClosureArgumentLayout) :
    Option (List Instr) :=
  let slot := closureArgumentsOffset + 8 * index
  match argument.location with
  | .stack offset =>
    some (.ldr (.x 16) .sp (frameSize + 16 + offset) :: storeRegister (.x 16) slot)
  | location => (argumentRegister argument.value location).map (storeRegister · slot)

def captureArguments (frameSize : Nat) :
    Nat → List ClosureArgumentLayout → Option (List Instr)
  | _, [] => some []
  | index, argument :: arguments =>
    (captureArgument frameSize index argument).bind fun block ↦
      (captureArguments frameSize (index + 1) arguments).map (block ++ ·)

def loadReturnValue (value : ClosureValueLayout) (offset : Nat) : List Instr :=
  match value with
  | .void => []
  | .general32 => [.ldr (.w 0) .sp offset]
  | .general64 | .reference => [.ldr (.x 0) .sp offset]
  | .float32 => [.ldr (.s 0) .sp offset]
  | .float64 => [.ldr (.d 0) .sp offset]

/-- Up to the argument captures. -/
def enterFrame (frameSize : Nat) (state : BitVec 64) (argumentCount : Nat) : List Instr :=
  [.push .fp .lr, .subImm .sp .sp frameSize] ++
  storeImmediate state (frameOffset .state) ++
  storeRegister (.x 0) (frameOffset .env) ++
  storeRegister (.x 1) (frameOffset .target) ++
  [.addImm (.x 16) .sp closureArgumentsOffset] ++
  storeRegister (.x 16) (frameOffset .arguments) ++
  storeImmediate (BitVec.ofNat 64 argumentCount) (frameOffset .argumentCount)

/-- Up to the call, which follows. -/
def passFrame (dispatcher : BitVec 64) : List Instr :=
  [.mov (.x 0) .sp, .ldrImm (.x 16) dispatcher]

/-- From the return of the call on, up to the `ret`, which follows. -/
def leaveFrame (frameSize : Nat) (returnValue : ClosureValueLayout) : List Instr :=
  loadReturnValue returnValue (frameOffset .returnValue) ++
  [.addImm .sp .sp frameSize, .pop .fp .lr]

def writeClosureTrampoline (state dispatcher : BitVec 64) (layout : ClosureReplacementLayout) :
    Option (List Instr) :=
  (closureInvocationFrameSize layout).bind fun frameSize ↦
    (captureArguments frameSize 0 layout.arguments).map fun captures ↦
      enterFrame frameSize state layout.arguments.length ++ captures ++ passFrame dispatcher ++
      [.blr (.x 16)] ++ leaveFrame frameSize layout.returnValue ++ [.ret]

end JavaBridge.Trampoline

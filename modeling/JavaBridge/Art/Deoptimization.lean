import JavaBridge.Art.RuntimeLayout
import Mathlib.Logic.Basic

/-!
# Requests for deoptimization

Up to Android 10 the debugger of ART is asked to deoptimize, and from then on the instrumentation of
the runtime. What is needed is looked for before anything is asked.

Main results:

* `ensureDbgDeoptimizationSupported_eq_ok_iff`: when the debugger can be asked.
-/

namespace JavaBridge.Art

def FEATURE_DEOPTIMIZATION : String := "ART deoptimization"

/-- The functions and variables of ART, by their addresses. -/
structure DeoptimizationArtSymbols where
  dbgSetJdwpAllowed : Option Nat
  dbgConfigureJdwp : Option Nat
  internalStartDebugger : Option Nat
  dbgStartJdwp : Option Nat
  dbgGoActive : Option Nat
  dbgRequestDeoptimization : Option Nat
  dbgManageDeoptimization : Option Nat
  dbgRegistry : Option Nat
  dbgDebuggerActive : Option Nat
  instrumentationEnableDeoptimization : Option Nat
  instrumentationDeoptimizeEverything : Option Nat
  instrumentationDeoptimize : Option Nat
  runtimeDeoptimizeBootImage : Option Nat
  jdwpAdbStateAccept : Option Nat
  jdwpAdbStateReceiveClientFd : Option Nat

inductive DeoptimizationRequest
  | full
  | selective (method : BitVec 64)
  deriving DecidableEq

/-! ## What the debugger is passed -/

def K_FULL_DEOPTIMIZATION : BitVec 32 := 3
def K_SELECTIVE_DEOPTIMIZATION : BitVec 32 := 5

structure ArtDbgDeoptimizationRequest where
  kind : BitVec 32
  padding : BitVec 32
  method : BitVec 64
  deriving DecidableEq

def ArtDbgDeoptimizationRequest.new : DeoptimizationRequest → ArtDbgDeoptimizationRequest
  | .full => ⟨K_FULL_DEOPTIMIZATION, 0, 0⟩
  | .selective method => ⟨K_SELECTIVE_DEOPTIMIZATION, 0, method⟩

/-- A transport, `server` and `suspend`, an empty `std::string` and a port. -/
def JdwpOptionsBytes.new (apiLevel : Int) : List (BitVec 8) :=
  [if apiLevel < 28 then 2 else 3, 0, 0, 0] ++ [1, 0, 0, 0] ++
    List.replicate STD_STRING_SIZE 0 ++ [0, 0]

/-- A call of a function of ART. -/
inductive ArtCall
  | setJdwpAllowed (function : Nat) (allowed : Bool)
  | configureJdwp (function : Nat) (options : List (BitVec 8))
  | startDebugger (function : Nat) (thread : BitVec 64)
  | startJdwp (function : Nat)
  | goActive (function : Nat)
  | requestDeoptimization (function : Nat) (request : ArtDbgDeoptimizationRequest)
  | manageDeoptimization (function : Nat)
  deriving DecidableEq

/-! ## What is needed of the debugger -/

section

variable {θ : Type} (symbols : DeoptimizationArtSymbols)

/-- A symbol that has to be there. -/
def requireSymbol (name : String) (symbol : Option Nat) : Except (Error θ) Unit :=
  match symbol with
  | some _ => .ok ⟨⟩
  | none => .error (.unsupportedFeature FEATURE_DEOPTIMIZATION (name ++ " is unavailable"))

def ensureDbgDeoptimizationSupported : Except (Error θ) Unit := do
  requireSymbol "Dbg::SetJdwpAllowed" symbols.dbgSetJdwpAllowed
  requireSymbol "Dbg::ConfigureJdwp" symbols.dbgConfigureJdwp
  if symbols.internalStartDebugger.isNone ∧ symbols.dbgStartJdwp.isNone then
    throw (.unsupportedFeature FEATURE_DEOPTIMIZATION
      "Dbg::StartJdwp and InternalDebuggerControlCallback::StartDebugger are unavailable")
  requireSymbol "Dbg::GoActive" symbols.dbgGoActive
  requireSymbol "Dbg::RequestDeoptimization" symbols.dbgRequestDeoptimization
  requireSymbol "Dbg::ManageDeoptimization" symbols.dbgManageDeoptimization
  requireSymbol "Dbg::gRegistry" symbols.dbgRegistry
  requireSymbol "Dbg::gDebuggerActive" symbols.dbgDebuggerActive
  requireSymbol "JDWP::JdwpAdbState::Accept" symbols.jdwpAdbStateAccept
  requireSymbol "JDWP::JdwpAdbState::ReceiveClientFd" symbols.jdwpAdbStateReceiveClientFd

/-- Every symbol that is needed of the debugger. -/
structure DbgSupported : Prop where
  setJdwpAllowed : symbols.dbgSetJdwpAllowed.isSome
  configureJdwp : symbols.dbgConfigureJdwp.isSome
  start : symbols.internalStartDebugger.isSome ∨ symbols.dbgStartJdwp.isSome
  goActive : symbols.dbgGoActive.isSome
  requestDeoptimization : symbols.dbgRequestDeoptimization.isSome
  manageDeoptimization : symbols.dbgManageDeoptimization.isSome
  registry : symbols.dbgRegistry.isSome
  debuggerActive : symbols.dbgDebuggerActive.isSome
  accept : symbols.jdwpAdbStateAccept.isSome
  receiveClientFd : symbols.jdwpAdbStateReceiveClientFd.isSome

variable {symbols}

theorem requireSymbol_eq_ok_iff {name : String} {symbol : Option Nat} :
    (requireSymbol name symbol : Except (Error θ) Unit) = .ok ⟨⟩ ↔ symbol.isSome := by
  cases symbol with
  | none =>
    constructor
    · intro h
      cases h
    · intro h
      cases h
  | some function => exact iff_of_true rfl rfl

theorem requireSymbol_bind_eq_ok_iff {name : String} {symbol : Option Nat}
    {f : Unit → Except (Error θ) Unit} :
    (requireSymbol name symbol >>= f) = .ok ⟨⟩ ↔ symbol.isSome ∧ f ⟨⟩ = .ok ⟨⟩ := by
  cases symbol with
  | none =>
    constructor
    · intro h
      cases h
    · rintro ⟨h, -⟩
      cases h
  | some function => exact (and_iff_right rfl).symm

theorem ensureDbgDeoptimizationSupported_eq_ok_iff :
    (ensureDbgDeoptimizationSupported symbols : Except (Error θ) Unit) = .ok ⟨⟩ ↔
      DbgSupported symbols := by
  unfold ensureDbgDeoptimizationSupported
  rw [requireSymbol_bind_eq_ok_iff, requireSymbol_bind_eq_ok_iff]
  split
  case isTrue hstart =>
    constructor
    · rintro ⟨-, -, h⟩
      cases h
    · intro h
      rw [Option.isNone_iff_eq_none, Option.isNone_iff_eq_none] at hstart
      rcases h.start with hsome | hsome
      · rw [hstart.1] at hsome
        cases hsome
      · rw [hstart.2] at hsome
        cases hsome
  case isFalse hstart =>
    simp only [requireSymbol_bind_eq_ok_iff, requireSymbol_eq_ok_iff]
    rw [Option.isNone_iff_eq_none, Option.isNone_iff_eq_none, not_and_or, ← ne_eq, ← ne_eq,
      Option.ne_none_iff_isSome, Option.ne_none_iff_isSome] at hstart
    constructor
    · rintro ⟨hallowed, hconfigure, hgo, hrequest, hmanage, hregistry, hactive, haccept, hreceive⟩
      exact ⟨hallowed, hconfigure, hstart, hgo, hrequest, hmanage, hregistry, hactive, haccept,
        hreceive⟩
    · rintro ⟨hallowed, hconfigure, -, hgo, hrequest, hmanage, hregistry, hactive, haccept,
        hreceive⟩
      exact ⟨hallowed, hconfigure, hgo, hrequest, hmanage, hregistry, hactive, haccept, hreceive⟩

end

end JavaBridge.Art

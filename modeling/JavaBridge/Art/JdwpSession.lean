import JavaBridge.Art.Deoptimization
import JavaBridge.Library.Once

/-!
# The debugger session

To ask the debugger of ART for a deoptimization, it has to be started, and it has to find a peer:
the bridge hands it one end of a socket pair in place of a connection. Any number of calls do this
at a time, while ART changes the variables that they look at and takes the descriptor.

Main results:

* `Jdwp.took_of_step`: what a step can do.
-/

namespace JavaBridge.Art

/-! ## Steps -/

structure SocketPairs where
  control : Nat × Nat
  client : Nat × Nat

structure ArtJdwpSession where
  controlFd : Nat
  controlPeerFd : Nat
  clientFd : Nat
  clientPeerFd : Nat

def SocketPairs.session (pairs : SocketPairs) : ArtJdwpSession :=
  ⟨pairs.control.1, pairs.control.2, pairs.client.1, pairs.client.2⟩

/-- What a request does next. -/
inductive JdwpPhase (θ : Type)
  | ensure
  | isStarted
  | lock
  | isStartedAgain
  | getSession
  | sockets
  | store (pairs : SocketPairs)
  | attach (pairs : SocketPairs)
  | replace (pairs : SocketPairs)
  | install (pairs : SocketPairs)
  | setAllowed
  | configure
  | startDebugger
  | started
  | isActive
  | goActive
  | request
  | manage
  | done (result : Except (Error θ) Unit)
  | panicked

namespace JdwpPhase

variable {θ : Type}

/-- The request has the lock of the session. -/
def Inside : JdwpPhase θ → Prop
  | isStartedAgain | getSession | sockets | store _ | attach _ | replace _ | install _
  | setAllowed | configure | startDebugger | started => True
  | _ => False

variable (symbols : DeoptimizationArtSymbols) (apiLevel : Int) (request : DeoptimizationRequest)

/-- The function of ART that is called next, where there is one. -/
def artCall : JdwpPhase θ → Option ArtCall
  | .setAllowed => symbols.dbgSetJdwpAllowed.map (.setJdwpAllowed · true)
  | .configure => symbols.dbgConfigureJdwp.map (.configureJdwp · (JdwpOptionsBytes.new apiLevel))
  | .startDebugger =>
    match symbols.internalStartDebugger with
    | some function => some (.startDebugger function 0)
    | none => symbols.dbgStartJdwp.map .startJdwp
  | .goActive => symbols.dbgGoActive.map .goActive
  | .request =>
    symbols.dbgRequestDeoptimization.map (.requestDeoptimization · (.new request))
  | .manage => symbols.dbgManageDeoptimization.map .manageDeoptimization
  | _ => none

def afterCall : JdwpPhase θ → JdwpPhase θ
  | .setAllowed => .configure
  | .configure => .startDebugger
  | .startDebugger => .started
  | .goActive => .request
  | .request => .manage
  | .manage => .done (.ok ⟨⟩)
  | p => p

end JdwpPhase

/-- The requests, and what they share with each other and with ART. -/
structure Jdwp (ι θ : Type) where
  /-- `Dbg::gRegistry` is not null. -/
  registry : Bool
  /-- `Dbg::gDebuggerActive`. -/
  active : Bool
  /-- `ART_JDWP_SESSION`. -/
  session : Option ArtJdwpSession
  dropped : Nat
  /-- `ART_JDWP_SESSION_LOCK`. -/
  holder : Option ι
  /-- `JDWP_RECEIVE_CLIENT_FD`, with `none` for `usize::MAX`. -/
  receiveClientFd : Option Nat
  /-- `ReceiveClientFd` goes to the bridge. -/
  replaced : Bool
  /-- What `ReceiveClientFd` has returned, with `none` for `-1`. -/
  received : List (Option Nat)
  phase : ι → JdwpPhase θ
  /-- The calls of functions of ART. -/
  log : List (ι × ArtCall)

inductive JdwpLabel (ι : Type)
  | go (i : ι)
  | sockets (i : ι) (pairs : Option SocketPairs)
  /-- With what the interceptor says of an error. -/
  | attached (i : ι) (error : Option String)
  | replaced (i : ι) (error : Option String)
  /-- ART calls `ReceiveClientFd`. -/
  | receive
  /-- ART changes its variables. -/
  | art (registry active : Bool)

/-- The request whose step it is. -/
def JdwpLabel.caller {ι : Type} : JdwpLabel ι → Option ι
  | go i | sockets i _ | attached i _ | replaced i _ => some i
  | receive | art _ _ => none

namespace Jdwp

variable {ι θ : Type} [DecidableEq ι] (symbols : DeoptimizationArtSymbols) (apiLevel : Int)
  (requests : ι → DeoptimizationRequest)

def setPhase (s : Jdwp ι θ) (i : ι) (p : JdwpPhase θ) : Jdwp ι θ :=
  { s with phase := Function.update s.phase i p }

/-- Gives the lock back. -/
def release (s : Jdwp ι θ) (i : ι) (p : JdwpPhase θ) : Jdwp ι θ :=
  { s.setPhase i p with holder := none }

/-- Ends with an error under the lock. -/
def fail (s : Jdwp ι θ) (i : ι) (reason : String) : Jdwp ι θ :=
  s.release i (.done (.error (.unsupportedFeature FEATURE_DEOPTIMIZATION reason)))

/-- Calls a function of ART. -/
def callArt (s : Jdwp ι θ) (i : ι) (p : JdwpPhase θ) : Jdwp ι θ :=
  match p.artCall symbols apiLevel (requests i) with
  | some call => { s.setPhase i p.afterCall with log := s.log ++ [(i, call)] }
  | none => s.setPhase i .panicked

def go (s : Jdwp ι θ) (i : ι) : Option (Jdwp ι θ) :=
  match s.phase i with
  | .ensure =>
    match ensureDbgDeoptimizationSupported symbols with
    | .ok _ => some (s.setPhase i .isStarted)
    | .error error => some (s.setPhase i (.done (.error error)))
  | .isStarted => some (s.setPhase i (if s.registry then .isActive else .lock))
  | .lock =>
    match s.holder with
    | some _ => none
    | none => some { s.setPhase i .isStartedAgain with holder := some i }
  | .isStartedAgain =>
    if s.registry then some (s.release i .isActive) else some (s.setPhase i .getSession)
  | .getSession => some (s.setPhase i (if s.session.isSome then .setAllowed else .sockets))
  | .store pairs =>
    some { s.setPhase i (.attach pairs) with receiveClientFd := some pairs.client.2 }
  | .install pairs =>
    match s.session with
    | none => some { s.setPhase i .setAllowed with session := some pairs.session }
    -- a session that is not kept takes its replacement back
    | some _ => some { s.setPhase i .setAllowed with
        dropped := s.dropped + 1, receiveClientFd := none, replaced := false }
  | .started => some (s.release i .isActive)
  | .isActive => some (s.setPhase i (if s.active then .request else .goActive))
  | .setAllowed => some (s.callArt symbols apiLevel requests i .setAllowed)
  | .configure => some (s.callArt symbols apiLevel requests i .configure)
  | .startDebugger => some (s.callArt symbols apiLevel requests i .startDebugger)
  | .goActive => some (s.callArt symbols apiLevel requests i .goActive)
  | .request => some (s.callArt symbols apiLevel requests i .request)
  | .manage => some (s.callArt symbols apiLevel requests i .manage)
  | _ => none

def step (s : Jdwp ι θ) : JdwpLabel ι → Option (Jdwp ι θ)
  | .go i => s.go symbols apiLevel requests i
  | .sockets i pairs =>
    match s.phase i, pairs with
    | .sockets, some pairs => some (s.setPhase i (.store pairs))
    | .sockets, none => some (s.fail i "unable to create JDWP socketpair")
    | _, _ => none
  | .attached i error =>
    match s.phase i, error with
    | .attach pairs, none => some (s.setPhase i (.replace pairs))
    | .attach _, some error => some (s.fail i ("unable to hook JDWP Accept: " ++ error))
    | _, _ => none
  | .replaced i error =>
    match s.phase i, error with
    | .replace pairs, none => some { s.setPhase i (.install pairs) with replaced := true }
    | .replace _, some error =>
      some (s.fail i ("unable to replace JDWP ReceiveClientFd: " ++ error))
    | _, _ => none
  | .receive =>
    if s.replaced then
      some { s with receiveClientFd := none, received := s.received ++ [s.receiveClientFd] }
    else none
  | .art registry active => some { s with registry := registry, active := active }

/-! ## What a step does -/

/-- What a step with a label does. -/
inductive Took (s : Jdwp ι θ) : JdwpLabel ι → Jdwp ι θ → Prop
  | supported (i) (hp : s.phase i = .ensure) (hs : DbgSupported symbols) :
    Took s (.go i) (s.setPhase i .isStarted)
  | unsupported (i) (error) (hp : s.phase i = .ensure)
    (herror : ensureDbgDeoptimizationSupported symbols = .error error) :
    Took s (.go i) (s.setPhase i (.done (.error error)))
  | registered (i) (hp : s.phase i = .isStarted) (hregistry : s.registry = true) :
    Took s (.go i) (s.setPhase i .isActive)
  | unregistered (i) (hp : s.phase i = .isStarted) (hregistry : s.registry = false) :
    Took s (.go i) (s.setPhase i .lock)
  | acquire (i) (hp : s.phase i = .lock) (hholder : s.holder = none) :
    Took s (.go i) { s.setPhase i .isStartedAgain with holder := some i }
  | registeredMeanwhile (i) (hp : s.phase i = .isStartedAgain) (hregistry : s.registry = true) :
    Took s (.go i) (s.release i .isActive)
  | stillUnregistered (i) (hp : s.phase i = .isStartedAgain) (hregistry : s.registry = false) :
    Took s (.go i) (s.setPhase i .getSession)
  | session (i) (hp : s.phase i = .getSession) (hsession : s.session ≠ none) :
    Took s (.go i) (s.setPhase i .setAllowed)
  | noSession (i) (hp : s.phase i = .getSession) (hsession : s.session = none) :
    Took s (.go i) (s.setPhase i .sockets)
  | sockets (i) (pairs) (hp : s.phase i = .sockets) :
    Took s (.sockets i (some pairs)) (s.setPhase i (.store pairs))
  | store (i) (pairs) (hp : s.phase i = .store pairs) :
    Took s (.go i)
      { s.setPhase i (.attach pairs) with receiveClientFd := some pairs.client.2 }
  | attached (i) (pairs) (hp : s.phase i = .attach pairs) :
    Took s (.attached i none) (s.setPhase i (.replace pairs))
  | replaced (i) (pairs) (hp : s.phase i = .replace pairs) :
    Took s (.replaced i none) { s.setPhase i (.install pairs) with replaced := true }
  | install (i) (pairs) (hp : s.phase i = .install pairs) (hsession : s.session = none) :
    Took s (.go i) { s.setPhase i .setAllowed with session := some pairs.session }
  | discard (i) (pairs) (hp : s.phase i = .install pairs) (hsession : s.session ≠ none) :
    Took s (.go i)
      { s.setPhase i .setAllowed with
        dropped := s.dropped + 1, receiveClientFd := none, replaced := false }
  | noSockets (i) (reason) (hp : s.phase i = .sockets) :
    Took s (.sockets i none) (s.fail i reason)
  | notAttached (i) (pairs) (error) (reason) (hp : s.phase i = .attach pairs) :
    Took s (.attached i (some error)) (s.fail i reason)
  | notReplaced (i) (pairs) (error) (reason) (hp : s.phase i = .replace pairs) :
    Took s (.replaced i (some error)) (s.fail i reason)
  | startup (i) (p) (hp : s.phase i = p)
    (hstartup : p = .setAllowed ∨ p = .configure ∨ p = .startDebugger) :
    Took s (.go i) (s.callArt symbols apiLevel requests i p)
  | started (i) (hp : s.phase i = .started) : Took s (.go i) (s.release i .isActive)
  | active (i) (hp : s.phase i = .isActive) (hactive : s.active = true) :
    Took s (.go i) (s.setPhase i .request)
  | notActive (i) (hp : s.phase i = .isActive) (hactive : s.active = false) :
    Took s (.go i) (s.setPhase i .goActive)
  | request (i) (p) (hp : s.phase i = p) (hrequest : p = .goActive ∨ p = .request ∨ p = .manage) :
    Took s (.go i) (s.callArt symbols apiLevel requests i p)
  | receive (hreplaced : s.replaced = true) :
    Took s .receive
      { s with receiveClientFd := none, received := s.received ++ [s.receiveClientFd] }
  | art (registry active) :
    Took s (.art registry active) { s with registry := registry, active := active }

variable {symbols apiLevel requests}

theorem took_of_go {s t : Jdwp ι θ} {i : ι} (h : s.go symbols apiLevel requests i = some t) :
    Took symbols apiLevel requests s (.go i) t := by
  rw [go] at h
  split at h
  case h_1 hp =>
    split at h
    case h_1 hok =>
      obtain rfl := Option.some.inj h
      exact .supported i hp (ensureDbgDeoptimizationSupported_eq_ok_iff.mp hok)
    case h_2 error herror =>
      obtain rfl := Option.some.inj h
      exact .unsupported i error hp herror
  case h_2 hp =>
    obtain rfl := Option.some.inj h
    split
    case isTrue hregistry => exact .registered i hp hregistry
    case isFalse hregistry => exact .unregistered i hp (Bool.eq_false_of_not_eq_true hregistry)
  case h_3 hp =>
    split at h
    case h_1 => cases h
    case h_2 hholder =>
      obtain rfl := Option.some.inj h
      exact .acquire i hp hholder
  case h_4 hp =>
    split at h
    case isTrue hregistry =>
      obtain rfl := Option.some.inj h
      exact .registeredMeanwhile i hp hregistry
    case isFalse hregistry =>
      obtain rfl := Option.some.inj h
      exact .stillUnregistered i hp (Bool.eq_false_of_not_eq_true hregistry)
  case h_5 hp =>
    obtain rfl := Option.some.inj h
    split
    case isTrue hsession => exact .session i hp (Option.ne_none_iff_isSome.mpr hsession)
    case isFalse hsession => exact .noSession i hp (Option.not_isSome_iff_eq_none.mp hsession)
  case h_6 pairs hp =>
    obtain rfl := Option.some.inj h
    exact .store i pairs hp
  case h_7 pairs hp =>
    split at h
    case h_1 hsession =>
      obtain rfl := Option.some.inj h
      exact .install i pairs hp hsession
    case h_2 session hsession =>
      obtain rfl := Option.some.inj h
      refine .discard i pairs hp ?_
      rw [hsession]
      exact Option.some_ne_none session
  case h_8 hp =>
    obtain rfl := Option.some.inj h
    exact .started i hp
  case h_9 hp =>
    obtain rfl := Option.some.inj h
    split
    case isTrue hactive => exact .active i hp hactive
    case isFalse hactive => exact .notActive i hp (Bool.eq_false_of_not_eq_true hactive)
  case h_10 hp =>
    obtain rfl := Option.some.inj h
    exact .startup i _ hp (.inl rfl)
  case h_11 hp =>
    obtain rfl := Option.some.inj h
    exact .startup i _ hp (.inr (.inl rfl))
  case h_12 hp =>
    obtain rfl := Option.some.inj h
    exact .startup i _ hp (.inr (.inr rfl))
  case h_13 hp =>
    obtain rfl := Option.some.inj h
    exact .request i _ hp (.inl rfl)
  case h_14 hp =>
    obtain rfl := Option.some.inj h
    exact .request i _ hp (.inr (.inl rfl))
  case h_15 hp =>
    obtain rfl := Option.some.inj h
    exact .request i _ hp (.inr (.inr rfl))
  case h_16 => cases h

theorem took_of_step {s t : Jdwp ι θ} {l : JdwpLabel ι}
    (h : s.step symbols apiLevel requests l = some t) : Took symbols apiLevel requests s l t := by
  rw [step.eq_def] at h
  cases l with
  | go i => exact took_of_go h
  | sockets i pairs =>
    dsimp only at h
    split at h
    case h_1 pairs hp =>
      obtain rfl := Option.some.inj h
      exact .sockets i pairs hp
    case h_2 hp =>
      obtain rfl := Option.some.inj h
      exact .noSockets i _ hp
    case h_3 => cases h
  | attached i error =>
    dsimp only at h
    split at h
    case h_1 pairs hp =>
      obtain rfl := Option.some.inj h
      exact .attached i pairs hp
    case h_2 pairs error hp =>
      obtain rfl := Option.some.inj h
      exact .notAttached i pairs error _ hp
    case h_3 => cases h
  | replaced i error =>
    dsimp only at h
    split at h
    case h_1 pairs hp =>
      obtain rfl := Option.some.inj h
      exact .replaced i pairs hp
    case h_2 pairs error hp =>
      obtain rfl := Option.some.inj h
      exact .notReplaced i pairs error _ hp
    case h_3 => cases h
  | receive =>
    dsimp only at h
    split at h
    case isTrue hreplaced =>
      obtain rfl := Option.some.inj h
      exact .receive hreplaced
    case isFalse => cases h
  | art registry active =>
    obtain rfl := Option.some.inj h
    exact .art registry active

end Jdwp

/-- Requests of a process whose debugger has no session yet. -/
def jdwp {ι : Type} (θ : Type) [DecidableEq ι] (symbols : DeoptimizationArtSymbols)
    (apiLevel : Int) (requests : ι → DeoptimizationRequest) :
    Machine (Jdwp ι θ) (JdwpLabel ι) where
  Init s := ∃ registry active,
    s = ⟨registry, active, none, 0, none, none, false, [], fun _ ↦ .ensure, []⟩
  step := Jdwp.step symbols apiLevel requests

end JavaBridge.Art

import JavaBridge.Art.JdwpSession

/-!
# What the debugger session keeps

The lock lets one request in at a time, so what the session and the descriptor are depends on how
far that request is. The calls of a startup are made by one request after the other, none of them
in between two calls of another.

Main results:

* `Jdwp.Inv.step`: what every step keeps.
* `ensureJdwpReady_lawful`: one session that is never dropped, one descriptor that is handed out
  once, and whole startups, in any order of the steps.
-/

namespace JavaBridge.Art

/-- A call that is part of the startup of the debugger. -/
def ArtCall.isStartup : ArtCall → Bool
  | setJdwpAllowed _ _ | configureJdwp _ _ | startDebugger _ _ | startJdwp _ => true
  | goActive _ | requestDeoptimization _ _ | manageDeoptimization _ => false

/-! ## Calls of ART -/

namespace JdwpPhase

variable {θ : Type} (symbols : DeoptimizationArtSymbols) (apiLevel : Int)
  (request : DeoptimizationRequest)

/-- The calls that are made in some phases. -/
def calls (phases : List (JdwpPhase θ)) : List ArtCall :=
  phases.filterMap (artCall symbols apiLevel request)

/-- The number of calls of a startup that have been made. -/
def progress : JdwpPhase θ → Nat
  | configure => 1
  | startDebugger => 2
  | started => 3
  | _ => 0

/-- The request has found under the lock that the debugger is not started. -/
def Starting : JdwpPhase θ → Prop
  | isStartedAgain => False
  | p => p.Inside

/-- The first calls of a startup. -/
def startup (θ : Type) (n : Nat) : List ArtCall :=
  calls symbols apiLevel request
    (([setAllowed, configure, startDebugger] : List (JdwpPhase θ)).take n)

/-- The debugger has been started, or did not have to be. -/
def Ready (θ : Type) (made : List ArtCall) : Prop :=
  made = [] ∨ made = startup symbols apiLevel request θ 3

/-- The debugger is active, too. -/
def Active (θ : Type) (made : List ArtCall) : Prop :=
  ∃ ready, Ready symbols apiLevel request θ ready ∧
    (made = ready ∨ made = ready ++ calls symbols apiLevel request [goActive (θ := θ)])

/-- The calls that a request has made in a phase. -/
def Sofar (p : JdwpPhase θ) (made : List ArtCall) : Prop :=
  match p with
  | .ensure | .done (.error _) => made = []
  | .isActive | .goActive => DbgSupported symbols ∧ Ready symbols apiLevel request θ made
  | .request => DbgSupported symbols ∧ Active symbols apiLevel request θ made
  | .manage => DbgSupported symbols ∧ ∃ active, Active symbols apiLevel request θ active ∧
      made = active ++ calls symbols apiLevel request [JdwpPhase.request (θ := θ)]
  | .done (.ok _) => DbgSupported symbols ∧ ∃ active, Active symbols apiLevel request θ active ∧
      made = active ++ calls symbols apiLevel request [JdwpPhase.request (θ := θ), manage]
  | .panicked => False
  | p => DbgSupported symbols ∧ made = startup symbols apiLevel request θ p.progress

/-- What the session is. -/
inductive Stage
  | any
  | fresh
  | stored (pairs : SocketPairs)
  | handing (pairs : SocketPairs)
  | installed

/-- What the session is while a request with the lock is in a phase. -/
def stage : JdwpPhase θ → Stage
  | sockets | store _ => .fresh
  | attach pairs | replace pairs => .stored pairs
  | install pairs => .handing pairs
  | setAllowed | configure | startDebugger | started => .installed
  | _ => .any

section

variable {symbols : DeoptimizationArtSymbols} {apiLevel : Int} {request : DeoptimizationRequest}
  {made : List ArtCall} {p : JdwpPhase θ}

/-- Where the debugger is supported, no function of ART is missing. -/
theorem exists_artCall (hs : DbgSupported symbols)
    (hp : p ∈ [setAllowed, configure, startDebugger, goActive, .request, manage]) :
    ∃ call, artCall symbols apiLevel request p = some call := by
  simp only [List.mem_cons, List.not_mem_nil, or_false] at hp
  rw [← Option.isSome_iff_exists]
  rcases hp with rfl | rfl | rfl | rfl | rfl | rfl
  · rw [artCall, Option.isSome_map]
    exact hs.setJdwpAllowed
  · rw [artCall, Option.isSome_map]
    exact hs.configureJdwp
  · rw [artCall]
    split
    case h_1 => rfl
    case h_2 hnone =>
      rw [Option.isSome_map]
      apply hs.start.resolve_left
      rw [hnone]
      exact Bool.false_ne_true
  · rw [artCall, Option.isSome_map]
    exact hs.goActive
  · rw [artCall, Option.isSome_map]
    exact hs.requestDeoptimization
  · rw [artCall, Option.isSome_map]
    exact hs.manageDeoptimization

theorem startup_afterCall (hp : p = setAllowed ∨ p = configure ∨ p = startDebugger) :
    startup symbols apiLevel request θ p.afterCall.progress =
      startup symbols apiLevel request θ p.progress ++ calls symbols apiLevel request [p] := by
  rcases hp with rfl | rfl | rfl
  · rfl
  · exact List.filterMap_append (l := [setAllowed])
  · exact List.filterMap_append (l := [setAllowed, configure])

theorem isStartup_of_artCall {call : ArtCall}
    (hp : p = setAllowed ∨ p = configure ∨ p = startDebugger)
    (h : artCall symbols apiLevel request p = some call) : call.isStartup = true := by
  rcases hp with rfl | rfl | rfl
  · obtain ⟨function, -, rfl⟩ := Option.map_eq_some_iff.mp h
    rfl
  · obtain ⟨function, -, rfl⟩ := Option.map_eq_some_iff.mp h
    rfl
  · rw [artCall] at h
    split at h
    case h_1 function _ =>
      obtain rfl := Option.some.inj h
      rfl
    case h_2 =>
      obtain ⟨function, -, rfl⟩ := Option.map_eq_some_iff.mp h
      rfl

theorem not_isStartup_of_artCall {call : ArtCall}
    (hp : p = goActive ∨ p = .request ∨ p = manage)
    (h : artCall symbols apiLevel request p = some call) : call.isStartup = false := by
  rcases hp with rfl | rfl | rfl
  all_goals
    obtain ⟨function, -, rfl⟩ := Option.map_eq_some_iff.mp h
    rfl

theorem calls_singleton {call : ArtCall} (h : artCall symbols apiLevel request p = some call) :
    calls symbols apiLevel request [p] = [call] :=
  List.filterMap_cons_some h

theorem isStartup_of_mem_startup {n : Nat} {call : ArtCall}
    (h : call ∈ startup symbols apiLevel request θ n) : call.isStartup = true := by
  obtain ⟨q, hq, hcall⟩ := List.mem_filterMap.mp h
  refine isStartup_of_artCall ?_ hcall
  simpa only [List.mem_cons, List.not_mem_nil, or_false] using List.mem_of_mem_take hq

theorem sofar_iff_of_inside (hp : p.Inside) : Sofar symbols apiLevel request p made ↔
    DbgSupported symbols ∧ made = startup symbols apiLevel request θ p.progress := by
  cases p <;> first | exact Iff.rfl | exact hp.elim

/-- A request that has made a call of a startup has a session. -/
theorem stage_of_progress_ne_zero (h : p.progress ≠ 0) :
    p.stage = .installed ∧ p.Starting := by
  cases p with
  | configure => exact ⟨rfl, trivial⟩
  | startDebugger => exact ⟨rfl, trivial⟩
  | started => exact ⟨rfl, trivial⟩
  | _ => exact absurd rfl h

end

end JdwpPhase

namespace Jdwp

open JdwpPhase (Inside startup progress Sofar)

variable {ι θ : Type} [DecidableEq ι]

/-! ## The session -/

/-- The descriptor is there to be taken, or has been taken once. -/
def Handed (s : Jdwp ι θ) (fd : Nat) : Prop :=
  (s.receiveClientFd = some fd ∧ s.received = []) ∨
    (s.receiveClientFd = none ∧ ∃ n, s.received = some fd :: List.replicate n none)

def Untouched (s : Jdwp ι θ) : Prop :=
  s.session = none ∧ s.replaced = false ∧ s.received = []

def Installed (s : Jdwp ι θ) : Prop :=
  s.replaced = true ∧ ∃ session, s.session = some session ∧ s.Handed session.clientPeerFd

def SessionLaw (s : Jdwp ι θ) : JdwpPhase.Stage → Prop
  | .any => s.Untouched ∨ s.Installed
  | .fresh => s.Untouched
  | .stored pairs => s.Untouched ∧ s.receiveClientFd = some pairs.client.2
  | .handing pairs => s.session = none ∧ s.replaced = true ∧ s.Handed pairs.client.2
  | .installed => s.Installed

/-! ## Startups -/

variable (symbols : DeoptimizationArtSymbols) (apiLevel : Int)
  (requests : ι → DeoptimizationRequest)

/-- The calls of the startup of a request. -/
def startupOf (θ : Type) (n : Nat) (i : ι) : List (ι × ArtCall) :=
  (startup symbols apiLevel (requests i) θ n).map (Prod.mk i)

/-- The startups of some requests, one after the other, and then a part of one. -/
def Startups (s : Jdwp ι θ) (owners : List ι) (x : Option (ι × JdwpPhase θ)) : Prop :=
  s.log.filter (·.2.isStartup) = owners.flatMap (startupOf symbols apiLevel requests θ 3) ++
    x.elim [] fun y ↦ startupOf symbols apiLevel requests θ y.2.progress y.1

/-- A debugger that has been started stays so. -/
def Registered (s : Jdwp ι θ) (owners : List ι) (x : Option (ι × JdwpPhase θ)) : Prop :=
  owners = [] ∨ owners.length ≤ 1 ∧ s.registry = true ∧ ∀ y ∈ x, ¬y.2.Starting

structure Law (lasting : Prop) (x : Option (ι × JdwpPhase θ)) (s : Jdwp ι θ) : Prop where
  kept : s.dropped = 0
  session : s.SessionLaw (x.elim .any (·.2.stage))
  startups : ∃ owners, s.Startups symbols apiLevel requests owners x ∧
    (owners ≠ [] → s.session ≠ none) ∧ (lasting → s.Registered owners x)

/-- The calls of a request. -/
def callsOf (s : Jdwp ι θ) (i : ι) : List ArtCall :=
  (s.log.filter (·.1 = i)).map Prod.snd

structure Inv (lasting : Prop) (s : Jdwp ι θ) : Prop where
  guarded : Once.Guarded Inside (Law symbols apiLevel requests lasting) s.phase s.holder s
  sofar : ∀ i, Sofar symbols apiLevel (requests i) (s.phase i) (s.callsOf i)

namespace Inv

variable {symbols apiLevel requests} {lasting : Prop} {s t : Jdwp ι θ} {i : ι} {p : JdwpPhase θ}

/-- What a request has called after one has made some calls. -/
theorem callsOf_append {made : List ArtCall} (ht : t.log = s.log ++ made.map (Prod.mk i)) (j : ι) :
    t.callsOf j = if j = i then s.callsOf i ++ made else s.callsOf j := by
  rw [callsOf, ht, List.filter_append, List.map_append]
  split
  case isTrue hj =>
    subst hj
    congr 1
    rw [List.filter_eq_self.mpr, List.map_map]
    · exact List.map_id made
    · intro call hcall
      obtain ⟨call', -, rfl⟩ := List.mem_map.mp hcall
      exact decide_eq_true rfl
  case isFalse hj =>
    refine (congrArg _ ?_).trans (List.append_nil _)
    rw [List.map_eq_nil_iff, List.filter_eq_nil_iff]
    intro call hcall
    obtain ⟨call', -, rfl⟩ := List.mem_map.mp hcall
    rw [decide_eq_true_iff]
    exact Ne.symm hj

/-- A request takes a step with some calls, and the others do not. -/
theorem sofar_update (h : Inv symbols apiLevel requests lasting s) (made : List ArtCall)
    (ht : t.log = s.log ++ made.map (Prod.mk i))
    (hp : Sofar symbols apiLevel (requests i) p (s.callsOf i ++ made)) (j : ι) :
    Sofar symbols apiLevel (requests j) (Function.update s.phase i p j) (t.callsOf j) := by
  rw [callsOf_append ht]
  by_cases hj : j = i
  · subst hj
    rw [if_pos rfl, Function.update_self]
    exact hp
  · rw [if_neg hj, Function.update_of_ne hj]
    exact h.sofar j

/-- A request without the lock takes a step, with calls that are no part of a startup. -/
theorem outside (h : Inv symbols apiLevel requests lasting s) (made : List ArtCall)
    {log : List (ι × ArtCall)} (hlog : log = s.log ++ made.map (Prod.mk i))
    (hmade : ∀ call ∈ made, call.isStartup = false) (hi : ¬(s.phase i).Inside) (hp : ¬p.Inside)
    (hsofar : Sofar symbols apiLevel (requests i) (s.phase i) (s.callsOf i) →
      Sofar symbols apiLevel (requests i) p (s.callsOf i ++ made)) :
    Inv symbols apiLevel requests lasting { s.setPhase i p with log := log } := by
  refine ⟨h.guarded.outside hi hp ?_, h.sofar_update made hlog (hsofar (h.sofar i))⟩
  rintro x ⟨hkept, hsession, owners, hstartups, hstarted⟩
  refine ⟨hkept, hsession, owners, ?_, hstarted⟩
  have hnone : (made.map (Prod.mk i)).filter (·.2.isStartup) = [] := by
    rw [List.filter_eq_nil_iff]
    intro call hcall
    obtain ⟨call', hcall', rfl⟩ := List.mem_map.mp hcall
    rw [Bool.not_eq_true]
    exact hmade call' hcall'
  rw [Startups] at hstartups ⊢
  dsimp only
  rw [hlog, List.filter_append, hnone, List.append_nil, hstartups]

/-- The request with the lock takes a step and keeps it. -/
theorem within (h : Inv symbols apiLevel requests lasting s) (made : List ArtCall)
    {session : Option ArtJdwpSession} {fd : Option Nat} {replaced : Bool}
    {log : List (ι × ArtCall)} (hlog : log = s.log ++ made.map (Prod.mk i))
    (hmade : startup symbols apiLevel (requests i) θ p.progress =
      startup symbols apiLevel (requests i) θ (s.phase i).progress ++ made)
    (hi : (s.phase i).Inside) (hp : p.Inside)
    (hstarting : p.Starting → (s.phase i).Starting ∨ s.registry = false)
    (hkeep : s.session ≠ none → session ≠ none)
    (hsession : s.SessionLaw (s.phase i).stage → SessionLaw { s.setPhase i p with
      session := session, receiveClientFd := fd, replaced := replaced, log := log } p.stage) :
    Inv symbols apiLevel requests lasting { s.setPhase i p with
      session := session, receiveClientFd := fd, replaced := replaced, log := log } := by
  obtain ⟨hs, hcalls⟩ := (JdwpPhase.sofar_iff_of_inside hi).mp (h.sofar i)
  refine ⟨h.guarded.within hi hp ?_, h.sofar_update made hlog ?_⟩
  · rintro ⟨hkept, hold, owners, hstartups, hstarted, hregistered⟩
    refine ⟨hkept, hsession hold, owners, ?_, fun howners ↦ hkeep (hstarted howners), ?_⟩
    · have hfilter : (made.map (Prod.mk i)).filter (·.2.isStartup) = made.map (Prod.mk i) := by
        rw [List.filter_eq_self]
        intro call hcall
        obtain ⟨call', hcall', rfl⟩ := List.mem_map.mp hcall
        have hstartup : call' ∈ startup symbols apiLevel (requests i) θ p.progress := by
          rw [hmade]
          exact List.mem_append_right _ hcall'
        exact JdwpPhase.isStartup_of_mem_startup hstartup
      rw [Startups] at hstartups ⊢
      dsimp only [Option.elim_some] at hstartups ⊢
      rw [hlog, List.filter_append, hfilter, hstartups, startupOf, startupOf, hmade,
        List.map_append, List.append_assoc]
    · intro hlasting
      rcases hregistered hlasting with hnone | ⟨hlength, hregistry, hother⟩
      · exact .inl hnone
      · refine .inr ⟨hlength, hregistry, ?_⟩
        intro y hy hstart
        cases hy
        rcases hstarting hstart with hold | hfalse
        · exact hother _ rfl hold
        · cases hregistry.symm.trans hfalse
  · rw [JdwpPhase.sofar_iff_of_inside hp, hcalls, hmade]
    exact ⟨hs, rfl⟩

/-- A request without the lock takes a step without a call. -/
theorem move {q : JdwpPhase θ} (h : Inv symbols apiLevel requests lasting s) (hi : s.phase i = q)
    (hq : ¬q.Inside) (hp : ¬p.Inside) (hsofar : ∀ made, Sofar symbols apiLevel (requests i) q made →
      Sofar symbols apiLevel (requests i) p made) :
    Inv symbols apiLevel requests lasting (s.setPhase i p) := by
  subst hi
  refine h.outside [] (List.append_nil _).symm (by simp) hq hp ?_
  rw [List.append_nil]
  exact hsofar _

/-- The request with the lock takes a step without a call, and keeps the lock. -/
theorem stay {q : JdwpPhase θ} {session : Option ArtJdwpSession} {fd : Option Nat} {replaced : Bool}
    (h : Inv symbols apiLevel requests lasting s) (hi : s.phase i = q) (hq : q.Inside)
    (hp : p.Inside) (hprogress : p.progress = q.progress)
    (hstarting : q.Starting ∨ s.registry = false) (hkeep : s.session ≠ none → session ≠ none)
    (hsession : s.SessionLaw q.stage → SessionLaw { s.setPhase i p with
      session := session, receiveClientFd := fd, replaced := replaced } p.stage) :
    Inv symbols apiLevel requests lasting { s.setPhase i p with
      session := session, receiveClientFd := fd, replaced := replaced } := by
  subst hi
  refine h.within [] (List.append_nil _).symm ?_ hq hp (fun _ ↦ hstarting) hkeep hsession
  rw [hprogress, List.append_nil]

/-- The request with the lock gives it back before it starts the debugger. -/
theorem giveUp {q : JdwpPhase θ} (h : Inv symbols apiLevel requests lasting s)
    (hi : s.phase i = q) (hq : q.Inside) (hp : ¬p.Inside) (hprogress : q.progress = 0)
    (hsession : s.SessionLaw q.stage → s.Untouched ∨ s.Installed)
    (hsofar : DbgSupported symbols → Sofar symbols apiLevel (requests i) p []) :
    Inv symbols apiLevel requests lasting (s.release i p) := by
  subst hi
  obtain ⟨hs, hcalls⟩ := (JdwpPhase.sofar_iff_of_inside hq).mp (h.sofar i)
  rw [hprogress] at hcalls
  refine ⟨h.guarded.leave hq hp ?_, h.sofar_update [] (List.append_nil _).symm ?_⟩
  · rintro ⟨hkept, hold, owners, hstartups, hstarted, hregistered⟩
    refine ⟨hkept, hsession hold, owners, ?_, hstarted, ?_⟩
    · rw [Startups, Option.elim_some, hprogress] at hstartups
      exact hstartups
    · intro hlasting
      refine (hregistered hlasting).imp_right fun hregistry ↦ ⟨hregistry.1, hregistry.2.1, ?_⟩
      intro y hy
      cases hy
  · rw [hcalls]
    exact hsofar hs

/-- The request with the lock has started the debugger. -/
theorem release (h : Inv symbols apiLevel requests lasting s) (hi : s.phase i = .started)
    (hregistry : lasting → s.registry = true) :
    Inv symbols apiLevel requests lasting (s.release i .isActive) := by
  have hinside : (s.phase i).Inside := by
    rw [hi]
    trivial
  obtain ⟨hs, hcalls⟩ := (JdwpPhase.sofar_iff_of_inside hinside).mp (h.sofar i)
  refine ⟨h.guarded.leave hinside id ?_, h.sofar_update [] (List.append_nil _).symm ?_⟩
  · rw [hi]
    rintro ⟨hkept, hold, owners, hstartups, -, hregistered⟩
    refine ⟨hkept, .inr hold, owners ++ [i], ?_, ?_, ?_⟩
    · rw [Startups, Option.elim_some] at hstartups
      rw [Startups, List.flatMap_append, List.flatMap_singleton, Option.elim_none, List.append_nil]
      exact hstartups
    · intro _ hnone
      obtain ⟨-, session, hsome, -⟩ := hold
      cases hnone.symm.trans hsome
    · intro hlasting
      rcases hregistered hlasting with rfl | ⟨-, -, hother⟩
      · refine .inr ⟨Nat.le_refl 1, hregistry hlasting, ?_⟩
        intro y hy
        cases hy
      · exact absurd trivial (hother _ rfl)
  · rw [hcalls, hi, List.append_nil]
    exact ⟨hs, .inr rfl⟩

/-- A request takes the lock. -/
theorem enter (h : Inv symbols apiLevel requests lasting s) (hi : s.phase i = .lock)
    (hholder : s.holder = none) :
    Inv symbols apiLevel requests lasting
      { s.setPhase i .isStartedAgain with holder := some i } := by
  have hguarded := h.guarded
  rw [hholder] at hguarded
  refine ⟨hguarded.enter trivial ?_, h.sofar_update [] (List.append_nil _).symm ?_⟩
  · rintro ⟨hkept, hsession, owners, hstartups, hstarted, hregistered⟩
    refine ⟨hkept, hsession, owners, hstartups, hstarted, fun hlasting ↦ ?_⟩
    refine (hregistered hlasting).imp_right fun hregistry ↦ ⟨hregistry.1, hregistry.2.1, ?_⟩
    intro y hy
    cases hy
    exact id
  · have hsofar := h.sofar i
    rw [hi] at hsofar
    rw [List.append_nil]
    exact hsofar

/-- A request with the lock calls a function of ART. -/
theorem startup (h : Inv symbols apiLevel requests lasting s) (hi : s.phase i = p)
    (hp : p = .setAllowed ∨ p = .configure ∨ p = .startDebugger) :
    Inv symbols apiLevel requests lasting (s.callArt symbols apiLevel requests i p) := by
  have hsofar := h.sofar i
  rw [hi] at hsofar
  have hinside : p.Inside ∧ p.afterCall.Inside ∧ p.Starting ∧
      p.stage = .installed ∧ p.afterCall.stage = .installed := by
    rcases hp with rfl | rfl | rfl
    all_goals exact ⟨trivial, trivial, trivial, rfl, rfl⟩
  obtain ⟨hp', hafter, hstarting, hstage, hstage'⟩ := hinside
  obtain ⟨hs, -⟩ := (JdwpPhase.sofar_iff_of_inside hp').mp hsofar
  obtain ⟨call, hcall⟩ : ∃ call, p.artCall symbols apiLevel (requests i) = some call := by
    apply JdwpPhase.exists_artCall hs
    rcases hp with rfl | rfl | rfl
    · exact .head _
    · exact .tail _ (.head _)
    · exact .tail _ (.tail _ (.head _))
  rw [callArt, hcall]
  subst hi
  refine h.within [call] rfl ?_ hp' hafter (fun _ ↦ .inl hstarting) id ?_
  · rw [JdwpPhase.startup_afterCall hp, JdwpPhase.calls_singleton hcall]
  · rw [hstage, hstage']
    exact id

/-- A request without the lock calls a function of ART. -/
theorem request (h : Inv symbols apiLevel requests lasting s) (hi : s.phase i = p)
    (hp : p = .goActive ∨ p = .request ∨ p = .manage) :
    Inv symbols apiLevel requests lasting (s.callArt symbols apiLevel requests i p) := by
  have hsofar := h.sofar i
  rw [hi] at hsofar
  have hs : DbgSupported symbols := by
    rcases hp with rfl | rfl | rfl
    all_goals exact hsofar.1
  obtain ⟨call, hcall⟩ : ∃ call, p.artCall symbols apiLevel (requests i) = some call := by
    apply JdwpPhase.exists_artCall hs
    rcases hp with rfl | rfl | rfl
    · exact .tail _ (.tail _ (.tail _ (.head _)))
    · exact .tail _ (.tail _ (.tail _ (.tail _ (.head _))))
    · exact .tail _ (.tail _ (.tail _ (.tail _ (.tail _ (.head _)))))
  have hcalls := JdwpPhase.calls_singleton hcall
  rw [callArt, hcall]
  subst hi
  refine h.outside [call] rfl ?_ ?_ ?_ ?_
  · intro call' hcall'
    rw [List.mem_singleton.mp hcall']
    exact JdwpPhase.not_isStartup_of_artCall hp hcall
  · rcases hp with hp | hp | hp
    all_goals
      rw [hp]
      exact id
  · rcases hp with hp | hp | hp
    all_goals
      rw [hp]
      exact id
  · rw [← hcalls]
    rcases hp with hp | hp | hp
    · rw [hp]
      rintro ⟨-, hready⟩
      exact ⟨hs, _, hready, .inr rfl⟩
    · rw [hp]
      rintro ⟨-, hactive⟩
      exact ⟨hs, _, hactive, rfl⟩
    · rw [hp]
      rintro ⟨-, active, hactive, hmade⟩
      refine ⟨hs, active, hactive, ?_⟩
      rw [hmade, List.append_assoc]
      exact congrArg _ (List.filterMap_append (l := [JdwpPhase.request])).symm

end Inv

omit [DecidableEq ι] in
/-- ART takes the descriptor, and later there is none to take. -/
theorem Handed.receive {s : Jdwp ι θ} {fd : Nat} (h : s.Handed fd) :
    Handed { s with receiveClientFd := none, received := s.received ++ [s.receiveClientFd] }
      fd := by
  rcases h with ⟨hfd, hreceived⟩ | ⟨hfd, n, hreceived⟩
  · refine .inr ⟨rfl, 0, ?_⟩
    rw [hfd, hreceived]
    rfl
  · refine .inr ⟨rfl, n + 1, ?_⟩
    rw [hfd, hreceived, List.replicate_succ']
    rfl

omit [DecidableEq ι] in
theorem SessionLaw.receive {s : Jdwp ι θ} {stage : JdwpPhase.Stage} (h : s.SessionLaw stage)
    (hreplaced : s.replaced = true) : SessionLaw
      { s with receiveClientFd := none, received := s.received ++ [s.receiveClientFd] } stage := by
  have huntouched : ¬s.Untouched := by
    rintro ⟨-, hnot, -⟩
    cases hreplaced.symm.trans hnot
  have hinstalled (h : s.Installed) : Installed
      { s with receiveClientFd := none, received := s.received ++ [s.receiveClientFd] } := by
    obtain ⟨-, session, hsession, hfd⟩ := h
    exact ⟨hreplaced, session, hsession, hfd.receive⟩
  cases stage with
  | any => exact .inr (hinstalled (h.resolve_left huntouched))
  | fresh => exact absurd h huntouched
  | stored pairs => exact absurd h.1 huntouched
  | handing pairs => exact ⟨h.1, hreplaced, h.2.2.receive⟩
  | installed => exact hinstalled h

/-- A debugger that is started has a registry, and keeps it. -/
def Lasting (s : Jdwp ι θ) : JdwpLabel ι → Prop
  | .art registry _ => s.registry = true → registry = true
  | .go i =>
    match s.phase i with
    | .started => s.registry = true
    | _ => True
  | _ => True

instance decidableLasting (s : Jdwp ι θ) : DecidablePred s.Lasting
  | .art registry _ => inferInstanceAs (Decidable (s.registry = true → registry = true))
  | .go i => by
    dsimp only [Lasting]
    split
    case h_1 => infer_instance
    case h_2 => infer_instance
  | .sockets _ _ | .attached _ _ | .replaced _ _ | .receive => isTrue trivial

variable {symbols apiLevel requests} {lasting : Prop} {s t : Jdwp ι θ}

/-- **Every step keeps the invariant.** -/
theorem Inv.step (h : Inv symbols apiLevel requests lasting s) {l : JdwpLabel ι}
    (hl : lasting → s.Lasting l) (ht : Took symbols apiLevel requests s l t) :
    Inv symbols apiLevel requests lasting t := by
  cases ht with
  | supported i hp hs => exact h.move hp id id fun _ hnone ↦ ⟨hs, hnone⟩
  | unsupported i error hp => exact h.move hp id id fun _ ↦ id
  | registered i hp => exact h.move hp id id fun _ hnone ↦ ⟨hnone.1, .inl hnone.2⟩
  | unregistered i hp => exact h.move hp id id fun _ ↦ id
  | acquire i hp hholder => exact h.enter hp hholder
  | registeredMeanwhile i hp =>
    exact h.giveUp hp trivial id rfl id fun hs ↦ ⟨hs, .inl rfl⟩
  | stillUnregistered i hp hregistry =>
    exact h.stay hp trivial trivial rfl (.inr hregistry) id id
  | session i hp hsession =>
    refine h.stay hp trivial trivial rfl (.inl trivial) id fun hlaw ↦ hlaw.resolve_left ?_
    exact fun huntouched ↦ hsession huntouched.1
  | noSession i hp hsession =>
    refine h.stay hp trivial trivial rfl (.inl trivial) id fun hlaw ↦ hlaw.resolve_right ?_
    rintro ⟨-, session, hsome, -⟩
    cases hsession.symm.trans hsome
  | sockets i pairs hp => exact h.stay hp trivial trivial rfl (.inl trivial) id id
  | store i pairs hp =>
    exact h.stay hp trivial trivial rfl (.inl trivial) id fun hlaw ↦ ⟨hlaw, rfl⟩
  | attached i pairs hp => exact h.stay hp trivial trivial rfl (.inl trivial) id id
  | replaced i pairs hp =>
    refine h.stay hp trivial trivial rfl (.inl trivial) id ?_
    rintro ⟨⟨hsession, -, hreceived⟩, hfd⟩
    exact ⟨hsession, rfl, .inl ⟨hfd, hreceived⟩⟩
  | install i pairs hp hsession =>
    refine h.stay hp trivial trivial rfl (.inl trivial) (fun _ ↦ Option.some_ne_none _) ?_
    rintro ⟨-, hreplaced, hfd⟩
    exact ⟨hreplaced, pairs.session, rfl, hfd⟩
  | discard i pairs hp hsession =>
    -- nobody else has installed a session since the request has looked
    have hlaw := h.guarded.law.session
    have hholder : s.holder = some i := (h.guarded.exclusive i).mp (by rw [hp]; trivial)
    rw [hholder, Option.map_some, Option.elim_some, hp] at hlaw
    exact absurd hlaw.1 hsession
  | noSockets i reason hp => exact h.giveUp hp trivial id rfl .inl fun _ ↦ rfl
  | notAttached i pairs error reason hp =>
    exact h.giveUp hp trivial id rfl (fun hlaw ↦ .inl hlaw.1) fun _ ↦ rfl
  | notReplaced i pairs error reason hp =>
    exact h.giveUp hp trivial id rfl (fun hlaw ↦ .inl hlaw.1) fun _ ↦ rfl
  | startup i p hp hstartup => exact h.startup hp hstartup
  | started i hp =>
    refine h.release hp fun hlasting ↦ ?_
    have hregistry := hl hlasting
    rw [Lasting, hp] at hregistry
    exact hregistry
  | active i hp => exact h.move hp id id fun _ hready ↦ ⟨hready.1, _, hready.2, .inl rfl⟩
  | notActive i hp => exact h.move hp id id fun _ ↦ id
  | request i p hp hrequest => exact h.request hp hrequest
  | receive hreplaced =>
    refine ⟨h.guarded.shared ?_, h.sofar⟩
    rintro x ⟨hkept, hsession, hstartups⟩
    exact ⟨hkept, hsession.receive hreplaced, hstartups⟩
  | art registry active =>
    refine ⟨h.guarded.shared ?_, h.sofar⟩
    rintro x ⟨hkept, hsession, owners, hstartups, hstarted, hregistered⟩
    refine ⟨hkept, hsession, owners, hstartups, hstarted, fun hlasting ↦ ?_⟩
    refine (hregistered hlasting).imp_right fun hregistry ↦ ⟨hregistry.1, ?_, hregistry.2.2⟩
    exact hl hlasting hregistry.2.1

/-! ## Any order of the steps -/

variable (symbols apiLevel requests)

/-- A request that does not wait for the lock can go on. -/
theorem exists_step (i : ι) (hdone : ∀ result, s.phase i ≠ .done result)
    (hpanicked : s.phase i ≠ .panicked) (hlock : s.phase i = .lock → s.holder = none) :
    ∃ l : JdwpLabel ι, l.caller = some i ∧ (s.step symbols apiLevel requests l).isSome := by
  cases hp : s.phase i with
  | sockets => exact ⟨.sockets i none, rfl, by rw [Jdwp.step.eq_def]; simp [hp]⟩
  | attach pairs => exact ⟨.attached i none, rfl, by rw [Jdwp.step.eq_def]; simp [hp]⟩
  | replace pairs => exact ⟨.replaced i none, rfl, by rw [Jdwp.step.eq_def]; simp [hp]⟩
  | done result => exact absurd hp (hdone result)
  | panicked => exact absurd hp hpanicked
  | lock =>
    refine ⟨.go i, rfl, ?_⟩
    rw [Jdwp.step, go, hp, hlock hp]
    rfl
  | ensure =>
    refine ⟨.go i, rfl, ?_⟩
    rw [Jdwp.step, go, hp]
    dsimp only
    split
    case h_1 => rfl
    case h_2 => rfl
  | isStartedAgain =>
    refine ⟨.go i, rfl, ?_⟩
    rw [Jdwp.step, go, hp]
    dsimp only
    split
    case isTrue => rfl
    case isFalse => rfl
  | install pairs =>
    refine ⟨.go i, rfl, ?_⟩
    rw [Jdwp.step, go, hp]
    dsimp only
    split
    case h_1 => rfl
    case h_2 => rfl
  | _ =>
    refine ⟨.go i, rfl, ?_⟩
    rw [Jdwp.step, go, hp]
    rfl

/-- What is true of the requests in any order of their steps. -/
structure Lawful (s : Jdwp ι θ) : Prop where
  exclusive : ∀ i j, (s.phase i).Inside → (s.phase j).Inside → i = j
  /-- No session is dropped, which would take the descriptor back. -/
  kept : s.dropped = 0
  /-- ART is given one descriptor, that of the session. -/
  handed : ∀ session, s.session = some session →
    s.replaced = true ∧ s.Handed session.clientPeerFd
  received : s.received = [] ∨ ∃ fd n, s.received = some fd :: List.replicate n none
  /-- Whole startups, one after the other, and what the holder of the lock has done of one. -/
  startups : ∃ owners, s.Startups symbols apiLevel requests owners
    (s.holder.map fun i ↦ (i, s.phase i))
  /-- The debugger is not started without a session. -/
  started : s.log.filter (·.2.isStartup) ≠ [] → s.session ≠ none
  succeeded : ∀ i, s.phase i = .done (.ok ⟨⟩) →
    ∃ made, JdwpPhase.Active symbols apiLevel (requests i) θ made ∧ s.callsOf i = made ++
      JdwpPhase.calls symbols apiLevel (requests i) [JdwpPhase.request (θ := θ), .manage]
  failed : ∀ i error, s.phase i = .done (.error error) → s.callsOf i = []
  not_panicked : ∀ i, s.phase i ≠ .panicked
  progress : ∀ i, (∀ result, s.phase i ≠ .done result) → ∃ j, (j = i ∨ s.holder = some j) ∧
    ∃ l : JdwpLabel ι, l.caller = some j ∧ (s.step symbols apiLevel requests l).isSome

variable {symbols apiLevel requests}

omit [DecidableEq ι] in
/-- The descriptor that is handed out is the one of the session. -/
theorem SessionLaw.handed {stage : JdwpPhase.Stage} (h : s.SessionLaw stage)
    {session : ArtJdwpSession} (hs : s.session = some session) :
    s.replaced = true ∧ s.Handed session.clientPeerFd := by
  have hinstalled : s.Installed := by
    have huntouched : ¬s.Untouched := by
      rintro ⟨hnone, -⟩
      cases hs.symm.trans hnone
    cases stage with
    | any => exact h.resolve_left huntouched
    | fresh => exact absurd h huntouched
    | stored pairs => exact absurd h.1 huntouched
    | handing pairs => cases hs.symm.trans h.1
    | installed => exact h
  obtain ⟨hreplaced, session', hs', hfd⟩ := hinstalled
  obtain rfl := Option.some.inj (hs.symm.trans hs')
  exact ⟨hreplaced, hfd⟩

omit [DecidableEq ι] in
theorem Handed.received {fd : Nat} (h : s.Handed fd) :
    s.received = [] ∨ ∃ fd n, s.received = some fd :: List.replicate n none := by
  rcases h with ⟨-, hnone⟩ | ⟨-, n, hsome⟩
  · exact .inl hnone
  · exact .inr ⟨fd, n, hsome⟩

omit [DecidableEq ι] in
theorem Installed.received (h : s.Installed) :
    s.received = [] ∨ ∃ fd n, s.received = some fd :: List.replicate n none := by
  obtain ⟨-, session, -, hfd⟩ := h
  exact hfd.received

omit [DecidableEq ι] in
theorem SessionLaw.received {stage : JdwpPhase.Stage} (h : s.SessionLaw stage) :
    s.received = [] ∨ ∃ fd n, s.received = some fd :: List.replicate n none := by
  cases stage with
  | any =>
    rcases h with huntouched | hinstalled
    · exact .inl huntouched.2.2
    · exact hinstalled.received
  | fresh => exact .inl h.2.2
  | stored pairs => exact .inl h.1.2.2
  | handing pairs => exact h.2.2.received
  | installed => exact Installed.received h

namespace Inv

theorem start (registry active : Bool) : Inv symbols apiLevel requests lasting
    (⟨registry, active, none, 0, none, none, false, [], fun _ ↦ .ensure, []⟩ : Jdwp ι θ) where
  guarded := by
    constructor
    case exclusive =>
      intro i
      constructor
      · intro hinside
        cases hinside
      · intro hholder
        cases hholder
    case law =>
      refine ⟨rfl, .inl ⟨rfl, rfl, rfl⟩, [], rfl, ?_, fun _ ↦ .inl rfl⟩
      intro hne
      exact absurd rfl hne
  sofar _ := rfl

theorem of_reachableVia (h : (jdwp θ symbols apiLevel requests).ReachableVia
    (fun s l ↦ lasting → s.Lasting l) s) : Inv symbols apiLevel requests lasting s := by
  refine h.invariant ?_ ?_
  · rintro s ⟨registry, active, rfl⟩
    exact start registry active
  · intro s l t hs hl hstep
    exact hs.step hl (took_of_step hstep)

theorem not_panicked (h : Inv symbols apiLevel requests lasting s) (i : ι) :
    s.phase i ≠ .panicked := by
  intro hp
  have hsofar := h.sofar i
  rw [hp] at hsofar
  exact hsofar

/-- Who has made a call of a startup has found a session, or made one. -/
theorem session_ne_none (h : Inv symbols apiLevel requests lasting s)
    (hne : s.log.filter (·.2.isStartup) ≠ []) : s.session ≠ none := by
  obtain ⟨-, hsession, owners, hstartups, hstarted, -⟩ := h.guarded.law
  cases owners with
  | cons i owners => exact hstarted (List.cons_ne_nil i owners)
  | nil =>
    rw [Startups, List.flatMap_nil, List.nil_append] at hstartups
    cases hholder : s.holder with
    | none =>
      rw [hholder] at hstartups
      exact absurd hstartups hne
    | some i =>
      rw [hholder, Option.map_some, Option.elim_some] at hstartups hsession
      have hprogress : (s.phase i).progress ≠ 0 := by
        intro hzero
        rw [hzero] at hstartups
        exact hne hstartups
      rw [(JdwpPhase.stage_of_progress_ne_zero hprogress).1] at hsession
      obtain ⟨-, session, hsome, -⟩ := hsession
      rw [hsome]
      exact Option.some_ne_none session

theorem progress (h : Inv symbols apiLevel requests lasting s) (i : ι)
    (hi : ∀ result, s.phase i ≠ .done result) : ∃ j, (j = i ∨ s.holder = some j) ∧
      ∃ l : JdwpLabel ι, l.caller = some j ∧ (s.step symbols apiLevel requests l).isSome := by
  by_cases hwait : s.phase i = .lock → s.holder = none
  · exact ⟨i, .inl rfl, exists_step symbols apiLevel requests i hi (h.not_panicked i) hwait⟩
  · push Not at hwait
    obtain ⟨-, hholder⟩ := hwait
    obtain ⟨j, hj⟩ := Option.ne_none_iff_exists'.mp hholder
    have hinside := (h.guarded.exclusive j).mpr hj
    refine ⟨j, .inr hj, exists_step symbols apiLevel requests j ?_ (h.not_panicked j) ?_⟩
    · intro result hdone
      rw [hdone] at hinside
      exact hinside
    · intro hlock
      rw [hlock] at hinside
      exact hinside.elim

theorem lawful (h : Inv symbols apiLevel requests lasting s) :
    Lawful symbols apiLevel requests s where
  exclusive i j hi hj := h.guarded.exclusive.eq hi hj
  kept := h.guarded.law.kept
  handed session hs := h.guarded.law.session.handed hs
  received := h.guarded.law.session.received
  startups := by
    obtain ⟨owners, hstartups, -⟩ := h.guarded.law.startups
    exact ⟨owners, hstartups⟩
  started := h.session_ne_none
  succeeded i hi := by
    have hsofar := h.sofar i
    rw [hi] at hsofar
    exact hsofar.2
  failed i error hi := by
    have hsofar := h.sofar i
    rw [hi] at hsofar
    exact hsofar
  not_panicked := h.not_panicked
  progress := h.progress

/-- Where the debugger stays started, there is one startup at most. -/
theorem once (h : Inv symbols apiLevel requests True s) : s.log.filter (·.2.isStartup) = [] ∨
    ∃ i n, s.log.filter (·.2.isStartup) = startupOf symbols apiLevel requests θ n i := by
  obtain ⟨owners, hstartups, -, hregistered⟩ := h.guarded.law.startups
  rw [Startups] at hstartups
  rcases hregistered trivial with rfl | ⟨hlength, -, hother⟩
  · rw [List.flatMap_nil, List.nil_append] at hstartups
    cases hholder : s.holder with
    | none =>
      rw [hholder] at hstartups
      exact .inl hstartups
    | some i =>
      rw [hholder] at hstartups
      exact .inr ⟨i, _, hstartups⟩
  · have hrest : (s.holder.map fun i ↦ (i, s.phase i)).elim []
        (fun y ↦ startupOf symbols apiLevel requests θ y.2.progress y.1) = [] := by
      cases hholder : s.holder with
      | none => rfl
      | some i =>
        rw [hholder] at hother
        have hzero : (s.phase i).progress = 0 := by
          by_contra hne
          exact hother _ rfl (JdwpPhase.stage_of_progress_ne_zero hne).2
        rw [Option.map_some, Option.elim_some, hzero]
        rfl
    rw [hrest, List.append_nil] at hstartups
    cases owners with
    | nil => exact .inl hstartups
    | cons i owners =>
      obtain rfl := List.length_eq_zero_iff.mp (Nat.le_zero.mp (Nat.le_of_succ_le_succ hlength))
      rw [List.flatMap_singleton] at hstartups
      exact .inr ⟨i, 3, hstartups⟩

end Inv

end Jdwp

section

variable {ι θ : Type} [DecidableEq ι] {symbols : DeoptimizationArtSymbols} {apiLevel : Int}
  {requests : ι → DeoptimizationRequest}

/-- **The debugger gets one session and whole startups**, and each request the calls of ART that it
needs, in any order of the steps. Where a debugger that has been started stays so, it is started
once. -/
theorem ensureJdwpReady_lawful (s : Jdwp ι θ)
    (h : (jdwp θ symbols apiLevel requests).Reachable s) :
    s.Lawful symbols apiLevel requests ∧
      ((jdwp θ symbols apiLevel requests).ReachableVia Jdwp.Lasting s →
        s.log.filter (·.2.isStartup) = [] ∨ ∃ i n, s.log.filter (·.2.isStartup) =
          Jdwp.startupOf symbols apiLevel requests θ n i) := by
  constructor
  · obtain ⟨s₀, ls, h₀, hrun⟩ := h
    have hvia : (jdwp θ symbols apiLevel requests).ReachableVia
        (fun s l ↦ False → s.Lasting l) s := by
      refine ⟨s₀, ls, h₀, ?_, hrun⟩
      exact Machine.along_of_forall (fun _ _ _ hfalse ↦ hfalse.elim) s₀
    exact (Jdwp.Inv.of_reachableVia hvia).lawful
  · rintro ⟨s₀, ls, h₀, hlasting, hrun⟩
    have hvia : (jdwp θ symbols apiLevel requests).ReachableVia
        (fun s l ↦ True → s.Lasting l) s := by
      refine ⟨s₀, ls, h₀, ?_, hrun⟩
      exact Machine.along_of_invariant (I := fun _ ↦ True) (fun _ _ _ _ _ ↦ trivial)
        (fun _ _ _ hl _ ↦ hl) trivial hlasting
    exact (Jdwp.Inv.of_reachableVia hvia).once

end

/-! ### Two requests -/

def allSymbols : DeoptimizationArtSymbols :=
  ⟨some 1, some 2, some 3, none, some 5, some 6, some 7, some 8, some 9, none, none, none, none,
    some 14, some 15⟩

/-- Both requests find no registry, and the second one gets the lock when there is one. -/
def twoRequests : List (JdwpLabel Bool) :=
  [.go false, .go true, .go false, .go true, .go false, .go false, .go false,
    .sockets false (some ⟨(10, 11), (12, 13)⟩), .go false, .attached false none,
    .replaced false none, .go false, .go false, .go false, .go false, .art true false, .go false,
    .receive, .go true, .go true, .go true, .go true, .go true, .go false, .go false, .go false,
    .go true, .go false, .receive]

theorem along_twoRequests :
    (jdwp Unit allSymbols 27 fun _ ↦ .full).Along Jdwp.Lasting
      ⟨false, false, none, 0, none, none, false, [], fun _ ↦ .ensure, []⟩ twoRequests := by
  decide

theorem ensureJdwpReady_twoRequests : ∃ s,
    (∀ i, s.phase i = .done (.ok ⟨⟩)) ∧ s.received = [some 13, none] ∧
      (s : Jdwp Bool Unit).Lawful allSymbols 27 (fun _ ↦ .full) ∧
      (s.log.filter (·.2.isStartup) = [] ∨ ∃ i n, s.log.filter (·.2.isStartup) =
        Jdwp.startupOf allSymbols 27 (fun _ ↦ .full) Unit n i) := by
  have hrun := (Option.some_get (x := (jdwp Unit allSymbols 27 fun _ ↦ .full).run
    ⟨false, false, none, 0, none, none, false, [], fun _ ↦ .ensure, []⟩ twoRequests) rfl).symm
  obtain ⟨hlawful, honce⟩ := ensureJdwpReady_lawful _ ⟨_, _, ⟨false, false, rfl⟩, hrun⟩
  refine ⟨_, ?_, rfl, hlawful, honce ⟨_, _, ⟨false, false, rfl⟩, along_twoRequests, hrun⟩⟩
  intro i
  cases i with
  | false => rfl
  | true => rfl

end JavaBridge.Art

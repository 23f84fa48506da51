import JavaBridge.Perform.Timeout
import Mathlib.Data.Prod.Lex

/-!
# A waiting call returns

Once a loader is published a call of `wait_for_app_loader` cannot wait on: each of its sections
brings it nearer to its return. A call's own drain runs through a queue whose length is known only
when it is taken, so that the measure is a pair in lexicographic order.

Main results:

* `waitStep_rank`: with a loader in place every section of a waiting call lowers its rank.
* `Timed.exists_step`: a waiting call is never stuck.
* `Timed.waitForAppLoader_timeout`: timeouts are kept exactly by the runs whose steps are in time,
  and a waiting call returns after a publication.
-/

universe u

namespace JavaBridge.Perform

variable {κ L T θ : Type u}

/-! ## Ranks -/

/-- How far a drain is from its end: the section, and the operations it still holds. -/
def Drain.rank : Drain κ L → Nat ×ₗ Nat
  | .begin _ => toLex (6, 0)
  | .resolve => toLex (5, 0)
  | .publish _ => toLex (4, 0)
  | .swap => toLex (3, 0)
  | .running pending => toLex (2, 3 * pending.length)
  | .completing _ .callback pending => toLex (2, 3 * pending.length + 1)
  | .completing _ .attach pending => toLex (2, 3 * pending.length + 2)
  | .finish _ => toLex (1, 0)
  | .done => toLex (0, 0)

/-- How far a waiting call is from its return. -/
def WaitPoint.rank : WaitPoint κ L θ → Nat ×ₗ Nat
  | .readDefault => toLex (18, 0)
  | .probe => toLex (17, 0)
  | .publish _ => toLex (16, 0)
  | .published _ => toLex (15, 0)
  | .remaining => toLex (14, 0)
  | .ensureHook => toLex (13, 0)
  | .drainIfReady drain => toLex (6 + (ofLex drain.rank).1, (ofLex drain.rank).2)
  | .readDefaultAgain => toLex (5, 0)
  | .remainingAgain => toLex (4, 0)
  | .deadline => toLex (3, 0)
  | .wait => toLex (2, 0)
  | .waited => toLex (1, 0)
  | .returned _ => toLex (0, 0)

def Actor.rank : Actor κ L θ → Nat ×ₗ Nat
  | .wait _ point => point.rank
  | _ => toLex (0, 0)

theorem toLex_lt_of_left {a b c d : Nat} (h : a < c) : toLex (a, b) < toLex (c, d) :=
  Prod.Lex.toLex_lt_toLex.2 (.inl h)

theorem toLex_lt_of_right {a b c : Nat} (h : b < c) : toLex (a, b) < toLex (a, c) :=
  Prod.Lex.toLex_lt_toLex.2 (.inr ⟨rfl, h⟩)

theorem rank_drainIfReady_lt {d d' : Drain κ L} (h : d'.rank < d.rank) :
    (WaitPoint.drainIfReady d' : WaitPoint κ L θ).rank <
      (WaitPoint.drainIfReady d : WaitPoint κ L θ).rank := by
  refine Prod.Lex.toLex_lt_toLex.2 ?_
  rcases Prod.Lex.lt_iff.1 h with hlt | ⟨heq, hlt⟩
  · exact .inl (Nat.add_lt_add_left hlt 6)
  · exact .inr ⟨congrArg (6 + ·) heq, hlt⟩

variable [DecidableEq κ] [DecidableEq L] {inner inner' : AppPerformInner κ L}
  {cells cells' : κ → PerformCell T θ} {action : Action L T θ}

/-- Each section of a drain lowers its rank. -/
theorem drainStep_rank {d d' : Drain κ L}
    (h : drainStep inner cells d action = some (inner', cells', d')) : d'.rank < d.rank := by
  unfold drainStep at h
  split at h
  case h_1 =>
    cases h
    split
    · exact toLex_lt_of_left (by decide)
    · exact toLex_lt_of_left (by decide)
  case h_4 =>
    split at h
    · cases h
      exact toLex_lt_of_left (by decide)
    · cases h
      exact toLex_lt_of_left (by decide)
  case h_7 operation pending =>
    cases h
    refine toLex_lt_of_right ?_
    rw [List.length_cons]
    omega
  case h_8 operation point pending action =>
    obtain ⟨⟨cell, point'⟩, hc, h⟩ := Option.map_eq_some_iff.1 h
    cases h
    unfold completeStep at hc
    split at hc
    · cases hc
      exact toLex_lt_of_right (Nat.lt_succ_self _)
    · cases hc
      exact toLex_lt_of_right (by omega)
    · cases hc
      exact toLex_lt_of_right (Nat.lt_succ_self _)
    · cases hc
  case h_10 => cases h
  all_goals
    cases h
    exact toLex_lt_of_left (by decide)

/-- With a loader in place each section of a waiting call lowers its rank. -/
theorem waitStep_rank {timeout : Nat} {w w' : WaitPoint κ L θ}
    (hdefault : inner.default.isSome = true)
    (h : waitStep timeout inner cells w action = some (inner', cells', w')) : w'.rank < w.rank := by
  obtain ⟨loader, hloader⟩ := Option.isSome_iff_exists.1 hdefault
  unfold waitStep at h
  split at h
  case h_1 | h_11 | h_14 | h_15 =>
    rw [hloader] at h
    cases h
    exact toLex_lt_of_left (by decide)
  case h_5 =>
    split at h
    all_goals
      cases h
      exact toLex_lt_of_left (by decide)
  case h_8 =>
    split at h
    · cases h
      exact toLex_lt_of_left (Nat.lt_succ_self 12)
    · cases h
      exact toLex_lt_of_left (by decide)
  case h_9 =>
    cases h
    exact toLex_lt_of_left (Nat.lt_succ_self 5)
  case h_7 | h_12 | h_13 =>
    cases h
    split
    · exact toLex_lt_of_left (by decide)
    · exact toLex_lt_of_left (by decide)
  case h_10 =>
    obtain ⟨r, hr, h⟩ := Option.map_eq_some_iff.1 h
    cases h
    exact rank_drainIfReady_lt (drainStep_rank hr)
  case h_16 => cases h
  all_goals
    cases h
    exact toLex_lt_of_left (by decide)

/-! ## Sections that can be taken -/

theorem exists_drainStep (inner : AppPerformInner κ L) (cells : κ → PerformCell T θ)
    (d : Drain κ L) (hd : d ≠ .done) :
    ∃ action : Action L T θ, action.fromOutside = true ∧
      (drainStep inner cells d action).isSome = true := by
  cases d with
  | begin source => exact ⟨.begin, rfl, rfl⟩
  | resolve => exact ⟨.resolve (.error (.appClassLoaderUnavailable "")), rfl, rfl⟩
  | publish loader => exact ⟨.publish (some (.appClassLoaderUnavailable "")), rfl, rfl⟩
  | swap => exact ⟨.swap, rfl, rfl⟩
  | running pending => cases pending <;> exact ⟨.next, rfl, rfl⟩
  | completing operation point pending =>
    cases point with
    | attach => exact ⟨.attach none, rfl, rfl⟩
    | callback => exact ⟨.callback .panicked, rfl, rfl⟩
  | finish success => exact ⟨.finish, rfl, rfl⟩
  | done => exact absurd rfl hd

theorem waitStep_drainIfReady {timeout : Nat} {d : Drain κ L} (hd : d ≠ .done) :
    waitStep timeout inner cells (.drainIfReady d) action =
      (drainStep inner cells d action).map fun (inner, cells, drain) ↦
        (inner, cells, .drainIfReady drain) := by
  cases d with
  | done => exact absurd rfl hd
  | _ => rfl

namespace Timed

variable {s t : Timed κ L T θ} {k : κ} {timeout : Nat}

theorem exists_take (action : Action L T θ) {w : WaitPoint κ L θ}
    (hw : s.state.actors k = .wait timeout w)
    (h : (waitStep timeout s.state.inner s.state.cells w action).isSome = true) :
    ∃ t, s.take k action = some t := by
  obtain ⟨r, hr⟩ := Option.isSome_iff_exists.1 h
  refine Option.isSome_iff_exists.1 ?_
  rw [take, Perform.step, hw, actorStep, hr]
  rfl

/-- A waiting call that has not returned has a section to take. -/
theorem exists_step {w : WaitPoint κ L θ} (hw : s.state.actors k = .wait timeout w)
    (hret : ∀ result, w ≠ .returned result) :
    ∃ e t, e.actor? = some k ∧ s.step e = some t := by
  have hact : ∀ action : Action L T θ, action.fromOutside = true →
      (waitStep timeout s.state.inner s.state.cells w action).isSome = true →
      ∃ e t, e.actor? = some k ∧ s.step e = some t := by
    intro action hout h
    obtain ⟨t, ht⟩ := exists_take action hw h
    refine ⟨.act k action, t, rfl, ?_⟩
    rw [step, if_pos hout, ht]
  have hread : ∀ action : Action L T θ, s.reading k = some action →
      (waitStep timeout s.state.inner s.state.cells w action).isSome = true →
      ∃ e t, e.actor? = some k ∧ s.step e = some t := by
    intro action haction h
    obtain ⟨t, ht⟩ := exists_take action hw h
    refine ⟨.read k, t, rfl, ?_⟩
    rw [step, haction, Option.bind_some, ht]
  cases w with
  | readDefault => exact hact .readDefault rfl rfl
  | probe => exact hact (.probe (.error (.appClassLoaderUnavailable ""))) rfl rfl
  | publish loader => exact hact (.publish (some (.appClassLoaderUnavailable ""))) rfl rfl
  | published loader => exact hact .readDefault rfl rfl
  | remaining => exact hread _ (by rw [reading, hw]) rfl
  | ensureHook =>
    refine hact (.ensureHook ⟨true, true, true⟩) rfl ?_
    unfold waitStep
    dsimp only
    split <;> rfl
  | drainIfReady d =>
    by_cases hd : d = .done
    · subst hd
      exact hact .done rfl rfl
    · obtain ⟨action, hout, h⟩ := exists_drainStep s.state.inner s.state.cells d hd
      refine hact action hout ?_
      rw [waitStep_drainIfReady hd, Option.isSome_map, h]
  | readDefaultAgain => exact hact .readDefault rfl rfl
  | remainingAgain => exact hread _ (by rw [reading, hw]) rfl
  | deadline => exact hread _ (by rw [reading, hw]) rfl
  | wait =>
    obtain ⟨t, ht⟩ := exists_take (.wait (false || _)) hw rfl
    refine ⟨.wake k false, t, rfl, ?_⟩
    rw [step, Bool.false_and, if_neg Bool.false_ne_true, ht]
  | waited => exact hact .readDefault rfl rfl
  | returned result => exact absurd rfl (hret result)

/-! ## The return -/

/-- The call waits, and a loader is in place. -/
structure Waiting (k : κ) (timeout : Nat) (s : Timed κ L T θ) : Prop where
  default : s.state.inner.default.isSome = true
  actor : ∃ w, s.state.actors k = .wait timeout w ∧ ∀ result, w ≠ .returned result

def Returned (k : κ) (timeout : Nat) (s : Timed κ L T θ) : Prop :=
  ∃ result, s.state.actors k = .wait timeout (.returned result)

/-- Each section of the call returns or lowers its rank, and other events leave the rank alone. -/
theorem Waiting.step {e : Event κ L T θ} (hs : Waiting k timeout s) (h : s.step e = some t) :
    Returned k timeout t ∨ Waiting k timeout t ∧
      ((t.state.actors k).rank < (s.state.actors k).rank ∨
        ¬ e.actor? = some k ∧ (t.state.actors k).rank = (s.state.actors k).rank) := by
  obtain ⟨hdefault, w, hw, hret⟩ := hs
  cases hactor : e.actor? with
  | none =>
    cases e with
    | tick nanos =>
      simp only [Timed.step] at h
      split at h
      · cases h
        exact .inr ⟨⟨hdefault, w, hw, hret⟩, .inr ⟨(Option.some_ne_none k).symm, rfl⟩⟩
      · cases h
    | _ => cases hactor
  | some j =>
    obtain ⟨action, htake, -⟩ := take_of_step h hactor
    obtain ⟨b, htaken⟩ := taken_of_take htake
    have hkept := htaken.default hdefault
    by_cases hj : j = k
    · subst hj
      have hb : t.state.actors j = b := by rw [htaken.actors, Function.update_self]
      have hb' := htaken.actor
      rw [hw] at hb' ⊢
      obtain ⟨⟨inner', cells', w'⟩, hstep, heq⟩ := Option.map_eq_some_iff.1 hb'
      cases heq
      by_cases hreturned : ∃ result, w' = .returned result
      · obtain ⟨result, rfl⟩ := hreturned
        exact .inl ⟨result, hb⟩
      · rw [hb]
        refine .inr ⟨⟨hkept, w', hb, fun result h ↦ hreturned ⟨result, h⟩⟩, .inl ?_⟩
        exact waitStep_rank hdefault hstep
    · have hb : t.state.actors k = s.state.actors k := by
        rw [htaken.actors, Function.update_of_ne (Ne.symm hj)]
      rw [hb]
      refine .inr ⟨⟨hkept, w, hb.trans hw, hret⟩, .inr ⟨fun h ↦ hj (Option.some.inj h), rfl⟩⟩

/-- A waiting call that is scheduled fairly returns once a loader is published. -/
theorem returns_of_fair {states : Nat → Timed κ L T θ} {events : Nat → Event κ L T θ} {n : Nat}
    (hrun : machine.Executes states events)
    (hfair : machine.WeaklyFair (·.actor? = some k) states events)
    (hdefault : (states n).state.inner.default.isSome = true) {w : WaitPoint κ L θ}
    (hw : (states n).state.actors k = .wait timeout w) :
    ∃ i, n ≤ i ∧ Returned k timeout (states i) := by
  by_cases hreturned : ∃ result, w = .returned result
  · obtain ⟨result, rfl⟩ := hreturned
    exact ⟨n, Nat.le_refl n, result, hw⟩
  · refine hfair.exists_goal (I := Waiting k timeout) (m := fun s ↦ (s.state.actors k).rank) hrun
      (fun _ _ _ hs h ↦ hs.step h) (fun s hs ↦ ?_) ⟨hdefault, w, hw, fun r h ↦ hreturned ⟨r, h⟩⟩
    obtain ⟨-, w, hw, hret⟩ := hs
    exact exists_step hw hret

/-- **The timeout of `wait_for_app_loader`.** A run keeps every timeout in every state it passes
exactly when its steps are in time; and a waiting call returns after a publication. -/
theorem waitForAppLoader_timeout :
    (∀ (ls : List (Event κ L T θ)) (t : Timed κ L T θ), machine.run initial ls = some t →
      (machine.Throughout KeepsTimeout initial ls ↔ machine.Along InTime initial ls)) ∧
    ∀ (states : Nat → Timed κ L T θ) (events : Nat → Event κ L T θ) (k : κ) (timeout n : Nat),
      machine.Executes states events → machine.WeaklyFair (·.actor? = some k) states events →
      (states n).state.inner.default.isSome = true →
      (∃ w, (states n).state.actors k = .wait timeout w) →
      ∃ i, n ≤ i ∧ Returned k timeout (states i) := by
  constructor
  · intro ls t h
    exact keepsTimeout_iff h
  · rintro states events k timeout n hrun hfair hdefault ⟨w, hw⟩
    exact returns_of_fair hrun hfair hdefault hw

/-! ## Two runs that break a timeout -/

/-- The call reports a timeout too early, or with a loader published in time. -/
def breaksTimeout (s : Timed κ L T θ) (k : κ) : Bool :=
  match s.state.actors k with
  | .wait timeout (.returned (.error error)) =>
    reportsTimeout error && decide (s.now < s.due k timeout) ||
      !s.faulted k && s.published.any fun p ↦ decide (p.2 < s.due k timeout)
  | _ => false

omit [DecidableEq κ] [DecidableEq L] in
theorem not_keepsTimeout_of_breaksTimeout (h : s.breaksTimeout k = true) : ¬ s.KeepsTimeout := by
  intro hs
  unfold breaksTimeout at h
  split at h
  · next timeout error hk =>
    simp only [Bool.or_eq_true, Bool.and_eq_true, decide_eq_true_eq, Bool.not_eq_true',
      List.any_eq_true] at h
    rcases h with ⟨herror, hlt⟩ | ⟨hfaulted, p, hp, hlt⟩
    · exact absurd (hs.elapsed k timeout error hk herror) (Nat.not_le_of_lt hlt)
    · obtain ⟨q, -, hq⟩ := hs.found k timeout _ hk ⟨p, hp, hlt⟩ hfaulted
      cases hq
  · cases h

/-- What the probe answers while there is no `Application`. -/
def noApplication : Error Unit :=
  .appClassLoaderUnavailable ("ActivityThread.currentApplication() returned null; " ++
    "use Java::perform for deferred app-loader initialization")

/-- A call with the largest timeout, alone. -/
def largestRun : List (Event Nat Nat Unit Unit) :=
  [.tick NANOS_PER_SEC, .act 0 (.waitForAppLoader DURATION_MAX), .act 0 .readDefault,
    .act 0 (.probe (.error noApplication)), .read 0, .act 0 (.ensureHook ⟨true, true, true⟩),
    .act 0 .begin, .act 0 (.resolve (.error noApplication)), .act 0 .finish, .act 0 .done,
    .act 0 .readDefault, .read 0, .read 0]

/-- A second call publishes the loader after the first has looked for it. -/
def lateLookRun : List (Event Nat Nat Unit Unit) :=
  [.act 0 (.waitForAppLoader 5), .act 0 .readDefault, .act 0 (.probe (.error noApplication)),
    .tick 1, .act 1 (.waitForAppLoader 5), .act 1 .readDefault, .act 1 (.probe (.ok 7)),
    .act 1 (.publish none), .tick 9, .read 0]

/-- The largest timeout is over at once, since the deadline cannot be represented; and a loader
published before the timeout was over is not seen. -/
theorem not_keepsTimeout :
    (∃ s, machine.run initial largestRun = some s ∧ ¬ s.KeepsTimeout) ∧
    ∃ s, machine.run initial lateLookRun = some s ∧ ¬ s.KeepsTimeout := by
  constructor
  · obtain ⟨s, hrun, hs⟩ : ∃ s, machine.run initial largestRun = some s ∧
        s.breaksTimeout 0 = true := Machine.exists_of_run_any _ (by decide +kernel)
    exact ⟨s, hrun, not_keepsTimeout_of_breaksTimeout hs⟩
  · obtain ⟨s, hrun, hs⟩ : ∃ s, machine.run initial lateLookRun = some s ∧
        s.breaksTimeout 0 = true := Machine.exists_of_run_any _ (by decide +kernel)
    exact ⟨s, hrun, not_keepsTimeout_of_breaksTimeout hs⟩

end Timed

end JavaBridge.Perform

import JavaBridge.Perform.Clock

/-!
# `wait_for_app_loader` keeps its timeout

Main results:

* `Timed.Inv.step`: what holds of the waiting calls, and every step that is `InTime` keeps.
* `Timed.keepsTimeout_iff`: a run keeps all timeouts exactly when its steps are `InTime`.
-/

universe u

namespace JavaBridge.Perform

variable {κ L T θ : Type u} [DecidableEq κ] [DecidableEq L]

/-! ## The published loader -/

section Default

variable {inner inner' : AppPerformInner κ L} {cells cells' : κ → PerformCell T θ}
  {action : Action L T θ} {k : κ}

omit [DecidableEq κ] in
theorem isSome_default_of_publishAppLoader {loader : L} {fault : Option (Error θ)}
    (h : inner.publishAppLoader loader fault = .ok inner') : inner'.default.isSome = true := by
  unfold AppPerformInner.publishAppLoader at h
  split at h
  · cases h
  · split at h
    · next hdefault =>
      cases h
      rw [hdefault]
      rfl
    · cases h
      rfl

omit [DecidableEq κ] [DecidableEq L] in
theorem default_of_ensureHook {installed : AppPerformHooks}
    (h : inner.ensureHook (θ := θ) installed = .ok inner') : inner'.default = inner.default := by
  unfold AppPerformInner.ensureHook at h
  split at h
  · cases h
    rfl
  · split at h
    · cases h
    · cases h
      rfl

/-- The loader stays, or one is published. -/
def DefaultKept (inner inner' : AppPerformInner κ L) : Prop :=
  inner'.default = inner.default ∨ inner'.default.isSome = true

theorem drainStep_default {d d' : Drain κ L}
    (h : drainStep inner cells d action = some (inner', cells', d')) :
    DefaultKept inner inner' := by
  unfold drainStep at h
  split at h
  case h_4 =>
    split at h
    · next hpublish =>
      cases h
      exact .inr (isSome_default_of_publishAppLoader hpublish)
    · cases h
      exact .inl rfl
  case h_8 =>
    obtain ⟨r, -, h⟩ := Option.map_eq_some_iff.1 h
    cases h
    exact .inl rfl
  all_goals cases h <;> exact .inl rfl

theorem performStep_default {p p' : PerformPoint κ L θ}
    (h : performStep k inner cells p action = some (inner', cells', p')) :
    DefaultKept inner inner' := by
  unfold performStep at h
  split at h
  case h_2 =>
    obtain ⟨r, -, h⟩ := Option.map_eq_some_iff.1 h
    cases h
    exact .inl rfl
  case h_6 =>
    split at h
    · next hpublish =>
      cases h
      exact .inr (isSome_default_of_publishAppLoader hpublish)
    · cases h
      exact .inl rfl
    · cases h
      exact .inl rfl
  case h_7 =>
    split at h
    · next hhook =>
      cases h
      exact .inl (default_of_ensureHook hhook)
    · cases h
      exact .inl rfl
  case h_10 =>
    obtain ⟨r, hr, h⟩ := Option.map_eq_some_iff.1 h
    cases h
    exact drainStep_default hr
  all_goals cases h <;> exact .inl rfl

theorem waitStep_default {timeout : Nat} {w w' : WaitPoint κ L θ}
    (h : waitStep timeout inner cells w action = some (inner', cells', w')) :
    DefaultKept inner inner' := by
  unfold waitStep at h
  split at h
  case h_5 =>
    split at h
    · next hpublish =>
      cases h
      exact .inr (isSome_default_of_publishAppLoader hpublish)
    · cases h
      exact .inl rfl
    · cases h
      exact .inl rfl
  case h_8 =>
    split at h
    · next hhook =>
      cases h
      exact .inl (default_of_ensureHook hhook)
    · cases h
      exact .inl rfl
  case h_10 =>
    obtain ⟨r, hr, h⟩ := Option.map_eq_some_iff.1 h
    cases h
    exact drainStep_default hr
  all_goals cases h <;> exact .inl rfl

theorem actorStep_default {a b : Actor κ L θ}
    (h : actorStep k inner cells a action = some (inner', cells', b)) :
    DefaultKept inner inner' := by
  unfold actorStep at h
  split at h
  case h_3 =>
    split at h
    · cases h
      exact .inl rfl
    · cases h
  case h_6 =>
    obtain ⟨r, hr, h⟩ := Option.map_eq_some_iff.1 h
    cases h
    exact performStep_default hr
  case h_7 =>
    obtain ⟨r, hr, h⟩ := Option.map_eq_some_iff.1 h
    cases h
    exact waitStep_default hr
  case h_8 =>
    obtain ⟨r, hr, h⟩ := Option.map_eq_some_iff.1 h
    cases h
    exact drainStep_default hr
  all_goals cases h <;> exact .inl rfl

end Default

/-! ## Steps with a clock -/

namespace Timed

variable {s t : Timed κ L T θ} {k j : κ} {timeout : Nat} {action : Action L T θ}
  {b : Actor κ L θ}

/-- What a section of a call does to the state. -/
structure Taken (s : Timed κ L T θ) (k : κ) (action : Action L T θ) (b : Actor κ L θ)
    (t : Timed κ L T θ) : Prop where
  actor : actorStep k s.state.inner s.state.cells (s.state.actors k) action =
    some (t.state.inner, t.state.cells, b)
  actors : t.state.actors = Function.update s.state.actors k b
  now : t.now = s.now
  clocks : t.clocks = Function.update s.clocks k (s.keep k action)
  published : t.published = s.published ++
    if t.state.inner.default = s.state.inner.default then []
    else t.state.inner.default.toList.map (·, s.now)
  faulted : t.faulted = Function.update s.faulted k
    (s.faulted k || (s.state.actors k).meetsFault action)

theorem taken_of_take (h : s.take k action = some t) : ∃ b, Taken s k action b t := by
  obtain ⟨state, hstate, rfl⟩ := Option.map_eq_some_iff.1 h
  obtain ⟨⟨inner, cells, b⟩, hb, rfl⟩ := Option.map_eq_some_iff.1 hstate
  exact ⟨b, hb, rfl, rfl, rfl, rfl, rfl⟩

/-- Between the two states time has passed and loaders were published, and the call was not run. -/
structure Later (s t : Timed κ L T θ) (k : κ) : Prop where
  now : s.now ≤ t.now
  clock : t.clocks k = s.clocks k
  faulted : t.faulted k = s.faulted k
  default : s.state.inner.default.isSome = true → t.state.inner.default.isSome = true
  published : ∃ new, t.published = s.published ++ new ∧ ∀ p ∈ new, s.now ≤ p.2

namespace Taken

variable (h : Taken s k action b t)

include h

theorem default (hs : s.state.inner.default.isSome = true) :
    t.state.inner.default.isSome = true := by
  rcases actorStep_default h.actor with heq | hsome
  · rw [heq, hs]
  · exact hsome

theorem published_append : ∃ new, t.published = s.published ++ new ∧ ∀ p ∈ new, s.now ≤ p.2 := by
  refine ⟨_, h.published, fun p hp ↦ ?_⟩
  split at hp
  · cases hp
  · obtain ⟨loader, -, rfl⟩ := List.mem_map.1 hp
    exact Nat.le_refl s.now

theorem later (hj : j ≠ k) : Later s t j where
  now := Nat.le_of_eq h.now.symm
  clock := by rw [h.clocks, Function.update_of_ne hj]
  faulted := by rw [h.faulted, Function.update_of_ne hj]
  default := h.default
  published := h.published_append

end Taken

/-! ## The invariant -/

/-- What holds of a waiting call. -/
def WaitInv (s : Timed κ L T θ) (k : κ) (timeout : Nat) : WaitPoint κ L θ → Prop
  | .published _ | .waited => s.state.inner.default.isSome = true
  | .deadline => s.due k timeout ≤ s.now + (s.clocks k).remaining
  | .wait => s.due k timeout ≤ (s.clocks k).deadline
  | .returned (.ok loader) => ∃ p ∈ s.published, p.1 = loader
  | .returned (.error error) =>
    if reportsTimeout error then s.MayTimeOut k timeout else s.faulted k = true
  | _ => True

def ActorInv (s : Timed κ L T θ) (k : κ) : Actor κ L θ → Prop
  | .wait timeout point => s.WaitInv k timeout point
  | _ => True

structure Inv (s : Timed κ L T θ) : Prop where
  started : ∀ k, (s.clocks k).started ≤ s.now
  /-- With no loader in place none was published. -/
  unpublished : s.state.inner.default = none → s.published = []
  published : ∀ loader, s.state.inner.default = some loader → ∃ p ∈ s.published, p.1 = loader
  actors : ∀ k, s.ActorInv k (s.state.actors k)

omit [DecidableEq κ] [DecidableEq L] in
theorem inv_initial : Inv (initial : Timed κ L T θ) where
  started _ := Nat.le_refl 0
  unpublished _ := rfl
  published _ h := by cases h
  actors _ := trivial

omit [DecidableEq κ] [DecidableEq L] in
/-- The invariant gives what a timeout promises. -/
theorem Inv.keepsTimeout (hs : Inv s) : s.KeepsTimeout where
  elapsed k timeout error hk herror := by
    have h := hs.actors k
    rw [hk, ActorInv, WaitInv, if_pos herror] at h
    exact h.1
  found k timeout result hk hpublished hfaulted := by
    have h := hs.actors k
    rw [hk] at h
    cases result with
    | ok loader =>
      obtain ⟨p, hp, rfl⟩ := h
      exact ⟨p, hp, rfl⟩
    | error error =>
      simp only [ActorInv, WaitInv] at h
      split at h
      · rcases h.2 with h | h
        · cases hfaulted.symm.trans h
        · exact absurd hpublished h
      · cases hfaulted.symm.trans h

section Later

omit [DecidableEq κ] [DecidableEq L]

variable (h : Later s t k)

include h

theorem Later.due : t.due k timeout = s.due k timeout := by rw [Timed.due, h.clock, Timed.due]

/-- A loader that is published after the time was up was not published in time. -/
theorem MayTimeOut.later (hs : s.MayTimeOut k timeout) : t.MayTimeOut k timeout := by
  rw [MayTimeOut, h.due, h.faulted]
  refine ⟨Nat.le_trans hs.1 h.now, hs.2.imp_right fun hnot ↦ ?_⟩
  rintro ⟨p, hp, hlt⟩
  obtain ⟨new, hnew, hlate⟩ := h.published
  rw [hnew, List.mem_append] at hp
  rcases hp with hp | hp
  · exact hnot ⟨p, hp, hlt⟩
  · exact absurd (Nat.le_trans hs.1 (hlate p hp)) (Nat.not_le_of_lt hlt)

theorem WaitInv.later {w : WaitPoint κ L θ} (hs : s.WaitInv k timeout w) :
    t.WaitInv k timeout w := by
  cases w with
  | published | waited => exact h.default hs
  | deadline =>
    rw [WaitInv, h.due, h.clock]
    exact Nat.le_trans hs (Nat.add_le_add_right h.now _)
  | wait =>
    rw [WaitInv, h.due, h.clock]
    exact hs
  | returned result =>
    cases result with
    | ok loader =>
      obtain ⟨p, hp, hloader⟩ := hs
      obtain ⟨new, hnew, -⟩ := h.published
      refine ⟨p, ?_, hloader⟩
      rw [hnew]
      exact List.mem_append_left new hp
    | error error =>
      simp only [WaitInv] at hs ⊢
      split at hs
      · next herror =>
        rw [if_pos herror]
        exact hs.later h
      · next herror =>
        rw [if_neg herror, h.faulted]
        exact hs
  | _ => trivial

theorem ActorInv.later {a : Actor κ L θ} (hs : s.ActorInv k a) : t.ActorInv k a := by
  cases a with
  | wait timeout w => exact WaitInv.later h hs
  | _ => trivial

end Later

/-! ## Sections of a waiting call -/

omit [DecidableEq κ] [DecidableEq L] in
theorem eq_of_some {α β γ : Type*} {a a' : α} {b b' : β} {c c' : γ}
    (h : some (a, b, c) = some (a', b', c')) : a = a' ∧ b = b' ∧ c = c' := by
  cases h
  exact ⟨rfl, rfl, rfl⟩

/-- What the machine lets a waiting call read of the clock, and be told from outside. -/
def Allowed (s : Timed κ L T θ) (k : κ) (timeout : Nat) : Action L T θ → Prop
  | .remaining elapsed =>
    elapsed = isUp (remainingTimeout (s.clocks k).started timeout s.now) ∧
      (elapsed = true → s.MayTimeOut k timeout)
  | .deadline fits => fits = false → s.MayTimeOut k timeout
  | .wait timedOut => timedOut = true → (s.clocks k).deadline ≤ s.now
  | .probe (.error error) | .publish (some error) => reportsTimeout error = false
  | _ => True

/-- Every event of a call is a section of it, and one that is in time is allowed. -/
theorem take_of_step {e : Event κ L T θ} (h : s.step e = some t) (he : e.actor? = some k) :
    ∃ action, s.take k action = some t ∧ ∀ timeout w,
      s.state.actors k = .wait timeout w → s.InTime e → s.Allowed k timeout action := by
  cases e with
  | tick => cases he
  | read k' =>
    cases he
    obtain ⟨action, haction, h⟩ := Option.bind_eq_some_iff.1 h
    refine ⟨action, h, fun timeout w hw hC ↦ ?_⟩
    unfold reading at haction
    dsimp only [InTime] at hC
    rw [hw] at haction hC
    cases w with
    | remaining | remainingAgain =>
      cases haction
      exact ⟨rfl, hC⟩
    | deadline =>
      cases haction
      intro hfits
      exact hC.resolve_left (Bool.eq_false_iff.1 hfits)
    | _ => cases haction
  | wake k' timedOut =>
    cases he
    simp only [step] at h
    split at h
    · cases h
    · next hflag =>
      refine ⟨_, h, fun timeout w _ _ hup ↦ ?_⟩
      rw [← isUp_checkedSub]
      cases timedOut with
      | true => simpa using hflag
      | false => exact hup
  | act k' action =>
    cases he
    simp only [step] at h
    split at h
    · next hout =>
      refine ⟨action, h, fun timeout w _ _ ↦ ?_⟩
      cases action with
      | remaining | deadline | wait => cases hout
      | probe answer =>
        cases answer with
        | ok => trivial
        | error error =>
          show reportsTimeout error = false
          simpa [Action.fromOutside] using hout
      | publish fault =>
        cases fault with
        | none => trivial
        | some error =>
          show reportsTimeout error = false
          simpa [Action.fromOutside] using hout
      | _ => trivial
    · cases h

namespace Taken

variable (h : Taken s k action b t)

include h

theorem clock : t.clocks k = s.keep k action := by rw [h.clocks, Function.update_self]

theorem fault : t.faulted k = (s.faulted k || (s.state.actors k).meetsFault action) := by
  rw [h.faulted, Function.update_self]

theorem mem_published {p : L × Nat} (hp : p ∈ s.published) : p ∈ t.published := by
  rw [h.published]
  exact List.mem_append_left _ hp

/-- The loader in place was published. -/
theorem published_default (hs : Inv s) {loader : L}
    (hloader : t.state.inner.default = some loader) : ∃ p ∈ t.published, p.1 = loader := by
  by_cases heq : t.state.inner.default = s.state.inner.default
  · obtain ⟨p, hp, hpl⟩ := hs.published loader (heq.symm.trans hloader)
    exact ⟨p, h.mem_published hp, hpl⟩
  · refine ⟨(loader, s.now), ?_, rfl⟩
    rw [h.published, if_neg heq, hloader]
    exact List.mem_append_right _ List.mem_cons_self

theorem unpublished (hs : Inv s) (hnone : t.state.inner.default = none) : t.published = [] := by
  have hdefault : s.state.inner.default = none := by
    by_contra hsome
    have := h.default (Option.isSome_iff_ne_none.2 hsome)
    rw [hnone] at this
    cases this
  rw [h.published, hs.unpublished hdefault, hnone, hdefault, if_pos rfl, List.append_nil]

theorem due (hstarted : (s.keep k action).started = (s.clocks k).started) :
    t.due k timeout = s.due k timeout := by
  rw [Timed.due, h.clock, hstarted, Timed.due]

/-- A section that publishes nothing and meets no fault keeps a call's right to time out. -/
theorem mayTimeOut_iff (hstarted : (s.keep k action).started = (s.clocks k).started)
    (hinner : s.state.inner = t.state.inner)
    (hmeets : (s.state.actors k).meetsFault action = false) :
    t.MayTimeOut k timeout ↔ s.MayTimeOut k timeout := by
  have hpublished : t.published = s.published := by
    rw [h.published, hinner, if_pos rfl, List.append_nil]
  rw [MayTimeOut, h.due hstarted, h.now, h.fault, PublishedBefore, hpublished, hmeets,
    Bool.or_false]
  rfl

end Taken

omit [DecidableEq κ] [DecidableEq L] in
theorem started_keep_remaining {elapsed : Bool} :
    (s.keep k (.remaining elapsed : Action L T θ)).started = (s.clocks k).started := by
  dsimp only [keep]
  split <;> rfl

omit [DecidableEq κ] [DecidableEq L] in
theorem waitInv_timedOut (h : s.MayTimeOut k timeout) :
    s.WaitInv k timeout (.returned (.error (appLoaderWaitTimedOut timeout))) := h

omit [DecidableEq κ] [DecidableEq L] in
theorem waitInv_fault {error : Error θ} (h : reportsTimeout error = false)
    (hfault : s.faulted k = true) : s.WaitInv k timeout (.returned (.error error)) := by
  rw [WaitInv, if_neg (Bool.eq_false_iff.1 h)]
  exact hfault

omit [DecidableEq κ] in
theorem publishAppLoader_error {inner : AppPerformInner κ L} {loader : L}
    {fault : Option (Error θ)} {error : Error θ}
    (h : inner.publishAppLoader loader fault = .error error) : fault = some error := by
  unfold AppPerformInner.publishAppLoader at h
  split at h
  · cases h
    rfl
  · split at h <;> cases h

omit [DecidableEq κ] [DecidableEq L] in
theorem ensureHook_error {inner : AppPerformInner κ L} {installed : AppPerformHooks}
    {error : Error θ} (h : inner.ensureHook installed = .error error) :
    (!installed.makeApplication && !installed.getPackageInfo) = true ∧
      reportsTimeout error = false := by
  unfold AppPerformInner.ensureHook at h
  split at h
  · cases h
  · split at h
    · next hfailed =>
      cases h
      exact ⟨hfailed, rfl⟩
    · cases h

/-- The loader that a section of a waiting call reads is one that was published. -/
theorem waitInv_readDefault {w : WaitPoint κ L θ} (h : Taken s k action b t) (hs : Inv s)
    (hinner : s.state.inner = t.state.inner)
    (hw : s.state.inner.default = none → t.WaitInv k timeout w) :
    t.WaitInv k timeout (match s.state.inner.default with
      | some loader => .returned (.ok loader)
      | none => w) := by
  split
  · next loader hloader => exact h.published_default hs (hinner ▸ hloader)
  · next hnone => exact hw hnone

/-- Each section of a waiting call that is allowed keeps what holds of the call. -/
theorem waitInv_of_taken {w w' : WaitPoint κ L θ} (hs : Inv s)
    (h : Taken s k action (.wait timeout w') t) (hw : s.state.actors k = .wait timeout w)
    (ha : s.Allowed k timeout action) : t.WaitInv k timeout w' := by
  have hinv : s.WaitInv k timeout w := by
    have := hs.actors k
    rwa [hw] at this
  have hclock := h.clock
  have hfault := h.fault
  have hactor := h.actor
  rw [hw] at hactor hfault
  obtain ⟨⟨inner', cells', w''⟩, hstep, heq⟩ := Option.map_eq_some_iff.1 hactor
  cases heq
  unfold waitStep at hstep
  split at hstep
  case h_1 =>
    obtain ⟨hinner, -, rfl⟩ := eq_of_some hstep
    exact waitInv_readDefault h hs hinner fun _ ↦ trivial
  case h_2 | h_3 =>
    obtain ⟨-, -, rfl⟩ := eq_of_some hstep
    trivial
  case h_4 =>
    obtain ⟨-, -, rfl⟩ := eq_of_some hstep
    refine waitInv_fault ha ?_
    rw [hfault]
    simp [Actor.meetsFault]
  case h_5 =>
    split at hstep
    · next hpublish =>
      obtain ⟨hinner, -, rfl⟩ := eq_of_some hstep
      rw [WaitInv, ← hinner]
      exact isSome_default_of_publishAppLoader hpublish
    · obtain ⟨-, -, rfl⟩ := eq_of_some hstep
      trivial
    · next hpublish =>
      obtain ⟨-, -, rfl⟩ := eq_of_some hstep
      cases publishAppLoader_error hpublish
      refine waitInv_fault ha ?_
      rw [hfault]
      simp [Actor.meetsFault]
  case h_6 =>
    obtain ⟨hinner, -, rfl⟩ := eq_of_some hstep
    obtain ⟨loader', hloader⟩ := Option.isSome_iff_exists.1 hinv
    rw [hloader, Option.getD_some]
    exact h.published_default hs (hinner ▸ hloader)
  case h_7 =>
    obtain ⟨hinner, -, rfl⟩ := eq_of_some hstep
    split
    · next helapsed =>
      refine waitInv_timedOut
        ((h.mayTimeOut_iff started_keep_remaining hinner ?_).2 (ha.2 helapsed))
      rw [hw]
      rfl
    · trivial
  case h_8 =>
    split at hstep
    · obtain ⟨-, -, rfl⟩ := eq_of_some hstep
      trivial
    · next hhook =>
      obtain ⟨-, -, rfl⟩ := eq_of_some hstep
      obtain ⟨hfailed, herror⟩ := ensureHook_error hhook
      refine waitInv_fault herror ?_
      rw [hfault, Actor.meetsFault, hfailed, Bool.or_true]
  case h_9 =>
    obtain ⟨-, -, rfl⟩ := eq_of_some hstep
    trivial
  case h_10 =>
    obtain ⟨r, -, heq⟩ := Option.map_eq_some_iff.1 hstep
    obtain ⟨-, -, rfl⟩ := eq_of_some (congrArg some heq)
    trivial
  case h_11 =>
    obtain ⟨hinner, -, rfl⟩ := eq_of_some hstep
    exact waitInv_readDefault h hs hinner fun _ ↦ trivial
  case h_12 =>
    obtain ⟨hinner, -, rfl⟩ := eq_of_some hstep
    rw [keep, hw] at hclock
    split
    · next helapsed =>
      refine waitInv_timedOut
        ((h.mayTimeOut_iff started_keep_remaining hinner ?_).2 (ha.2 helapsed))
      rw [hw]
      rfl
    · have hstarted := hs.started k
      have hremaining : (t.clocks k).remaining = timeout - (s.now - (s.clocks k).started) := by
        rw [hclock]
        exact getD_checkedSub
      rw [WaitInv, h.due started_keep_remaining, h.now, hremaining, Timed.due]
      omega
  case h_13 =>
    obtain ⟨hinner, -, rfl⟩ := eq_of_some hstep
    split
    · rw [WaitInv, h.due rfl, hclock]
      exact hinv
    · next hfits =>
      refine waitInv_timedOut
        ((h.mayTimeOut_iff rfl hinner ?_).2 (ha (Bool.eq_false_iff.2 hfits)))
      rw [hw]
      rfl
  case h_14 =>
    obtain ⟨hinner, -, rfl⟩ := eq_of_some hstep
    split
    · next loader hloader =>
      rw [WaitInv, ← hinner, hloader]
      rfl
    · next hnone =>
      split
      · next htimedOut =>
        -- under the lock no loader is in place, and the deadline is over
        refine waitInv_timedOut ⟨?_, .inr ?_⟩
        · rw [h.due rfl, h.now]
          exact Nat.le_trans hinv (ha htimedOut)
        · rw [PublishedBefore, h.unpublished hs (hinner ▸ hnone)]
          rintro ⟨p, hp, -⟩
          cases hp
      · rw [WaitInv, h.due rfl, hclock]
        exact hinv
  case h_15 =>
    obtain ⟨hinner, -, rfl⟩ := eq_of_some hstep
    refine waitInv_readDefault h hs hinner fun hnone ↦ ?_
    rw [WaitInv, hnone] at hinv
    cases hinv
  case h_16 => cases hstep

/-- A section of a call keeps what holds of the call. -/
theorem actorInv_of_taken (hs : Inv s) (h : Taken s k action b t)
    (ha : ∀ timeout w, s.state.actors k = .wait timeout w → s.Allowed k timeout action) :
    t.ActorInv k b := by
  have hactor := h.actor
  generalize hw : s.state.actors k = a at hactor
  unfold actorStep at hactor
  split at hactor
  case h_7 =>
    obtain ⟨r, -, heq⟩ := Option.map_eq_some_iff.1 hactor
    obtain ⟨-, -, rfl⟩ := eq_of_some (congrArg some heq)
    exact waitInv_of_taken hs h hw (ha _ _ hw)
  case h_6 | h_8 =>
    obtain ⟨r, -, heq⟩ := Option.map_eq_some_iff.1 hactor
    obtain ⟨-, -, rfl⟩ := eq_of_some (congrArg some heq)
    trivial
  case h_3 =>
    split at hactor
    · obtain ⟨-, -, rfl⟩ := eq_of_some hactor
      trivial
    · cases hactor
  case h_5 => cases hactor
  all_goals
    obtain ⟨-, -, rfl⟩ := eq_of_some hactor
    trivial

omit [DecidableEq κ] [DecidableEq L] in
theorem started_keep_le (hs : (s.clocks k).started ≤ s.now) :
    (s.keep k action).started ≤ s.now := by
  cases action with
  | waitForAppLoader => exact Nat.le_refl s.now
  | remaining => exact Nat.le_trans (Nat.le_of_eq started_keep_remaining) hs
  | _ => exact hs

theorem Inv.taken (hs : Inv s) (h : Taken s k action b t)
    (ha : ∀ timeout w, s.state.actors k = .wait timeout w → s.Allowed k timeout action) :
    Inv t where
  started j := by
    rw [h.now]
    by_cases hj : j = k
    · rw [hj, h.clock]
      exact started_keep_le (hs.started k)
    · rw [(h.later hj).clock]
      exact hs.started j
  unpublished := h.unpublished hs
  published _ := h.published_default hs
  actors j := by
    rw [h.actors]
    by_cases hj : j = k
    · rw [hj, Function.update_self]
      exact actorInv_of_taken hs h ha
    · rw [Function.update_of_ne hj]
      exact (hs.actors j).later (h.later hj)

/-- **The invariant** is kept by every step that is in time. -/
theorem Inv.step {e : Event κ L T θ} (hs : Inv s) (hC : s.InTime e) (h : s.step e = some t) :
    Inv t := by
  cases hactor : e.actor? with
  | some k =>
    obtain ⟨action, htake, ha⟩ := take_of_step h hactor
    obtain ⟨b, htaken⟩ := taken_of_take htake
    exact hs.taken htaken fun timeout w hw ↦ ha timeout w hw hC
  | none =>
    cases e with
    | tick nanos =>
      simp only [Timed.step] at h
      split at h
      · cases h
        have hnow : s.now ≤ s.now + nanos := Nat.le_add_right _ _
        have hlater : ∀ k, Later s { s with now := s.now + nanos } k := fun k ↦
          ⟨hnow, rfl, rfl, fun h ↦ h, [], (List.append_nil _).symm, fun p hp ↦ by cases hp⟩
        refine ⟨fun k ↦ Nat.le_trans (hs.started k) hnow, hs.unpublished, hs.published, fun k ↦ ?_⟩
        exact (hs.actors k).later (hlater k)
      · cases h
    | _ => cases hactor

/-! ## The exact condition -/

omit [DecidableEq κ] [DecidableEq L] in
theorem KeepsTimeout.mayTimeOut (h : t.KeepsTimeout)
    (hk : t.state.actors k = .wait timeout (.returned (.error (appLoaderWaitTimedOut timeout)))) :
    t.MayTimeOut k timeout := by
  refine ⟨h.elapsed k timeout _ hk rfl, ?_⟩
  by_contra hnot
  rw [not_or, Classical.not_not, Bool.not_eq_true] at hnot
  obtain ⟨p, -, hp⟩ := h.found k timeout _ hk hnot.2 hnot.1
  cases hp

/-- A call that reports a timeout outside the lock breaks its promise, unless it may. -/
theorem not_keepsTimeout_of_taken
    (h : Taken s k action (.wait timeout (.returned (.error (appLoaderWaitTimedOut timeout)))) t)
    (hstarted : (s.keep k action).started = (s.clocks k).started)
    (hinner : s.state.inner = t.state.inner)
    (hmeets : (s.state.actors k).meetsFault action = false) (hnot : ¬ s.MayTimeOut k timeout) :
    ¬ t.KeepsTimeout := by
  intro hkeeps
  refine hnot ((h.mayTimeOut_iff hstarted hinner hmeets).1 (hkeeps.mayTimeOut ?_))
  rw [h.actors, Function.update_self]

theorem not_keepsTimeout_of_step {e : Event κ L T θ} (hC : ¬ s.InTime e) (h : s.step e = some t) :
    ¬ t.KeepsTimeout := by
  cases e with
  | tick | wake | act => exact absurd trivial hC
  | read k =>
    obtain ⟨action, haction, h⟩ := Option.bind_eq_some_iff.1 h
    obtain ⟨b, h⟩ := taken_of_take h
    have hactor := h.actor
    unfold reading at haction
    dsimp only [InTime] at hC
    split at haction
    case h_1 timeout hw | h_2 timeout hw =>
      rw [hw] at hC hactor
      obtain ⟨hup, hnot⟩ := Classical.not_imp.1 hC
      rw [hup] at haction
      cases haction
      obtain ⟨hinner, -, rfl⟩ := eq_of_some hactor
      refine not_keepsTimeout_of_taken h started_keep_remaining hinner ?_ hnot
      rw [hw]
      rfl
    case h_3 timeout hw =>
      rw [hw] at hC hactor
      obtain ⟨hfits, hnot⟩ := not_or.1 hC
      rw [Bool.not_eq_true] at hfits
      rw [hfits] at haction
      cases haction
      obtain ⟨hinner, -, rfl⟩ := eq_of_some hactor
      refine not_keepsTimeout_of_taken h rfl hinner ?_ hnot
      rw [hw]
      rfl
    case h_4 => cases haction

/-- **Timeouts, exactly.** A run keeps every timeout in every state it passes exactly when its steps
are in time. -/
theorem keepsTimeout_iff {ls : List (Event κ L T θ)} (h : machine.run initial ls = some t) :
    machine.Throughout KeepsTimeout initial ls ↔ machine.Along InTime initial ls :=
  Machine.throughout_iff_along (fun _ hs ↦ hs.keepsTimeout) (fun _ _ _ hs hC h ↦ hs.step hC h)
    (fun _ _ _ _ hC h ↦ not_keepsTimeout_of_step hC h) inv_initial h

end Timed

end JavaBridge.Perform

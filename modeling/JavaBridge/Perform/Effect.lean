import JavaBridge.Perform.Step

/-!
# What a step of the perform machine can do

Three views of a call are enough for every argument about lost callbacks: the drain it is in
(`Actor.drain?`), the callbacks it took out of the queue and has not completed (`Actor.held`), and
whether its own callback has been handed over (`Actor.stage`). `step_effect` lists, in these views,
everything a step can do.
-/

universe u

namespace JavaBridge.Perform

variable {κ L T θ : Type u}

/-! ## Views of a call -/

namespace Drain

/-- Between a successful `begin_startup_drain` and its `finish_startup_drain`. -/
def Active : Drain κ L → Prop
  | begin _ | done => False
  | _ => True

/-- The queue has been swapped out, and `finish_startup_drain(true)` is still to come. -/
def PastSwap : Drain κ L → Prop
  | running _ | completing _ _ _ | finish true => True
  | _ => False

/-- The operations swapped out of the queue and not completed. -/
def held : Drain κ L → List κ
  | running pending => pending
  | completing operation _ pending => operation :: pending
  | _ => []

@[simp] theorem not_active_begin (source : AppStartupDrainSource) :
    ¬ (begin source : Drain κ L).Active := id
@[simp] theorem not_active_done : ¬ (done : Drain κ L).Active := id
@[simp] theorem active_resolve : (resolve : Drain κ L).Active := trivial
@[simp] theorem active_publish (loader : L) : (publish loader : Drain κ L).Active := trivial
@[simp] theorem active_swap : (swap : Drain κ L).Active := trivial
@[simp] theorem active_running (p : List κ) : (running p : Drain κ L).Active := trivial
@[simp] theorem active_completing (k : κ) (c : Complete) (p : List κ) :
    (completing k c p : Drain κ L).Active := trivial
@[simp] theorem active_finish (b : Bool) : (finish b : Drain κ L).Active := trivial

theorem PastSwap.active {drain : Drain κ L} (h : drain.PastSwap) : drain.Active := by
  cases drain with
  | begin | done => exact h
  | _ => trivial

end Drain

namespace Actor

/-- The drain the call is in. -/
def drain? : Actor κ L θ → Option (Drain κ L)
  | .perform (.drainIfReady point) => some point
  | .wait _ (.drainIfReady point) => some point
  | .drain point => some point
  | _ => none

def Active (actor : Actor κ L θ) : Prop := ∃ point ∈ actor.drain?, point.Active

def PastSwap (actor : Actor κ L θ) : Prop := ∃ point ∈ actor.drain?, point.PastSwap

def held (actor : Actor κ L θ) : List κ := actor.drain?.elim [] Drain.held

theorem PastSwap.active {actor : Actor κ L θ} : actor.PastSwap → actor.Active
  | ⟨point, h, hp⟩ => ⟨point, h, hp.active⟩

section Drain

variable {actor : Actor κ L θ} {point : Drain κ L}

theorem active_iff (h : actor.drain? = some point) : actor.Active ↔ point.Active := by
  simp [Active, h]

theorem pastSwap_iff (h : actor.drain? = some point) : actor.PastSwap ↔ point.PastSwap := by
  simp [PastSwap, h]

theorem held_eq (h : actor.drain? = some point) : actor.held = point.held := by
  simp [held, h]

theorem not_active (h : actor.drain? = none) : ¬ actor.Active := by
  simp [Active, h]

theorem held_eq_nil (h : ¬ actor.Active) : actor.held = [] := by
  cases hp : actor.drain? with
  | none => simp [held, hp]
  | some point =>
    rw [active_iff hp] at h
    rw [held_eq hp]
    cases point with
    | begin | done => rfl
    | _ => exact absurd trivial h

end Drain

/-- What has become of the call's own callback. -/
inductive Stage
  /-- It is still with the call, which has not returned `Ok`. -/
  | fresh
  /-- The call is completing it itself. -/
  | direct
  /-- It was queued or completed. -/
  | handed
  /-- The call has none. -/
  | none
  deriving DecidableEq

def stage : Actor κ L θ → Stage
  | .idle => .fresh
  | .perform (.completing _) => .direct
  | .perform (.drainIfReady _) | .perform (.returned (.ok _)) => .handed
  | .perform _ => .fresh
  | .wait _ _ | .drain _ => .none

end Actor

/-! ## The effect of a step -/

/-- The two calls stand at the same point for every view but the stage. -/
structure SameDrain (a b : Actor κ L θ) : Prop where
  active : b.Active ↔ a.Active
  pastSwap : b.PastSwap ↔ a.PastSwap
  held : b.held = a.held

/-- What a step of the call `k` does: `a` and `b` are where the call stood and where it then
stands, and a component that is not mentioned keeps its value. -/
inductive Effect [DecidableEq κ] (k : κ) (inner : AppPerformInner κ L)
    (cells : κ → PerformCell T θ) (a : Actor κ L θ) :
    AppPerformInner κ L → (κ → PerformCell T θ) → Actor κ L θ → Prop
  /-- Only the published loader, the hooks or the call's own point change. -/
  | quiet {inner' b} (hp : inner'.pending = inner.pending)
      (hs : inner'.startupDrain = inner.startupDrain) (hd : SameDrain a b)
      (hst : b.stage = a.stage ∨ a.stage = .fresh ∧ b.stage ≠ .handed) :
      Effect k inner cells a inner' cells b
  | requireLate (ha : a = .idle) :
      Effect k inner cells a
        { inner with startupDrain := inner.startupDrain.requireLateHookpoint } cells a
  | enqueue (ha : a = .perform .enqueue) :
      Effect k inner cells a (inner.enqueue k) cells
        (.perform (.drainIfReady (.begin .currentApplication)))
  | begin {b hookpoint source} (hw : inner.startupDrain = .waiting hookpoint)
      (ha : ¬ a.Active) (hb : b.Active) (hsw : ¬ b.PastSwap) (hh : a.held = [] ∧ b.held = [])
      (hst : b.stage = a.stage) (hsource : ¬ (source = .loadedApk ∧ hookpoint = .late)) :
      Effect k inner cells a { inner with startupDrain := .draining hookpoint source } cells b
  | swap {b} (ha : a.Active) (hh : a.held = []) (hb : b.PastSwap) (hbh : b.held = inner.pending)
      (hsw : ¬ a.PastSwap) (hst : b.stage = a.stage) :
      Effect k inner cells a { inner with pending := [] } cells b
  /-- A callback is entered. -/
  | enter {operation b} (hop : operation ∈ a.held ∨ operation = k ∧ a.stage = .direct)
      (hd : SameDrain a b) (hst : b.stage = a.stage) :
      Effect k inner cells a inner
        (Function.update cells operation { cells operation with entered := true }) b
  /-- A drain completes an operation it holds. -/
  | complete {operation cell b} (hc : cell.status ≠ .pending)
      (he : cell.entered = (cells operation).entered) (hh : a.held = operation :: b.held)
      (ha : a.PastSwap) (hb : b.PastSwap) (hst : b.stage = a.stage) :
      Effect k inner cells a inner (Function.update cells operation cell) b
  /-- A call completes its own callback. -/
  | completeDirect {cell b} (hc : cell.status ≠ .pending) (ha : a.stage = .direct)
      (hd : SameDrain a b) (hst : b.stage = .handed) :
      Effect k inner cells a inner (Function.update cells k cell) b
  | finish {b success} (ha : a.Active) (hsw : a.PastSwap ↔ success = true) (hb : ¬ b.Active)
      (hh : a.held = [] ∧ b.held = []) (hst : b.stage = a.stage) :
      Effect k inner cells a
        { inner with startupDrain := inner.startupDrain.finish success } cells b

section Effect

variable {k : κ} {inner inner' : AppPerformInner κ L} {cells cells' : κ → PerformCell T θ}
  {a b : Actor κ L θ}

theorem SameDrain.of_drain?_eq (h : b.drain? = a.drain?) : SameDrain a b where
  active := by simp only [Actor.Active, h]
  pastSwap := by simp only [Actor.PastSwap, h]
  held := by simp only [Actor.held, h]

/-- Only the point of the call changes. -/
theorem Effect.still [DecidableEq κ] (hd : b.drain? = a.drain?) (hst : b.stage = a.stage) :
    Effect k inner cells a inner cells b :=
  .quiet rfl rfl (.of_drain?_eq hd) (.inl hst)

theorem SameDrain.of_drain {d d' : Drain κ L} (ha : a.drain? = some d) (hb : b.drain? = some d')
    (hact : d'.Active ↔ d.Active) (hsw : d'.PastSwap ↔ d.PastSwap) (hh : d'.held = d.held) :
    SameDrain a b where
  active := by rw [Actor.active_iff ha, Actor.active_iff hb, hact]
  pastSwap := by rw [Actor.pastSwap_iff ha, Actor.pastSwap_iff hb, hsw]
  held := by rw [Actor.held_eq ha, Actor.held_eq hb, hh]

theorem publishAppLoader_ok [DecidableEq L] {loader : L} {fault : Option (Error θ)}
    (h : inner.publishAppLoader loader fault = .ok inner') :
    inner'.pending = inner.pending ∧ inner'.startupDrain = inner.startupDrain := by
  unfold AppPerformInner.publishAppLoader at h
  split at h
  · cases h
  · split at h <;> cases h <;> exact ⟨rfl, rfl⟩

theorem ensureHook_ok {installed : AppPerformHooks}
    (h : inner.ensureHook (θ := θ) installed = .ok inner') :
    inner'.pending = inner.pending ∧ inner'.startupDrain = inner.startupDrain := by
  unfold AppPerformInner.ensureHook at h
  split at h
  · cases h; exact ⟨rfl, rfl⟩
  · split at h <;> cases h; exact ⟨rfl, rfl⟩

/-- A section of `complete_perform` enters the callback or completes the operation. -/
theorem completeStep_cases {cell cell' : PerformCell T θ} {c : Complete} {c' : Option Complete}
    {action : Action L T θ} (h : completeStep cell c action = some (cell', c')) :
    (c' = some .callback ∧ cell' = { cell with entered := true }) ∨
      (c' = none ∧ cell'.status ≠ .pending ∧ cell'.entered = cell.entered) := by
  unfold completeStep at h
  split at h
  · cases h; exact .inl ⟨rfl, rfl⟩
  · cases h; exact .inr ⟨rfl, nofun, rfl⟩
  · cases h
    rename_i outcome
    refine .inr ⟨rfl, ?_, ?_⟩
    · cases outcome with
      | returned result => cases result <;> simp [PerformCell.complete]
      | panicked => simp [PerformCell.complete]
    · cases outcome with
      | returned result => cases result <;> rfl
      | panicked => rfl
  · cases h

theorem begin_cases (drain : AppStartupDrain) (source : AppStartupDrainSource) :
    (∃ hookpoint, drain = .waiting hookpoint ∧ ¬ (source = .loadedApk ∧ hookpoint = .late) ∧
      drain.begin source = (.draining hookpoint source, true)) ∨
      drain.begin source = (drain, false) := by
  unfold AppStartupDrain.begin
  split
  · split
    · exact .inr rfl
    · next hsource => exact .inl ⟨_, rfl, hsource, rfl⟩
  · exact .inr rfl

variable [DecidableEq κ] [DecidableEq L]

/-- Every section of a drain, seen from the call that is in it. -/
theorem drainStep_effect {d d' : Drain κ L} {action : Action L T θ}
    (h : drainStep inner cells d action = some (inner', cells', d'))
    (ha : a.drain? = some d) (hb : b.drain? = some d') (hst : b.stage = a.stage) :
    Effect k inner cells a inner' cells' b := by
  unfold drainStep at h
  split at h
  · -- `begin_startup_drain`
    rename_i source
    cases h
    rcases begin_cases inner.startupDrain source with ⟨hookpoint, hw, hsource, hbeg⟩ | hbeg
    · rw [hbeg] at hb ⊢
      refine .begin hw ?_ ?_ ?_ ?_ hst hsource
      · simp [Actor.active_iff ha]
      · simp [Actor.active_iff hb]
      · simp [Actor.pastSwap_iff hb, Drain.PastSwap]
      · rw [Actor.held_eq ha, Actor.held_eq hb]; exact ⟨rfl, rfl⟩
    · rw [hbeg] at hb ⊢
      exact .quiet rfl rfl (.of_drain ha hb (by simp) (by simp [Drain.PastSwap]) rfl) (.inl hst)
  · cases h
    exact .quiet rfl rfl (.of_drain ha hb (by simp) (by simp [Drain.PastSwap]) rfl) (.inl hst)
  · cases h
    exact .quiet rfl rfl (.of_drain ha hb (by simp) (by simp [Drain.PastSwap]) rfl) (.inl hst)
  · split at h
    · rename_i hpub
      cases h
      obtain ⟨hp, hs⟩ := publishAppLoader_ok hpub
      exact .quiet hp hs (.of_drain ha hb (by simp) (by simp [Drain.PastSwap]) rfl) (.inl hst)
    · cases h
      exact .quiet rfl rfl (.of_drain ha hb (by simp) (by simp [Drain.PastSwap]) rfl) (.inl hst)
  · cases h
    refine .swap ?_ (Actor.held_eq ha) ?_ (Actor.held_eq hb) ?_ hst
    · simp [Actor.active_iff ha]
    · simp [Actor.pastSwap_iff hb, Drain.PastSwap]
    · simp [Actor.pastSwap_iff ha, Drain.PastSwap]
  · cases h
    exact .quiet rfl rfl (.of_drain ha hb (by simp) (by simp [Drain.PastSwap]) rfl) (.inl hst)
  · cases h
    exact .quiet rfl rfl (.of_drain ha hb (by simp) (by simp [Drain.PastSwap]) rfl) (.inl hst)
  · -- `complete_perform` of an operation the drain holds
    rename_i operation point pending action
    obtain ⟨⟨cell, c⟩, hc, h⟩ := Option.map_eq_some_iff.mp h
    cases h
    rcases completeStep_cases hc with ⟨rfl, rfl⟩ | ⟨rfl, hne, hent⟩
    · refine .enter (.inl ?_)
        (.of_drain ha hb (by simp) (by simp [Drain.PastSwap]) rfl) hst
      rw [Actor.held_eq ha]
      exact List.mem_cons_self
    · refine .complete hne hent ?_ ?_ ?_ hst
      · rw [Actor.held_eq ha, Actor.held_eq hb]; rfl
      · rw [Actor.pastSwap_iff ha]; trivial
      · rw [Actor.pastSwap_iff hb]; trivial
  · rename_i success
    cases h
    refine .finish ?_ ?_ ?_ ?_ hst
    · simp [Actor.active_iff ha]
    · rw [Actor.pastSwap_iff ha]; cases success <;> simp [Drain.PastSwap]
    · simp [Actor.active_iff hb]
    · rw [Actor.held_eq ha, Actor.held_eq hb]; exact ⟨rfl, rfl⟩
  · cases h

theorem performStep_effect {p p' : PerformPoint κ L θ} {action : Action L T θ}
    (h : performStep k inner cells p action = some (inner', cells', p')) :
    Effect k inner cells (.perform p) inner' cells' (.perform p') := by
  unfold performStep at h
  split at h
  · cases h
    refine .quiet rfl rfl (.of_drain?_eq ?_) (.inr ⟨rfl, ?_⟩)
    · split <;> rfl
    · split <;> exact nofun
  · obtain ⟨⟨cell, c⟩, hc, h⟩ := Option.map_eq_some_iff.mp h
    cases h
    rcases completeStep_cases hc with ⟨rfl, rfl⟩ | ⟨rfl, hne, -⟩
    · exact .enter (.inr ⟨rfl, rfl⟩) (.of_drain?_eq rfl) rfl
    · exact .completeDirect hne rfl (.of_drain?_eq rfl) rfl
  · cases h
    exact .still rfl rfl
  · cases h
    exact .still rfl rfl
  · cases h
    exact .still rfl rfl
  · split at h
    · rename_i hpub
      cases h
      obtain ⟨hp, hs⟩ := publishAppLoader_ok hpub
      exact .quiet hp hs (.of_drain?_eq rfl) (.inr ⟨rfl, nofun⟩)
    · cases h
      exact .still rfl rfl
    · cases h
      exact .still rfl rfl
  · split at h
    · rename_i hinst
      cases h
      obtain ⟨hp, hs⟩ := ensureHook_ok hinst
      exact .quiet hp hs (.of_drain?_eq rfl) (.inl rfl)
    · cases h
      exact .still rfl rfl
  · cases h
    exact .enqueue rfl
  · cases h
    refine .quiet rfl rfl ⟨?_, ?_, rfl⟩ (.inl rfl) <;>
      simp [Actor.Active, Actor.PastSwap, Actor.drain?, Drain.PastSwap]
  · obtain ⟨⟨inner₁, cells₁, d'⟩, hd, h⟩ := Option.map_eq_some_iff.mp h
    cases h
    exact drainStep_effect hd rfl rfl rfl
  · cases h

theorem waitStep_effect {timeout : Nat} {w w' : WaitPoint κ L θ} {action : Action L T θ}
    (h : waitStep timeout inner cells w action = some (inner', cells', w')) :
    Effect k inner cells (.wait timeout w) inner' cells' (.wait timeout w') := by
  unfold waitStep at h
  split at h
  · cases h
    refine .still ?_ rfl
    split <;> rfl
  · cases h
    exact .still rfl rfl
  · cases h
    exact .still rfl rfl
  · cases h
    exact .still rfl rfl
  · split at h
    · rename_i hpub
      cases h
      obtain ⟨hp, hs⟩ := publishAppLoader_ok hpub
      exact .quiet hp hs (.of_drain?_eq rfl) (.inl rfl)
    · cases h
      exact .still rfl rfl
    · cases h
      exact .still rfl rfl
  · cases h
    exact .still rfl rfl
  · cases h
    refine .still ?_ rfl
    split <;> rfl
  · split at h
    · rename_i hinst
      cases h
      obtain ⟨hp, hs⟩ := ensureHook_ok hinst
      refine .quiet hp hs ⟨?_, ?_, rfl⟩ (.inl rfl) <;>
        simp [Actor.Active, Actor.PastSwap, Actor.drain?, Drain.PastSwap]
    · cases h
      exact .still rfl rfl
  · cases h
    refine .quiet rfl rfl ⟨?_, ?_, rfl⟩ (.inl rfl) <;>
      simp [Actor.Active, Actor.PastSwap, Actor.drain?, Drain.PastSwap]
  · obtain ⟨⟨inner₁, cells₁, d'⟩, hd, h⟩ := Option.map_eq_some_iff.mp h
    cases h
    exact drainStep_effect hd rfl rfl rfl
  · cases h
    refine .still ?_ rfl
    split <;> rfl
  · cases h
    refine .still ?_ rfl
    split <;> rfl
  · cases h
    refine .still ?_ rfl
    split <;> rfl
  · cases h
    refine .quiet rfl rfl (.of_drain?_eq ?_) (.inl rfl)
    split
    · rfl
    · split <;> rfl
  · cases h
    refine .still ?_ rfl
    split <;> rfl
  · cases h

theorem actorStep_effect {action : Action L T θ}
    (h : actorStep k inner cells a action = some (inner', cells', b)) :
    Effect k inner cells a inner' cells' b := by
  unfold actorStep at h
  split at h
  · cases h
    exact .still rfl rfl
  · cases h
    exact .quiet rfl rfl (.of_drain?_eq rfl) (.inr ⟨rfl, nofun⟩)
  · split at h
    · cases h
      refine .quiet rfl rfl ⟨?_, ?_, rfl⟩ (.inr ⟨rfl, nofun⟩) <;>
        simp [Actor.Active, Actor.PastSwap, Actor.drain?, Drain.PastSwap]
    · cases h
  · cases h
    exact .requireLate rfl
  · cases h
  · obtain ⟨⟨inner₁, cells₁, p⟩, hp, h⟩ := Option.map_eq_some_iff.mp h
    cases h
    exact performStep_effect hp
  · obtain ⟨⟨inner₁, cells₁, w⟩, hw, h⟩ := Option.map_eq_some_iff.mp h
    cases h
    exact waitStep_effect hw
  · obtain ⟨⟨inner₁, cells₁, d⟩, hd, h⟩ := Option.map_eq_some_iff.mp h
    cases h
    exact drainStep_effect hd rfl rfl rfl

/-- **What a step does**: the call that moves has one of the listed effects, and every other call
stands where it stood. -/
theorem step_effect {s t : State κ L T θ} {l : κ × Action L T θ} (h : step s l = some t) :
    ∃ b, t.actors = Function.update s.actors l.1 b ∧
      Effect l.1 s.inner s.cells (s.actors l.1) t.inner t.cells b := by
  obtain ⟨⟨inner, cells, b⟩, hb, rfl⟩ := Option.map_eq_some_iff.mp h
  exact ⟨b, rfl, actorStep_effect hb⟩

end Effect

end JavaBridge.Perform

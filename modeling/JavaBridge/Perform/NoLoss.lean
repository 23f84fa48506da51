import JavaBridge.Perform.Effect
import Mathlib.Data.Fintype.Basic

/-!
# Which `Java::perform` callbacks are kept

A callback handed to `Java::perform` before the app class loader is known waits in the queue for a
startup drain, and the first drain that finishes is the last. `perform` enqueues in a section of
its own, so its `enqueue` may come after that drain has swapped the queue out: the callback then
waits for a drain that never comes.

Main results:

* `Consistent.of_run`: the bookkeeping every run keeps, with at most one drain at a time, a
  callback that was handed over tracked until it is completed, and one that was not untouched.
* `emptied_of_run`, `stranded_of_run`: what is decided at an `enqueue`. Where every enqueue comes
  before the swap the queue stays empty from the swap on; one that comes later is never drained.
* `noneLost_iff_enqueuedInTime`: a run that has settled lost no callback exactly when each of its
  enqueues came in time.
-/

universe u

namespace JavaBridge.Perform

variable {κ L T θ : Type u}

/-! ## Settled states -/

/-- The call is no `perform` in the middle of its steps, and is in no drain. -/
def Actor.resting : Actor κ L θ → Bool
  | .idle | .perform (.returned _) | .drain .done => true
  | .perform _ | .drain _ | .wait _ (.drainIfReady _) => false
  | .wait _ _ => true

/-- The call is a `perform` that returned `Ok`. -/
def Actor.returnedOk : Actor κ L θ → Bool
  | .perform (.returned (.ok _)) => true
  | _ => false

/-- The call is a `perform` that returned an error. -/
def Actor.returnedErr : Actor κ L θ → Bool
  | .perform (.returned (.error _)) => true
  | _ => false

/-- The startup drain is over, and no `perform` call and no drain is in the middle of its steps. -/
def Settled (s : State κ L T θ) : Prop :=
  s.inner.startupDrain.IsInitialized ∧ ∀ k, (s.actors k).resting = true

/-- Nothing is left in the queue, and no callback of a `perform` that returned `Ok` is pending. -/
def NoneLost (s : State κ L T θ) : Prop :=
  s.inner.pending = [] ∧ ∀ k, (s.actors k).returnedOk = true → (s.cells k).status ≠ .pending

/-- No callback of a `perform` that returned an error was entered. -/
def ErrNeverRan (s : State κ L T θ) : Prop :=
  ∀ k, (s.actors k).returnedErr = true → (s.cells k).entered = false

/-- An `enqueue` comes before the startup drain is over, and before the drain in progress has
swapped the queue out. -/
def EnqueuedInTime (s : State κ L T θ) : κ × Action L T θ → Prop
  | (_, .enqueue) => ¬ s.inner.startupDrain.IsInitialized ∧ ∀ j, ¬ (s.actors j).PastSwap
  | _ => True

theorem Actor.not_active_of_resting {a : Actor κ L θ} (h : a.resting = true) : ¬ a.Active := by
  rintro ⟨point, hp, hact⟩
  cases a with
  | idle => cases hp
  | perform p =>
    cases p with
    | drainIfReady => cases h
    | _ => cases hp
  | wait timeout w =>
    cases w with
    | drainIfReady => cases h
    | _ => cases hp
  | drain d =>
    cases hp
    cases point with
    | done => exact hact
    | _ => cases h

theorem Actor.stage_of_returnedOk {a : Actor κ L θ} (h : a.returnedOk = true) :
    a.stage = .handed := by
  unfold Actor.returnedOk at h
  split at h
  · rfl
  · cases h

theorem Actor.stage_of_returnedErr {a : Actor κ L θ} (h : a.returnedErr = true) :
    a.stage = .fresh := by
  unfold Actor.returnedErr at h
  split at h
  · rfl
  · cases h

/-! ## The bookkeeping -/

/-- What holds in every reachable state. -/
structure Consistent (s : State κ L T θ) : Prop where
  draining : ∀ j, (s.actors j).Active → s.inner.startupDrain.IsDraining
  unique : ∀ i j, (s.actors i).Active → (s.actors j).Active → i = j
  fresh : ∀ k, (s.actors k).stage = .fresh →
    (s.cells k).entered = false ∧ k ∉ s.inner.pending ∧ ∀ j, k ∉ (s.actors j).held
  tracked : ∀ k, (s.actors k).stage = .handed → (s.cells k).status = .pending →
    k ∈ s.inner.pending ∨ ∃ j, k ∈ (s.actors j).held

theorem consistent_initial : Consistent (initial : State κ L T θ) where
  draining j h := absurd h (Actor.not_active rfl)
  unique i j h := absurd h (Actor.not_active rfl)
  fresh k _ := ⟨rfl, List.not_mem_nil, fun _ ↦ List.not_mem_nil⟩
  tracked k h := by cases h

section Step

variable {s : State κ L T θ} {k : κ} {b : Actor κ L θ} {inner : AppPerformInner κ L}
  {cells : κ → PerformCell T θ}

theorem sameDrain_enqueue (ha : s.actors k = .perform .enqueue) :
    SameDrain (s.actors k) (.perform (.drainIfReady (.begin .currentApplication))) := by
  rw [ha]
  refine ⟨?_, ?_, rfl⟩ <;> simp [Actor.Active, Actor.PastSwap, Actor.drain?, Drain.PastSwap]

/-- While a drain is active no other call is. -/
theorem Consistent.not_active_of_ne (hs : Consistent s) (h : (s.actors k).Active) {j : κ}
    (hj : j ≠ k) : ¬ (s.actors j).Active :=
  fun hact ↦ hj (hs.unique j k hact h)

variable [DecidableEq κ]

theorem sameDrain_update (h : SameDrain (s.actors k) b) (j : κ) :
    SameDrain (s.actors j) (Function.update s.actors k b j) := by
  by_cases hj : j = k
  · subst hj
    rwa [Function.update_self]
  · rw [Function.update_of_ne hj]
    exact .of_drain?_eq rfl

theorem stage_update (h : b.stage = (s.actors k).stage) (j : κ) :
    (Function.update s.actors k b j).stage = (s.actors j).stage := by
  by_cases hj : j = k
  · subst hj
    rwa [Function.update_self]
  · rw [Function.update_of_ne hj]

/-- An operation no call held and the moving call does not take is held by none. -/
theorem not_mem_held_update {x : κ} (h : ∀ j, x ∉ (s.actors j).held) (hb : x ∉ b.held) (j : κ) :
    x ∉ (Function.update s.actors k b j).held := by
  by_cases hj : j = k
  · rwa [hj, Function.update_self]
  · rw [Function.update_of_ne hj]
    exact h j

/-- An operation some call held is still held, if the moving call does not give it up. -/
theorem exists_mem_held_update {x : κ} (h : ∃ j, x ∈ (s.actors j).held)
    (hb : x ∈ (s.actors k).held → x ∈ b.held) :
    ∃ j, x ∈ (Function.update s.actors k b j).held := by
  obtain ⟨j, hj⟩ := h
  refine ⟨j, ?_⟩
  by_cases hjk : j = k
  · subst hjk
    rw [Function.update_self]
    exact hb hj
  · rwa [Function.update_of_ne hjk]

/-- One drain at a time, and only while the startup drain is draining. -/
theorem Consistent.step_drains (hs : Consistent s)
    (he : Effect k s.inner s.cells (s.actors k) inner cells b) :
    (∀ j, (Function.update s.actors k b j).Active → inner.startupDrain.IsDraining) ∧
      ∀ i j, (Function.update s.actors k b i).Active → (Function.update s.actors k b j).Active →
        i = j := by
  have hsame (hd : ∀ j, (Function.update s.actors k b j).Active → (s.actors j).Active)
      (hi : s.inner.startupDrain.IsDraining → inner.startupDrain.IsDraining) :
      (∀ j, (Function.update s.actors k b j).Active → inner.startupDrain.IsDraining) ∧
        ∀ i j, (Function.update s.actors k b i).Active →
          (Function.update s.actors k b j).Active → i = j :=
    ⟨fun j h ↦ hi (hs.draining j (hd j h)), fun i j h h' ↦ hs.unique i j (hd i h) (hd j h')⟩
  cases he with
  | quiet hp hstart hd hst =>
    exact hsame (fun j ↦ (sameDrain_update hd j).active.mp) (fun h ↦ hstart ▸ h)
  | requireLate ha =>
    refine hsame (fun j ↦ (sameDrain_update (.of_drain?_eq rfl) j).active.mp) fun h ↦ ?_
    revert h
    cases s.inner.startupDrain with
    | waiting => exact fun h ↦ h.elim
    | draining | initialized => exact id
  | enqueue ha => exact hsame (fun j ↦ (sameDrain_update (sameDrain_enqueue ha) j).active.mp) id
  | begin hw ha hb hsw hh hst =>
    have hothers (j : κ) (h : (Function.update s.actors k b j).Active) : j = k := by
      by_contra hj
      rw [Function.update_of_ne hj] at h
      have hdr := hs.draining j h
      rw [hw] at hdr
      exact hdr
    exact ⟨fun _ _ ↦ trivial, fun i j hi hj ↦ (hothers i hi).trans (hothers j hj).symm⟩
  | swap ha hh hb =>
    refine hsame (fun j h ↦ ?_) id
    by_cases hj : j = k
    · exact hj ▸ ha
    · rwa [Function.update_of_ne hj] at h
  | enter hop hd => exact hsame (fun j ↦ (sameDrain_update hd j).active.mp) id
  | complete hc hent hh ha =>
    refine hsame (fun j h ↦ ?_) id
    by_cases hj : j = k
    · exact hj ▸ ha.active
    · rwa [Function.update_of_ne hj] at h
  | completeDirect hc ha hd => exact hsame (fun j ↦ (sameDrain_update hd j).active.mp) id
  | finish ha hsw hb =>
    have hnone (j : κ) : ¬ (Function.update s.actors k b j).Active := by
      by_cases hj : j = k
      · rwa [hj, Function.update_self]
      · rw [Function.update_of_ne hj]
        exact hs.not_active_of_ne ha hj
    exact ⟨fun j h ↦ absurd h (hnone j), fun i _ h ↦ absurd h (hnone i)⟩

/-- A callback still with its call is not entered, and is neither queued nor held. -/
theorem Consistent.step_fresh (hs : Consistent s)
    (he : Effect k s.inner s.cells (s.actors k) inner cells b) (x : κ)
    (hx : (Function.update s.actors k b x).stage = .fresh) :
    (cells x).entered = false ∧ x ∉ inner.pending ∧
      ∀ j, x ∉ (Function.update s.actors k b j).held := by
  have hsame (hst : b.stage = (s.actors k).stage) : (s.actors x).stage = .fresh :=
    (stage_update hst x).symm.trans hx
  cases he with
  | quiet hp hstart hd hst =>
    have hfresh : (s.actors x).stage = .fresh := by
      by_cases hxk : x = k
      · subst hxk
        rw [Function.update_self] at hx
        rcases hst with hst | ⟨hst, -⟩
        · rw [← hst, hx]
        · exact hst
      · rwa [Function.update_of_ne hxk] at hx
    obtain ⟨hent, hpend, hheld⟩ := hs.fresh x hfresh
    exact ⟨hent, hp ▸ hpend, not_mem_held_update hheld (hd.held ▸ hheld k)⟩
  | requireLate ha =>
    rw [Function.update_eq_self] at hx ⊢
    exact hs.fresh x hx
  | enqueue ha =>
    have hxk : x ≠ k := by
      rintro rfl
      rw [Function.update_self] at hx
      cases hx
    rw [Function.update_of_ne hxk] at hx
    obtain ⟨hent, hpend, hheld⟩ := hs.fresh x hx
    refine ⟨hent, ?_, not_mem_held_update hheld List.not_mem_nil⟩
    simpa [AppPerformInner.enqueue, hxk] using hpend
  | begin hw ha hb hsw hh hst =>
    obtain ⟨hent, hpend, hheld⟩ := hs.fresh x (hsame hst)
    exact ⟨hent, hpend, not_mem_held_update hheld (hh.2 ▸ List.not_mem_nil)⟩
  | swap ha hh hb hbh hsw hst =>
    obtain ⟨hent, hpend, hheld⟩ := hs.fresh x (hsame hst)
    exact ⟨hent, List.not_mem_nil, not_mem_held_update hheld (hbh ▸ hpend)⟩
  | @enter operation _ hop hd hst =>
    obtain ⟨hent, hpend, hheld⟩ := hs.fresh x (hsame hst)
    refine ⟨?_, hpend, not_mem_held_update hheld (hd.held ▸ hheld k)⟩
    have hne : x ≠ operation := by
      rintro rfl
      rcases hop with hop | ⟨rfl, hdir⟩
      · exact hheld k hop
      · have hfresh := hsame hst
        rw [hdir] at hfresh
        cases hfresh
    rwa [Function.update_of_ne hne]
  | @complete operation cell _ hc hent hh ha hb hst =>
    obtain ⟨hx_ent, hpend, hheld⟩ := hs.fresh x (hsame hst)
    have hk := hheld k
    rw [hh, List.mem_cons, not_or] at hk
    refine ⟨?_, hpend, not_mem_held_update hheld hk.2⟩
    rwa [Function.update_of_ne hk.1]
  | completeDirect hc ha hd hst =>
    have hxk : x ≠ k := by
      rintro rfl
      rw [Function.update_self, hst] at hx
      cases hx
    rw [Function.update_of_ne hxk] at hx
    obtain ⟨hent, hpend, hheld⟩ := hs.fresh x hx
    refine ⟨?_, hpend, not_mem_held_update hheld (hd.held ▸ hheld k)⟩
    rwa [Function.update_of_ne hxk]
  | finish ha hsw hb hh hst =>
    obtain ⟨hent, hpend, hheld⟩ := hs.fresh x (hsame hst)
    exact ⟨hent, hpend, not_mem_held_update hheld (hh.2 ▸ List.not_mem_nil)⟩

/-- A callback that was handed over is queued or held until it is completed. -/
theorem Consistent.step_tracked (hs : Consistent s)
    (he : Effect k s.inner s.cells (s.actors k) inner cells b) (x : κ)
    (hx : (Function.update s.actors k b x).stage = .handed) (hpen : (cells x).status = .pending) :
    x ∈ inner.pending ∨ ∃ j, x ∈ (Function.update s.actors k b j).held := by
  have hsame (hst : b.stage = (s.actors k).stage) : (s.actors x).stage = .handed :=
    (stage_update hst x).symm.trans hx
  cases he with
  | quiet hp hstart hd hst =>
    have hhanded : (s.actors x).stage = .handed := by
      by_cases hxk : x = k
      · subst hxk
        rw [Function.update_self] at hx
        rcases hst with hst | ⟨-, hst⟩
        · rw [← hst, hx]
        · exact absurd hx hst
      · rwa [Function.update_of_ne hxk] at hx
    rcases hs.tracked x hhanded hpen with hmem | hheld
    · exact .inl (hp ▸ hmem)
    · exact .inr (exists_mem_held_update hheld fun h ↦ hd.held ▸ h)
  | requireLate ha =>
    rw [Function.update_eq_self] at hx ⊢
    exact hs.tracked x hx hpen
  | enqueue ha =>
    by_cases hxk : x = k
    · exact .inl (by simp [AppPerformInner.enqueue, hxk])
    · rw [Function.update_of_ne hxk] at hx
      rcases hs.tracked x hx hpen with hmem | hheld
      · exact .inl (by simp [AppPerformInner.enqueue, hmem])
      · refine .inr (exists_mem_held_update hheld fun h ↦ ?_)
        rw [ha] at h
        cases h
  | begin hw ha hb hsw hh hst =>
    rcases hs.tracked x (hsame hst) hpen with hmem | hheld
    · exact .inl hmem
    · exact .inr (exists_mem_held_update hheld fun h ↦ by rw [hh.1] at h; cases h)
  | swap ha hh hb hbh hsw hst =>
    rcases hs.tracked x (hsame hst) hpen with hmem | hheld
    · refine .inr ⟨k, ?_⟩
      rwa [Function.update_self, hbh]
    · exact .inr (exists_mem_held_update hheld fun h ↦ by rw [hh] at h; cases h)
  | @enter operation _ hop hd hst =>
    have hstatus : (s.cells x).status = .pending := by
      by_cases hxo : x = operation
      · subst hxo
        rwa [Function.update_self] at hpen
      · rwa [Function.update_of_ne hxo] at hpen
    rcases hs.tracked x (hsame hst) hstatus with hmem | hheld
    · exact .inl hmem
    · exact .inr (exists_mem_held_update hheld fun h ↦ hd.held ▸ h)
  | @complete operation cell _ hc hent hh ha hb hst =>
    have hne : x ≠ operation := by
      rintro rfl
      rw [Function.update_self] at hpen
      exact hc hpen
    rw [Function.update_of_ne hne] at hpen
    rcases hs.tracked x (hsame hst) hpen with hmem | hheld
    · exact .inl hmem
    · refine .inr (exists_mem_held_update hheld fun h ↦ ?_)
      rw [hh, List.mem_cons] at h
      exact h.resolve_left hne
  | completeDirect hc ha hd hst =>
    have hne : x ≠ k := by
      rintro rfl
      rw [Function.update_self] at hpen
      exact hc hpen
    rw [Function.update_of_ne hne] at hpen hx
    rcases hs.tracked x hx hpen with hmem | hheld
    · exact .inl hmem
    · exact .inr (exists_mem_held_update hheld fun h ↦ hd.held ▸ h)
  | finish ha hsw hb hh hst =>
    rcases hs.tracked x (hsame hst) hpen with hmem | hheld
    · exact .inl hmem
    · exact .inr (exists_mem_held_update hheld fun h ↦ by rw [hh.1] at h; cases h)

/-! ## Before and after the queue is given up -/

/-- The startup drain is over, or the drain in progress has swapped the queue out. -/
def Closed (s : State κ L T θ) : Prop :=
  s.inner.startupDrain.IsInitialized ∨ ∃ j, (s.actors j).PastSwap

/-- A closed state has an empty queue. -/
def Emptied (s : State κ L T θ) : Prop := Closed s → s.inner.pending = []

/-- A callback waits in the queue of a closed state. -/
def Stranded (s : State κ L T θ) : Prop := Closed s ∧ s.inner.pending ≠ []

theorem pastSwap_update (h : (s.actors k).PastSwap → b.PastSwap)
    (hex : ∃ j, (s.actors j).PastSwap) : ∃ j, (Function.update s.actors k b j).PastSwap := by
  obtain ⟨j, hj⟩ := hex
  refine ⟨j, ?_⟩
  by_cases hjk : j = k
  · subst hjk
    rw [Function.update_self]
    exact h hj
  · rwa [Function.update_of_ne hjk]

/-- Once closed, the state stays closed, and only an `enqueue` changes the queue. -/
theorem Closed.step {t : State κ L T θ} (hs : Consistent s) (hc : Closed s)
    (hactors : t.actors = Function.update s.actors k b)
    (he : Effect k s.inner s.cells (s.actors k) t.inner t.cells b) :
    Closed t ∧ (t.inner.pending = s.inner.pending ∨
      s.actors k = .perform .enqueue ∧ t.inner.pending = s.inner.pending ++ [k]) := by
  have hnot (h : s.inner.startupDrain.IsInitialized) (hk : (s.actors k).Active) : False := by
    have hdr := hs.draining k hk
    revert h hdr
    cases s.inner.startupDrain with
    | waiting | draining => exact fun h _ ↦ h
    | initialized => exact fun _ h ↦ h
  have hsame (hd : (s.actors k).PastSwap → b.PastSwap)
      (hi : s.inner.startupDrain.IsInitialized → t.inner.startupDrain.IsInitialized) :
      Closed t :=
    hc.imp hi fun h ↦ hactors ▸ pastSwap_update hd h
  obtain ⟨inner, cells, actors⟩ := t
  cases he with
  | quiet hp hstart hd hst =>
    exact ⟨hsame hd.pastSwap.mpr fun h ↦ by rw [hstart]; exact h, .inl hp⟩
  | requireLate ha =>
    refine ⟨hsame id fun h ↦ ?_, .inl rfl⟩
    revert h
    cases s.inner.startupDrain with
    | waiting => exact fun h ↦ h.elim
    | draining | initialized => exact id
  | enqueue ha => exact ⟨hsame (sameDrain_enqueue ha).pastSwap.mpr id, .inr ⟨ha, rfl⟩⟩
  | begin hw =>
    rcases hc with h | ⟨j, hj⟩
    · rw [hw] at h
      exact h.elim
    · have hdr := hs.draining j hj.active
      rw [hw] at hdr
      exact hdr.elim
  | swap ha hh hb hbh hsw hst =>
    rcases hc with h | ⟨j, hj⟩
    · exact (hnot h ha).elim
    · exact absurd (hs.unique j k hj.active ha ▸ hj) hsw
  | enter hop hd => exact ⟨hsame hd.pastSwap.mpr id, .inl rfl⟩
  | complete hc hent hh ha hb => exact ⟨hsame (fun _ ↦ hb) id, .inl rfl⟩
  | completeDirect hc ha hd => exact ⟨hsame hd.pastSwap.mpr id, .inl rfl⟩
  | @finish _ success ha hsw hb =>
    refine ⟨.inl ?_, .inl rfl⟩
    rcases hc with h | ⟨j, hj⟩
    · exact (hnot h ha).elim
    · rw [hsw.mp (hs.unique j k hj.active ha ▸ hj)]
      have hdr := hs.draining k ha
      revert hdr
      cases s.inner.startupDrain with
      | waiting | initialized => exact fun h ↦ h.elim
      | draining => exact fun _ ↦ trivial

/-- A step that closes the state swaps the queue out. -/
theorem pending_eq_nil_of_closed {t : State κ L T θ} (hc : ¬ Closed s)
    (hactors : t.actors = Function.update s.actors k b)
    (he : Effect k s.inner s.cells (s.actors k) t.inner t.cells b) (ht : Closed t) :
    t.inner.pending = [] := by
  have hsame (hd : b.PastSwap → (s.actors k).PastSwap)
      (hi : t.inner.startupDrain.IsInitialized → s.inner.startupDrain.IsInitialized) : False := by
    rcases ht with h | ⟨j, hj⟩
    · exact hc (.inl (hi h))
    · rw [hactors] at hj
      by_cases hjk : j = k
      · rw [hjk, Function.update_self] at hj
        exact hc (.inr ⟨k, hd hj⟩)
      · rw [Function.update_of_ne hjk] at hj
        exact hc (.inr ⟨j, hj⟩)
  obtain ⟨inner, cells, actors⟩ := t
  cases he with
  | quiet hp hstart hd hst =>
    exact (hsame hd.pastSwap.mp fun h ↦ by rwa [hstart] at h).elim
  | requireLate ha =>
    refine (hsame id fun h ↦ ?_).elim
    revert h
    cases s.inner.startupDrain with
    | waiting hookpoint => cases hookpoint <;> exact id
    | draining | initialized => exact id
  | enqueue ha => exact (hsame (sameDrain_enqueue ha).pastSwap.mp id).elim
  | begin hw ha hb hsw => exact (hsame (fun h ↦ absurd h hsw) fun h ↦ h.elim).elim
  | swap => rfl
  | enter hop hd => exact (hsame hd.pastSwap.mp id).elim
  | complete hc hent hh ha hb => exact (hsame (fun _ ↦ ha) id).elim
  | completeDirect hc ha hd => exact (hsame hd.pastSwap.mp id).elim
  | @finish _ success ha hsw hb =>
    have hsucc : success = false :=
      Bool.eq_false_iff.mpr fun h ↦ hc (.inr ⟨k, hsw.mpr h⟩)
    refine (hsame (fun h ↦ absurd h.active hb) fun h ↦ ?_).elim
    subst hsucc
    revert h
    cases s.inner.startupDrain with
    | waiting | initialized => exact id
    | draining => exact fun h ↦ h.elim

end Step

section Run

variable {s t : State κ L T θ} {ls : List (κ × Action L T θ)}

theorem not_enqueuedInTime {k : κ} {action : Action L T θ}
    (h : ¬ EnqueuedInTime s (k, action)) : action = .enqueue ∧ Closed s := by
  cases action with
  | enqueue =>
    refine ⟨rfl, ?_⟩
    by_contra hc
    exact h ⟨fun hi ↦ hc (.inl hi), fun j hj ↦ hc (.inr ⟨j, hj⟩)⟩
  | _ => exact absurd trivial h

theorem Consistent.errNeverRan (hs : Consistent s) : ErrNeverRan s := by
  intro k hk
  exact (hs.fresh k (Actor.stage_of_returnedErr hk)).1

/-- In a settled state no call holds an operation. -/
theorem Settled.held_eq_nil (h : Settled s) (k : κ) : (s.actors k).held = [] :=
  Actor.held_eq_nil (Actor.not_active_of_resting (h.2 k))

theorem noneLost_of_pending_eq_nil (hs : Consistent s) (h : Settled s)
    (hp : s.inner.pending = []) : NoneLost s := by
  refine ⟨hp, fun k hk hpen ↦ ?_⟩
  rcases hs.tracked k (Actor.stage_of_returnedOk hk) hpen with hmem | ⟨j, hj⟩
  · rw [hp] at hmem
    cases hmem
  · rw [h.held_eq_nil j] at hj
    cases hj

variable [DecidableEq κ] [DecidableEq L]

theorem Consistent.step {l : κ × Action L T θ} (hs : Consistent s) (h : step s l = some t) :
    Consistent t := by
  obtain ⟨b, hactors, he⟩ := step_effect h
  obtain ⟨hdraining, hunique⟩ := hs.step_drains he
  constructor <;> rw [hactors]
  · exact hdraining
  · exact hunique
  · exact hs.step_fresh he
  · exact hs.step_tracked he

theorem Consistent.of_run (hs : Consistent s) (h : machine.run s ls = some t) : Consistent t :=
  Machine.run_invariant (C := fun _ _ ↦ True) (fun _ _ _ hs _ h ↦ hs.step h) hs
    (Machine.along_true s ls) h

/-- A state that is closed with an empty queue stays so, as long as enqueues come in time. -/
theorem Emptied.step {l : κ × Action L T θ} (hs : Consistent s) (hem : Emptied s)
    (hl : EnqueuedInTime s l) (h : step s l = some t) : Emptied t := by
  obtain ⟨b, hactors, he⟩ := step_effect h
  intro ht
  by_cases hc : Closed s
  · obtain ⟨-, hpend | ⟨ha, -⟩⟩ := hc.step hs hactors he
    · exact hpend.trans (hem hc)
    · obtain ⟨k, action⟩ := l
      obtain rfl := eq_enqueue_of_step h ha
      rcases hc with hi | ⟨j, hj⟩
      · exact absurd hi hl.1
      · exact absurd hj (hl.2 j)
  · exact pending_eq_nil_of_closed hc hactors he ht

/-- No step drains the queue of a closed state. -/
theorem Stranded.step {l : κ × Action L T θ} (hs : Consistent s) (hst : Stranded s)
    (h : step s l = some t) : Stranded t := by
  obtain ⟨b, hactors, he⟩ := step_effect h
  obtain ⟨hc, hpend | ⟨-, hpend⟩⟩ := hst.1.step hs hactors he
  · exact ⟨hc, hpend ▸ hst.2⟩
  · exact ⟨hc, by simp [hpend]⟩

theorem stranded_of_step {l : κ × Action L T θ} (hs : Consistent s) (hl : ¬ EnqueuedInTime s l)
    (h : step s l = some t) : Stranded t := by
  obtain ⟨k, action⟩ := l
  obtain ⟨rfl, hc⟩ := not_enqueuedInTime hl
  obtain ⟨b, hactors, he⟩ := step_effect h
  refine ⟨(hc.step hs hactors he).1, ?_⟩
  rw [(step_enqueue h).2]
  simp [AppPerformInner.enqueue]

/-- **In time**: after enqueues that all came in time a closed state has an empty queue. -/
theorem emptied_of_run (hs : Consistent s) (hem : Emptied s)
    (hC : machine.Along EnqueuedInTime s ls) (h : machine.run s ls = some t) : Emptied t :=
  (Machine.run_invariant (I := fun s ↦ Consistent s ∧ Emptied s)
    (fun _ _ _ hs hl h ↦ ⟨hs.1.step h, hs.2.step hs.1 hl h⟩) ⟨hs, hem⟩ hC h).2

/-- **Too late**: a callback in the queue of a closed state is there for good. -/
theorem stranded_of_run (hs : Consistent s) (hst : Stranded s) (h : machine.run s ls = some t) :
    Stranded t :=
  (Machine.run_invariant (C := fun _ _ ↦ True) (I := fun s ↦ Consistent s ∧ Stranded s)
    (fun _ _ _ hs _ h ↦ ⟨hs.1.step h, hs.2.step hs.1 h⟩) ⟨hs, hst⟩
    (Machine.along_true s ls) h).2

/-- **Lost callbacks, exactly.** After any run no callback of a `perform` that returned an error
was entered, and once the run has settled no callback is lost exactly when each enqueue of the run
came in time. -/
theorem noneLost_iff_enqueuedInTime (h : machine.run initial ls = some s) :
    ErrNeverRan s ∧
      (Settled s → (NoneLost s ↔ machine.Along EnqueuedInTime initial ls)) := by
  have hs : Consistent s := consistent_initial.of_run h
  refine ⟨hs.errNeverRan, fun hsettled ↦ ⟨fun hnone ↦ ?_, fun hC ↦ ?_⟩⟩
  · by_contra hC
    obtain ⟨before, l, after, u, v, hbefore, hl, hstep, hafter, -⟩ :=
      Machine.exists_step_of_not_along h hC
    have hu : Consistent u := consistent_initial.of_run hbefore
    have hst : Stranded s := stranded_of_run (hu.step hstep) (stranded_of_step hu hl hstep) hafter
    exact hst.2 hnone.1
  · have hem : Emptied s := emptied_of_run consistent_initial (fun _ ↦ rfl) hC h
    exact noneLost_of_pending_eq_nil hs hsettled (hem (.inl hsettled.1))

end Run

/-! ## Two runs -/

section Runs

instance [Fintype κ] : DecidablePred (Settled : State κ L T θ → Prop) := fun s ↦
  inferInstanceAs (Decidable (s.inner.startupDrain.IsInitialized ∧ ∀ k, (s.actors k).resting = true))

/-- What `currentApplication` answers before there is an application. -/
def noApplication : Error Unit :=
  .appClassLoaderUnavailable ("ActivityThread.currentApplication() returned null; " ++
    "use Java::perform for deferred app-loader initialization")

/-- `perform` finds neither a loader nor an application, and installs the hooks. -/
def deferring (k : Fin 2) : List (Fin 2 × Action Nat Unit Unit) :=
  [(k, .perform), (k, .readDefault), (k, .probe (.error noApplication)),
    (k, .ensureHook ⟨true, true, true⟩)]

/-- The `makeApplication` hook drains, up to the end of the queue it swapped out. -/
def hookDrain (k : Fin 2) : List (Fin 2 × Action Nat Unit Unit) :=
  [(k, .startDrain .application), (k, .begin), (k, .resolve (.ok 7)), (k, .publish none),
    (k, .swap)]

/-- The application appears after the callback was queued. -/
def inTimeRun : List (Fin 2 × Action Nat Unit Unit) :=
  deferring 0 ++ [(0, .enqueue), (0, .begin), (0, .resolve (.error noApplication)), (0, .finish),
    (0, .done)] ++ hookDrain 1 ++
    [(1, .next), (1, .attach none), (1, .callback (.returned (.ok ()))), (1, .next), (1, .finish)]

/-- The application appears, and the hook drains, between the probe of `perform` and its
`enqueue`. -/
def lateRun : List (Fin 2 × Action Nat Unit Unit) :=
  deferring 0 ++ hookDrain 1 ++ [(1, .next), (1, .finish), (0, .enqueue), (0, .begin), (0, .done)]

theorem enqueuedInTime_inTimeRun : machine.Along EnqueuedInTime initial inTimeRun := by
  obtain ⟨s, hrun, hsettled, hpending⟩ :
      ∃ s, machine.run initial inTimeRun = some s ∧ Settled s ∧ s.inner.pending = [] :=
    Machine.exists_of_run_any (fun s ↦ Settled s ∧ s.inner.pending = []) (by decide +kernel)
  exact ((noneLost_iff_enqueuedInTime hrun).2 hsettled).mp
    (noneLost_of_pending_eq_nil (consistent_initial.of_run hrun) hsettled hpending)

/-- A callback whose `perform` returned `Ok` waits in a queue that no drain will swap out. -/
theorem lateRun_loses :
    ¬ ∀ s : State (Fin 2) Nat Unit Unit, machine.Reachable s → Settled s → NoneLost s := by
  intro h
  obtain ⟨s, hrun, hsettled, hpending⟩ :
      ∃ s, machine.run initial lateRun = some s ∧ Settled s ∧ s.inner.pending = [0] :=
    Machine.exists_of_run_any (fun s ↦ Settled s ∧ s.inner.pending = [0]) (by decide +kernel)
  have hnone := (h s ⟨initial, lateRun, rfl, hrun⟩ hsettled).1
  rw [hpending] at hnone
  cases hnone

end Runs

end JavaBridge.Perform

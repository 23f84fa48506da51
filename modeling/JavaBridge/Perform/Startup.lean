import JavaBridge.Perform.Custody
import JavaBridge.Perform.NoLoss

/-!
# The startup drain is one-shot

Three sources race to drain the queue, and `handleBindApplication` may ask for a late hook point in
between. The hook point is kept through drains that fail, and a callback that a drain took out of the
queue is completed by it and by no other.

Main results:

* `startupDrain_cases`: what a step does to the startup drain.
* `IsLate.step`: once a late hook point is asked for, no drain of a loaded APK is let through.
* `startup_oneShot`: the drain is one-shot, and each callback is entered and completed once.
-/

universe u

namespace JavaBridge.Perform

variable {κ L T θ : Type u} [DecidableEq κ] [DecidableEq L] {s t u : State κ L T θ}
  {l : κ × Action L T θ} {ls : List (κ × Action L T θ)} {k : κ}

/-! ## The startup drain -/

theorem startupDrain_cases (h : step s l = some t) :
    t.inner.startupDrain = s.inner.startupDrain ∨
      t.inner.startupDrain = s.inner.startupDrain.requireLateHookpoint ∨
      (∃ hookpoint source, s.inner.startupDrain = .waiting hookpoint ∧
        ¬ (source = .loadedApk ∧ hookpoint = .late) ∧
        t.inner.startupDrain = .draining hookpoint source) ∨
      ∃ success, t.inner.startupDrain = s.inner.startupDrain.finish success := by
  obtain ⟨b, -, he⟩ := step_effect h
  generalize t.inner = inner at he ⊢
  generalize t.cells = cells at he
  cases he with
  | quiet _ hs => exact .inl hs
  | requireLate => exact .inr (.inl rfl)
  | begin hw _ _ _ _ _ hsource => exact .inr (.inr (.inl ⟨_, _, hw, hsource, rfl⟩))
  | finish => exact .inr (.inr (.inr ⟨_, rfl⟩))
  | _ => exact .inl rfl

theorem initialized_of_step {source : AppStartupDrainSource}
    (hs : s.inner.startupDrain = .initialized source) (h : step s l = some t) :
    t.inner.startupDrain = .initialized source := by
  rcases startupDrain_cases h with h | h | ⟨_, _, hw, -⟩ | ⟨_, h⟩
  · rw [h, hs]
  · rw [h, hs]
    rfl
  · rw [hs] at hw
    cases hw
  · rw [h, hs]
    rfl

/-! ## The late hook point -/

section

variable {inner : AppPerformInner κ L} {cells : κ → PerformCell T θ}

omit [DecidableEq κ] [DecidableEq L] in
@[simp] theorem completeStep_requireLate (cell : PerformCell T θ) (point : Complete) :
    completeStep cell point (.requireLateStartupDrain : Action L T θ) = none := by
  cases point <;> rfl

@[simp] theorem drainStep_requireLate (drain : Drain κ L) :
    drainStep inner cells drain .requireLateStartupDrain = none := by
  cases drain with
  | running pending => cases pending <;> rfl
  | completing => simp [drainStep]
  | _ => rfl

@[simp] theorem performStep_requireLate (point : PerformPoint κ L θ) :
    performStep k inner cells point .requireLateStartupDrain = none := by
  cases point with
  | completing => simp [performStep]
  | drainIfReady drain => cases drain <;> simp [performStep]
  | _ => rfl

@[simp] theorem waitStep_requireLate (timeout : Nat) (point : WaitPoint κ L θ) :
    waitStep timeout inner cells point .requireLateStartupDrain = none := by
  cases point with
  | drainIfReady drain => cases drain <;> simp [waitStep]
  | _ => rfl

end

/-- A late hook point is asked for by a call that does nothing else. -/
theorem step_requireLate (h : step s (k, .requireLateStartupDrain) = some t) :
    t.inner.startupDrain = s.inner.startupDrain.requireLateHookpoint := by
  obtain ⟨⟨inner, cells, b⟩, hb, rfl⟩ := Option.map_eq_some_iff.mp h
  dsimp only at hb ⊢
  generalize s.actors k = a at hb
  cases a with
  | idle =>
    cases hb
    rfl
  | _ => simp [actorStep] at hb

/-- A late hook point is required, and no drain of a loaded APK has been let through. -/
def AppStartupDrain.IsLate : AppStartupDrain → Prop
  | waiting hookpoint => hookpoint = .late
  | draining hookpoint source => hookpoint = .late ∧ source ≠ .loadedApk
  | initialized source => source ≠ .loadedApk

/-- Once a late hook point is asked for, it is kept, also through drains that fail. -/
theorem IsLate.step (hs : s.inner.startupDrain.IsLate) (h : step s l = some t) :
    t.inner.startupDrain.IsLate := by
  rcases startupDrain_cases h with h | h | ⟨hookpoint, source, hw, hsource, h⟩ | ⟨success, h⟩
  · rwa [h]
  · rw [h]
    generalize s.inner.startupDrain = drain at hs ⊢
    cases drain with
    | waiting hookpoint =>
      obtain rfl : hookpoint = .late := hs
      rfl
    | draining | initialized => exact hs
  · rw [hw] at hs
    rw [h]
    obtain rfl : hookpoint = .late := hs
    exact ⟨rfl, fun hapk ↦ hsource ⟨hapk, rfl⟩⟩
  · rw [h]
    generalize s.inner.startupDrain = drain at hs ⊢
    cases drain with
    | draining hookpoint source =>
      cases success with
      | false => exact hs.1
      | true => exact hs.2
    | waiting | initialized => exact hs

/-! ## One drain -/

/-- A drain that begins has the hook point that waited. -/
theorem startupDrain_of_begin {hookpoint : AppStartupHookPoint} {action : Action L T θ}
    (hs : Consistent s) (hw : s.inner.startupDrain = .waiting hookpoint)
    (h : step s (k, action) = some t) (hk : (t.actors k).Active) :
    ∃ source, t.inner.startupDrain = .draining hookpoint source := by
  obtain ⟨b, hactors, he⟩ := step_effect h
  have hnot : ¬ (s.actors k).Active := fun hact ↦ by
    have hdraining := hs.draining k hact
    rw [hw] at hdraining
    exact hdraining
  rw [hactors, Function.update_self] at hk
  generalize t.inner = inner at he ⊢
  generalize t.cells = cells at he
  cases he with
  | quiet _ _ hd | enter _ hd | completeDirect _ _ hd => exact absurd (hd.active.mp hk) hnot
  | requireLate ha => exact absurd hk hnot
  | enqueue ha => exact absurd ((sameDrain_enqueue ha).active.mp hk) hnot
  | begin hw' =>
    obtain rfl : _ = hookpoint := AppStartupDrain.waiting.inj (hw'.symm.trans hw)
    exact ⟨_, rfl⟩
  | swap ha => exact absurd ha hnot
  | complete _ _ _ ha => exact absurd ha.active hnot
  | finish ha => exact absurd ha hnot

/-- While a drain is in progress its hook point and its source stay. -/
theorem startupDrain_of_active (hs : Consistent s) (hk : (s.actors k).Active)
    (h : step s l = some t) (hk' : (t.actors k).Active) :
    t.inner.startupDrain = s.inner.startupDrain := by
  have hdraining := hs.draining k hk
  obtain ⟨b, hactors, he⟩ := step_effect h
  generalize t.inner = inner at he ⊢
  generalize t.cells = cells at he
  cases he with
  | quiet _ hs => exact hs
  | requireLate =>
    show AppStartupDrain.requireLateHookpoint _ = _
    revert hdraining
    cases s.inner.startupDrain with
    | waiting => exact fun h ↦ h.elim
    | draining | initialized => exact fun _ ↦ rfl
  | begin hw =>
    rw [hw] at hdraining
    exact hdraining.elim
  | finish ha _ hb =>
    obtain rfl := hs.unique k l.1 hk ha
    rw [hactors, Function.update_self] at hk'
    exact absurd hk' hb
  | _ => rfl

theorem startupDrain_of_throughout (hs : Consistent s) (h : machine.run s ls = some t)
    (hk : machine.Throughout (fun v ↦ (v.actors k).Active) s ls) :
    t.inner.startupDrain = s.inner.startupDrain := by
  induction ls generalizing s with
  | nil =>
    cases h
    rfl
  | cons l ls ih =>
    obtain ⟨u, hstep, hrun⟩ := (Machine.run_cons_eq_some machine).mp h
    rw [Machine.throughout_cons machine hstep] at hk
    rw [ih (hs.step hstep) hrun hk.2]
    exact startupDrain_of_active hs hk.1 hstep hk.2.head

theorem drainStep_finish {inner inner' : AppPerformInner κ L}
    {cells cells' : κ → PerformCell T θ} {drain : Drain κ L} {success : Bool}
    {action : Action L T θ}
    (h : drainStep inner cells (.finish success) action = some (inner', cells', drain)) :
    inner'.startupDrain = inner.startupDrain.finish success := by
  cases action with
  | finish =>
    cases h
    rfl
  | _ => cases h

/-- The last step of a drain. -/
theorem startupDrain_of_finish {success : Bool} {action : Action L T θ}
    (hk : (s.actors k).drain? = some (.finish success)) (h : step s (k, action) = some t) :
    t.inner.startupDrain = s.inner.startupDrain.finish success := by
  obtain ⟨⟨inner, cells, b⟩, hb, rfl⟩ := Option.map_eq_some_iff.mp h
  dsimp only at hb ⊢
  generalize s.actors k = a at hb hk
  cases a with
  | idle => cases hk
  | perform point | wait timeout point =>
    cases point with
    | drainIfReady drain =>
      cases hk
      obtain ⟨r, hr, hb⟩ := Option.map_eq_some_iff.mp hb
      obtain ⟨r', hr', hr⟩ := Option.map_eq_some_iff.mp hr
      cases hr
      cases hb
      exact drainStep_finish hr'
    | _ => cases hk
  | drain drain =>
    cases hk
    obtain ⟨r, hr, hb⟩ := Option.map_eq_some_iff.mp hb
    cases hb
    exact drainStep_finish hr

/-! ## Runs -/

/-- The startup drain is one-shot, in the state `s` of a run and from there on. -/
structure OneShot (s : State κ L T θ) : Prop where
  one_drain : ∀ i j, (s.actors i).Active → (s.actors j).Active → i = j
  initialized : ∀ source, s.inner.startupDrain = .initialized source →
    ∀ ls t, machine.run s ls = some t → t.inner.startupDrain = .initialized source
  late : s.inner.startupDrain = .waiting .early →
    ∀ k t, step s (k, .requireLateStartupDrain) = some t →
      ∀ ls u, machine.run t ls = some u →
        ∀ hookpoint, u.inner.startupDrain ≠ .draining hookpoint .loadedApk
  /-- A drain begins, is in progress, and fails. -/
  failed : ∀ hookpoint, s.inner.startupDrain = .waiting hookpoint →
    ∀ k action t, step s (k, action) = some t → (t.actors k).Active →
      ∀ ls u, machine.run t ls = some u →
        machine.Throughout (fun v ↦ (v.actors k).Active) t ls →
          (u.actors k).drain? = some (.finish false) →
            ∀ action v, step u (k, action) = some v → v.inner.startupDrain = .waiting hookpoint

/-- Each callback is entered and completed once, in a run to the state `s` and from there on. -/
structure CompletesOnce (ls : List (κ × Action L T θ)) (s : State κ L T θ) : Prop where
  entered : (machine.observe entered initial ls).Nodup
  queued : ∀ k ∈ s.inner.pending, (s.cells k).Untouched
  final : ∀ k, (s.cells k).status ≠ .pending →
    ∀ ls t, machine.run s ls = some t → (t.cells k).status = (s.cells k).status

theorem oneShot_of_consistent (hs : Consistent s) : OneShot s where
  one_drain := hs.unique
  initialized source hinit ls t h :=
    Machine.run_invariant (C := fun _ _ ↦ True)
      (I := fun u ↦ u.inner.startupDrain = .initialized source)
      (fun _ _ _ hu _ h ↦ initialized_of_step hu h) hinit (Machine.along_true s ls) h
  late hearly k t hlate ls u h := by
    have hstate : t.inner.startupDrain.IsLate := by
      rw [step_requireLate hlate, hearly]
      rfl
    have hu : u.inner.startupDrain.IsLate :=
      Machine.run_invariant (C := fun _ _ ↦ True) (I := fun v ↦ v.inner.startupDrain.IsLate)
        (fun _ _ _ hv _ h ↦ IsLate.step hv h) hstate (Machine.along_true t ls) h
    intro hookpoint hdraining
    rw [hdraining] at hu
    exact hu.2 rfl
  failed hookpoint hw k action t hbegin hk ls u h hthrough hfinish action' v hstep := by
    have ht : Consistent t := hs.step hbegin
    obtain ⟨source, hdraining⟩ := startupDrain_of_begin hs hw hbegin hk
    rw [startupDrain_of_finish hfinish hstep, startupDrain_of_throughout ht h hthrough, hdraining]
    rfl

/-- **Startup.** In every run at most one drain is in progress, the first that succeeds is the last,
a late hook point is kept, and each callback is entered and completed once. -/
theorem startup_oneShot (h : machine.run initial ls = some s) : OneShot s ∧ CompletesOnce ls s := by
  have hs : Custody s := custody_initial.of_run h
  refine ⟨oneShot_of_consistent (consistent_initial.of_run h), ?_, hs.queued, ?_⟩
  · exact (custody_initial.nodup_observe h).1
  · intro k hk ls t ht
    exact hs.status_of_run ht hk

/-- A run with a drain that fails and one that succeeds. -/
theorem startup_oneShot_inTimeRun :
    ∃ s, machine.run initial inTimeRun = some s ∧ OneShot s ∧ CompletesOnce inTimeRun s := by
  obtain ⟨s, hrun, -⟩ : ∃ s, machine.run initial inTimeRun = some s ∧ Settled s :=
    Machine.exists_of_run_any Settled (by decide +kernel)
  exact ⟨s, hrun, startup_oneShot hrun⟩

end JavaBridge.Perform

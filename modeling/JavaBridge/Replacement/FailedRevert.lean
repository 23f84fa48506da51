import JavaBridge.Replacement.Lifecycle

/-!
# What a failed revert leaves behind

A `revert` fails in two places. On a thread with an active invocation it fails before it has done
anything. When the guard's own revert fails, it puts the guard back, but leaves the counters
closing: the hook stays installed, and every invocation from then on returns the default value
without running the callback.

Main results:

* `Sound.step`: the counters count the invocations, and as long as no restore fails in a `revert`,
  they are closing only while the owner drains or after the guard was taken out.
* `throughout_survives_iff`: in every state of a run each replacement that still holds its guard is
  as a failed revert must leave it, if and only if no restore of the run fails in a `revert`.
-/

universe u

namespace JavaBridge.Replacement

variable {κ τ θ : Type u}

/-! ## The law -/

/-- The hook is in place, and an invocation that enters runs the callback. -/
structure Working (s : State κ τ θ) : Prop where
  patched : s.patched = true
  registered : s.registered = true
  open_ : s.counts.closing = false

/-- The owner waits for the active invocations. -/
def Owner.Draining : Owner τ θ → Prop
  | .busy _ _ .draining => True
  | _ => False

/-- The owner is in `revert` or `drop`. -/
def Owner.Busy : Owner τ θ → Prop
  | .busy _ _ _ => True
  | _ => False

/-- Failed reverts leave no trace: after an error the replacement still holds its guard, and while
it does, and no later `revert` waits, the hook works as if none had been tried. -/
structure Survives (s : State κ τ θ) : Prop where
  held : ∀ error, s.owner = .ready (some (.error error)) → s.replacement = true
  working : s.replacement = true → ¬ s.owner.Draining → Working s

/-- A `revert` restores the method. -/
def Owner.restoresInRevert : Owner τ θ → Bool
  | .busy .revert _ .restoring => true
  | _ => false

/-- A restore does not fail in a `revert`. -/
def RestoresInRevert (s : State κ τ θ) : Action κ τ θ → Prop
  | .owner (.restore (some _)) => s.owner.restoresInRevert = false
  | _ => True

instance (s : State κ τ θ) (action : Action κ τ θ) : Decidable (RestoresInRevert s action) :=
  match action with
  | .owner (.restore (some _)) => inferInstanceAs (Decidable (s.owner.restoresInRevert = false))
  | .call _ _ | .owner (.restore none) | .owner (.start _ _) | .owner .drained
  | .owner .unregister | .owner .dropClone | .owner .dropDispatchThunk | .owner .finalWait
  | .owner .dropThunk | .owner .dropState => .isTrue trivial

/-! ## The invariant -/

/-- The owner is to work on the guard it took out, or to put it back. -/
def Owner.Restoring : Owner τ θ → Prop
  | .busy _ _ .restoring => True
  | _ => False

variable [DecidableEq τ]

/-- What holds in every run in which no restore fails in a `revert`. -/
structure Sound (thread : κ → τ) (s : State κ τ θ) : Prop where
  /-- The counters count the calls that hold a guard. -/
  tracked : ∃ active : Finset κ, (∀ k, k ∈ active ↔ (s.calls k).invoking = true) ∧
    s.counts.Tracks thread active
  /-- Once the owner has drained, no invocation that saw the counters open is left. -/
  drained : s.counts.closing = true → ¬ s.owner.Draining → ∀ k, s.calls k ≠ .invoke false
  closing : s.owner.Busy → s.counts.closing = true
  installed : s.replacement = true ∨ s.owner.Restoring →
    s.patched = true ∧ s.registered = true
  open_ : s.replacement = true → ¬ s.owner.Draining → s.counts.closing = false
  taken : s.replacement = false → s.owner ≠ .dropped → s.counts.closing = true
  held : ∀ error, s.owner = .ready (some (.error error)) → s.replacement = true

theorem Sound.survives {thread : κ → τ} {s : State κ τ θ} (hs : Sound thread s) : Survives s where
  held := hs.held
  working hrep hdrain :=
    ⟨(hs.installed (.inl hrep)).1, (hs.installed (.inl hrep)).2, hs.open_ hrep hdrain⟩

theorem sound_installed (thread : κ → τ) : Sound thread (State.installed : State κ τ θ) where
  tracked := ⟨∅, fun k ↦ by simp [State.installed, CallPoint.invoking],
    ActiveInvocationCounts.tracks_new thread⟩
  drained := nofun
  closing h := h.elim
  installed _ := ⟨rfl, rfl⟩
  open_ _ _ := rfl
  taken := nofun
  held _ := nofun

section Step

variable [DecidableEq κ] {thread : κ → τ} {s t : State κ τ θ}

/-- Taking and dropping guards, the counters go on counting. -/
theorem tracked_of_callStep {k : κ} {action : CallAction}
    (hs : ∃ active : Finset κ, (∀ k, k ∈ active ↔ (s.calls k).invoking = true) ∧
      s.counts.Tracks thread active)
    (h : callStep s k (thread k) (s.calls k) action = some t) :
    ∃ active : Finset κ, (∀ k, k ∈ active ↔ (t.calls k).invoking = true) ∧
      t.counts.Tracks thread active := by
  obtain ⟨active, hmem, htracks⟩ := hs
  rcases callStep_cases h with ⟨hpoint, -, rfl⟩ | ⟨closing, how, hpoint, -, rfl⟩ |
    ⟨next, rfl, hbefore, hnext, -⟩
  · have hk : k ∉ active := by
      rw [hmem, hpoint]
      exact nofun
    refine ⟨insert k active, fun j ↦ ?_, htracks.enter hk⟩
    by_cases hj : j = k
    · subst hj
      simp [State.setCall, CallPoint.invoking]
    · simp [State.setCall, hj, hmem]
  · have hk : k ∈ active := by
      rw [hmem, hpoint]
      rfl
    refine ⟨active.erase k, fun j ↦ ?_, htracks.release hk⟩
    by_cases hj : j = k
    · subst hj
      simp [State.setCall, CallPoint.invoking]
    · simp [State.setCall, hj, hmem]
  · refine ⟨active, fun j ↦ ?_, htracks⟩
    by_cases hj : j = k
    · subst hj
      simp [State.setCall, hmem, hbefore, hnext]
    · simp [State.setCall, hj, hmem]

theorem Sound.drained_setCall {k : κ} {next : CallPoint} (hs : Sound thread s)
    (hnext : s.counts.closing = true → next ≠ .invoke false) (hclosing : s.counts.closing = true)
    (hdrain : ¬ s.owner.Draining) (j : κ) : (s.setCall k next).calls j ≠ .invoke false := by
  by_cases hj : j = k
  · subst hj
    simp only [State.setCall, Function.update_self]
    exact hnext hclosing
  · simp only [State.setCall, Function.update_of_ne hj]
    exact hs.drained hclosing hdrain j

theorem Sound.callStep {k : κ} {action : CallAction} (hs : Sound thread s)
    (h : callStep s k (thread k) (s.calls k) action = some t) : Sound thread t := by
  have htracked := tracked_of_callStep hs.tracked h
  rcases callStep_cases h with ⟨hpoint, -, rfl⟩ | ⟨closing, how, hpoint, -, rfl⟩ |
    ⟨next, rfl, hbefore, hnext, -⟩
  · refine ⟨htracked, hs.drained_setCall ?_, hs.closing, hs.installed, hs.open_, hs.taken, hs.held⟩
    intro hclosing heq
    cases heq.symm.trans (congrArg CallPoint.invoke hclosing)
  · refine ⟨htracked, hs.drained_setCall ?_, hs.closing, hs.installed, hs.open_, hs.taken, hs.held⟩
    intro _ heq
    cases heq
  · refine ⟨htracked, hs.drained_setCall ?_, hs.closing, hs.installed, hs.open_, hs.taken, hs.held⟩
    rintro _ rfl
    cases hnext

variable {operation : Operation} {t' : τ}

omit [DecidableEq κ] in
/-- With nothing left to count, no call holds a guard. -/
theorem Sound.ne_invoke (hs : Sound thread s) (h0 : s.counts.total = 0) (k : κ) :
    s.calls k ≠ .invoke false := by
  obtain ⟨active, hmem, htracks⟩ := hs.tracked
  intro heq
  have hk : k ∈ active := by rw [hmem, heq]; rfl
  rw [htracks.eq_empty h0] at hk
  exact Finset.notMem_empty k hk

omit [DecidableEq κ] in
/-- Past the wait, `revert` and `drop` have taken the guard out. -/
theorem Sound.replacement_eq_false (hs : Sound thread s) (hbusy : s.owner.Busy)
    (hdrain : ¬ s.owner.Draining) : s.replacement = false := by
  by_contra hrep
  have hopen := hs.open_ (Bool.not_eq_false _ ▸ hrep) hdrain
  rw [hs.closing hbusy] at hopen
  cases hopen

omit [DecidableEq κ] in
theorem Sound.drained_of_total (hs : Sound thread s) (operation : Operation) (t' : τ)
    (h0 : s.counts.total = 0) :
    Sound thread (Replacement.drained { s with counts := s.counts.close } operation t') := by
  obtain ⟨active, hmem, htracks⟩ := hs.tracked
  unfold Replacement.drained
  split
  · rename_i hrep
    exact ⟨⟨active, hmem, htracks.close⟩, fun _ _ ↦ hs.ne_invoke h0, fun _ ↦ rfl,
      fun _ ↦ hs.installed (.inl hrep), nofun, fun _ _ ↦ rfl, fun _ ↦ nofun⟩
  · rename_i hrep
    refine ⟨⟨active, hmem, htracks.close⟩, fun _ _ ↦ hs.ne_invoke h0, fun _ ↦ rfl, ?_,
      fun h ↦ absurd h hrep, fun _ _ ↦ rfl, fun _ ↦ nofun⟩
    rintro (h | h)
    · exact absurd h hrep
    · exact h.elim

omit [DecidableEq κ] in
theorem Sound.leak {guard : Bool} (hs : Sound thread s) (hdrain : ¬ s.owner.Draining) :
    Sound thread (s.leak guard) where
  tracked := hs.tracked
  drained hclosing _ := hs.drained hclosing hdrain
  closing h := h.elim
  installed h := by
    rcases h with h | h
    · cases h
    · exact h.elim
  open_ := nofun
  taken _ h := absurd rfl h
  held _ := nofun

omit [DecidableEq κ] in
/-- Past the wait, a step that keeps the counters and puts no guard back keeps the invariant. -/
theorem Sound.goOn (hs : Sound thread s) (hbusy : s.owner.Busy) (hdrain : ¬ s.owner.Draining)
    (hcounts : t.counts = s.counts) (hcalls : t.calls = s.calls)
    (hrep : t.replacement = s.replacement) (hrestoring : ¬ t.owner.Restoring)
    (herr : ∀ error, t.owner ≠ .ready (some (.error error))) : Sound thread t := by
  have hnone := hs.replacement_eq_false hbusy hdrain
  refine ⟨?_, ?_, ?_, ?_, ?_, ?_, fun error h ↦ absurd h (herr error)⟩
  · rw [hcounts, hcalls]
    exact hs.tracked
  · rw [hcounts, hcalls]
    exact fun h _ ↦ hs.drained h hdrain
  · rw [hcounts]
    exact fun _ ↦ hs.closing hbusy
  · rw [hrep, hnone]
    rintro (h | h)
    · cases h
    · exact absurd h hrestoring
  · rw [hrep, hnone]
    exact nofun
  · rw [hcounts]
    exact fun _ _ ↦ hs.closing hbusy

omit [DecidableEq κ] in
theorem Sound.ownerStep {point : OwnerPoint} {action : OwnerAction κ τ θ} (hs : Sound thread s)
    (howner : s.owner = .busy operation t' point) (hC : RestoresInRevert s (.owner action))
    (h : ownerStep s operation t' point action = some t) : Sound thread t := by
  have hbusy : s.owner.Busy := by rw [howner]; trivial
  have hdrain (hp : point ≠ .draining) : ¬ s.owner.Draining := by
    rw [howner]
    cases point with
    | draining => exact absurd rfl hp
    | _ => exact id
  unfold Replacement.ownerStep at h
  split at h
  · split at h
    · rename_i h0
      cases h
      have hclosed : s.counts.close = s.counts := by
        have hclosing := hs.closing hbusy
        revert hclosing
        cases s.counts with
        | mk closing total threads => rintro rfl; rfl
      have hdrained := hs.drained_of_total operation t' h0
      rwa [hclosed] at hdrained
    · cases h
  · cases h
    exact hs.goOn hbusy (hdrain nofun) rfl rfl rfl id fun _ ↦ nofun
  · split at h
    · have hnot : s.owner.restoresInRevert = false := hC
      rw [howner] at hnot
      cases hnot
    · cases h
      exact hs.leak (hdrain nofun)
  · cases h
    exact hs.goOn hbusy (hdrain nofun) rfl rfl rfl id fun _ ↦ nofun
  · cases h
    exact hs.goOn hbusy (hdrain nofun) rfl rfl rfl id fun _ ↦ nofun
  · cases h
    exact hs.goOn hbusy (hdrain nofun) rfl rfl rfl id fun _ ↦ nofun
  · split at h
    · cases h
      cases operation with
      | revert => exact hs.goOn hbusy (hdrain nofun) rfl rfl rfl id fun _ ↦ nofun
      | drop => exact hs.goOn hbusy (hdrain nofun) rfl rfl rfl id fun _ ↦ nofun
    · cases h
  · cases h
    exact hs.goOn hbusy (hdrain nofun) rfl rfl rfl id fun _ ↦ nofun
  · cases h
    exact hs.goOn hbusy (hdrain nofun) rfl rfl rfl id fun _ ↦ nofun
  · cases h

omit [DecidableEq κ] [DecidableEq τ] in
/-- A caller on a thread with an active invocation is a callback that saw the counters open. -/
theorem Sound.exists_callback {caller : Caller κ τ} (hcaller : caller.thread? thread s = some t')
    (hactive : s.counts.activeOn t' = true) : ∃ k, s.calls k = .invoke false := by
  cases caller with
  | outside t'' =>
    simp only [Caller.thread?] at hcaller
    split at hcaller
    · cases hcaller
    · rename_i hnot
      cases hcaller
      exact absurd hactive hnot
  | callback k =>
    simp only [Caller.thread?] at hcaller
    split at hcaller
    · rename_i hk
      exact ⟨k, hk⟩
    · cases hcaller

omit [DecidableEq κ] in
theorem Sound.start {caller : Caller κ τ} {last : Option (Except (Error θ) Unit)}
    (hs : Sound thread s) (howner : s.owner = .ready last)
    (hcaller : caller.thread? thread s = some t') :
    Sound thread (start s operation t') := by
  have hdrain : ¬ s.owner.Draining := by rw [howner]; exact id
  unfold Replacement.start
  split
  · rename_i hactive
    cases operation with
    | drop => exact hs.leak hdrain
    | revert =>
      refine ⟨hs.tracked, fun h _ ↦ hs.drained h hdrain, fun h ↦ h.elim, ?_,
        fun h _ ↦ hs.open_ h hdrain, fun h _ ↦ hs.taken h ?_, fun _ _ ↦ ?_⟩
      · rintro (h | h)
        · exact hs.installed (.inl h)
        · exact h.elim
      · rw [howner]
        exact nofun
      · -- The running callback entered before any guard was taken out.
        obtain ⟨k, hk⟩ := Sound.exists_callback hcaller hactive
        by_contra hrep
        have hclosing := hs.taken (Bool.eq_false_iff.mpr hrep) (by rw [howner]; exact nofun)
        exact hs.drained hclosing hdrain k hk
  · split
    · rename_i h0
      exact hs.drained_of_total operation t' h0
    · obtain ⟨active, hmem, htracks⟩ := hs.tracked
      refine ⟨⟨active, hmem, htracks.close⟩, fun _ h ↦ absurd trivial h, fun _ ↦ rfl, ?_,
        fun _ h ↦ absurd trivial h, fun _ _ ↦ rfl, fun _ ↦ nofun⟩
      rintro (h | h)
      · exact hs.installed (.inl h)
      · exact h.elim

theorem Sound.step {action : Action κ τ θ} (hs : Sound thread s) (hC : RestoresInRevert s action)
    (h : step thread s action = some t) : Sound thread t := by
  cases action with
  | call k action =>
    simp only [Replacement.step] at h
    split at h
    · cases h
    · exact hs.callStep h
  | owner action =>
    simp only [Replacement.step] at h
    split at h
    · rename_i howner
      obtain ⟨t', hcaller, rfl⟩ := Option.map_eq_some_iff.mp h
      exact hs.start howner hcaller
    · rename_i howner
      exact hs.ownerStep howner hC h
    · cases h

/-- **A failed restore**: the guard is back in the replacement, and the counters are closing. -/
theorem not_survives_of_step {action : Action κ τ θ} (hs : Sound thread s)
    (hC : ¬ RestoresInRevert s action) (h : step thread s action = some t) : ¬ Survives t := by
  intro hsurvives
  cases action with
  | call => exact hC trivial
  | owner action =>
    cases action with
    | restore fault =>
      cases fault with
      | none => exact hC trivial
      | some error =>
        obtain ⟨t', howner⟩ : ∃ t', s.owner = .busy .revert t' .restoring := by
          have hrestoring : s.owner.restoresInRevert = true := Bool.not_eq_false _ ▸ hC
          unfold Owner.restoresInRevert at hrestoring
          split at hrestoring
          · rename_i t' howner
            exact ⟨t', howner⟩
          · cases hrestoring
        simp only [Replacement.step, howner, Replacement.ownerStep, Option.some.injEq] at h
        have hclosing : t.counts.closing = true := by
          rw [← h]
          exact hs.closing (by rw [howner]; trivial)
        have hopen := (hsurvives.working (by rw [← h]) (by rw [← h]; exact id)).open_
        rw [hclosing] at hopen
        cases hopen
    | _ => exact hC trivial

/-- **Failed reverts, exactly.** In every state of a run each failed revert has left the hook as if
it had not been tried, if and only if no restore of the run fails in a `revert`. -/
theorem throughout_survives_iff {ls : List (Action κ τ θ)}
    (h : (machine thread).run State.installed ls = some s) :
    (machine thread).Throughout Survives State.installed ls ↔
      (machine thread).Along RestoresInRevert State.installed ls :=
  Machine.throughout_iff_along (I := Sound thread) (fun _ hs ↦ hs.survives)
    (fun _ _ _ hs hC h ↦ hs.step hC h) (fun _ _ _ hs hC h ↦ not_survives_of_step hs hC h)
    (sound_installed thread) h

/-- In a state where the hook works, an invocation that enters runs the callback. -/
theorem Working.enter {k : κ} (hs : Working s) (h : step thread s (.call k .enter) = some t) :
    t.calls k = .invoke false := by
  simp only [Replacement.step] at h
  split at h
  · cases h
  · rcases callStep_cases h with ⟨-, -, rfl⟩ | ⟨_, _, _, h, _⟩ | ⟨_, _, _, _, h, _⟩
    · simp [State.setCall, hs.open_]
    · cases h
    · exact absurd rfl h

end Step

/-! ## Two runs -/

section Runs

/-- A revert on thread 1 up to its restore. -/
def revertingTo (fault : Option (Error Unit)) : List (Action (Fin 2) (Fin 2) Unit) :=
  [.owner (.start .revert (.outside 1)), .owner (.restore fault)]

/-- A whole invocation. -/
def invoking (k : Fin 2) : List (Action (Fin 2) (Fin 2) Unit) :=
  [.call k (.call .quickCode), .call k (.branch false), .call k .enterThunk, .call k .enter,
    .call k (.exit .value), .call k .leaveThunk, .call k .leave]

/-- The callback of call 0 tries to revert its own hook, and call 1 comes after it. -/
def revertFromCallback : List (Action (Fin 2) (Fin 2) Unit) :=
  (invoking 0).take 4 ++ [.owner (.start .revert (.callback 0))] ++ (invoking 0).drop 4 ++
    invoking 1

/-- The restore of a revert fails, and call 0 comes after it. -/
def failingRevert : List (Action (Fin 2) (Fin 2) Unit) :=
  revertingTo (some (.unsupportedFeature "ART method replacement" "method is not writable")) ++
    invoking 0

theorem throughout_survives_revertFromCallback :
    (machine id).Throughout Survives (State.installed : State (Fin 2) (Fin 2) Unit)
      revertFromCallback := by
  obtain ⟨s, h, -⟩ : ∃ s, (machine id).run State.installed revertFromCallback = some s ∧
      s.owner = .ready (some (.error activeOnCurrentThread)) ∧ s.calls 1 = .returned .callback :=
    Machine.exists_of_run_any (fun s : State (Fin 2) (Fin 2) Unit ↦
      s.owner = .ready (some (.error activeOnCurrentThread)) ∧ s.calls 1 = .returned .callback)
      (by decide +kernel)
  exact (throughout_survives_iff h).mpr (by decide +kernel)

/-- A revert has failed, its replacement still holds the guard, and a call that came later was
answered with the default value. -/
theorem failingRevert_not_survives :
    ¬ ∀ s : State (Fin 2) (Fin 2) Unit, (machine id).Reachable s → Survives s := by
  intro h
  obtain ⟨s, hrun, hrep, howner, hclosing, -⟩ :
      ∃ s, (machine id).run State.installed failingRevert = some s ∧ s.replacement = true ∧
        s.owner = .ready (some (.error (.unsupportedFeature "ART method replacement"
          "method is not writable"))) ∧ s.counts.closing = true ∧
        s.calls 0 = .returned .closed :=
    Machine.exists_of_run_any (fun s : State (Fin 2) (Fin 2) Unit ↦ s.replacement = true ∧
        s.owner = .ready (some (.error (.unsupportedFeature "ART method replacement"
          "method is not writable"))) ∧ s.counts.closing = true ∧
        s.calls 0 = .returned .closed) (by decide +kernel)
  have hopen := ((h s ⟨_, _, rfl, hrun⟩).working hrep (by rw [howner]; exact id)).open_
  rw [hclosing] at hopen
  cases hopen

end Runs

end JavaBridge.Replacement

import JavaBridge.MainThread.State

/-!
# What a scheduling result says about its callback

The law a caller expects of `schedule_on_main_thread`: after an error the callback never runs,
after `Ok` it runs at most once and is queued until it does, and a status that has left `Pending`
is final.

It is proved one task at a time. `View` is what the state says about one task, `TaskStep` the
steps a task can take, and `step_view` shows that every step of the machine is such a step for each
task, so that the law is an invariant of a small abstract machine. The one step that can break it
is the overwrite after a failed wake: it must find the task still in a queue.

Main results:

* `step_view`: the machine, seen from one task, takes `TaskStep`s.
* `lawful_of_inv`: the law holds of every task in a state of the invariant.
* `not_lawful_of_overwrite`: an overwrite that does not find its task in a queue reports an error for
  a callback that was entered or is about to be.
* `throughout_lawful_iff`: the law holds throughout a run exactly if its overwrites all find their
  task in a queue.
-/

universe u

namespace JavaBridge.MainThread

variable {κ θ : Type u}

/-! ## Where the tasks are -/

/-- The task a drain has popped, found pending, and not entered yet. -/
def DrainPoint.entering? : DrainPoint κ θ → Option κ
  | enter task => some task
  | _ => none

/-- The task whose callback a drain runs, or has run and not stored. -/
def DrainPoint.running? : DrainPoint κ θ → Option κ
  | running task | store task _ => some task
  | _ => none

namespace State

/-- The tasks in the drains' queues and in the shared one. -/
def queued (s : State κ θ) : List κ := s.drains.flatMap Drain.pending ++ s.pending

/-- The tasks a drain is about to run. -/
def entering (s : State κ θ) : List κ := s.drains.filterMap (·.point.entering?)

/-- The tasks a drain is running. -/
def running (s : State κ θ) : List κ := s.drains.filterMap (·.point.running?)

end State

/-- What the state says about one task: its call, its status, and how often it is queued, about to
run, running, and was run. -/
structure View (θ : Type u) : Type u where
  call : SchedulePoint θ
  status : MainThreadTaskStatus θ
  queued : Nat
  entering : Nat
  running : Nat
  entered : Nat

def State.view [DecidableEq κ] (s : State κ θ) (k : κ) : View θ where
  call := s.calls k
  status := s.status k
  queued := s.queued.count k
  entering := s.entering.count k
  running := s.running.count k
  entered := s.entered.count k

/-- The steps one task can take. Where `timely` holds, an overwrite finds the task in a queue. -/
inductive TaskStep (timely : Prop) (v : View θ) : View θ → Prop
  | stutter : TaskStep timely v v
  | schedule (h : v.call = .idle) : TaskStep timely v { v with call := .ensureHook }
  | hooked (h : v.call = .ensureHook) : TaskStep timely v { v with call := .enqueue }
  | unhooked (error : Error θ) (h : v.call = .ensureHook) :
      TaskStep timely v { v with call := .returned (.error error) }
  | enqueue (h : v.call = .enqueue) :
      TaskStep timely v { v with call := .wake, queued := v.queued + 1 }
  | woken (h : v.call = .wake) : TaskStep timely v { v with call := .returned (.ok ()) }
  | unwoken (error : Error θ) (h : v.call = .wake) :
      TaskStep timely v { v with call := .overwrite error }
  | overwrite (error : Error θ) (h : v.call = .overwrite error) (hq : timely → 0 < v.queued) :
      TaskStep timely v { v with call := .returned (.error error), status := .failed error }
  | pop (q : Nat) (h : v.status = .pending) (hq : v.queued = q + 1) :
      TaskStep timely v { v with queued := q, entering := v.entering + 1 }
  | skip (q : Nat) (h : v.status ≠ .pending) (hq : v.queued = q + 1) :
      TaskStep timely v { v with queued := q }
  | enter (e : Nat) (he : v.entering = e + 1) :
      TaskStep timely v
        { v with entering := e, running := v.running + 1, entered := v.entered + 1 }
  | store (r : Nat) (status : MainThreadTaskStatus θ) (hs : status ≠ .pending)
      (hr : v.running = r + 1) : TaskStep timely v { v with running := r, status := status }

/-- An overwrite after a failed wake finds its task still in a queue. -/
def OverwrittenInQueue (s : State κ θ) : Action κ θ → Prop
  | .overwrite k => k ∈ s.queued
  | _ => True

instance [DecidableEq κ] (s : State κ θ) (action : Action κ θ) :
    Decidable (OverwrittenInQueue s action) := by
  cases action <;> unfold OverwrittenInQueue <;> infer_instance

/-! ## The machine, seen from one task -/

section View

variable [DecidableEq κ] {s t : State κ θ} {main : Nat} {action : Action κ θ} {k x : κ}

@[simp] theorem view_setCall_self (point : SchedulePoint θ) :
    (s.setCall k point).view k = { s.view k with call := point } := by
  simp [State.view, State.setCall, State.queued, State.entering, State.running]

theorem view_setCall_of_ne (point : SchedulePoint θ) (hx : x ≠ k) :
    (s.setCall k point).view x = s.view x := by
  simp [State.view, State.setCall, State.queued, State.entering, State.running, hx]

@[simp] theorem view_setStatus_self (status : MainThreadTaskStatus θ) :
    (s.setStatus k status).view k = { s.view k with status := status } := by
  simp [State.view, State.setStatus, State.queued, State.entering, State.running]

theorem view_setStatus_of_ne (status : MainThreadTaskStatus θ) (hx : x ≠ k) :
    (s.setStatus k status).view x = s.view x := by
  simp [State.view, State.setStatus, State.queued, State.entering, State.running, hx]

theorem view_enqueue_self :
    ({ s with pending := s.pending ++ [k] } : State κ θ).view k =
      { s.view k with queued := (s.view k).queued + 1 } := by
  simp [State.view, State.queued, State.entering, State.running, Nat.add_assoc]

theorem view_enqueue_of_ne (hx : x ≠ k) :
    ({ s with pending := s.pending ++ [k] } : State κ θ).view x = s.view x := by
  simp [State.view, State.queued, State.entering, State.running, hx.symm]

/-- A section of a scheduling call is a step of its own task and of no other. -/
theorem scheduleStep_view {timely : Prop}
    (ht : ∀ j, action = .overwrite j → timely → 0 < (s.view k).queued)
    (h : scheduleStep s k (s.calls k) action = some t) (x : κ) :
    TaskStep timely (s.view x) (t.view x) := by
  by_cases hx : x = k
  · subst hx
    generalize hc : s.calls x = call at h
    have hcall : (s.view x).call = call := hc
    unfold scheduleStep at h
    split at h
    · cases h
      rw [view_setCall_self]
      exact .schedule hcall
    · split at h
      · cases h
        rw [view_setCall_self]
        exact .hooked hcall
      · split at h
        · cases h
          change TaskStep timely _ ((s.setCall x .enqueue).view x)
          rw [view_setCall_self]
          exact .hooked hcall
        · cases h
          rw [view_setCall_self]
          exact .unhooked _ hcall
    · cases h
      have heq := view_enqueue_self (s := s.setCall x .wake) (k := x)
      rw [view_setCall_self] at heq
      exact heq ▸ .enqueue hcall
    · cases h
      rw [view_setCall_self]
      exact .woken hcall
    · cases h
      rw [view_setCall_self]
      exact .unwoken _ hcall
    · cases h
      rw [view_setCall_self, view_setStatus_self]
      exact .overwrite _ hcall (ht _ rfl)
    · cases h
  · suffices heq : t.view x = s.view x from heq ▸ .stutter
    unfold scheduleStep at h
    split at h
    · cases h
      exact view_setCall_of_ne _ hx
    · split at h
      · cases h
        exact view_setCall_of_ne _ hx
      · split at h
        · cases h
          exact view_setCall_of_ne _ hx
        · cases h
          exact view_setCall_of_ne _ hx
    · cases h
      exact (view_enqueue_of_ne (s := s.setCall k .wake) hx).trans (view_setCall_of_ne _ hx)
    · cases h
      exact view_setCall_of_ne _ hx
    · cases h
      exact view_setCall_of_ne _ hx
    · cases h
      rw [view_setCall_of_ne _ hx, view_setStatus_of_ne _ hx]
    · cases h

/-- A swap moves the shared queue into a drain, and no task notices. -/
theorem pollStep_view {threadId : Nat} (h : pollStep main threadId s = some t) (x : κ) :
    t.view x = s.view x := by
  unfold pollStep at h
  split at h
  · cases h
    rfl
  · split at h
    · cases h
      simp [State.view, State.queued, State.entering, State.running, DrainPoint.entering?,
        DrainPoint.running?, Nat.add_comm]
    · cases h

/-- Where a view finds its task, with the innermost drain taken apart. -/
theorem view_of_drains {drain : Drain κ θ} {outer : List (Drain κ θ)}
    (hd : s.drains = drain :: outer) (x : κ) :
    s.view x = ⟨s.calls x, s.status x,
      drain.pending.count x + ((outer.flatMap Drain.pending).count x + s.pending.count x),
      drain.point.entering?.toList.count x
        + (outer.filterMap (·.point.entering?)).count x,
      drain.point.running?.toList.count x
        + (outer.filterMap (·.point.running?)).count x,
      s.entered.count x⟩ := by
  simp only [State.view, State.queued, State.entering, State.running, hd, List.flatMap_cons,
    List.filterMap_cons, List.count_append, View.mk.injEq, true_and, and_true, Nat.add_assoc]
  constructor
  · cases drain.point.entering? with
    | none => simp
    | some task => simp [List.count_cons, Nat.add_comm]
  · cases drain.point.running? with
    | none => simp
    | some task => simp [List.count_cons, Nat.add_comm]

/-- A section of the innermost drain is a step of the task it works on and of no other. -/
theorem drainStep_view {timely : Prop} {drain : Drain κ θ} {outer : List (Drain κ θ)}
    (hd : s.drains = drain :: outer) (h : drainStep s drain outer action = some t) (x : κ) :
    TaskStep timely (s.view x) (t.view x) := by
  have hs := view_of_drains hd x
  have hsame (heq : t.view x = s.view x) : TaskStep timely (s.view x) (t.view x) :=
    heq ▸ .stutter
  unfold drainStep at h
  split at h
  · -- the task is popped, and its status decides whether it is run
    split at h
    · rename_i task pending
      let q := pending.count task + ((outer.flatMap Drain.pending).count task + s.pending.count task)
      have hq : (s.view task).queued = q + 1 := by
        rw [view_of_drains hd]
        simp [q, Nat.add_right_comm]
      split at h <;> obtain rfl := Option.some.inj h
      · rename_i hst
        by_cases hx : x = task
        · subst hx
          have heq : State.view { s with drains := ⟨.enter x, pending⟩ :: outer } x =
              { s.view x with queued := q, entering := (s.view x).entering + 1 } := by
            rw [hs, view_of_drains rfl]
            simp [q, DrainPoint.entering?, DrainPoint.running?, Nat.add_comm]
          exact heq ▸ .pop q hst hq
        · refine hsame ?_
          rw [hs, view_of_drains rfl]
          simp [DrainPoint.entering?, DrainPoint.running?, Ne.symm hx]
      · rename_i hst
        by_cases hx : x = task
        · subst hx
          have heq : State.view { s with drains := ⟨.next, pending⟩ :: outer } x =
              { s.view x with queued := q } := by
            rw [hs, view_of_drains rfl]
          exact heq ▸ .skip q hst hq
        · refine hsame ?_
          rw [hs, view_of_drains rfl]
          simp [Ne.symm hx]
    · cases h
  · split at h
    · rename_i task pending
      obtain rfl := Option.some.inj h
      by_cases hx : x = task
      · subst hx
        let e := (outer.filterMap (·.point.entering?)).count x
        have he : (s.view x).entering = e + 1 := by
          rw [hs]
          simp [e, DrainPoint.entering?, Nat.add_comm]
        have heq : State.view { s with
              drains := ⟨.running x, pending⟩ :: outer, entered := s.entered ++ [x] } x =
            { s.view x with
              entering := e, running := (s.view x).running + 1, entered := (s.view x).entered + 1 } := by
          rw [hs, view_of_drains rfl]
          simp [e, DrainPoint.entering?, DrainPoint.running?, Nat.add_comm]
        exact heq ▸ .enter e he
      · refine hsame ?_
        rw [hs, view_of_drains rfl]
        simp [DrainPoint.entering?, DrainPoint.running?, Ne.symm hx]
    · cases h
  · split at h
    · obtain rfl := Option.some.inj h
      refine hsame ?_
      rw [hs, view_of_drains rfl]
      rfl
    · cases h
  · split at h
    · rename_i task outcome pending
      obtain rfl := Option.some.inj h
      by_cases hx : x = task
      · subst hx
        let r := (outer.filterMap (·.point.running?)).count x
        have hr : (s.view x).running = r + 1 := by
          rw [hs]
          simp [r, DrainPoint.running?, Nat.add_comm]
        have heq : State.view { s.setStatus x (mainThreadCallbackStatus outcome) with
              drains := ⟨.next, pending⟩ :: outer } x =
            { s.view x with running := r, status := mainThreadCallbackStatus outcome } := by
          rw [hs, view_of_drains rfl]
          simp [r, State.setStatus, DrainPoint.entering?, DrainPoint.running?]
        exact heq ▸ .store r _ (mainThreadCallbackStatus_ne_pending outcome) hr
      · refine hsame ?_
        rw [hs, view_of_drains rfl]
        simp [State.setStatus, DrainPoint.entering?, DrainPoint.running?, hx, Ne.symm hx]
    · cases h
  · split at h
    · obtain rfl := Option.some.inj h
      refine hsame ?_
      rw [hs]
      simp [State.view, State.queued, State.entering, State.running, DrainPoint.entering?,
        DrainPoint.running?]
    · cases h
  · cases h

/-- **One task at a time**: a step of the machine is a step of each task. -/
theorem step_view (h : step main s action = some t) (x : κ) :
    TaskStep (OverwrittenInQueue s action) (s.view x) (t.view x) := by
  unfold step at h
  split at h
  · exact scheduleStep_view nofun h x
  · exact scheduleStep_view nofun h x
  · exact scheduleStep_view nofun h x
  · exact scheduleStep_view nofun h x
  · refine scheduleStep_view (fun j hj hq ↦ ?_) h x
    exact List.count_pos_iff.mpr hq
  · exact pollStep_view h x ▸ .stutter
  all_goals
    split at h
    · cases h
    · rename_i hd
      exact drainStep_view hd h x

end View

/-! ## The invariant of one task -/

/-- How far a scheduling call has brought its task. -/
inductive Stage
  /-- Not enqueued. -/
  | fresh
  /-- Enqueued, and no failure reported. -/
  | handed
  /-- The call returned an error. -/
  | failed
  deriving DecidableEq

def SchedulePoint.stage : SchedulePoint θ → Stage
  | idle | ensureHook | enqueue => .fresh
  | wake | overwrite _ | returned (.ok _) => .handed
  | returned (.error _) => .failed

/-- What holds of a task in every state, as long as overwrites find their tasks in a queue: a
handed task is pending in one place, or completed and in none. -/
def View.Inv (v : View θ) : Prop :=
  match v.call.stage with
  | .fresh =>
    v.status = .pending ∧ v.queued = 0 ∧ v.entering = 0 ∧ v.running = 0 ∧ v.entered = 0
  | .handed =>
    v.status = .pending ∧ v.queued + v.entering + v.running = 1 ∧ v.entered = v.running ∨
      v.status ≠ .pending ∧ v.queued + v.entering + v.running = 0 ∧ v.entered = 1
  | .failed =>
    v.entering = 0 ∧ v.running = 0 ∧ v.entered = 0 ∧ (v.queued ≠ 0 → v.status ≠ .pending)

section Inv

variable {timely : Prop} {v w : View θ}

theorem View.Inv.fresh (h : v.Inv) (hc : v.call.stage = .fresh) :
    v.status = .pending ∧ v.queued = 0 ∧ v.entering = 0 ∧ v.running = 0 ∧ v.entered = 0 := by
  unfold View.Inv at h
  rwa [hc] at h

theorem View.Inv.handed (h : v.Inv) (hc : v.call.stage = .handed) :
    v.status = .pending ∧ v.queued + v.entering + v.running = 1 ∧ v.entered = v.running ∨
      v.status ≠ .pending ∧ v.queued + v.entering + v.running = 0 ∧ v.entered = 1 := by
  unfold View.Inv at h
  rwa [hc] at h

theorem View.Inv.failed (h : v.Inv) (hc : v.call.stage = .failed) :
    v.entering = 0 ∧ v.running = 0 ∧ v.entered = 0 ∧ (v.queued ≠ 0 → v.status ≠ .pending) := by
  unfold View.Inv at h
  rwa [hc] at h

/-- Only a handed task is popped. -/
theorem View.Inv.handed_of_busy (h : v.Inv) (hb : v.entering + v.running ≠ 0) :
    v.call.stage = .handed := by
  cases hc : v.call.stage with
  | fresh => have := h.fresh hc; omega
  | handed => rfl
  | failed => have := h.failed hc; omega

/-- Only a task whose call has enqueued it is in a queue. -/
theorem View.Inv.not_fresh_of_queued (h : v.Inv) (hq : v.queued ≠ 0) :
    v.call.stage ≠ .fresh := by
  intro hc
  have := h.fresh hc
  omega

/-- **The task's step rule.** -/
theorem TaskStep.inv (h : v.Inv) (ht : timely) (hstep : TaskStep timely v w) : w.Inv := by
  cases hstep with
  | stutter => exact h
  | schedule hc =>
    have hv := h.fresh (by rw [hc]; rfl)
    exact hv
  | hooked hc =>
    have hv := h.fresh (by rw [hc]; rfl)
    exact hv
  | unhooked error hc =>
    obtain ⟨-, hq, he, hr, hn⟩ := h.fresh (by rw [hc]; rfl)
    exact ⟨he, hr, hn, fun h ↦ absurd hq h⟩
  | enqueue hc =>
    obtain ⟨hs, hq, he, hr, hn⟩ := h.fresh (by rw [hc]; rfl)
    refine .inl ⟨hs, ?_, hn.trans hr.symm⟩
    simp only [hq, he, hr]
  | woken hc =>
    have hv := h.handed (by rw [hc]; rfl)
    exact hv
  | unwoken error hc =>
    have hv := h.handed (by rw [hc]; rfl)
    exact hv
  | overwrite error hc hq =>
    -- In a queue, the task is neither popped nor completed.
    have hq := hq ht
    rcases h.handed (by rw [hc]; rfl) with ⟨hs, hsum, hn⟩ | ⟨hs, hsum, hn⟩
    · refine ⟨?_, ?_, ?_, fun _ ↦ nofun⟩ <;> dsimp only <;> omega
    · omega
  | pop q hs hq =>
    have hstage : v.call.stage = .handed := by
      cases hc : v.call.stage with
      | fresh => exact absurd hc (h.not_fresh_of_queued (by omega))
      | handed => rfl
      | failed => exact absurd hs ((h.failed hc).2.2.2 (by omega))
    rcases h.handed hstage with ⟨hs', hsum, hn⟩ | ⟨hs', -, -⟩
    · simp only [View.Inv, hstage]
      exact .inl ⟨hs', by omega, hn⟩
    · exact absurd hs hs'
  | skip q hs hq =>
    have hstage : v.call.stage = .failed := by
      cases hc : v.call.stage with
      | fresh => exact absurd hc (h.not_fresh_of_queued (by omega))
      | handed =>
        rcases h.handed hc with ⟨hs', -, -⟩ | ⟨-, hsum, -⟩
        · exact absurd hs' hs
        · omega
      | failed => rfl
    obtain ⟨he, hr, hn, -⟩ := h.failed hstage
    simp only [View.Inv, hstage]
    exact ⟨he, hr, hn, fun _ ↦ hs⟩
  | enter e he =>
    have hstage := h.handed_of_busy (by omega)
    rcases h.handed hstage with ⟨hs, hsum, hn⟩ | ⟨-, hsum, -⟩
    · simp only [View.Inv, hstage]
      exact .inl ⟨hs, by omega, by omega⟩
    · omega
  | store r status hs hr =>
    have hstage := h.handed_of_busy (by omega)
    rcases h.handed hstage with ⟨-, hsum, hn⟩ | ⟨-, hsum, -⟩
    · simp only [View.Inv, hstage]
      exact .inr ⟨hs, by omega, by omega⟩
    · omega

/-- A reported result and a final status stay. -/
theorem TaskStep.final (h : v.Inv) (ht : timely) (hstep : TaskStep timely v w) :
    (∀ result, v.call = .returned result → w.call = .returned result) ∧
      (v.status ≠ .pending → w.status = v.status) := by
  cases hstep with
  | stutter | pop | skip | enter => exact ⟨fun _ h ↦ h, fun _ ↦ rfl⟩
  | schedule hc | hooked hc | unhooked error hc | enqueue hc | woken hc | unwoken error hc =>
    refine ⟨fun result h ↦ ?_, fun _ ↦ rfl⟩
    rw [hc] at h
    cases h
  | overwrite error hc hq =>
    have hq := hq ht
    refine ⟨fun result h ↦ ?_, fun hs ↦ ?_⟩
    · rw [hc] at h
      cases h
    · rcases h.handed (by rw [hc]; rfl) with ⟨hs', -, -⟩ | ⟨-, hsum, -⟩
      · exact absurd hs' hs
      · omega
  | store r status hs hr =>
    refine ⟨fun _ h ↦ h, fun hs' ↦ ?_⟩
    rcases h.handed (h.handed_of_busy (by omega)) with ⟨hp, -, -⟩ | ⟨-, hsum, -⟩
    · exact absurd hp hs'
    · omega

end Inv

/-! ## The law -/

section Law

variable [DecidableEq κ] {main : Nat} {s t : State κ θ} {ls : List (Action κ θ)}

/-- What a scheduling call promises, over the runs from `s` whose steps meet `C`. -/
structure Lawful (main : Nat) (C : State κ θ → Action κ θ → Prop) (s : State κ θ) : Prop where
  /-- A callback whose call returned an error never runs. -/
  err : ∀ k error, s.calls k = .returned (.error error) → ∀ ls t,
    (machine main).Along C s ls → (machine main).run s ls = some t → k ∉ t.entered
  /-- A callback whose call returned `Ok` runs at most once. -/
  once : ∀ k, s.calls k = .returned (.ok ()) → s.entered.count k ≤ 1
  /-- Until it runs it is in the shared queue or in a drain's. -/
  kept : ∀ k, s.calls k = .returned (.ok ()) → k ∉ s.entered → k ∈ s.queued ∨ k ∈ s.entering
  /-- A status that has left `Pending` is final. -/
  final : ∀ k, s.status k ≠ .pending → ∀ ls t,
    (machine main).Along C s ls → (machine main).run s ls = some t → t.status k = s.status k

theorem view_inv_initial (k : κ) : ((State.initial : State κ θ).view k).Inv :=
  ⟨rfl, rfl, rfl, rfl, rfl⟩

theorem view_inv_of_run (hs : ∀ k, (s.view k).Inv)
    (hC : (machine main).Along OverwrittenInQueue s ls)
    (h : (machine main).run s ls = some t) (k : κ) : (t.view k).Inv :=
  Machine.run_invariant (I := fun s : State κ θ ↦ ∀ k, (s.view k).Inv)
    (fun _ _ _ hs hl h k ↦ (step_view h k).inv (hs k) hl) hs hC h k

/-- Along a run a reported result and a final status stay. -/
theorem final_of_run (hs : ∀ k, (s.view k).Inv)
    (hC : (machine main).Along OverwrittenInQueue s ls)
    (h : (machine main).run s ls = some t) (k : κ) :
    (∀ result, s.calls k = .returned result → t.calls k = .returned result) ∧
      (s.status k ≠ .pending → t.status k = s.status k) := by
  refine (Machine.run_invariant (I := fun u : State κ θ ↦ (∀ k, (u.view k).Inv) ∧
    (∀ result, s.calls k = .returned result → u.calls k = .returned result) ∧
      (s.status k ≠ .pending → u.status k = s.status k)) ?_
    ⟨hs, fun _ h ↦ h, fun _ ↦ rfl⟩ hC h).2
  rintro u l w ⟨hu, hcall, hstatus⟩ hl hstep
  refine ⟨fun k ↦ (step_view hstep k).inv (hu k) hl, ?_, ?_⟩
  · intro result hr
    exact ((step_view hstep k).final (hu k) hl).1 result (hcall result hr)
  · intro hne
    have hw : w.status k = u.status k :=
      ((step_view hstep k).final (hu k) hl).2 (by rw [← hstatus hne] at hne; exact hne)
    rw [hw, hstatus hne]

theorem lawful_of_inv (hs : ∀ k, (s.view k).Inv) : Lawful main OverwrittenInQueue s where
  err k error hk ls t hC h := by
    have hcall := (final_of_run hs hC h k).1 _ hk
    obtain ⟨-, -, hn, -⟩ := (view_inv_of_run hs hC h k).failed
      (by simp only [State.view, hcall, SchedulePoint.stage])
    exact List.count_eq_zero.mp hn
  once k hk := by
    rcases (hs k).handed (by simp only [State.view, hk, SchedulePoint.stage])
      with ⟨-, hsum, hn⟩ | ⟨-, -, hn⟩
    · change (s.view k).entered ≤ 1
      omega
    · exact Nat.le_of_eq hn
  kept k hk hmem := by
    have hn : (s.view k).entered = 0 := List.count_eq_zero.mpr hmem
    rcases (hs k).handed (by simp only [State.view, hk, SchedulePoint.stage])
      with ⟨-, hsum, hr⟩ | ⟨-, -, hone⟩
    · by_cases hq : (s.view k).queued = 0
      · exact .inr (List.count_pos_iff.mp (by change 0 < (s.view k).entering; omega))
      · exact .inl (List.count_pos_iff.mp (Nat.pos_of_ne_zero hq))
    · omega
  final k hne ls t hC h := (final_of_run hs hC h k).2 hne

end Law

/-! ## Overwrites that come too late -/

section Late

variable [DecidableEq κ] {main : Nat} {s t : State κ θ} {action : Action κ θ}

/-- Every drain but the innermost is in a callback. -/
def Nested (s : State κ θ) : Prop := ∀ drain ∈ s.drains.tail, ∃ k, drain.point = .running k

/-- The tasks' invariant, with the shape of the main thread's stack. -/
structure Inv (s : State κ θ) : Prop where
  view : ∀ k, (s.view k).Inv
  nested : Nested s

theorem inv_initial : Inv (State.initial : State κ θ) where
  view := view_inv_initial
  nested _ h := by cases h

theorem scheduleStep_drains {k : κ} {point : SchedulePoint θ}
    (h : scheduleStep s k point action = some t) : t.drains = s.drains := by
  unfold scheduleStep at h
  split at h
  · cases h; rfl
  · split at h
    · cases h; rfl
    · split at h <;> cases h <;> rfl
  · cases h; rfl
  · cases h; rfl
  · cases h; rfl
  · cases h; rfl
  · cases h

omit [DecidableEq κ] in
theorem Nested.pollStep {threadId : Nat} (hs : Nested s)
    (h : pollStep main threadId s = some t) : Nested t := by
  unfold MainThread.pollStep at h
  split at h
  · cases h
    exact hs
  · split at h
    · rename_i hpoll
      cases h
      rw [Bool.and_eq_true] at hpoll
      intro drain hd
      rw [List.tail_cons] at hd
      have hmay := hpoll.2
      unfold State.mayPoll at hmay
      split at hmay
      · rename_i hnil
        rw [hnil] at hd
        cases hd
      · rename_i task pending outer hcons
        rw [hcons, List.mem_cons] at hd
        rcases hd with rfl | hd
        · exact ⟨task, rfl⟩
        · exact hs drain (by rwa [hcons])
      · cases hmay
    · cases h

theorem Nested.drainStep {drain : Drain κ θ} {outer : List (Drain κ θ)} (hs : Nested s)
    (hd : s.drains = drain :: outer) (h : drainStep s drain outer action = some t) : Nested t := by
  have houter : ∀ d ∈ outer, ∃ k, d.point = .running k := by
    intro d hmem
    exact hs d (by rwa [hd])
  unfold MainThread.drainStep at h
  split at h
  · split at h
    · split at h <;> cases h <;> exact houter
    · cases h
  · split at h
    · cases h; exact houter
    · cases h
  · split at h
    · cases h; exact houter
    · cases h
  · split at h
    · cases h; exact houter
    · cases h
  · split at h
    · cases h
      exact fun d hmem ↦ houter d (List.mem_of_mem_tail hmem)
    · cases h
  · cases h

theorem Nested.step (hs : Nested s) (h : step main s action = some t) : Nested t := by
  unfold MainThread.step at h
  split at h
  iterate 5
    have hdrains := scheduleStep_drains h
    unfold Nested
    rw [hdrains]
    exact hs
  · exact hs.pollStep h
  all_goals
    split at h
    · cases h
    · rename_i hd
      exact hs.drainStep hd h

theorem Inv.step (hs : Inv s) (hC : OverwrittenInQueue s action)
    (h : step main s action = some t) : Inv t where
  view k := (step_view h k).inv (hs.view k) hC
  nested := hs.nested.step h

/-- A task that is about to be entered is entered by the next step of the main thread. -/
theorem exists_enter_of_entering (main : Nat) {k : κ} (hs : Nested s) (hk : k ∈ s.entering) :
    ∃ t, step main s .enter = some t ∧ k ∈ t.entered ∧ t.calls = s.calls := by
  obtain ⟨drain, hmem, hpoint⟩ := List.mem_filterMap.mp hk
  have hpoint : drain.point = .enter k := by
    generalize drain.point = point at hpoint
    cases point with
    | enter task => cases hpoint; rfl
    | _ => cases hpoint
  cases hd : s.drains with
  | nil => rw [hd] at hmem; cases hmem
  | cons inner outer =>
    rw [hd, List.mem_cons] at hmem
    rcases hmem with rfl | hmem
    · obtain ⟨point, pending⟩ := drain
      obtain rfl : point = .enter k := hpoint
      refine ⟨{ s with drains := ⟨.running k, pending⟩ :: outer, entered := s.entered ++ [k] },
        ?_, by simp, rfl⟩
      simp only [step, hd, drainStep]
    · obtain ⟨task, htask⟩ := hs drain (by rwa [hd])
      rw [hpoint] at htask
      cases htask

/-- **Too late**: an overwrite that does not find its task in a queue reports an error for a
callback that was entered, or that the main thread enters next. -/
theorem not_lawful_of_overwrite (hs : Inv s) (hC : ¬ OverwrittenInQueue s action)
    (h : step main s action = some t) : ¬ Lawful main OverwrittenInQueue t := by
  cases action with
  | overwrite k =>
    intro hlaw
    have hq : (s.view k).queued = 0 := List.count_eq_zero.mpr hC
    generalize hc : s.calls k = call at h
    have ht := h
    simp only [step, hc] at ht
    cases call with
    | overwrite error =>
      simp only [scheduleStep, Option.some.injEq] at ht
      have hcall : t.calls k = .returned (.error error) := by
        rw [← ht]
        simp [State.setCall]
      have hentered : t.entered = s.entered := by
        rw [← ht]
        rfl
      have hentering : t.entering = s.entering := by
        rw [← ht]
        rfl
      rcases (hs.view k).handed (by simp only [State.view, hc, SchedulePoint.stage])
        with ⟨-, hsum, hn⟩ | ⟨-, -, hn⟩
      · by_cases hr : (s.view k).running = 0
        · have hmem : k ∈ t.entering := by
            rw [hentering]
            exact List.count_pos_iff.mp (by change 0 < (s.view k).entering; omega)
          obtain ⟨u, hu, hku, -⟩ := exists_enter_of_entering main (hs.nested.step h) hmem
          refine hlaw.err k error hcall [.enter] u ⟨trivial, fun _ _ ↦ trivial⟩ ?_ hku
          exact (machine main).run_cons_eq_some.mpr ⟨u, hu, rfl⟩
        · refine hlaw.err k error hcall [] t trivial rfl ?_
          rw [hentered]
          exact List.count_pos_iff.mp (by change 0 < (s.view k).entered; omega)
      · refine hlaw.err k error hcall [] t trivial rfl ?_
        rw [hentered]
        exact List.count_pos_iff.mp (by change 0 < (s.view k).entered; omega)
    | returned => cases ht
    | _ => cases ht
  | _ => exact absurd trivial hC

/-- **The scheduling law, exactly.** A run is lawful in every state it passes exactly when each
overwrite after a failed wake finds its task in a queue. -/
theorem throughout_lawful_iff {ls : List (Action κ θ)}
    (h : (machine main).run State.initial ls = some s) :
    (machine main).Throughout (Lawful main OverwrittenInQueue) State.initial ls ↔
      (machine main).Along OverwrittenInQueue State.initial ls :=
  Machine.throughout_iff_along (I := Inv) (fun _ hs ↦ lawful_of_inv hs.view)
    (fun _ _ _ hs hC h ↦ hs.step hC h) (fun _ _ _ hs hC h ↦ not_lawful_of_overwrite hs hC h)
    inv_initial h

/-- The error of a wake whose message was not delivered. -/
def notDelivered : Error Unit :=
  .unsupportedFeature "main-thread scheduling" "Handler.sendEmptyMessage(1) returned false"

/-- A call up to its `enqueue`. -/
def enqueueing (k : Nat) : List (Action Nat Unit) :=
  [.schedule k, .ensureHook k none, .enqueue k]

/-- The wake fails, and the main thread polls afterwards. -/
def timelyRun : List (Action Nat Unit) :=
  enqueueing 0 ++ [.wake 0 (some notDelivered), .overwrite 0, .epollWait 7, .check, .leave]

/-- The main thread polls between the `enqueue` and the failing wake. -/
def lateRun : List (Action Nat Unit) :=
  enqueueing 0 ++ [.epollWait 7, .check, .enter, .callback (.returned (.ok ())), .store, .leave,
    .wake 0 (some notDelivered), .overwrite 0]

theorem throughout_lawful_timelyRun :
    (machine 7).Throughout (Lawful 7 OverwrittenInQueue) State.initial timelyRun := by
  obtain ⟨s, h, -⟩ :
      ∃ s, (machine 7).run State.initial timelyRun = some s ∧ s.queued = [] :=
    Machine.exists_of_run_any (fun s : State Nat Unit ↦ s.queued = []) (by decide +kernel)
  exact (throughout_lawful_iff h).mpr (by decide +kernel)

/-- The call returns an error, and its callback has run. -/
theorem lateRun_not_lawful :
    ¬ ∀ s : State Nat Unit, (machine 7).Reachable s → Lawful 7 (fun _ _ ↦ True) s := by
  intro h
  obtain ⟨s, hrun, hcall, hmem⟩ :
      ∃ s, (machine 7).run State.initial lateRun = some s ∧
        s.calls 0 = .returned (.error notDelivered) ∧ 0 ∈ s.entered :=
    Machine.exists_of_run_any (fun s : State Nat Unit ↦
      s.calls 0 = .returned (.error notDelivered) ∧ 0 ∈ s.entered) (by decide +kernel)
  exact (h s ⟨_, lateRun, rfl, hrun⟩).err 0 notDelivered hcall [] s trivial rfl hmem

end Late

end JavaBridge.MainThread

import JavaBridge.Library.ServiceOrder
import JavaBridge.MainThread.Law

/-!
# The order in which callbacks start

A drain takes the whole queue with it. Where one of its callbacks polls, another drain starts inside
it, with the tasks that have been queued since: these are then entered before the rest of the outer
drain's, which have been queued before them.

To the library of service orders the tasks wait in the drains' queues, the outermost first, and then
in the shared one.

Main results:

* `startsInOrder_iff`: the callbacks of a run start in the order in which their tasks were queued
  exactly when none is entered past one that starts later.
* `startsInOrder_of_entersOldest`: they do where a callback is entered only when the outer drains
  have nothing pending left.
-/

universe u

namespace JavaBridge.MainThread

open ServiceOrder

variable {κ θ : Type u} {s t : State κ θ} {main : Nat} {action : Action κ θ}

/-! ## Who waits -/

/-- The tasks that a drain is to enter, in order. -/
def Drain.waiting (drain : Drain κ θ) : List κ := drain.point.entering?.toList ++ drain.pending

/-- The tasks of nested drains, with those of the outermost first. -/
def waitingIn : List (Drain κ θ) → List κ
  | [] => []
  | drain :: outer => waitingIn outer ++ drain.waiting

/-- The tasks that wait to be entered, in the order in which they were queued. -/
def State.waiting (s : State κ θ) : List κ := waitingIn s.drains ++ s.pending

/-- The task that a step queues. -/
def Action.queues : Action κ θ → List κ
  | .enqueue k => [k]
  | _ => []

/-- The tasks that the innermost drain leaves waiting around it when it enters one of its own. -/
def overtakes (s : State κ θ) : Action κ θ → List κ
  | .enter => waitingIn s.drains.tail
  | _ => []

variable [DecidableEq κ]

/-- Of the sections of a scheduling call only `enqueue` touches the queue. -/
theorem scheduleStep_queueStep {k : κ} {point : SchedulePoint θ}
    (hkey : ∀ j, action = .enqueue j → j = k) (h : scheduleStep s k point action = some t) :
    Step action.queues (overtakes s action) s.waiting s.entered t.waiting t.entered := by
  unfold scheduleStep at h
  split at h
  · cases h
    exact .idle _ _
  · split at h
    · cases h
      exact .idle _ _
    · split at h <;> cases h <;> exact .idle _ _
  · next j =>
    cases h
    rw [← hkey j rfl]
    have hwaiting : waitingIn s.drains ++ (s.pending ++ [j]) = s.waiting ++ [j] :=
      (List.append_assoc _ _ _).symm
    show Step [j] [] s.waiting s.entered (waitingIn s.drains ++ (s.pending ++ [j])) s.entered
    rw [hwaiting]
    exact .arrive j _ _
  · cases h
    exact .idle _ _
  · cases h
    exact .idle _ _
  · cases h
    exact .idle _ _
  · cases h

omit [DecidableEq κ] in
/-- A drain that starts has the shared queue for its own. -/
theorem pollStep_queueStep {threadId : Nat} (h : pollStep main threadId s = some t) :
    Step [] [] s.waiting s.entered t.waiting t.entered := by
  unfold pollStep at h
  split at h
  · cases h
    exact .idle _ _
  · split at h
    · cases h
      have hwaiting : (waitingIn s.drains ++ s.pending) ++ [] = s.waiting := List.append_nil _
      show Step [] [] s.waiting s.entered ((waitingIn s.drains ++ s.pending) ++ []) s.entered
      rw [hwaiting]
      exact .idle _ _
    · cases h

/-- The innermost drain enters or skips the first task of its own. -/
theorem drainStep_queueStep {drain : Drain κ θ} {outer : List (Drain κ θ)}
    (hd : s.drains = drain :: outer) (h : drainStep s drain outer action = some t) :
    Step action.queues (overtakes s action) s.waiting s.entered t.waiting t.entered := by
  have hwaiting : s.waiting = waitingIn outer ++ drain.waiting ++ s.pending := by
    rw [State.waiting, hd]
    rfl
  unfold drainStep at h
  split at h
  · split at h
    · split at h <;> cases h
      · rw [hwaiting]
        exact .idle _ _
      · -- a task that is no longer pending goes without having been entered
        next task rest _ _ =>
        rw [hwaiting]
        show Step [] [] (waitingIn outer ++ (task :: rest) ++ s.pending) s.entered
          (waitingIn outer ++ rest ++ s.pending) s.entered
        rw [List.append_assoc, List.append_assoc]
        exact .renege _ task _ _
    · cases h
  · split at h
    · next task rest =>
      cases h
      have hovertakes : overtakes s .enter = waitingIn outer := by
        rw [overtakes, hd]
        rfl
      rw [hwaiting, hovertakes]
      show Step [] (waitingIn outer) (waitingIn outer ++ (task :: rest) ++ s.pending) s.entered
        (waitingIn outer ++ rest ++ s.pending) (s.entered ++ [task])
      rw [List.append_assoc, List.append_assoc]
      exact .serve _ task _ _
    · cases h
  · split at h
    · cases h
      rw [hwaiting]
      exact .idle _ _
    · cases h
  · split at h
    · cases h
      rw [hwaiting]
      exact .idle _ _
    · cases h
  · split at h
    · cases h
      rw [hwaiting]
      show Step [] [] (waitingIn outer ++ [] ++ s.pending) s.entered
        (waitingIn outer ++ s.pending) s.entered
      rw [List.append_nil]
      exact .idle _ _
    · cases h
  · cases h

theorem step_queueStep (h : step main s action = some t) :
    Step action.queues (overtakes s action) s.waiting s.entered t.waiting t.entered := by
  unfold step at h
  split at h
  · exact scheduleStep_queueStep nofun h
  · exact scheduleStep_queueStep nofun h
  · exact scheduleStep_queueStep (fun j hj ↦ (Action.enqueue.inj hj).symm) h
  · exact scheduleStep_queueStep nofun h
  · exact scheduleStep_queueStep nofun h
  · exact pollStep_queueStep h
  all_goals
    split at h
    · cases h
    · next hd => exact drainStep_queueStep hd h

/-- The main thread and its tasks as a queue. -/
def taskQueue (main : Nat) : Queue (machine (κ := κ) (θ := θ) main) κ where
  waiting := State.waiting
  served := State.entered
  arrives _ := Action.queues
  overtakes := overtakes
  step _ _ _ := step_queueStep

/-- The tasks that a run queues, in order. -/
def queuedIn (main : Nat) : State κ θ → List (Action κ θ) → List κ :=
  (machine main).observe fun _ ↦ Action.queues

/-! ## Each task is queued once -/

omit [DecidableEq κ] in
theorem TaskStep.not_fresh {timely : Prop} {v w : View θ} (h : TaskStep timely v w)
    (hv : v.call.stage ≠ .fresh) : w.call.stage ≠ .fresh := by
  cases h with
  | stutter | pop | skip | enter | store => exact hv
  | schedule hc | hooked hc | unhooked error hc | enqueue hc =>
    rw [hc] at hv
    exact absurd rfl hv
  | woken | unwoken | overwrite => exact Stage.noConfusion

/-- A task in the record has been handed over. -/
structure Recorded (queued : List κ) (s : State κ θ) : Prop where
  nodup : queued.Nodup
  handed : ∀ k ∈ queued, (s.calls k).stage ≠ .fresh

theorem Recorded.step {queued : List κ} (hq : Recorded queued s) (h : step main s action = some t) :
    Recorded (queued ++ action.queues) t := by
  have hold (k : κ) (hk : k ∈ queued) : (t.calls k).stage ≠ .fresh :=
    (step_view h k).not_fresh (hq.handed k hk)
  cases action with
  | enqueue k =>
    have hcall : s.calls k = .enqueue ∧ t.calls k = .wake := by
      simp only [MainThread.step] at h
      cases hc : s.calls k <;> rw [hc] at h <;> simp only [scheduleStep, reduceCtorEq] at h
      cases h
      exact ⟨rfl, Function.update_self _ _ _⟩
    have hk : k ∉ queued := by
      intro hk
      refine hq.handed k hk ?_
      rw [hcall.1]
      rfl
    refine ⟨hq.nodup.append (List.nodup_singleton k) (List.disjoint_singleton.2 hk), fun j hj ↦ ?_⟩
    rcases List.mem_append.1 hj with hj | hj
    · exact hold j hj
    · rw [List.mem_singleton.1 hj, hcall.2]
      exact Stage.noConfusion
  | _ =>
    show Recorded (queued ++ []) t
    rw [List.append_nil]
    exact ⟨hq.nodup, hold⟩

theorem nodup_queuedIn {ls : List (Action κ θ)} (h : (machine main).run .initial ls = some t) :
    (queuedIn main State.initial ls).Nodup := by
  have hinitial : Recorded [] (State.initial : State κ θ) :=
    ⟨List.nodup_nil, fun _ h ↦ by cases h⟩
  exact (Machine.observe_invariant (fun _ _ _ _ hq _ h ↦ hq.step h) hinitial
    (Machine.along_true _ _) h).nodup

/-! ## The order -/

/-- Of two tasks whose callbacks run, the one that was queued first has its callback started
first. -/
def StartsInOrder (main : Nat) (ls : List (Action κ θ)) (t : State κ θ) : Prop :=
  ServedInOrder (queuedIn main State.initial ls) t.entered

/-- **The order, exactly**: no task is entered past one that is entered later. -/
theorem startsInOrder_iff {ls : List (Action κ θ)} (h : (machine main).run .initial ls = some t) :
    StartsInOrder main ls t ↔
      (machine main).Along (fun s action ↦ ∀ k ∈ overtakes s action, k ∉ t.entered) .initial ls :=
  (taskQueue main).servedInOrder_iff rfl rfl (nodup_queuedIn h) h

/-- A callback is entered only when no drain around has a pending task left. -/
def EntersOldest (s : State κ θ) : Action κ θ → Prop
  | .enter => ∀ drain ∈ s.drains.tail, ∀ k ∈ drain.pending, s.status k ≠ .pending
  | _ => True

/-- A task that is never entered: its status is final, and it is neither entered nor about to be. -/
structure View.Over (v : View θ) : Prop where
  status : v.status ≠ .pending
  entering : v.entering = 0
  entered : v.entered = 0

omit [DecidableEq κ] in
theorem TaskStep.over {timely : Prop} {v w : View θ} (h : TaskStep timely v w) (hv : v.Over) :
    w.Over := by
  cases h with
  | stutter => exact hv
  | schedule | hooked | unhooked | enqueue | woken | unwoken | skip =>
    exact ⟨hv.status, hv.entering, hv.entered⟩
  | overwrite => exact ⟨nofun, hv.entering, hv.entered⟩
  | pop _ hpending => exact absurd hpending hv.status
  | enter e he => exact absurd (hv.entering.symm.trans he) (Nat.succ_ne_zero e).symm
  | store _ status hs => exact ⟨hs, hv.entering, hv.entered⟩

theorem not_mem_entered_of_over {k : κ} {ls : List (Action κ θ)} (hk : (s.view k).Over)
    (h : (machine main).run s ls = some t) : k ∉ t.entered :=
  List.count_eq_zero.1 (Machine.run_invariant (I := fun s : State κ θ ↦ (s.view k).Over)
    (fun _ _ _ hk _ h ↦ (step_view h k).over hk) hk (Machine.along_true _ _) h).entered

/-- What holds in every state: of the queue, of the record, of the stack of drains. -/
structure Orderly (main : Nat) (queued : List κ) (s : State κ θ) : Prop where
  fair : (taskQueue main).Fair queued s
  recorded : Recorded queued s
  nested : Nested s

theorem orderly_initial : Orderly main [] (State.initial : State κ θ) where
  fair := ⟨List.Sublist.refl _, List.Subset.refl _, List.nodup_nil⟩
  recorded := ⟨List.nodup_nil, fun _ h ↦ by cases h⟩
  nested _ h := by cases h

theorem Orderly.step {queued : List κ} (hs : Orderly main queued s)
    (h : step main s action = some t) : Orderly main (queued ++ action.queues) t where
  fair := hs.fair.step (hs.recorded.step h).nodup h
  recorded := hs.recorded.step h
  nested := hs.nested.step h

omit [DecidableEq κ] in
theorem mem_waitingIn {k : κ} {drains : List (Drain κ θ)} :
    k ∈ waitingIn drains ↔ ∃ drain ∈ drains, k ∈ drain.waiting := by
  induction drains with
  | nil => simp [waitingIn]
  | cons drain outer ih => simp [waitingIn, ih, or_comm]

theorem enter_cases (h : step main s .enter = some t) :
    ∃ task rest outer, s.drains = ⟨.enter task, rest⟩ :: outer ∧
      t = { s with drains := ⟨.running task, rest⟩ :: outer, entered := s.entered ++ [task] } := by
  simp only [MainThread.step] at h
  split at h
  · cases h
  · next drain outer hd =>
    simp only [drainStep] at h
    split at h
    · next task rest => exact ⟨task, rest, outer, hd, (Option.some.inj h).symm⟩
    · cases h

/-- With nothing pending in the outer drains, what is overtaken there is over. -/
theorem over_of_overtaken {queued : List κ} {k : κ} (hs : Orderly main queued s)
    (h : step main s .enter = some t)
    (holdest : ∀ drain ∈ s.drains.tail, ∀ k ∈ drain.pending, s.status k ≠ .pending)
    (hk : k ∈ overtakes s .enter) : (t.view k).Over := by
  have ht := hs.step h
  obtain ⟨task, rest, outer, hd, rfl⟩ := enter_cases h
  have houter : ∀ drain ∈ outer, ∃ k, drain.point = .running k := by
    intro drain hmem
    exact hs.nested drain (by rwa [hd])
  rw [overtakes, hd, List.tail_cons] at hk
  obtain ⟨drain, hmem, hkdrain⟩ := mem_waitingIn.1 hk
  refine ⟨?_, ?_, ?_⟩
  · obtain ⟨_, hpoint⟩ := houter drain hmem
    rw [Drain.waiting, hpoint] at hkdrain
    exact holdest drain (by rwa [hd]) k hkdrain
  · refine List.count_eq_zero.2 fun hentering ↦ ?_
    obtain ⟨drain', hmem', hpoint'⟩ := List.mem_filterMap.1 hentering
    rcases List.mem_cons.1 hmem' with rfl | hmem'
    · cases hpoint'
    · obtain ⟨_, hpoint⟩ := houter drain' hmem'
      rw [hpoint] at hpoint'
      cases hpoint'
  · refine List.count_eq_zero.2 fun hentered ↦ ?_
    refine (List.nodup_append.1 ht.fair.nodup).2.2 k hentered k ?_ rfl
    exact List.mem_append_left _ (List.mem_append_left _ hk)

theorem spares_of_entersOldest {queued : List κ} {ls : List (Action κ θ)}
    (hs : Orderly main queued s) (hC : (machine main).Along EntersOldest s ls)
    (h : (machine main).run s ls = some t) :
    (machine main).Along (fun s action ↦ ∀ k ∈ overtakes s action, k ∉ t.entered) s ls := by
  induction ls generalizing queued s with
  | nil => trivial
  | cons action ls ih =>
    obtain ⟨u, hu, hrest⟩ := (machine main).run_cons_eq_some.1 h
    have hC := ((machine main).along_cons hu).1 hC
    refine ((machine main).along_cons hu).2 ⟨fun k hk ↦ ?_, ih (hs.step hu) hC.2 hrest⟩
    cases action with
    | enter => exact not_mem_entered_of_over (over_of_overtaken hs hu hC.1 hk) hrest
    | _ => cases hk

/-- **The order.** Where no callback is entered while a drain around has a pending task left, the
callbacks of a run start in the order in which their tasks were queued. -/
theorem startsInOrder_of_entersOldest {ls : List (Action κ θ)}
    (hC : (machine main).Along EntersOldest .initial ls)
    (h : (machine main).run .initial ls = some t) : StartsInOrder main ls t :=
  (startsInOrder_iff h).2 (spares_of_entersOldest orderly_initial hC h)

/-! ## A callback that polls -/

/-- A drain enters the next of its tasks, and the callback ends. -/
def runNext : List (Action Nat Unit) := [.check, .enter, .callback (.returned (.ok ())), .store]

/-- Two tasks are queued; the callback of the first queues a third and polls. -/
def pollingRun : List (Action Nat Unit) :=
  enqueueing 0 ++ enqueueing 1 ++ [.epollWait 7, .check, .enter] ++ enqueueing 2 ++
    [.epollWait 7] ++ runNext ++ [.leave, .callback (.returned (.ok ())), .store] ++ runNext

/-- The callback of the first queues a third and does not poll. -/
def patientRun : List (Action Nat Unit) :=
  enqueueing 0 ++ enqueueing 1 ++ [.epollWait 7, .check, .enter] ++ enqueueing 2 ++
    [.callback (.returned (.ok ())), .store] ++ runNext ++ [.leave, .epollWait 7] ++ runNext

instance decidableEntersOldest (s : State κ θ) [DecidableEq θ] :
    ∀ action, Decidable (EntersOldest s action)
  | .enter => inferInstanceAs
      (Decidable (∀ drain ∈ s.drains.tail, ∀ k ∈ drain.pending, s.status k ≠ .pending))
  | .schedule _ | .ensureHook _ _ | .enqueue _ | .wake _ _ | .overwrite _ | .epollWait _ | .check
  | .callback _ | .store | .leave => isTrue trivial

theorem startsInOrder_patientRun :
    ∃ t, (machine 7).run .initial patientRun = some t ∧ t.entered = [0, 1, 2] ∧
      StartsInOrder 7 patientRun t := by
  obtain ⟨t, h, hentered⟩ :
      ∃ t, (machine 7).run State.initial patientRun = some t ∧ t.entered = [0, 1, 2] :=
    Machine.exists_of_run_any (fun t : State Nat Unit ↦ t.entered = [0, 1, 2]) (by decide +kernel)
  exact ⟨t, h, hentered, startsInOrder_of_entersOldest (by decide +kernel) h⟩

/-- The third task is entered before the second. -/
theorem not_startsInOrder :
    ¬∀ (ls : List (Action Nat Unit)) (t : State Nat Unit),
      (machine 7).run .initial ls = some t → StartsInOrder 7 ls t := by
  intro horder
  obtain ⟨t, h, hentered⟩ :
      ∃ t, (machine 7).run State.initial pollingRun = some t ∧ t.entered = [0, 2, 1] :=
    Machine.exists_of_run_any (fun t : State Nat Unit ↦ t.entered = [0, 2, 1]) (by decide +kernel)
  have hqueued : queuedIn 7 State.initial pollingRun = [0, 1, 2] := by decide +kernel
  have hstarts := horder pollingRun t h
  rw [StartsInOrder, hqueued, hentered] at hstarts
  have hswapped : [1, 2].Sublist [0, 2, 1] := hstarts 1 2 (by decide) (by simp) (by simp)
  exact absurd hswapped (by decide)

end JavaBridge.MainThread

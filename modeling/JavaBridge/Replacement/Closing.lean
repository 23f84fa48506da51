import JavaBridge.Replacement.Lifecycle

/-!
# What a call gets while a revert is under way

`revert` sets `closing` before it restores the method, so a call that was led to the clone before
the restore may enter after `closing` is set. `ClosureReplacementState::invoke` answers it with the
default value, without running the callback. Every other call gets its callback's value or the
original's.

The main result `result_of_entries` reads a call's result off the run: off the value of `closing`
at the call's `enter`, if it has one.
-/

universe u

namespace JavaBridge.Replacement

variable {κ τ θ : Type u}

/-- What a call's point remembers of its `enter`: the value of `closing` there. -/
def CallPoint.entries : CallPoint → List Bool
  | invoke closing => [closing]
  | epilogue result | leaving result | returned result =>
    match result with
    | .callback | .recorded => [false]
    | .closed => [true]
    | .original => []
  | outside | dispatchThunk | clone | prologue | original => []

/-- The result a call has. -/
def CallPoint.result? : CallPoint → Option CallResult
  | epilogue result | leaving result | returned result => some result
  | _ => none

/-- The value of `closing` where the call `k` enters. -/
def entering [DecidableEq κ] (k : κ) (s : State κ τ θ) : Action κ τ θ → List Bool
  | .call j .enter => if j = k then [s.counts.closing] else []
  | _ => []

/-- The callback returns a value that passes the validation, in every invocation that runs it. -/
def ReturnsValue (_ : State κ τ θ) : Action κ τ θ → Prop
  | .call _ (.exit .error) => False
  | _ => True

instance (s : State κ τ θ) (action : Action κ τ θ) : Decidable (ReturnsValue s action) :=
  match action with
  | .call _ (.exit .error) => .isFalse not_false
  | .owner _ | .call _ (.exit .value) | .call _ (.call _) | .call _ (.branch _)
  | .call _ .enterThunk | .call _ .enter | .call _ .leaveThunk | .call _ .leave
  | .call _ .finishOriginal => .isTrue trivial

section Step

variable [DecidableEq κ] [DecidableEq τ] {thread : κ → τ} {s t : State κ τ θ}
  {action : Action κ τ θ}

omit [DecidableEq κ] [DecidableEq τ] in
theorem ownerStep_calls {operation : Operation} {t' : τ} {point : OwnerPoint}
    {action : OwnerAction κ τ θ} (h : ownerStep s operation t' point action = some t) :
    t.calls = s.calls := by
  unfold ownerStep at h
  split at h
  · split at h
    · cases h
      unfold drained
      split <;> rfl
    · cases h
  · cases h; rfl
  · split at h <;> cases h <;> rfl
  · cases h; rfl
  · cases h; rfl
  · cases h; rfl
  · split at h
    · cases h
      cases operation <;> rfl
    · cases h
  · cases h; rfl
  · cases h; rfl
  · cases h

omit [DecidableEq κ] [DecidableEq τ] in
theorem start_calls (s : State κ τ θ) (operation : Operation) (t' : τ) :
    (start s operation t').calls = s.calls := by
  unfold start
  split
  · cases operation <;> rfl
  · split
    · unfold drained
      split <;> rfl
    · rfl

/-- The owner moves no call. -/
theorem step_owner_calls {action : OwnerAction κ τ θ}
    (h : step thread s (.owner action) = some t) : t.calls = s.calls := by
  simp only [step] at h
  split at h
  · obtain ⟨t', -, rfl⟩ := Option.map_eq_some_iff.mp h
    exact start_calls s _ t'
  · exact ownerStep_calls h
  · cases h

theorem step_call {k : κ} {action : CallAction} (h : step thread s (.call k action) = some t) :
    callStep s k (thread k) (s.calls k) action = some t := by
  simp only [step] at h
  split at h
  · cases h
  · exact h

omit [DecidableEq κ] [DecidableEq τ] in
theorem entries_arrive (route : Route) : (arrive s route).entries = [] := by
  cases route with
  | quickCode => simp only [arrive]; split <;> rfl
  | translated => simp only [arrive]; split <;> rfl

theorem entries_invokeResult (closing : Bool) (how : InvokeExit) :
    (CallPoint.epilogue (invokeResult closing how)).entries = [closing] := by
  cases closing with
  | true => rfl
  | false => cases how <;> rfl

/-- A call's point remembers its `enter`, and no other step of it. -/
theorem callStep_entries {k : κ} {t' : τ} {point : CallPoint} {action : CallAction}
    (h : callStep s k t' point action = some t) :
    (t.calls k).entries = point.entries ++ (if action = .enter then [s.counts.closing] else []) ∧
      ∀ j, j ≠ k → t.calls j = s.calls j := by
  have hframe (s : State κ τ θ) (next : CallPoint) (j : κ) (hj : j ≠ k) :
      (s.setCall k next).calls j = s.calls j :=
    Function.update_of_ne hj ..
  unfold callStep at h
  split at h
  · cases h
    refine ⟨?_, hframe s _⟩
    simp only [State.setCall, Function.update_self, entries_arrive]
    rfl
  · cases h
    refine ⟨?_, hframe s _⟩
    simp only [State.setCall, Function.update_self]
    split <;> rfl
  · cases h
    exact ⟨by simp [State.setCall, CallPoint.entries], hframe s _⟩
  · cases h
    exact ⟨by simp [State.setCall, CallPoint.entries], hframe s _⟩
  · cases h
    refine ⟨?_, hframe s _⟩
    simp only [State.setCall, Function.update_self, entries_invokeResult]
    rfl
  · cases h
    refine ⟨?_, hframe s _⟩
    simp only [State.setCall, Function.update_self, reduceCtorEq, if_false, List.append_nil]
    rfl
  · cases h
    refine ⟨?_, hframe s _⟩
    simp only [State.setCall, Function.update_self, reduceCtorEq, if_false, List.append_nil]
    rfl
  · cases h
    exact ⟨by simp [State.setCall, CallPoint.entries], hframe s _⟩
  · cases h

theorem step_entries (k : κ) (h : step thread s action = some t) :
    (t.calls k).entries = (s.calls k).entries ++ entering k s action := by
  cases action with
  | owner action =>
    rw [step_owner_calls h]
    exact (List.append_nil _).symm
  | call j action =>
    obtain ⟨hself, hother⟩ := callStep_entries (step_call h)
    by_cases hj : j = k
    · subst hj
      rw [hself]
      cases action <;> simp [entering]
    · rw [hother k (Ne.symm hj)]
      cases action <;> simp [entering, hj]

/-- Where every callback returns a value, no result is a default that stands for an error. -/
theorem result_ne_recorded (hs : ∀ k, (s.calls k).result? ≠ some .recorded)
    (hC : ReturnsValue s action) (h : step thread s action = some t) (k : κ) :
    (t.calls k).result? ≠ some .recorded := by
  cases action with
  | owner action =>
    rw [step_owner_calls h]
    exact hs k
  | call j action =>
    have hstep := step_call h
    by_cases hj : j = k
    · subst hj
      have hbefore := hs j
      generalize s.calls j = point at hstep hbefore
      unfold callStep at hstep
      split at hstep
      · rename_i route
        cases hstep
        simp only [State.setCall, Function.update_self]
        cases route with
        | quickCode => simp only [arrive]; split <;> exact fun h ↦ by cases h
        | translated => simp only [arrive]; split <;> exact fun h ↦ by cases h
      · cases hstep
        simp only [State.setCall, Function.update_self]
        split <;> exact fun h ↦ by cases h
      · cases hstep
        simp only [State.setCall, Function.update_self]
        exact fun h ↦ by cases h
      · cases hstep
        simp only [State.setCall, Function.update_self]
        exact fun h ↦ by cases h
      · rename_i closing how
        cases hstep
        simp only [State.setCall, Function.update_self]
        cases how with
        | value => cases closing <;> exact fun h ↦ by cases h
        | error => exact hC.elim
      · cases hstep
        simp only [State.setCall, Function.update_self]
        exact hbefore
      · cases hstep
        simp only [State.setCall, Function.update_self]
        exact hbefore
      · cases hstep
        simp only [State.setCall, Function.update_self]
        exact fun h ↦ by cases h
      · cases hstep
    · rw [(callStep_entries hstep).2 k (Ne.symm hj)]
      exact hs k

/-- **What a call gets**: in a run whose callbacks all return values, a call that has returned got
the default value if it entered while the replacement was closing, the callback's value if it
entered before, and the original's if it never entered. -/
theorem result_of_entries {ls : List (Action κ τ θ)}
    (h : (machine thread).run State.installed ls = some s)
    (hC : (machine thread).Along ReturnsValue State.installed ls) {k : κ} {result : CallResult}
    (hk : s.calls k = .returned result) :
    result = .closed ∧ (machine thread).observe (entering k) State.installed ls = [true] ∨
      result = .callback ∧ (machine thread).observe (entering k) State.installed ls = [false] ∨
        result = .original ∧ (machine thread).observe (entering k) State.installed ls = [] := by
  have hentries : (CallPoint.returned result).entries =
      (machine thread).observe (entering k) State.installed ls := by
    rw [← hk]
    exact Machine.eq_append_observe (M := machine thread) (fun s : State κ τ θ ↦ (s.calls k).entries)
      (fun _ _ _ h ↦ step_entries k h) h
  have hresult : (s.calls k).result? ≠ some .recorded :=
    Machine.run_invariant (M := machine thread)
      (I := fun s : State κ τ θ ↦ ∀ k, (s.calls k).result? ≠ some .recorded)
      (fun _ _ _ hs hC h ↦ result_ne_recorded hs hC h) (fun _ h ↦ by cases h) hC h k
  rw [← hentries]
  cases result with
  | callback => exact .inr (.inl ⟨rfl, rfl⟩)
  | closed => exact .inl ⟨rfl, rfl⟩
  | original => exact .inr (.inr ⟨rfl, rfl⟩)
  | recorded =>
    rw [hk] at hresult
    exact absurd rfl hresult

end Step

/-! ## A call that comes between -/

section Runs

/-- Call 0 reaches the closure thunk, the revert closes, and call 0 goes all its way before the
revert restores the method and returns. -/
def arrivingWhileClosing : List (Action (Fin 2) (Fin 2) Unit) :=
  [.call 0 (.call .quickCode), .call 0 (.branch false), .call 0 .enterThunk,
    .owner (.start .revert (.outside 1)), .call 0 .enter, .call 0 (.exit .value),
    .call 0 .leaveThunk, .call 0 .leave, .owner (.restore none), .owner .unregister,
    .owner .dropClone, .owner .dropDispatchThunk, .owner .finalWait]

theorem run_arrivingWhileClosing :
    ∃ s, (machine id).run (State.installed : State (Fin 2) (Fin 2) Unit) arrivingWhileClosing =
      some s ∧ s.owner = .ready (some (.ok ())) ∧ s.calls 0 = .returned .closed :=
  Machine.exists_of_run_any (fun s : State (Fin 2) (Fin 2) Unit ↦
    s.owner = .ready (some (.ok ())) ∧ s.calls 0 = .returned .closed) (by decide +kernel)

theorem entering_arrivingWhileClosing :
    (machine id).observe (entering 0) (State.installed : State (Fin 2) (Fin 2) Unit)
      arrivingWhileClosing = [true] := by
  obtain ⟨s, h, -, hk⟩ := run_arrivingWhileClosing
  rcases result_of_entries h (by decide +kernel) hk with ⟨-, h⟩ | ⟨h, -⟩ | ⟨h, -⟩
  · exact h
  · cases h
  · cases h

/-- A revert has returned `Ok`, every callback returns a value, and a call got the default. -/
theorem arrivingWhileClosing_default :
    ¬ ∀ s : State (Fin 2) (Fin 2) Unit, (machine id).ReachableVia ReturnsValue s →
      s.owner = .ready (some (.ok ())) → ∀ k result, s.calls k = .returned result →
        result = .callback ∨ result = .original := by
  intro h
  obtain ⟨s, hrun, howner, hk⟩ := run_arrivingWhileClosing
  rcases h s ⟨_, _, rfl, by decide +kernel, hrun⟩ howner 0 .closed hk with h | h
  · cases h
  · cases h

end Runs

end JavaBridge.Replacement

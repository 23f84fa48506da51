import JavaBridge.Perform.Effect
import Mathlib.Data.List.Nodup

/-!
# Who has a callback

A callback that waits in the queue, or that a call has taken on, is in one place, and it is entered
and completed from there. `step_move` lists what a step can do to the places, next to `step_effect`.

Main results:

* `Custody.of_run`: every callback is in at most one place, and is not completed while it is there.
* `Custody.nodup_observe`: no callback is entered twice.
* `Custody.status_of_run`: a status that is not pending is final.
-/

universe u

namespace JavaBridge.Perform

variable {κ L T θ : Type u}

/-! ## Views of a call -/

/-- The operation that the drain is completing. -/
def Drain.current : Drain κ L → Option (κ × Complete)
  | completing operation point _ => some (operation, point)
  | _ => none

namespace Actor

/-- The operations that the call `k` has taken on and not completed. -/
def tasks (k : κ) : Actor κ L θ → List κ
  | .perform (.completing _) => [k]
  | actor => actor.held

/-- The operation that the call `k` is completing. -/
def current (k : κ) : Actor κ L θ → Option (κ × Complete)
  | .perform (.completing point) => some (k, point)
  | actor => actor.drain?.bind Drain.current

variable {k : κ} {actor : Actor κ L θ} {drain : Drain κ L}

theorem tasks_eq (h : actor.drain? = some drain) : actor.tasks k = drain.held := by
  rw [← held_eq h]
  unfold tasks
  split
  · cases h
  · rfl

theorem current_eq (h : actor.drain? = some drain) : actor.current k = drain.current := by
  unfold current
  split
  · cases h
  · rw [h, Option.bind_some]

/-- A call completes the first of its operations. -/
theorem mem_tasks_of_current {operation : κ} {point : Complete}
    (h : actor.current k = some (operation, point)) : operation ∈ actor.tasks k := by
  cases hdrain : actor.drain? with
  | none =>
    unfold current at h
    split at h
    · cases h
      exact List.mem_singleton.mpr rfl
    · rw [hdrain] at h
      cases h
  | some drain =>
    rw [current_eq hdrain] at h
    rw [tasks_eq hdrain]
    cases drain with
    | completing =>
      cases h
      exact List.mem_cons_self
    | _ => cases h

end Actor

/-- The callback that a section of the call `k` enters. -/
def enteredAt (k : κ) (actor : Actor κ L θ) (action : Action L T θ) : List κ :=
  match actor.current k, action with
  | some (operation, .attach), .attach none => [operation]
  | _, _ => []

/-- The callback that the step enters. -/
def entered (s : State κ L T θ) (l : κ × Action L T θ) : List κ :=
  enteredAt l.1 (s.actors l.1) l.2

/-! ## The moves of a step -/

/-- What a step of the call `k` does to the places of the callbacks: `a` and `b` are where the call
stood and where it then stands, and the last list has the callback that is entered. -/
inductive Move [DecidableEq κ] (k : κ) (pending : List κ) (cells : κ → PerformCell T θ)
    (a : Actor κ L θ) :
    List κ → (κ → PerformCell T θ) → Actor κ L θ → List κ → Prop
  | still {b} (ht : b.tasks k = a.tasks k) (hc : b.current k = a.current k)
      (hst : b.stage = .fresh → a.stage = .fresh) : Move k pending cells a pending cells b []
  /-- A `perform` takes on its own callback. -/
  | direct {b} (ha : a.stage = .fresh) (hb : b.stage ≠ .fresh) (hbt : b.tasks k = [k])
      (hbc : b.current k = some (k, .attach)) : Move k pending cells a pending cells b []
  | enqueue {b} (ha : a.stage = .fresh) (hb : b.stage ≠ .fresh) (hbt : b.tasks k = []) :
      Move k pending cells a (pending ++ [k]) cells b []
  | swap {b} (hat : a.tasks k = []) (hbt : b.tasks k = pending)
      (hst : b.stage = .fresh → a.stage = .fresh) : Move k pending cells a [] cells b []
  /-- A drain goes on to its next operation. -/
  | start {b} (hac : a.current k = none) (hbt : b.tasks k = a.tasks k)
      (hst : b.stage = .fresh → a.stage = .fresh) : Move k pending cells a pending cells b []
  | enter {operation b} (hac : a.current k = some (operation, .attach))
      (hbt : b.tasks k = a.tasks k) (hbc : b.current k = some (operation, .callback))
      (hst : b.stage = .fresh → a.stage = .fresh) :
      Move k pending cells a pending
        (Function.update cells operation { cells operation with entered := true }) b [operation]
  | complete {operation point cell b} (hac : a.current k = some (operation, point))
      (hat : a.tasks k = operation :: b.tasks k) (hs : cell.status ≠ .pending)
      (he : cell.entered = (cells operation).entered)
      (hst : b.stage = .fresh → a.stage = .fresh) :
      Move k pending cells a pending (Function.update cells operation cell) b []

section Move

variable {k : κ} {inner inner' : AppPerformInner κ L} {cells cells' : κ → PerformCell T θ}
  {a b : Actor κ L θ} [DecidableEq κ] [DecidableEq L]

omit [DecidableEq κ] [DecidableEq L] in
theorem enteredAt_of_none {action : Action L T θ} (h : a.current k = none) :
    enteredAt k a action = [] := by
  unfold enteredAt
  rw [h]

omit [DecidableEq L] in
/-- A section of `complete_perform`, for an operation that the call is completing. -/
theorem completeStep_move {pending : List κ} {operation : κ} {point : Complete}
    {action : Action L T θ} {cell : PerformCell T θ} {point' : Option Complete}
    (h : completeStep (cells operation) point action = some (cell, point'))
    (ha : a.current k = some (operation, point))
    (hb : match point' with
      | some point' => b.tasks k = a.tasks k ∧ b.current k = some (operation, point')
      | none => a.tasks k = operation :: b.tasks k)
    (hst : b.stage = .fresh → a.stage = .fresh) :
    Move k pending cells a pending (Function.update cells operation cell) b
      (enteredAt k a action) := by
  unfold enteredAt
  rw [ha]
  unfold completeStep at h
  split at h
  · cases h
    exact .enter ha hb.1 hb.2 hst
  · cases h
    exact .complete ha hb nofun rfl hst
  · cases h
    rename_i outcome
    refine .complete ha hb ?_ ?_ hst
    · cases outcome with
      | returned result => cases result <;> simp [PerformCell.complete]
      | panicked => simp [PerformCell.complete]
    · cases outcome with
      | returned result => cases result <;> rfl
      | panicked => rfl
  · cases h

theorem drainStep_move {d d' : Drain κ L} {action : Action L T θ}
    (h : drainStep inner cells d action = some (inner', cells', d'))
    (ha : a.drain? = some d) (hb : b.drain? = some d') (hst : b.stage = a.stage) :
    Move k inner.pending cells a inner'.pending cells' b (enteredAt k a action) := by
  have hfresh : b.stage = .fresh → a.stage = .fresh := fun h ↦ hst ▸ h
  have hstill (ht : d'.held = d.held) (hc : d.current = none) (hc' : d'.current = none) :
      Move k inner.pending cells a inner.pending cells b (enteredAt k a action) := by
    have hcurrent : a.current k = none := (Actor.current_eq ha).trans hc
    rw [enteredAt_of_none hcurrent]
    refine .still ?_ ?_ hfresh
    · rw [Actor.tasks_eq ha, Actor.tasks_eq hb, ht]
    · rw [hcurrent, Actor.current_eq hb, hc']
  unfold drainStep at h
  split at h
  · rename_i source
    cases h
    refine hstill ?_ rfl ?_ <;> split <;> rfl
  · cases h
    exact hstill rfl rfl rfl
  · cases h
    exact hstill rfl rfl rfl
  · split at h
    · rename_i hpub
      cases h
      rw [(publishAppLoader_ok hpub).1]
      exact hstill rfl rfl rfl
    · cases h
      exact hstill rfl rfl rfl
  · cases h
    rw [enteredAt_of_none (Actor.current_eq ha)]
    exact .swap (Actor.tasks_eq ha) (Actor.tasks_eq hb) hfresh
  · cases h
    exact hstill rfl rfl rfl
  · cases h
    rw [enteredAt_of_none (Actor.current_eq ha)]
    exact .start (Actor.current_eq ha) ((Actor.tasks_eq hb).trans (Actor.tasks_eq ha).symm) hfresh
  · -- `complete_perform` of an operation the drain holds
    rename_i operation point pending action
    obtain ⟨⟨cell, point'⟩, hcell, h⟩ := Option.map_eq_some_iff.mp h
    cases h
    refine completeStep_move hcell (Actor.current_eq ha) ?_ hfresh
    rw [Actor.tasks_eq ha, Actor.tasks_eq hb, Actor.current_eq hb]
    cases point' with
    | none => rfl
    | some point' => exact ⟨rfl, rfl⟩
  · cases h
    exact hstill rfl rfl rfl
  · cases h

omit [DecidableEq L] in
/-- Neither the queue nor an operation of the call moves. -/
theorem Move.of_none {action : Action L T θ} (hp : inner'.pending = inner.pending)
    (ht : a.tasks k = []) (hc : a.current k = none) (ht' : b.tasks k = [])
    (hc' : b.current k = none) (hst : b.stage = .fresh → a.stage = .fresh) :
    Move k inner.pending cells a inner'.pending cells b (enteredAt k a action) := by
  rw [enteredAt_of_none hc, hp]
  exact .still (ht'.trans ht.symm) (hc'.trans hc.symm) hst

theorem performStep_move {p p' : PerformPoint κ L θ} {action : Action L T θ}
    (h : performStep k inner cells p action = some (inner', cells', p')) :
    Move k inner.pending cells (.perform p) inner'.pending cells' (.perform p')
      (enteredAt k (.perform p) action) := by
  unfold performStep at h
  split at h
  · cases h
    split
    · exact .direct rfl nofun rfl rfl
    · exact .of_none rfl rfl rfl rfl rfl fun _ ↦ rfl
  · obtain ⟨⟨cell, point'⟩, hcell, h⟩ := Option.map_eq_some_iff.mp h
    cases h
    refine completeStep_move hcell rfl ?_ ?_
    · cases point' with
      | none => rfl
      | some point' => exact ⟨rfl, rfl⟩
    · cases point' <;> exact nofun
  · cases h
    exact .of_none rfl rfl rfl rfl rfl fun _ ↦ rfl
  · cases h
    exact .of_none rfl rfl rfl rfl rfl fun _ ↦ rfl
  · cases h
    exact .of_none rfl rfl rfl rfl rfl fun _ ↦ rfl
  · split at h
    · rename_i hpub
      cases h
      rw [(publishAppLoader_ok hpub).1]
      exact .direct rfl nofun rfl rfl
    · cases h
      exact .of_none rfl rfl rfl rfl rfl fun _ ↦ rfl
    · cases h
      exact .of_none rfl rfl rfl rfl rfl fun _ ↦ rfl
  · split at h
    · rename_i hinst
      cases h
      exact .of_none (ensureHook_ok hinst).1 rfl rfl rfl rfl fun _ ↦ rfl
    · cases h
      exact .of_none rfl rfl rfl rfl rfl fun _ ↦ rfl
  · cases h
    exact .enqueue rfl nofun rfl
  · cases h
    exact .of_none rfl rfl rfl rfl rfl nofun
  · obtain ⟨⟨inner₁, cells₁, d'⟩, hd, h⟩ := Option.map_eq_some_iff.mp h
    cases h
    exact drainStep_move hd rfl rfl rfl
  · cases h

theorem waitStep_move {timeout : Nat} {w w' : WaitPoint κ L θ} {action : Action L T θ}
    (h : waitStep timeout inner cells w action = some (inner', cells', w')) :
    Move k inner.pending cells (.wait timeout w) inner'.pending cells' (.wait timeout w')
      (enteredAt k (.wait timeout w) action) := by
  unfold waitStep at h
  split at h
  · cases h
    refine .of_none rfl rfl rfl ?_ ?_ nofun <;> split <;> rfl
  · cases h
    exact .of_none rfl rfl rfl rfl rfl nofun
  · cases h
    exact .of_none rfl rfl rfl rfl rfl nofun
  · cases h
    exact .of_none rfl rfl rfl rfl rfl nofun
  · split at h
    · rename_i hpub
      cases h
      exact .of_none (publishAppLoader_ok hpub).1 rfl rfl rfl rfl nofun
    · cases h
      exact .of_none rfl rfl rfl rfl rfl nofun
    · cases h
      exact .of_none rfl rfl rfl rfl rfl nofun
  · cases h
    exact .of_none rfl rfl rfl rfl rfl nofun
  · cases h
    refine .of_none rfl rfl rfl ?_ ?_ nofun <;> split <;> rfl
  · split at h
    · rename_i hinst
      cases h
      exact .of_none (ensureHook_ok hinst).1 rfl rfl rfl rfl nofun
    · cases h
      exact .of_none rfl rfl rfl rfl rfl nofun
  · cases h
    exact .of_none rfl rfl rfl rfl rfl nofun
  · obtain ⟨⟨inner₁, cells₁, d'⟩, hd, h⟩ := Option.map_eq_some_iff.mp h
    cases h
    exact drainStep_move hd rfl rfl rfl
  · cases h
    refine .of_none rfl rfl rfl ?_ ?_ nofun <;> split <;> rfl
  · cases h
    refine .of_none rfl rfl rfl ?_ ?_ nofun <;> split <;> rfl
  · cases h
    refine .of_none rfl rfl rfl ?_ ?_ nofun <;> split <;> rfl
  · cases h
    refine .of_none rfl rfl rfl ?_ ?_ nofun <;> split
    · rfl
    · split <;> rfl
    · rfl
    · split <;> rfl
  · cases h
    refine .of_none rfl rfl rfl ?_ ?_ nofun <;> split <;> rfl
  · cases h

theorem actorStep_move {action : Action L T θ}
    (h : actorStep k inner cells a action = some (inner', cells', b)) :
    Move k inner.pending cells a inner'.pending cells' b (enteredAt k a action) := by
  unfold actorStep at h
  split at h
  · cases h
    exact .of_none rfl rfl rfl rfl rfl fun _ ↦ rfl
  · cases h
    exact .of_none rfl rfl rfl rfl rfl nofun
  · split at h
    · cases h
      exact .of_none rfl rfl rfl rfl rfl nofun
    · cases h
  · cases h
    exact .of_none rfl rfl rfl rfl rfl fun _ ↦ rfl
  · cases h
  · obtain ⟨⟨inner₁, cells₁, p⟩, hp, h⟩ := Option.map_eq_some_iff.mp h
    cases h
    exact performStep_move hp
  · obtain ⟨⟨inner₁, cells₁, w⟩, hw, h⟩ := Option.map_eq_some_iff.mp h
    cases h
    exact waitStep_move hw
  · obtain ⟨⟨inner₁, cells₁, d⟩, hd, h⟩ := Option.map_eq_some_iff.mp h
    cases h
    exact drainStep_move hd rfl rfl rfl

/-- What a step does to the places of the callbacks. -/
theorem step_move {s t : State κ L T θ} {l : κ × Action L T θ} (h : step s l = some t) :
    ∃ b, t.actors = Function.update s.actors l.1 b ∧
      Move l.1 s.inner.pending s.cells (s.actors l.1) t.inner.pending t.cells b (entered s l) := by
  obtain ⟨⟨inner, cells, b⟩, hb, rfl⟩ := Option.map_eq_some_iff.mp h
  exact ⟨b, rfl, actorStep_move hb⟩

end Move

namespace Move

variable {k x : κ} {pending pending' runs : List κ} {cells cells' : κ → PerformCell T θ}
  {a b : Actor κ L θ} [DecidableEq κ]

theorem stage (h : Move k pending cells a pending' cells' b runs) :
    b.stage = .fresh → a.stage = .fresh := by
  cases h with
  | still _ _ hst | swap _ _ hst | start _ _ hst | enter _ _ _ hst | complete _ _ _ _ hst => exact hst
  | direct _ hb | enqueue _ hb => exact fun h ↦ absurd h hb

/-- Only the cell of an operation that the call has taken on changes. -/
theorem cells_eq (h : Move k pending cells a pending' cells' b runs) (hx : x ∉ a.tasks k) :
    cells' x = cells x := by
  have hne {operation : κ} {point : Complete} (hac : a.current k = some (operation, point)) :
      x ≠ operation := by
    rintro rfl
    exact hx (Actor.mem_tasks_of_current hac)
  cases h with
  | enter hac | complete hac => exact Function.update_of_ne (hne hac) _ _
  | _ => rfl

/-- What is queued was so before, or is the call's own callback. -/
theorem mem_pending (h : Move k pending cells a pending' cells' b runs) (hx : x ∈ pending') :
    x ∈ pending ∨ x = k ∧ a.stage = .fresh ∧ b.stage ≠ .fresh := by
  cases h with
  | enqueue ha hb => exact (List.mem_append.mp hx).imp_right fun h ↦ ⟨List.mem_singleton.mp h, ha, hb⟩
  | swap => cases hx
  | _ => exact .inl hx

/-- What the call has taken on it had before, or it was queued, or it is its own callback. -/
theorem mem_tasks (h : Move k pending cells a pending' cells' b runs) (hx : x ∈ b.tasks k) :
    x ∈ a.tasks k ∨ x ∈ pending ∨ x = k ∧ b.stage ≠ .fresh := by
  cases h with
  | still hbt | start _ hbt | enter _ hbt => exact .inl (hbt ▸ hx)
  | direct _ hb hbt =>
    rw [hbt] at hx
    exact .inr (.inr ⟨List.mem_singleton.mp hx, hb⟩)
  | enqueue _ _ hbt =>
    rw [hbt] at hx
    cases hx
  | swap _ hbt => exact .inr (.inl (hbt ▸ hx))
  | complete _ hat =>
    rw [hat]
    exact .inl (List.mem_cons_of_mem _ hx)

end Move

/-! ## Places -/

section Places

variable {P X : Type*} {place : P → List X} {p : P} {l : List X}

/-- Nothing is in two places, or twice in one. -/
structure Separate (place : P → List X) : Prop where
  nodup : ∀ p, (place p).Nodup
  unique : ∀ p q x, x ∈ place p → x ∈ place q → p = q

/-- A place is filled with what is nowhere else. -/
theorem Separate.update [DecidableEq P] (h : Separate place) (hl : l.Nodup)
    (hnew : ∀ x ∈ l, ∀ q, q ≠ p → x ∉ place q) : Separate (Function.update place p l) where
  nodup q := by
    by_cases hq : q = p
    · rw [hq, Function.update_self]
      exact hl
    · rw [Function.update_of_ne hq]
      exact h.nodup q
  unique q r x hxq hxr := by
    by_cases hq : q = p
    · by_cases hr : r = p
      · rw [hq, hr]
      · rw [hq, Function.update_self] at hxq
        rw [Function.update_of_ne hr] at hxr
        exact absurd hxr (hnew x hxq r hr)
    · rw [Function.update_of_ne hq] at hxq
      by_cases hr : r = p
      · rw [hr, Function.update_self] at hxr
        exact absurd hxq (hnew x hxr q hq)
      · rw [Function.update_of_ne hr] at hxr
        exact h.unique q r x hxq hxr

end Places

/-- The callback has neither been entered nor completed. -/
def PerformCell.Untouched (cell : PerformCell T θ) : Prop :=
  cell.status = .pending ∧ cell.entered = false

/-- Where a callback may be: the queue, or with a call that has taken it on. -/
def State.places (s : State κ L T θ) : Option κ → List κ
  | none => s.inner.pending
  | some j => (s.actors j).tasks j

/-- What holds in every reachable state. -/
structure Custody (s : State κ L T θ) : Prop where
  separate : Separate s.places
  fresh : ∀ k, (s.actors k).stage = .fresh → (s.cells k).Untouched ∧ ∀ p, k ∉ s.places p
  queued : ∀ x ∈ s.inner.pending, (s.cells x).Untouched
  taken : ∀ j, ∀ x ∈ (s.actors j).tasks j, (s.cells x).status = .pending ∧
    ((s.cells x).entered = true → (s.actors j).current j = some (x, .callback))

theorem custody_initial : Custody (initial : State κ L T θ) where
  separate := by
    have hnone : ∀ p, (initial : State κ L T θ).places p = [] := fun p ↦ by cases p <;> rfl
    refine ⟨fun p ↦ ?_, fun p q x hx ↦ ?_⟩
    · rw [hnone]
      exact List.nodup_nil
    · rw [hnone] at hx
      cases hx
  fresh k _ := ⟨⟨rfl, rfl⟩, fun p ↦ by cases p <;> exact List.not_mem_nil⟩
  queued x hx := by cases hx
  taken j x hx := by cases hx

namespace Custody

variable [DecidableEq κ] {s t : State κ L T θ} {k : κ} {b : Actor κ L θ} {runs : List κ}

theorem places_step (hactors : t.actors = Function.update s.actors k b) :
    t.places = Function.update (Function.update s.places none t.inner.pending) (some k)
      (b.tasks k) := by
  funext p
  cases p with
  | none => rfl
  | some j =>
    rw [State.places, hactors]
    by_cases hj : j = k
    · rw [hj, Function.update_self, Function.update_self]
    · rw [Function.update_of_ne hj, Function.update_of_ne (by simpa using hj),
        Function.update_of_ne (by simp)]
      rfl

/-- A place has what it had, or what was queued, or the callback of a call that is not fresh. -/
theorem mem_places_step (hactors : t.actors = Function.update s.actors k b)
    (hm : Move k s.inner.pending s.cells (s.actors k) t.inner.pending t.cells b runs) {p : Option κ}
    {x : κ} (hx : x ∈ t.places p) : (∃ q, x ∈ s.places q) ∨ x = k ∧ b.stage ≠ .fresh := by
  rw [places_step hactors] at hx
  by_cases hp : p = some k
  · rw [hp, Function.update_self] at hx
    rcases hm.mem_tasks hx with hx | hx | hx
    · exact .inl ⟨some k, hx⟩
    · exact .inl ⟨none, hx⟩
    · exact .inr hx
  · rw [Function.update_of_ne hp] at hx
    by_cases hnone : p = none
    · rw [hnone, Function.update_self] at hx
      exact (hm.mem_pending hx).imp (fun h ↦ ⟨none, h⟩) fun h ↦ ⟨h.1, h.2.2⟩
    · rw [Function.update_of_ne hnone] at hx
      exact .inl ⟨p, hx⟩

theorem step_separate (hs : Custody s) {pending : List κ} {cells : κ → PerformCell T θ}
    (hm : Move k s.inner.pending s.cells (s.actors k) pending cells b runs) :
    Separate (Function.update (Function.update s.places none pending) (some k) (b.tasks k)) := by
  have hother {x : κ} {p q : Option κ} (hx : x ∈ s.places p) (hq : q ≠ p) : x ∉ s.places q :=
    fun h ↦ hq (hs.separate.unique q p x h hx)
  have hqueue : Function.update s.places none s.inner.pending = s.places :=
    Function.update_eq_self _ _
  have htasks : Function.update s.places (some k) ((s.actors k).tasks k) = s.places :=
    Function.update_eq_self _ _
  cases hm with
  | still hbt | start _ hbt | enter _ hbt =>
    rw [hbt, hqueue, htasks]
    exact hs.separate
  | direct ha _ hbt =>
    rw [hbt, hqueue]
    refine hs.separate.update (List.nodup_singleton k) fun x hx q _ ↦ ?_
    obtain rfl := List.mem_singleton.mp hx
    exact (hs.fresh x ha).2 q
  | enqueue ha _ hbt =>
    have hk := (hs.fresh k ha).2
    rw [hbt]
    refine Separate.update (hs.separate.update ?_ fun x hx q hq ↦ ?_) List.nodup_nil nofun
    · rw [← List.concat_eq_append]
      exact (hs.separate.nodup none).concat (hk none)
    · rcases List.mem_append.mp hx with hx | hx
      · exact hother (p := none) hx hq
      · obtain rfl := List.mem_singleton.mp hx
        exact hk q
  | swap _ hbt =>
    rw [hbt]
    refine Separate.update (hs.separate.update List.nodup_nil nofun) (hs.separate.nodup none)
      fun x hx q hq ↦ ?_
    by_cases hnone : q = none
    · rw [hnone, Function.update_self]
      exact List.not_mem_nil
    · rw [Function.update_of_ne hnone]
      exact hother (p := none) hx hnone
  | complete _ hat =>
    have hnodup : (s.places (some k)).Nodup := hs.separate.nodup (some k)
    rw [State.places, hat] at hnodup
    rw [hqueue]
    refine hs.separate.update (List.nodup_cons.mp hnodup).2 fun x hx q hq ↦ ?_
    refine hother (p := some k) ?_ hq
    rw [State.places, hat]
    exact List.mem_cons_of_mem _ hx

theorem step_taken (hs : Custody s) {pending : List κ} {cells : κ → PerformCell T θ}
    (hm : Move k s.inner.pending s.cells (s.actors k) pending cells b runs) {x : κ}
    (hx : x ∈ b.tasks k) :
    (cells x).status = .pending ∧ ((cells x).entered = true → b.current k = some (x, .callback)) := by
  have hold (hx : x ∈ (s.actors k).tasks k) := hs.taken k x hx
  have huntouched {cell : PerformCell T θ} (h : cell.Untouched) :
      cell.status = .pending ∧ (cell.entered = true → b.current k = some (x, .callback)) :=
    ⟨h.1, fun hentered ↦ absurd (h.2.symm.trans hentered) nofun⟩
  cases hm with
  | still hbt hbc =>
    rw [hbc]
    exact hold (hbt ▸ hx)
  | direct ha _ hbt =>
    rw [hbt] at hx
    obtain rfl := List.mem_singleton.mp hx
    exact huntouched (hs.fresh x ha).1
  | enqueue _ _ hbt =>
    rw [hbt] at hx
    cases hx
  | swap _ hbt => exact huntouched (hs.queued x (hbt ▸ hx))
  | start hac hbt =>
    obtain ⟨hstatus, hentered⟩ := hold (hbt ▸ hx)
    refine ⟨hstatus, fun h ↦ ?_⟩
    rw [hac] at hentered
    cases hentered h
  | @enter operation _ hac hbt hbc =>
    obtain ⟨hstatus, hentered⟩ := hold (hbt ▸ hx)
    by_cases hop : x = operation
    · subst hop
      rw [Function.update_self]
      exact ⟨hstatus, fun _ ↦ hbc⟩
    · rw [Function.update_of_ne hop]
      refine ⟨hstatus, fun h ↦ ?_⟩
      rw [hac] at hentered
      cases hentered h
  | @complete operation point cell _ hac hat =>
    have hnodup : (s.places (some k)).Nodup := hs.separate.nodup (some k)
    rw [State.places, hat] at hnodup
    have hop : x ≠ operation := by
      rintro rfl
      exact (List.nodup_cons.mp hnodup).1 hx
    obtain ⟨hstatus, hentered⟩ := hold (hat ▸ List.mem_cons_of_mem _ hx)
    rw [Function.update_of_ne hop]
    refine ⟨hstatus, fun h ↦ ?_⟩
    rw [hac] at hentered
    cases hentered h
    exact absurd rfl hop

variable [DecidableEq L] {l : κ × Action L T θ} {ls : List (κ × Action L T θ)}

theorem step (hs : Custody s) (h : step s l = some t) : Custody t := by
  obtain ⟨b, hactors, hm⟩ := step_move h
  have hcells {x : κ} (hx : x ∉ (s.actors l.1).tasks l.1) : t.cells x = s.cells x := hm.cells_eq hx
  refine ⟨?_, fun x hx ↦ ?_, fun x hx ↦ ?_, fun j x hx ↦ ?_⟩
  · rw [places_step hactors]
    exact hs.step_separate hm
  · have hfresh : (s.actors x).stage = .fresh ∧ (x = l.1 → b.stage = .fresh) := by
      rw [hactors] at hx
      by_cases hk : x = l.1
      · rw [hk, Function.update_self] at hx
        rw [hk]
        exact ⟨hm.stage hx, fun _ ↦ hx⟩
      · rw [Function.update_of_ne hk] at hx
        exact ⟨hx, fun h ↦ absurd h hk⟩
    obtain ⟨huntouched, hnowhere⟩ := hs.fresh x hfresh.1
    refine ⟨?_, fun p hp ↦ ?_⟩
    · rw [hcells (hnowhere (some l.1))]
      exact huntouched
    · rcases mem_places_step hactors hm hp with ⟨q, hq⟩ | ⟨hk, hb⟩
      · exact hnowhere q hq
      · exact hb (hfresh.2 hk)
  · rcases hm.mem_pending hx with hx | ⟨rfl, ha, -⟩
    · rw [hcells fun htask ↦ nomatch hs.separate.unique none (some l.1) x hx htask]
      exact hs.queued x hx
    · obtain ⟨huntouched, hnowhere⟩ := hs.fresh l.1 ha
      rw [hcells (hnowhere (some l.1))]
      exact huntouched
  · rw [hactors] at hx ⊢
    by_cases hj : j = l.1
    · rw [hj, Function.update_self] at hx ⊢
      exact hs.step_taken hm hx
    · rw [Function.update_of_ne hj] at hx ⊢
      rw [hcells fun htask ↦ hj (Option.some.inj (hs.separate.unique (some j) (some l.1) x hx htask))]
      exact hs.taken j x hx

theorem of_run (hs : Custody s) (h : machine.run s ls = some t) : Custody t :=
  Machine.run_invariant (C := fun _ _ ↦ True) (fun _ _ _ hs _ h ↦ hs.step h) hs
    (Machine.along_true s ls) h

/-! ## Once -/

/-- What a step enters had not been entered, and then has been. -/
theorem entered_step (hs : Custody s) (h : JavaBridge.Perform.step s l = some t) {x : κ}
    (hx : x ∈ entered s l) : (s.cells x).entered = false ∧ (t.cells x).entered = true := by
  obtain ⟨b, -, hm⟩ := step_move h
  generalize t.cells = cells at hm ⊢
  generalize t.inner.pending = pending at hm
  generalize entered s l = runs at hm hx
  cases hm with
  | enter hac =>
    obtain rfl := List.mem_singleton.mp hx
    rw [Function.update_self]
    refine ⟨?_, rfl⟩
    by_contra hentered
    have hcurrent := (hs.taken l.1 x (Actor.mem_tasks_of_current hac)).2 (by simpa using hentered)
    rw [hac] at hcurrent
    cases hcurrent
  | _ => cases hx

/-- An entry is not forgotten. -/
theorem entered_of_step (h : JavaBridge.Perform.step s l = some t) {x : κ}
    (hx : (s.cells x).entered = true) : (t.cells x).entered = true := by
  obtain ⟨b, -, hm⟩ := step_move h
  generalize t.cells = cells at hm ⊢
  generalize t.inner.pending = pending at hm
  generalize entered s l = runs at hm
  cases hm with
  | @enter operation =>
    by_cases hop : x = operation
    · rw [hop, Function.update_self]
    · rwa [Function.update_of_ne hop]
  | @complete operation _ _ _ _ _ _ he =>
    by_cases hop : x = operation
    · rw [hop] at hx
      rw [hop, Function.update_self, he, hx]
    · rwa [Function.update_of_ne hop]
  | _ => exact hx

omit [DecidableEq κ] [DecidableEq L] in
theorem nodup_entered (s : State κ L T θ) (l : κ × Action L T θ) : (entered s l).Nodup := by
  unfold entered enteredAt
  split
  · exact List.nodup_singleton _
  · exact List.nodup_nil

/-- No callback is entered twice. -/
theorem nodup_observe (hs : Custody s) (h : machine.run s ls = some t) :
    (machine.observe entered s ls).Nodup ∧
      ∀ x ∈ machine.observe entered s ls, (s.cells x).entered = false := by
  induction ls generalizing s with
  | nil => exact ⟨List.nodup_nil, List.forall_mem_nil _⟩
  | cons l ls ih =>
    obtain ⟨u, hstep, hrun⟩ := Machine.run_cons_eq_some machine |>.mp h
    obtain ⟨hnodup, hlater⟩ := ih (hs.step hstep) hrun
    have hobserve : machine.observe entered s (l :: ls) =
        entered s l ++ machine.observe entered u ls := by
      rw [Machine.observe, hstep, Option.elim_some]
    rw [hobserve, List.nodup_append]
    refine ⟨⟨nodup_entered s l, hnodup, ?_⟩, fun x hx ↦ ?_⟩
    · rintro x hx _ hx' rfl
      exact absurd ((hlater x hx').symm.trans (hs.entered_step hstep hx).2) Bool.false_ne_true
    · rcases List.mem_append.mp hx with hx | hx
      · exact (hs.entered_step hstep hx).1
      · rw [Bool.eq_false_iff]
        intro hentered
        exact absurd ((hlater x hx).symm.trans (entered_of_step hstep hentered))
          Bool.false_ne_true

theorem status_of_step (hs : Custody s) (h : JavaBridge.Perform.step s l = some t) {x : κ}
    (hx : (s.cells x).status ≠ .pending) : (t.cells x).status = (s.cells x).status := by
  obtain ⟨b, -, hm⟩ := step_move h
  have htask : x ∉ (s.actors l.1).tasks l.1 := fun h ↦ hx (hs.taken l.1 x h).1
  rw [hm.cells_eq htask]

/-- A status that is not pending is final. -/
theorem status_of_run (hs : Custody s) (h : machine.run s ls = some t) {x : κ}
    (hx : (s.cells x).status ≠ .pending) : (t.cells x).status = (s.cells x).status := by
  have hinvariant := Machine.run_invariant (C := fun _ _ ↦ True)
    (I := fun u ↦ Custody u ∧ (u.cells x).status = (s.cells x).status)
    (fun u l v hu _ h ↦ ⟨hu.1.step h, (hu.1.status_of_step h (hu.2 ▸ hx)).trans hu.2⟩) ⟨hs, rfl⟩
    (Machine.along_true s ls) h
  exact hinvariant.2

end Custody

end JavaBridge.Perform

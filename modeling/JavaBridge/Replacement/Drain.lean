import JavaBridge.Library.Machine
import JavaBridge.Replacement.Invocation
import Mathlib.Algebra.BigOperators.Group.Finset.Basic

/-!
# Draining the active invocations

Any number of threads that take and drop guards of one `ActiveInvocationState` and wait for it to
become inactive. A guard is a key, taken once on the thread that `thread` gives; the callback runs
under a guard that is not marked closing. A wait that has to sleep gives up the lock and looks again
each time it is woken, by `notify_all` or for no reason.

Main results:

* `inv_of_reachable`: in every reachable state the counters describe the live guards, and no waiter
  sleeps while nothing is active.
* `lawful_of_reachable`: the law of the two waits. When `close_and_wait_until_inactive` returns
  `true` nothing is active, and from then on no callback runs.
-/

universe u

namespace JavaBridge.Replacement

variable {κ τ : Type u}

/-- The two functions that wait for the state to become inactive. -/
inductive InactiveWait
  | waitUntilInactive
  | closeAndWaitUntilInactive
  deriving DecidableEq

structure DrainState (κ τ : Type u) : Type u where
  counts : ActiveInvocationCounts τ
  /-- The guards taken so far: whether each is marked closing. -/
  taken : κ → Option Bool
  live : Finset κ
  /-- The guards under which `invoke` is running the callback. -/
  callbacks : Finset κ
  /-- The threads in a wait, and whether they sleep on `drained`. -/
  waiters : τ → Option (InactiveWait × Bool)

inductive DrainAction (κ τ : Type u) : Type u
  /-- `ActiveInvocationState::enter`. -/
  | enter (k : κ)
  /-- `invoke` starts the callback. -/
  | start (k : κ)
  /-- The callback has ended. -/
  | finish (k : κ)
  /-- The drop of a guard. -/
  | drop (k : κ)
  /-- A wait is called, and gets to its first sleep or to its return. -/
  | call (t : τ) (wait : InactiveWait)
  /-- A waiter has been woken and has the lock again. -/
  | wake (t : τ)

namespace DrainState

def initial : DrainState κ τ := ⟨.new, fun _ ↦ none, ∅, ∅, fun _ ↦ none⟩

/-- `notify_all` on `drained`. -/
def notifyAll (waiters : τ → Option (InactiveWait × Bool)) : τ → Option (InactiveWait × Bool) :=
  fun t ↦ (waiters t).map fun w ↦ (w.1, false)

/-- What a wait does to the counters before it looks at the total. -/
def begin (wait : InactiveWait) (counts : ActiveInvocationCounts τ) : ActiveInvocationCounts τ :=
  match wait with
  | .waitUntilInactive => counts
  | .closeAndWaitUntilInactive => counts.close

variable [DecidableEq τ] (thread : κ → τ)

/-- A wait on the thread has the lock and looks at the total. -/
def look (s : DrainState κ τ) (t : τ) (wait : InactiveWait) : DrainState κ τ :=
  { s with waiters := Function.update s.waiters t (if s.counts.total = 0 then none else some (wait, true)) }

def step [DecidableEq κ] (s : DrainState κ τ) : DrainAction κ τ → Option (DrainState κ τ)
  | .enter k =>
    if s.taken k = none ∧ s.waiters (thread k) = none then
      some { s with
        counts := s.counts.enter (thread k)
        taken := Function.update s.taken k (some s.counts.closing)
        live := insert k s.live }
    else none
  | .start k =>
    -- `invoke` returns the default value at once where its guard is marked closing.
    if k ∈ s.live ∧ s.taken k = some false then some { s with callbacks := insert k s.callbacks }
    else none
  | .finish k => if k ∈ s.callbacks then some { s with callbacks := s.callbacks.erase k } else none
  | .drop k =>
    if k ∈ s.live ∧ k ∉ s.callbacks then
      let counts := s.counts.release (thread k)
      some { s with
        counts
        live := s.live.erase k
        waiters := if counts.total = 0 then notifyAll s.waiters else s.waiters }
    else none
  | .call t wait =>
    if s.waiters t = none then
      if s.counts.activeOn t then some s
      else some (look { s with counts := begin wait s.counts } t wait)
    else none
  | .wake t => (s.waiters t).map fun w ↦ look s t w.1

/-- The wait that returns in a step, its thread and what it returns. -/
def returns (s : DrainState κ τ) : DrainAction κ τ → Option (τ × InactiveWait × Bool)
  | .call t wait =>
    if s.counts.activeOn t then some (t, wait, false)
    else if s.counts.total = 0 then some (t, wait, true)
    else none
  | .wake t => (s.waiters t).bind fun w ↦
      if s.counts.total = 0 then some (t, w.1, true) else none
  | .enter _ | .start _ | .finish _ | .drop _ => none

def machine [DecidableEq κ] : Machine (DrainState κ τ) (DrainAction κ τ) where
  Init s := s = initial
  step := step thread

/-! ## The invariant -/

structure Inv (s : DrainState κ τ) : Prop where
  tracks : s.counts.Tracks thread s.live
  taken : ∀ k ∈ s.live, s.taken k ≠ none
  callbacks : ∀ k ∈ s.callbacks, k ∈ s.live ∧ s.taken k = some false
  /-- A thread in a wait has no live guard. -/
  waiting : ∀ t, s.waiters t ≠ none → ∀ k ∈ s.live, thread k ≠ t
  closing : ∀ t asleep, s.waiters t = some (.closeAndWaitUntilInactive, asleep) →
    s.counts.closing = true
  /-- No waiter sleeps while nothing is active. -/
  asleep : ∀ t wait, s.waiters t = some (wait, true) → s.counts.total ≠ 0

section Steps

theorem inv_initial : (initial : DrainState κ τ).Inv thread where
  tracks := ActiveInvocationCounts.tracks_new thread
  taken _ hk := absurd hk (Finset.notMem_empty _)
  callbacks _ hk := absurd hk (Finset.notMem_empty _)
  waiting _ h := absurd rfl h
  closing _ _ := nofun
  asleep _ _ := nofun

variable {thread} {s t : DrainState κ τ} {k : κ}

theorem waiters_look_of_ne {t' u : τ} (hut : u ≠ t') (wait : InactiveWait) :
    (look s t' wait).waiters u = s.waiters u :=
  Function.update_of_ne hut ..

theorem waiters_look_eq_some {t' : τ} {wait : InactiveWait} {w : InactiveWait × Bool}
    (hw : (look s t' wait).waiters t' = some w) : w = (wait, true) ∧ s.counts.total ≠ 0 := by
  have hself : (look s t' wait).waiters t' =
      if s.counts.total = 0 then none else some (wait, true) := Function.update_self ..
  rw [hself] at hw
  split at hw
  · cases hw
  · next htotal => exact ⟨(Option.some.inj hw).symm, htotal⟩

/-- A wait that looks at the total keeps the invariant, where its thread has no live guard. -/
theorem Inv.look (h : s.Inv thread) {t' : τ} {wait : InactiveWait}
    (hlive : ∀ k ∈ s.live, thread k ≠ t')
    (hclosing : wait = .closeAndWaitUntilInactive → s.counts.closing = true) :
    (look s t' wait).Inv thread where
  tracks := h.tracks
  taken := h.taken
  callbacks := h.callbacks
  waiting u hu := by
    by_cases hut : u = t'
    · exact hut ▸ hlive
    · exact h.waiting u fun hnone ↦ hu ((waiters_look_of_ne hut wait).trans hnone)
  closing u asleep hu := by
    by_cases hut : u = t'
    · subst hut
      exact hclosing (congrArg Prod.fst (waiters_look_eq_some hu).1).symm
    · exact h.closing u asleep ((waiters_look_of_ne hut wait).symm.trans hu)
  asleep u wait' hu := by
    by_cases hut : u = t'
    · subst hut
      exact (waiters_look_eq_some hu).2
    · exact h.asleep u wait' ((waiters_look_of_ne hut wait).symm.trans hu)

theorem Inv.begin (h : s.Inv thread) (wait : InactiveWait) :
    Inv thread { s with counts := begin wait s.counts } := by
  cases wait with
  | waitUntilInactive => exact h
  | closeAndWaitUntilInactive =>
    exact ⟨h.tracks.close, h.taken, h.callbacks, h.waiting, fun _ _ _ ↦ rfl, h.asleep⟩

theorem Inv.activeOn_iff (h : s.Inv thread) (t' : τ) :
    s.counts.activeOn t' = true ↔ ∃ k ∈ s.live, thread k = t' :=
  h.tracks.activeOn_iff t'

variable [DecidableEq κ]

theorem Inv.enter (h : s.Inv thread) (hk : s.taken k = none) (hwaiter : s.waiters (thread k) = none) :
    Inv thread { s with
      counts := s.counts.enter (thread k)
      taken := Function.update s.taken k (some s.counts.closing)
      live := insert k s.live } where
  tracks := h.tracks.enter fun hlive ↦ h.taken k hlive hk
  taken j hj := by
    by_cases hjk : j = k
    · subst hjk
      show Function.update s.taken j (some s.counts.closing) j ≠ none
      rw [Function.update_self]
      exact Option.some_ne_none _
    · show Function.update s.taken k (some s.counts.closing) j ≠ none
      rw [Function.update_of_ne hjk]
      exact h.taken j (Finset.mem_of_mem_insert_of_ne hj hjk)
  callbacks j hj := by
    obtain ⟨hlive, htaken⟩ := h.callbacks j hj
    have hjk : j ≠ k := by
      rintro rfl
      rw [hk] at htaken
      cases htaken
    exact ⟨Finset.mem_insert_of_mem hlive, (Function.update_of_ne hjk ..).trans htaken⟩
  waiting t' ht' j hj := by
    rcases Finset.mem_insert.1 hj with rfl | hj
    · rintro rfl
      exact ht' hwaiter
    · exact h.waiting t' ht' j hj
  closing := h.closing
  asleep _ _ _ := Nat.succ_ne_zero _

theorem Inv.drop (h : s.Inv thread) (hk : k ∈ s.live) (hcallback : k ∉ s.callbacks) :
    Inv thread { s with
      counts := s.counts.release (thread k)
      live := s.live.erase k
      waiters := if (s.counts.release (thread k)).total = 0 then notifyAll s.waiters
        else s.waiters } where
  tracks := h.tracks.release hk
  taken j hj := h.taken j (Finset.mem_of_mem_erase hj)
  callbacks j hj := by
    obtain ⟨hlive, htaken⟩ := h.callbacks j hj
    refine ⟨Finset.mem_erase.2 ⟨?_, hlive⟩, htaken⟩
    rintro rfl
    exact hcallback hj
  waiting t' ht' j hj := by
    refine h.waiting t' (fun hnone ↦ ht' ?_) j (Finset.mem_of_mem_erase hj)
    split <;> simp [notifyAll, hnone]
  closing t' asleep ht' := by
    split at ht'
    · obtain ⟨⟨wait, was⟩, hwas, heq⟩ := Option.map_eq_some_iff.1 ht'
      obtain rfl := congrArg Prod.fst heq
      exact h.closing t' was hwas
    · exact h.closing t' asleep ht'
  asleep t' wait ht' := by
    split at ht'
    · obtain ⟨w, -, heq⟩ := Option.map_eq_some_iff.1 ht'
      cases heq
    · assumption

/-- A wait that is called on a thread with a live guard returns at once. -/
theorem step_call_cases {t' : τ} {wait : InactiveWait}
    (h : step thread s (.call t' wait) = some t) :
    t = s ∨ s.counts.activeOn t' = false ∧
      t = DrainState.look { s with counts := begin wait s.counts } t' wait := by
  obtain ⟨-, h⟩ := Option.ite_none_right_eq_some.1 h
  cases hactive : s.counts.activeOn t' with
  | true =>
    rw [hactive, if_pos rfl] at h
    exact .inl (Option.some.inj h).symm
  | false =>
    rw [hactive, if_neg Bool.false_ne_true] at h
    exact .inr ⟨rfl, (Option.some.inj h).symm⟩

theorem Inv.step {action : DrainAction κ τ} (h : s.Inv thread)
    (hstep : step thread s action = some t) : t.Inv thread := by
  cases action with
  | enter k =>
    obtain ⟨⟨hk, hwaiter⟩, hstep⟩ := Option.ite_none_right_eq_some.1 hstep
    obtain rfl := Option.some.inj hstep
    exact h.enter hk hwaiter
  | start k =>
    obtain ⟨hk, hstep⟩ := Option.ite_none_right_eq_some.1 hstep
    obtain rfl := Option.some.inj hstep
    refine { h with callbacks := fun j hj ↦ ?_ }
    rcases Finset.mem_insert.1 hj with rfl | hj
    · exact hk
    · exact h.callbacks j hj
  | finish k =>
    obtain ⟨-, hstep⟩ := Option.ite_none_right_eq_some.1 hstep
    obtain rfl := Option.some.inj hstep
    exact { h with callbacks := fun j hj ↦ h.callbacks j (Finset.mem_of_mem_erase hj) }
  | drop k =>
    obtain ⟨⟨hk, hcallback⟩, hstep⟩ := Option.ite_none_right_eq_some.1 hstep
    obtain rfl := Option.some.inj hstep
    exact h.drop hk hcallback
  | call t' wait =>
    obtain rfl | ⟨hactive, rfl⟩ := step_call_cases hstep
    · exact h
    · refine (h.begin wait).look (fun k hk hthread ↦ ?_) ?_
      · have hactive' := (h.activeOn_iff t').2 ⟨k, hk, hthread⟩
        rw [hactive] at hactive'
        cases hactive'
      · rintro rfl
        rfl
  | wake t' =>
    obtain ⟨⟨wait, asleep⟩, hw, rfl⟩ := Option.map_eq_some_iff.1 hstep
    refine h.look (h.waiting t' fun hnone ↦ ?_) ?_
    · rw [hnone] at hw
      cases hw
    · rintro rfl
      exact h.closing t' asleep hw

/-- In every reachable state the counters describe the live guards, and no waiter sleeps while nothing
is active. -/
theorem inv_of_reachable (h : (machine thread).Reachable s) : s.Inv thread := by
  refine Machine.Reachable.invariant (I := Inv thread) ?_ ?_ h
  · rintro s rfl
    exact inv_initial thread
  · intro s action t hs hstep
    exact hs.step hstep

end Steps

/-! ## The law -/

/-- Nothing but guards that are marked closing can be taken any more, and no callback runs. -/
structure Closed (s : DrainState κ τ) : Prop where
  closing : s.counts.closing = true
  live : ∀ k ∈ s.live, s.taken k = some true
  callbacks : s.callbacks = ∅

section Counters

variable {thread} {s : DrainState κ τ} {k : κ}

theorem Inv.closed (h : s.Inv thread) (htotal : s.counts.total = 0) (hclosing : s.counts.closing = true) :
    s.live = ∅ ∧ s.Closed := by
  have hlive := h.tracks.eq_empty htotal
  refine ⟨hlive, hclosing, fun k hk ↦ ?_, Finset.eq_empty_of_forall_notMem fun k hk ↦ ?_⟩
  · rw [hlive] at hk
    exact absurd hk (Finset.notMem_empty k)
  · have hk := (h.callbacks k hk).1
    rw [hlive] at hk
    exact absurd hk (Finset.notMem_empty k)

theorem Inv.threads_eq_none (h : s.Inv thread) (t' : τ) :
    s.counts.threads t' = none ↔ t' ∉ s.live.image thread := by
  rw [← not_iff_not, not_not, Finset.mem_image, ← h.activeOn_iff]
  have hnonzero := h.tracks.nonzero t'
  unfold ActiveInvocationCounts.activeOn
  cases hthread : s.counts.threads t' with
  | none => simp
  | some n =>
    have hn : n ≠ 0 := by
      rintro rfl
      exact hnonzero hthread
    simp [hn]

theorem Inv.total_eq_sum (h : s.Inv thread) :
    s.counts.total = ∑ t ∈ s.live.image thread, (s.counts.threads t).getD 0 := by
  rw [h.tracks.total, Finset.card_eq_sum_card_image thread s.live]
  exact Finset.sum_congr rfl fun t _ ↦ (h.tracks.count t).symm

theorem Inv.drop_pos (h : s.Inv thread) (hk : k ∈ s.live) :
    0 < s.counts.total ∧ ∃ n, s.counts.threads (thread k) = some (n + 1) := by
  refine ⟨h.tracks.total ▸ Finset.card_pos.2 ⟨k, hk⟩, ?_⟩
  have hsome : s.counts.threads (thread k) ≠ none := fun hnone ↦
    (h.threads_eq_none _).1 hnone (Finset.mem_image_of_mem thread hk)
  obtain ⟨_ | n, hn⟩ := Option.ne_none_iff_exists'.1 hsome
  · exact absurd hn (h.tracks.nonzero _)
  · exact ⟨n, hn⟩

end Counters

variable [DecidableEq κ]

/-- What the counters and the waits promise in a state. -/
structure Lawful (s : DrainState κ τ) : Prop where
  total_eq_card : s.counts.total = s.live.card
  /-- The map holds the threads of the live guards, and the total is the sum over it. -/
  threads_eq_none : ∀ t, s.counts.threads t = none ↔ t ∉ s.live.image thread
  total_eq_sum : s.counts.total = ∑ t ∈ s.live.image thread, (s.counts.threads t).getD 0
  threads_ne_zero : ∀ t, s.counts.threads t ≠ some 0
  /-- The subtractions of a drop do not saturate. -/
  drop_pos : ∀ k ∈ s.live, 0 < s.counts.total ∧ ∃ n, s.counts.threads (thread k) = some (n + 1)
  /-- `close_and_wait_until_inactive` returns `false` just where its thread holds a live guard. -/
  close_false : ∀ t, s.waiters t = none →
    (returns s (.call t .closeAndWaitUntilInactive) = some (t, .closeAndWaitUntilInactive, false) ↔
      ∃ k ∈ s.live, thread k = t)
  /-- A wait that returns `false` changes nothing. -/
  unchanged : ∀ action t wait u, returns s action = some (t, wait, false) →
    step thread s action = some u → u = s
  /-- When `close_and_wait_until_inactive` returns `true`, no guard is alive; and from then on every
  guard is marked closing and no callback runs. -/
  close_true : ∀ action t u, returns s action = some (t, .closeAndWaitUntilInactive, true) →
    step thread s action = some u →
    u.live = ∅ ∧ ∀ actions v, (machine thread).run u actions = some v → v.Closed

section Law

variable {thread} {s t : DrainState κ τ} {k : κ}

theorem Closed.step {action : DrainAction κ τ} (h : s.Closed)
    (hstep : step thread s action = some t) : t.Closed := by
  cases action with
  | enter k =>
    obtain ⟨-, hstep⟩ := Option.ite_none_right_eq_some.1 hstep
    obtain rfl := Option.some.inj hstep
    refine ⟨h.closing, fun j hj ↦ ?_, h.callbacks⟩
    show Function.update s.taken k (some s.counts.closing) j = some true
    by_cases hjk : j = k
    · rw [hjk, Function.update_self, h.closing]
    · rw [Function.update_of_ne hjk]
      exact h.live j (Finset.mem_of_mem_insert_of_ne hj hjk)
  | start k =>
    obtain ⟨⟨hk, htaken⟩, -⟩ := Option.ite_none_right_eq_some.1 hstep
    rw [h.live k hk] at htaken
    cases htaken
  | finish k =>
    obtain ⟨hk, -⟩ := Option.ite_none_right_eq_some.1 hstep
    exact absurd (h.callbacks ▸ hk) (Finset.notMem_empty k)
  | drop k =>
    obtain ⟨-, hstep⟩ := Option.ite_none_right_eq_some.1 hstep
    obtain rfl := Option.some.inj hstep
    exact ⟨h.closing, fun j hj ↦ h.live j (Finset.mem_of_mem_erase hj), h.callbacks⟩
  | call t' wait =>
    obtain rfl | ⟨-, rfl⟩ := step_call_cases hstep
    · exact h
    · refine ⟨?_, h.live, h.callbacks⟩
      cases wait with
      | waitUntilInactive => exact h.closing
      | closeAndWaitUntilInactive => rfl
  | wake t' =>
    obtain ⟨w, -, rfl⟩ := Option.map_eq_some_iff.1 hstep
    exact ⟨h.closing, h.live, h.callbacks⟩

theorem Closed.of_run {actions : List (DrainAction κ τ)} (h : s.Closed)
    (hrun : (machine thread).run s actions = some t) : t.Closed :=
  Machine.run_invariant (I := Closed) (fun _ _ _ hs _ hstep ↦ Closed.step hs hstep) h
    (Machine.along_true s actions) hrun

/-- The step in which `close_and_wait_until_inactive` returns `true` ends with nothing active and the
state closing. -/
theorem total_eq_zero_of_returns (h : s.Inv thread) {action : DrainAction κ τ} {t' : τ}
    (hreturns : returns s action = some (t', .closeAndWaitUntilInactive, true))
    (hstep : step thread s action = some t) : t.counts.total = 0 ∧ t.counts.closing = true := by
  cases action with
  | call u wait =>
    obtain ⟨-, hstep⟩ := Option.ite_none_right_eq_some.1 hstep
    simp only [returns] at hreturns
    cases hactive : s.counts.activeOn u with
    | true =>
      rw [hactive, if_pos rfl] at hreturns
      cases hreturns
    | false =>
      rw [hactive, if_neg Bool.false_ne_true] at hreturns hstep
      obtain ⟨htotal, heq⟩ := Option.ite_none_right_eq_some.1 hreturns
      obtain rfl := Option.some.inj hstep
      cases heq
      exact ⟨htotal, rfl⟩
  | wake u =>
    obtain ⟨⟨wait, asleep⟩, hw, rfl⟩ := Option.map_eq_some_iff.1 hstep
    simp only [returns, hw, Option.bind_some] at hreturns
    obtain ⟨htotal, heq⟩ := Option.ite_none_right_eq_some.1 hreturns
    cases heq
    exact ⟨htotal, h.closing _ _ hw⟩
  | _ => cases hreturns

theorem eq_of_returns_false {action : DrainAction κ τ} {t' : τ} {wait : InactiveWait}
    (hreturns : returns s action = some (t', wait, false)) (hstep : step thread s action = some t) :
    t = s := by
  cases action with
  | call u wait' =>
    obtain ⟨-, hstep⟩ := Option.ite_none_right_eq_some.1 hstep
    simp only [returns] at hreturns
    split at hreturns
    · next hactive =>
      rw [if_pos hactive] at hstep
      exact (Option.some.inj hstep).symm
    · split at hreturns <;> cases hreturns
  | wake u =>
    obtain ⟨w, hw, -⟩ := Option.map_eq_some_iff.1 hstep
    simp only [returns, hw, Option.bind_some] at hreturns
    split at hreturns <;> cases hreturns
  | _ => cases hreturns

/-- **The drain law**: it holds in every reachable state. -/
theorem lawful_of_reachable (hreach : (machine thread).Reachable s) : s.Lawful thread := by
  have h := inv_of_reachable hreach
  refine ⟨h.tracks.total, h.threads_eq_none, h.total_eq_sum, h.tracks.nonzero,
    fun k hk ↦ h.drop_pos hk, fun t' _ ↦ ?_, fun action t' wait u hreturns hstep ↦ ?_,
    fun action t' u hreturns hstep ↦ ?_⟩
  · rw [← h.activeOn_iff, returns]
    split
    · next hactive => simp [hactive]
    · next hactive => split <;> simp [hactive]
  · exact eq_of_returns_false hreturns hstep
  · obtain ⟨htotal, hclosing⟩ := total_eq_zero_of_returns h hreturns hstep
    obtain ⟨hlive, hclosed⟩ := (h.step hstep).closed htotal hclosing
    exact ⟨hlive, fun actions v hrun ↦ hclosed.of_run hrun⟩

end Law

/-! ## A close that waits for a callback -/

/-- The guard `0` is taken on the thread `0`, and the thread `1` closes the state while the callback
runs under it. -/
def closingRun : List (DrainAction Nat Nat) :=
  [.enter 0, .start 0, .call 1 .closeAndWaitUntilInactive, .wake 1, .enter 2, .finish 0, .drop 0,
    .drop 2, .wake 1]

/-- At the end of `closingRun` the close has returned. -/
theorem lawful_closingRun : ∃ s : DrainState Nat Nat,
    (machine fun _ ↦ 0).run initial closingRun = some s ∧ s.waiters 1 = none ∧
      s.Lawful fun _ ↦ 0 := by
  obtain ⟨s, hrun, hwaiter⟩ := Machine.exists_of_run_any (fun s : DrainState Nat Nat ↦
    s.waiters 1 = none) (show ((machine fun _ ↦ 0).run initial closingRun).any _ = true by
      decide +kernel)
  exact ⟨s, hrun, hwaiter, lawful_of_reachable ⟨initial, closingRun, rfl, hrun⟩⟩

end DrainState

end JavaBridge.Replacement

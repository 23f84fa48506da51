import Mathlib.Data.Finset.Card
import Mathlib.Logic.Function.Basic

/-!
# Active invocations

`ActiveInvocationState` counts the invocations of a replacement's callback, in total and for each
thread, and remembers whether the replacement is closing. Its two waits are split where they give
up the lock: the test they start with, and the condition `total = 0` they wait for.

`Tracks` says what the counters mean: there is a finite set of live guards, `total` is its size,
and each thread's entry is the number of its guards, absent where that is zero.
-/

universe u

namespace JavaBridge.Replacement

variable {κ τ : Type u} [DecidableEq τ]

/-- The counters under the lock; `threads` is the map from thread to its count. -/
structure ActiveInvocationCounts (τ : Type u) : Type u where
  closing : Bool
  total : Nat
  threads : τ → Option Nat

namespace ActiveInvocationCounts

def new : ActiveInvocationCounts τ where
  closing := false
  total := 0
  threads := fun _ ↦ none

/-- `ActiveInvocationState::enter`; the guard it returns keeps `counts.closing`. -/
def enter (counts : ActiveInvocationCounts τ) (thread : τ) : ActiveInvocationCounts τ :=
  { counts with
    total := counts.total + 1
    threads := Function.update counts.threads thread
      (some ((counts.threads thread).getD 0 + 1)) }

/-- The drop of an `ActiveInvocationGuard`. -/
def release (counts : ActiveInvocationCounts τ) (thread : τ) : ActiveInvocationCounts τ :=
  { counts with
    total := counts.total - 1
    threads :=
      match counts.threads thread with
      | none => counts.threads
      | some count =>
        if count - 1 = 0 then Function.update counts.threads thread none
        else Function.update counts.threads thread (some (count - 1)) }

/-- The test both waits start with. -/
def activeOn (counts : ActiveInvocationCounts τ) (thread : τ) : Bool :=
  (counts.threads thread).getD 0 != 0

def close (counts : ActiveInvocationCounts τ) : ActiveInvocationCounts τ :=
  { counts with closing := true }

/-- A guard that is dropped leaves no trace. -/
theorem release_enter {counts : ActiveInvocationCounts τ} {thread : τ}
    (h : counts.threads thread ≠ some 0) : (counts.enter thread).release thread = counts := by
  obtain ⟨closing, total, threads⟩ := counts
  simp only [enter, release, Function.update_self, Nat.add_sub_cancel, mk.injEq, true_and]
  cases hthread : threads thread with
  | none =>
    rw [Option.getD_none, if_pos rfl, Function.update_idem, ← hthread, Function.update_eq_self]
  | some count =>
    have hcount : count ≠ 0 := by
      rintro rfl
      exact h hthread
    rw [Option.getD_some, if_neg hcount, Function.update_idem, ← hthread, Function.update_eq_self]

/-! ## What the counters mean -/

variable {thread : κ → τ} {counts : ActiveInvocationCounts τ} {active : Finset κ} {k : κ}

/-- The counters describe the live guards `active`, each taken on the thread `thread` gives. -/
structure Tracks (counts : ActiveInvocationCounts τ) (thread : κ → τ) (active : Finset κ) :
    Prop where
  total : counts.total = active.card
  count : ∀ t, (counts.threads t).getD 0 = (active.filter fun k ↦ thread k = t).card
  nonzero : ∀ t, counts.threads t ≠ some 0

theorem tracks_new (thread : κ → τ) : (new : ActiveInvocationCounts τ).Tracks thread ∅ where
  total := rfl
  count _ := by simp [new]
  nonzero _ := nofun

theorem Tracks.close (h : counts.Tracks thread active) : counts.close.Tracks thread active where
  total := h.total
  count := h.count
  nonzero := h.nonzero

/-- A live guard shows in its thread's count. -/
theorem Tracks.activeOn_iff (h : counts.Tracks thread active) (t : τ) :
    counts.activeOn t = true ↔ ∃ k ∈ active, thread k = t := by
  rw [activeOn, bne_iff_ne, h.count t, Finset.card_ne_zero]
  constructor
  · rintro ⟨k, hk⟩
    exact ⟨k, Finset.mem_filter.mp hk⟩
  · rintro ⟨k, hk⟩
    exact ⟨k, Finset.mem_filter.mpr hk⟩

theorem Tracks.eq_empty (h : counts.Tracks thread active) (h0 : counts.total = 0) : active = ∅ :=
  Finset.card_eq_zero.mp (h.total.symm.trans h0)

variable [DecidableEq κ]

theorem Tracks.enter (h : counts.Tracks thread active) (hk : k ∉ active) :
    (counts.enter (thread k)).Tracks thread (insert k active) where
  total := by
    rw [Finset.card_insert_of_notMem hk, ← h.total]
    rfl
  count t := by
    rw [Finset.filter_insert]
    by_cases ht : thread k = t
    · subst ht
      rw [if_pos rfl, Finset.card_insert_of_notMem (fun hm ↦ hk (Finset.mem_filter.mp hm).1)]
      simp only [ActiveInvocationCounts.enter, Function.update_self, Option.getD_some,
        h.count]
    · rw [if_neg ht]
      simp only [ActiveInvocationCounts.enter, Function.update_of_ne (Ne.symm ht), h.count]
  nonzero t := by
    by_cases ht : t = thread k
    · subst ht
      simp [ActiveInvocationCounts.enter]
    · simp only [ActiveInvocationCounts.enter, Function.update_of_ne ht]
      exact h.nonzero t

/-- The subtractions of a drop never saturate: its guard is still counted. -/
theorem Tracks.release (h : counts.Tracks thread active) (hk : k ∈ active) :
    (counts.release (thread k)).Tracks thread (active.erase k) := by
  have hmem : k ∈ active.filter fun j ↦ thread j = thread k :=
    Finset.mem_filter.mpr ⟨hk, rfl⟩
  have hcount := h.count (thread k)
  have hpos := Finset.card_pos.mpr ⟨k, hmem⟩
  cases hthread : counts.threads (thread k) with
  | none =>
    rw [hthread, Option.getD_none] at hcount
    omega
  | some count =>
    rw [hthread, Option.getD_some] at hcount
    have herase (t : τ) (ht : t ≠ thread k) :
        (active.erase k).filter (fun j ↦ thread j = t) = active.filter fun j ↦ thread j = t := by
      rw [Finset.filter_erase, Finset.erase_eq_of_notMem]
      exact fun hm ↦ ht (Finset.mem_filter.mp hm).2.symm
    have hself : ((active.erase k).filter fun j ↦ thread j = thread k).card = count - 1 := by
      rw [Finset.filter_erase, Finset.card_erase_of_mem hmem, ← hcount]
    refine ⟨?_, fun t ↦ ?_, fun t ↦ ?_⟩
    · rw [Finset.card_erase_of_mem hk, ← h.total]
      rfl
    · by_cases ht : t = thread k
      · subst ht
        rw [hself]
        simp only [ActiveInvocationCounts.release, hthread]
        split
        · rename_i h0
          rw [Function.update_self, h0]
          rfl
        · rw [Function.update_self]
          rfl
      · rw [herase t ht, ← h.count t]
        simp only [ActiveInvocationCounts.release, hthread]
        split <;> rw [Function.update_of_ne ht]
    · simp only [ActiveInvocationCounts.release, hthread]
      split
      · by_cases ht : t = thread k
        · subst ht
          rw [Function.update_self]
          exact nofun
        · rw [Function.update_of_ne ht]
          exact h.nonzero t
      · rename_i h0
        by_cases ht : t = thread k
        · subst ht
          rw [Function.update_self]
          exact fun heq ↦ h0 (Option.some.inj heq)
        · rw [Function.update_of_ne ht]
          exact h.nonzero t

end ActiveInvocationCounts

end JavaBridge.Replacement

import Mathlib.Data.List.Pairwise
import Mathlib.Data.Set.Lattice
import Mathlib.Order.CompletePartialOrder

/-!
# Updates with footprints

An update of a memory `α → β` that says which places it looks at and which it may change. Updates
that do not touch each other's places may be done in any order, and each of them does what it would
have done alone.

Main results:

* `Update.runAll_of_mem`, `Update.runAll_of_not_mem`: what a batch of updates leaves at a place.
* `Update.runAll_perm`: the order of a batch does not matter.
* `Update.runAll_runAll`: a batch of idempotent updates is idempotent.
-/

universe u v

/-- An update that reads from one set of places and writes to another. -/
structure Update (α : Type u) (β : Type v) where
  run : (α → β) → α → β
  reads : Set α
  writes : Set α
  /-- Nothing else is written. -/
  frame : ∀ m, ∀ a ∉ writes, run m a = m a
  /-- What is written only depends on what is read. -/
  congr : ∀ m m', Set.EqOn m m' reads → Set.EqOn (run m) (run m') writes

namespace Update

variable {α : Type u} {β : Type v} {u v : Update α β} {l l' : List (Update α β)} {m : α → β} {a : α}

/-- Neither of two updates writes to places of the other. -/
structure Apart (u v : Update α β) : Prop where
  writes : Disjoint u.writes v.writes
  reads : Disjoint u.writes v.reads
  reads' : Disjoint v.writes u.reads

theorem Apart.symm (h : Apart u v) : Apart v u := ⟨h.writes.symm, h.reads', h.reads⟩

instance symm_apart : Std.Symm (Apart (α := α) (β := β)) := ⟨fun _ _ h ↦ h.symm⟩

/-- The updates of a batch, one after the other. -/
def runAll (l : List (Update α β)) (m : α → β) : α → β := l.foldl (fun m u ↦ u.run m) m

@[simp] theorem runAll_nil : runAll [] m = m := rfl

@[simp] theorem runAll_cons : runAll (u :: l) m = runAll l (u.run m) := rfl

/-- What no update writes stays. -/
theorem runAll_of_not_mem (h : ∀ u ∈ l, a ∉ u.writes) : runAll l m a = m a := by
  induction l generalizing m with
  | nil => rfl
  | cons v l ih =>
    obtain ⟨hv, hl⟩ := List.forall_mem_cons.1 h
    rw [runAll_cons, ih hl, v.frame m a hv]

/-- An update leaves the places that another one reads. -/
theorem Apart.run_eqOn (h : Apart u v) : Set.EqOn (u.run m) m v.reads := by
  intro a ha
  exact u.frame m a (Set.disjoint_right.1 h.reads ha)

/-- What an update of the batch writes is what it writes alone. -/
theorem runAll_of_mem (h : l.Pairwise Apart) (hu : u ∈ l) (ha : a ∈ u.writes) :
    runAll l m a = u.run m a := by
  induction l generalizing m with
  | nil => cases hu
  | cons v l ih =>
    obtain ⟨hv, hl⟩ := List.pairwise_cons.1 h
    rw [runAll_cons]
    rcases List.mem_cons.1 hu with rfl | hu
    · apply runAll_of_not_mem
      intro w hw
      exact Set.disjoint_left.1 (hv w hw).writes ha
    · rw [ih hl hu]
      exact u.congr _ _ (hv u hu).run_eqOn ha

/-- What an update reads, the others leave to it. -/
theorem runAll_eqOn (h : l.Pairwise Apart) (hu : u ∈ l) :
    Set.EqOn (runAll l m) (u.run m) u.reads := by
  intro a ha
  by_cases hwrites : a ∈ u.writes
  · exact runAll_of_mem h hu hwrites
  · rw [u.frame m a hwrites]
    apply runAll_of_not_mem
    intro v hv hmem
    by_cases huv : u = v
    · subst huv
      exact hwrites hmem
    · have hapart := h.forall hu hv huv
      exact Set.disjoint_left.1 hapart.reads' hmem ha

/-- **The order of a batch** of updates that are apart does not matter. -/
theorem runAll_perm (h : l.Pairwise Apart) (hl : l.Perm l') : runAll l m = runAll l' m := by
  have h' : l'.Pairwise Apart := (hl.pairwise_iff Apart.symm).1 h
  funext a
  by_cases ha : ∃ u ∈ l, a ∈ u.writes
  · obtain ⟨u, hu, ha⟩ := ha
    rw [runAll_of_mem h hu ha, runAll_of_mem h' (hl.mem_iff.1 hu) ha]
  · push Not at ha
    rw [runAll_of_not_mem ha, runAll_of_not_mem fun u hu ↦ ha u (hl.mem_iff.2 hu)]

/-- A batch of updates that are apart, done again. -/
theorem runAll_runAll (h : l.Pairwise Apart) (hidem : ∀ u ∈ l, ∀ m, u.run (u.run m) = u.run m) :
    runAll l (runAll l m) = runAll l m := by
  funext a
  by_cases ha : ∃ u ∈ l, a ∈ u.writes
  · obtain ⟨u, hu, ha⟩ := ha
    calc runAll l (runAll l m) a
        = u.run (runAll l m) a := runAll_of_mem h hu ha
      _ = u.run (u.run m) a := u.congr _ _ (runAll_eqOn h hu) ha
      _ = u.run m a := congrFun (hidem u hu m) a
      _ = runAll l m a := (runAll_of_mem h hu ha).symm
  · push Not at ha
    exact runAll_of_not_mem ha

end Update

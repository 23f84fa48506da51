import JavaBridge.Library.Machine
import Mathlib.Data.List.Basic
import Mathlib.Data.List.Nodup

/-!
# The order of service

A system to which things come, each once, which keeps them waiting and serves them one at a time.
It may serve one that is not the first to wait, and so overtakes those that wait before it.

Main results:

* `servedInOrder_of_sublist`: to serve a part of the arrivals as they came is to serve in order.
* `Queue.servedInOrder_iff`: what a run has served was served in the order of arrival exactly when
  nothing that was overtaken in it was served in it.
-/

universe u v w

namespace ServiceOrder

variable {α : Type w} {a b : α} {l : List α}

/-! ## Two members of a list -/

/-- A duplicate-free list has two members in one order only. -/
theorem not_pair_sublist_swap (hl : l.Nodup) (h : [a, b].Sublist l) : ¬[b, a].Sublist l := by
  induction l with
  | nil => cases h
  | cons c l ih =>
    have hc := (List.nodup_cons.1 hl).1
    intro h'
    cases h with
    | cons _ h =>
      cases h' with
      | cons _ h' => exact ih (List.nodup_cons.1 hl).2 h h'
      | cons_cons _ _ => exact hc (h.subset (by simp))
    | cons_cons _ h =>
      cases h' with
      | cons _ h' => exact hc (h'.subset (by simp))
      | cons_cons _ _ => exact hc (h.subset (by simp))

/-- Two different members come in one order or the other. -/
theorem pair_sublist_or_swap (hne : a ≠ b) (ha : a ∈ l) (hb : b ∈ l) :
    [a, b].Sublist l ∨ [b, a].Sublist l := by
  induction l with
  | nil => cases ha
  | cons c l ih =>
    rcases List.mem_cons.1 ha with rfl | hal
    · rcases List.mem_cons.1 hb with rfl | hbl
      · exact absurd rfl hne
      · exact .inl ((List.singleton_sublist.2 hbl).cons_cons a)
    · rcases List.mem_cons.1 hb with rfl | hbl
      · exact .inr ((List.singleton_sublist.2 hal).cons_cons b)
      · exact (ih hal hbl).imp (List.Sublist.cons c) (List.Sublist.cons c)

theorem pair_sublist_append {l' : List α} (ha : a ∈ l) (hb : b ∈ l') :
    [a, b].Sublist (l ++ l') :=
  (List.singleton_sublist.2 ha).append (List.singleton_sublist.2 hb)

/-! ## Order of service -/

/-- Of two that have been served, the one that arrived first was served first. -/
def ServedInOrder (arrived served : List α) : Prop :=
  ∀ a b, [a, b].Sublist arrived → a ∈ served → b ∈ served → [a, b].Sublist served

theorem servedInOrder_of_sublist {arrived served : List α} (harrived : arrived.Nodup)
    (h : served.Sublist arrived) : ServedInOrder arrived served := by
  intro a b hab ha hb
  have hne : a ≠ b := by
    rintro rfl
    simpa using harrived.sublist hab
  rcases pair_sublist_or_swap hne ha hb with h' | h'
  · exact h'
  · exact absurd (h'.trans h) (not_pair_sublist_swap harrived hab)

/-! ## Queues -/

/-- A step of a queue: who arrives and who is overtaken, and who waits and who has been served
before it and after it. -/
inductive Step : (arrives overtakes waiting served waiting' served' : List α) → Prop
  | idle (waiting served) : Step [] [] waiting served waiting served
  | arrive (x waiting served) : Step [x] [] waiting served (waiting ++ [x]) served
  | serve (before x after served) :
    Step [] before (before ++ x :: after) served (before ++ after) (served ++ [x])
  | renege (before x after served) :
    Step [] [] (before ++ x :: after) served (before ++ after) served

namespace Step

variable {arrives overtakes waiting served waiting' served' arrived : List α}

theorem waiting_sublist (h : Step arrives overtakes waiting served waiting' served')
    (hw : waiting.Sublist arrived) : waiting'.Sublist (arrived ++ arrives) := by
  cases h with
  | idle => rwa [List.append_nil]
  | arrive x => exact hw.append (List.Sublist.refl _)
  | serve _ x after =>
    rw [List.append_nil]
    exact ((List.sublist_cons_self x after).append_left overtakes).trans hw
  | renege before x after =>
    rw [List.append_nil]
    exact ((List.sublist_cons_self x after).append_left before).trans hw

theorem served_subset (h : Step arrives overtakes waiting served waiting' served')
    (hw : waiting.Sublist arrived) (hv : served ⊆ arrived) : served' ⊆ arrived ++ arrives := by
  cases h with
  | idle | renege => rwa [List.append_nil]
  | arrive x => exact List.subset_append_of_subset_left _ hv
  | serve _ x after =>
    rw [List.append_nil]
    refine List.append_subset.2 ⟨hv, ?_⟩
    intro y hy
    rw [List.mem_singleton.1 hy]
    exact hw.subset (by simp)

theorem nodup (h : Step arrives overtakes waiting served waiting' served')
    (hw : waiting.Sublist arrived) (hv : served ⊆ arrived) (hfresh : (arrived ++ arrives).Nodup)
    (hnodup : (served ++ waiting).Nodup) : (served' ++ waiting').Nodup := by
  cases h with
  | idle => exact hnodup
  | arrive x =>
    have hx : x ∉ arrived := fun hx ↦ (List.nodup_append.1 hfresh).2.2 x hx x (by simp) rfl
    rw [← List.append_assoc]
    refine hnodup.append (List.nodup_singleton x) ?_
    intro y hy hyx
    rw [List.mem_singleton.1 hyx] at hy
    exact (List.mem_append.1 hy).elim (fun h ↦ hx (hv h)) fun h ↦ hx (hw.subset h)
  | serve _ x after =>
    refine (List.Perm.nodup_iff ?_).1 hnodup
    rw [List.append_assoc]
    exact List.perm_middle.append_left served
  | renege before x after =>
    exact hnodup.sublist (((List.sublist_cons_self x after).append_left before).append_left served)

/-- Where nobody who is overtaken matters, the order in which those who matter have been served and
wait stays that of arrival. -/
theorem spared {later : List α} [DecidableEq α]
    (h : Step arrives overtakes waiting served waiting' served') (hlater : served' ⊆ later)
    (hspared : ∀ x ∈ overtakes, x ∉ later)
    (horder : (served ++ waiting.filter (· ∈ later)).Sublist arrived) :
    (served' ++ waiting'.filter (· ∈ later)).Sublist (arrived ++ arrives) := by
  cases h with
  | idle => rwa [List.append_nil]
  | arrive x =>
    rw [List.filter_append, ← List.append_assoc]
    exact horder.append List.filter_sublist
  | serve _ x after =>
    have hx : x ∈ later := hlater (by simp)
    have hbefore : overtakes.filter (· ∈ later) = [] := by simpa using hspared
    rw [List.filter_append, hbefore, List.filter_cons_of_pos (by simpa using hx)] at horder
    rw [List.filter_append, hbefore, List.append_nil, List.append_assoc]
    exact horder
  | renege before x after =>
    rw [List.append_nil]
    refine List.Sublist.trans ?_ horder
    exact (((List.sublist_cons_self x after).append_left before).filter _).append_left served

theorem served_isPrefix (h : Step arrives overtakes waiting served waiting' served') :
    served <+: served' := by
  cases h with
  | idle | arrive | renege => exact List.prefix_refl _
  | serve => exact List.prefix_append _ _

/-- Whoever is overtaken waits before the one who is served, and goes on to wait. -/
theorem overtaken (h : Step arrives overtakes waiting served waiting' served')
    (ha : a ∈ overtakes) :
    ∃ b, b ∈ served' ∧ [a, b].Sublist waiting ∧ a ∈ waiting' := by
  cases h with
  | idle | arrive | renege => cases ha
  | serve _ b after =>
    exact ⟨b, by simp, pair_sublist_append ha (by simp), List.mem_append_left after ha⟩

end Step

/-- A machine seen as a queue. -/
structure Queue {σ : Type u} {ℓ : Type v} (M : Machine σ ℓ) (α : Type w) where
  waiting : σ → List α
  served : σ → List α
  arrives : σ → ℓ → List α
  overtakes : σ → ℓ → List α
  step : ∀ s l t, M.step s l = some t →
    Step (arrives s l) (overtakes s l) (waiting s) (served s) (waiting t) (served t)

namespace Queue

variable {σ : Type u} {ℓ : Type v} {M : Machine σ ℓ} (V : Queue M α) {s t : σ}
  {ls : List ℓ} {arrived : List α}

/-- Nobody whom the step overtakes is among `later`. -/
def Spares (later : List α) (s : σ) (l : ℓ) : Prop := ∀ x ∈ V.overtakes s l, x ∉ later

/-- Those who wait have come in this order, and nobody is served twice. -/
structure Fair (arrived : List α) (s : σ) : Prop where
  waiting : (V.waiting s).Sublist arrived
  served : V.served s ⊆ arrived
  nodup : (V.served s ++ V.waiting s).Nodup

variable {V}

/-- Provided that who arrives has not been there before. -/
theorem Fair.step (h : V.Fair arrived s) {l : ℓ} (hfresh : (arrived ++ V.arrives s l).Nodup)
    (hstep : M.step s l = some t) : V.Fair (arrived ++ V.arrives s l) t where
  waiting := (V.step s l t hstep).waiting_sublist h.waiting
  served := (V.step s l t hstep).served_subset h.waiting h.served
  nodup := (V.step s l t hstep).nodup h.waiting h.served hfresh h.nodup

theorem Fair.run (h : V.Fair arrived s) (hfresh : (arrived ++ M.observe V.arrives s ls).Nodup)
    (hrun : M.run s ls = some t) : V.Fair (arrived ++ M.observe V.arrives s ls) t := by
  induction ls generalizing arrived s with
  | nil =>
    rw [Machine.run_nil, Option.some.injEq] at hrun
    rwa [Machine.observe, List.append_nil, ← hrun]
  | cons l ls ih =>
    obtain ⟨u, hu, hrun⟩ := M.run_cons_eq_some.1 hrun
    rw [Machine.observe, hu, Option.elim_some, ← List.append_assoc] at hfresh ⊢
    exact ih (h.step (List.nodup_append.1 hfresh).1 hu) hfresh hrun

theorem served_isPrefix (hrun : M.run s ls = some t) : V.served s <+: V.served t := by
  induction ls generalizing s with
  | nil =>
    rw [Machine.run_nil, Option.some.injEq] at hrun
    subst hrun
    exact List.prefix_refl _
  | cons l ls ih =>
    obtain ⟨u, hu, hrun⟩ := M.run_cons_eq_some.1 hrun
    exact (V.step s l u hu).served_isPrefix.trans (ih hrun)

/-- Along a run that spares `later`, where all who are served matter. -/
theorem served_sublist [DecidableEq α] {later : List α}
    (hspares : M.Along (V.Spares later) s ls) (hrun : M.run s ls = some t)
    (hlater : V.served t ⊆ later)
    (horder : (V.served s ++ (V.waiting s).filter (· ∈ later)).Sublist arrived) :
    (V.served t).Sublist (arrived ++ M.observe V.arrives s ls) := by
  induction ls generalizing arrived s with
  | nil =>
    rw [Machine.run_nil, Option.some.injEq] at hrun
    rw [Machine.observe, List.append_nil, ← hrun]
    exact (List.sublist_append_left _ _).trans horder
  | cons l ls ih =>
    obtain ⟨u, hu, hrun⟩ := M.run_cons_eq_some.1 hrun
    have hspares := (M.along_cons hu).1 hspares
    have hulater : V.served u ⊆ later := List.Subset.trans (served_isPrefix hrun).subset hlater
    rw [Machine.observe, hu, Option.elim_some, ← List.append_assoc]
    exact ih hspares.2 hrun ((V.step s l u hu).spared hulater hspares.1 horder)

/-- A step that overtakes somebody who is served later breaks the order. -/
theorem not_servedInOrder {before after : List ℓ} {u v : σ} {l : ℓ} {x : α} (hs : V.Fair [] s)
    (hfresh : (M.observe V.arrives s (before ++ l :: after)).Nodup)
    (hbefore : M.run s before = some u) (hstep : M.step u l = some v)
    (hafter : M.run v after = some t) (hx : x ∈ V.overtakes u l) (hlater : x ∈ V.served t) :
    ¬ServedInOrder (M.observe V.arrives s (before ++ l :: after)) (V.served t) := by
  rw [Machine.observe_append hbefore] at hfresh ⊢
  have hu : V.Fair (M.observe V.arrives s before) u := hs.run (List.nodup_append.1 hfresh).1 hbefore
  rw [Machine.observe, hstep, Option.elim_some] at hfresh ⊢
  rw [← List.append_assoc] at hfresh
  have hv := hu.step (List.nodup_append.1 hfresh).1 hstep
  have ht := hv.run hfresh hafter
  obtain ⟨y, hy, hxy, hwaits⟩ := (V.step u l v hstep).overtaken hx
  obtain ⟨more, hmore⟩ := served_isPrefix hafter
  intro horder
  have hserved : [x, y].Sublist (V.served t) := by
    refine horder x y ((hxy.trans hu.waiting).trans (List.sublist_append_left _ _)) hlater ?_
    rw [← hmore]
    exact List.mem_append_left more hy
  have hxmore : x ∈ more := by
    rw [← hmore] at hlater
    refine (List.mem_append.1 hlater).resolve_left fun hxv ↦ ?_
    exact (List.nodup_append.1 hv.nodup).2.2 x hxv x hwaits rfl
  refine not_pair_sublist_swap (List.nodup_append.1 ht.nodup).1 hserved ?_
  rw [← hmore]
  exact pair_sublist_append hy hxmore

/-- **The order of service, exactly.** From a state where nobody waits and nobody has been served,
where nobody comes twice. -/
theorem servedInOrder_iff [DecidableEq α] (hwaiting : V.waiting s = [])
    (hserved : V.served s = []) (hfresh : (M.observe V.arrives s ls).Nodup)
    (hrun : M.run s ls = some t) :
    ServedInOrder (M.observe V.arrives s ls) (V.served t) ↔
      M.Along (V.Spares (V.served t)) s ls := by
  constructor
  · intro horder
    by_contra hspares
    obtain ⟨before, l, after, u, v, hbefore, hl, hstep, hafter, rfl⟩ :=
      Machine.exists_step_of_not_along hrun hspares
    refine hl fun x hx hlater ↦ not_servedInOrder ?_ hfresh hbefore hstep hafter hx hlater horder
    refine ⟨?_, ?_, ?_⟩
    · rw [hwaiting]
    · rw [hserved]
      exact List.Subset.refl []
    · rw [hwaiting, hserved]
      exact List.nodup_nil
  · intro hspares
    refine servedInOrder_of_sublist hfresh ?_
    have hstart : (V.served s ++ (V.waiting s).filter (· ∈ V.served t)).Sublist [] := by
      rw [hwaiting, hserved]
      exact .slnil
    exact served_sublist hspares hrun (List.Subset.refl _) hstart

end Queue

end ServiceOrder

import Mathlib.Data.List.Basic

/-!
# Searches among candidates

Candidates are probed in order until one is accepted. A rejected candidate leaves a reason, of which
the first is kept, and a probe that fails ends the search.

Main results:

* `Probe.search_eq`: a search ends at the first candidate that is not rejected.
* `Probe.search_eq_accepted_iff`, `Probe.search_eq_failed_iff`: how a search ends.
* `Probe.search_append`: a search among some candidates and then others.
-/

universe u v w x

namespace Probe

/-- What comes of a candidate. -/
inductive Verdict (ε : Type u) (ρ : Type v) (τ : Type w)
  | failed (error : ε)
  | rejected (reason : ρ)
  | accepted (result : τ)

/-- What comes of a search: a result, or the first reason where there was a candidate. -/
inductive Outcome (ρ : Type v) (τ : Type w)
  | accepted (result : τ)
  | exhausted (first : Option ρ)

section

variable {α : Type x} {ε : Type u} {ρ : Type v} {τ : Type w}

/-- How a search ends at a candidate. -/
def Verdict.ends : Verdict ε ρ τ → Option (Except ε (Outcome ρ τ))
  | failed error => some (.error error)
  | rejected _ => none
  | accepted result => some (.ok (.accepted result))

def Verdict.reason? : Verdict ε ρ τ → Option ρ
  | rejected reason => some reason
  | _ => none

variable (probe : α → Verdict ε ρ τ)

/-- The rest of a search, with the first reason so far. -/
def search : Option ρ → List α → Except ε (Outcome ρ τ)
  | first, [] => .ok (.exhausted first)
  | first, candidate :: candidates =>
    match probe candidate with
    | .failed error => .error error
    | .rejected reason => search (first.or (some reason)) candidates
    | .accepted result => .ok (.accepted result)

variable {probe} {first : Option ρ} {candidates : List α} {result : τ} {error : ε}

/-- **A search ends at the first candidate that is not rejected.** -/
theorem search_eq (first : Option ρ) (candidates : List α) :
    search probe first candidates =
      ((candidates.findSome? fun candidate ↦ (probe candidate).ends).getD
        (.ok (.exhausted (first.or
          (candidates.head?.bind fun candidate ↦ (probe candidate).reason?))))) := by
  induction candidates generalizing first with
  | nil =>
    rw [search, List.findSome?_nil, List.head?_nil, Option.bind_none, Option.or_none]
    rfl
  | cons candidate candidates ih =>
    rw [search, List.findSome?_cons, List.head?_cons, Option.bind_some]
    cases probe candidate with
    | failed error => rfl
    | accepted result => rfl
    | rejected reason =>
      dsimp only [Verdict.ends, Verdict.reason?]
      rw [ih]
      congr 3
      cases first with
      | none => rfl
      | some reason' => rfl

/-- The candidates are all rejected. -/
def Rejected (probe : α → Verdict ε ρ τ) (candidates : List α) : Prop :=
  ∀ candidate ∈ candidates, ∃ reason, probe candidate = .rejected reason

theorem rejected_iff :
    Rejected probe candidates ↔ ∀ candidate ∈ candidates, (probe candidate).ends = none := by
  refine forall₂_congr fun candidate _ ↦ ?_
  cases probe candidate with
  | failed error =>
    constructor
    · rintro ⟨reason, h⟩
      cases h
    · intro h
      cases h
  | accepted result =>
    constructor
    · rintro ⟨reason, h⟩
      cases h
    · intro h
      cases h
  | rejected reason => exact iff_of_true ⟨reason, rfl⟩ rfl

theorem search_eq_iff_of_ne {outcome : Except ε (Outcome ρ τ)}
    (hne : ∀ first, outcome ≠ .ok (.exhausted first)) :
    search probe first candidates = outcome ↔
      ∃ before candidate after, candidates = before ++ candidate :: after ∧
        Rejected probe before ∧ (probe candidate).ends = some outcome := by
  rw [search_eq]
  constructor
  · intro h
    cases hfound : candidates.findSome? fun candidate ↦ (probe candidate).ends with
    | none =>
      rw [hfound] at h
      exact absurd h.symm (hne _)
    | some outcome' =>
      rw [hfound] at h
      obtain rfl : outcome' = outcome := h
      obtain ⟨before, candidate, after, hsplit, hends, hbefore⟩ :=
        List.findSome?_eq_some_iff.mp hfound
      exact ⟨before, candidate, after, hsplit, rejected_iff.mpr hbefore, hends⟩
  · rintro ⟨before, candidate, after, hsplit, hbefore, hends⟩
    have hfound := List.findSome?_eq_some_iff.mpr
      ⟨before, candidate, after, hsplit, hends, rejected_iff.mp hbefore⟩
    rw [hfound]
    rfl

theorem search_eq_accepted_iff (first : Option ρ) :
    search probe first candidates = .ok (.accepted result) ↔
    ∃ before candidate after, candidates = before ++ candidate :: after ∧
      Rejected probe before ∧ probe candidate = .accepted result := by
  rw [search_eq_iff_of_ne (by simp)]
  refine exists₃_congr fun before candidate after ↦ and_congr_right' (and_congr_right' ?_)
  cases probe candidate with
  | failed error => simp [Verdict.ends]
  | rejected reason => simp [Verdict.ends]
  | accepted result' => simp [Verdict.ends]

theorem search_eq_failed_iff (first : Option ρ) :
    search probe first candidates = .error error ↔
    ∃ before candidate after, candidates = before ++ candidate :: after ∧
      Rejected probe before ∧ probe candidate = .failed error := by
  rw [search_eq_iff_of_ne (by simp)]
  refine exists₃_congr fun before candidate after ↦ and_congr_right' (and_congr_right' ?_)
  cases probe candidate with
  | failed error' => simp [Verdict.ends]
  | rejected reason => simp [Verdict.ends]
  | accepted result => simp [Verdict.ends]

/-- A search among some candidates and then others. -/
theorem search_append (first : Option ρ) (candidates candidates' : List α) :
    search probe first (candidates ++ candidates') =
      (search probe first candidates).bind fun
        | .accepted result => .ok (.accepted result)
        | .exhausted first => search probe first candidates' := by
  induction candidates generalizing first with
  | nil => rfl
  | cons candidate candidates ih =>
    rw [List.cons_append, search, search]
    cases probe candidate with
    | failed error => rfl
    | accepted result => rfl
    | rejected reason => exact ih _

end

end Probe

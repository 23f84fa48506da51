import JavaBridge.Library.Loop
import Mathlib.Data.List.Forall2

/-!
# Globs

A glob is a list of pieces, each of which takes a part of a text: any one element, any run of
elements, or one element that it names. `Glob.Matches` is the meaning, by a cut of the text into
parts. `Glob.Search` is the greedy search, which keeps one star to go back to.

Main results:

* `Glob.matches_cons_cons`, `Glob.matches_run_cons`: the meaning by the pattern's first piece.
* `Glob.Search.Round.goal_iff`: a round of the search keeps what there is to find.
* `Glob.Search.exists_run`: the search ends, with the meaning as its verdict.
-/

universe u

namespace Glob

variable {α : Type u}

inductive Piece (α : Type u)
  | one
  | run
  | exact (a : α)
  deriving DecidableEq

namespace Piece

/-- The parts of a text that a piece may take. -/
def Takes : Piece α → List α → Prop
  | one, part => part.length = 1
  | run, _ => True
  | exact a, part => part = [a]

/-- The piece takes an element. -/
def Fits : Piece α → α → Prop
  | one, _ => True
  | run, _ => False
  | exact b, a => b = a

instance decidableFits [DecidableEq α] : ∀ (p : Piece α) (a : α), Decidable (p.Fits a)
  | one, _ => inferInstanceAs (Decidable True)
  | run, _ => inferInstanceAs (Decidable False)
  | exact b, a => inferInstanceAs (Decidable (b = a))

theorem takes_iff {p : Piece α} (hp : p ≠ run) {part : List α} :
    p.Takes part ↔ ∃ a, part = [a] ∧ p.Fits a := by
  cases p with
  | one =>
    rw [Takes, List.length_eq_one_iff]
    exact exists_congr fun a ↦ (and_iff_left trivial).symm
  | run => exact absurd rfl hp
  | exact b =>
    constructor
    · intro h
      exact ⟨b, h, rfl⟩
    · rintro ⟨a, h, rfl⟩
      exact h

theorem Fits.ne_run {p : Piece α} {a : α} (h : p.Fits a) : p ≠ run := by
  rintro rfl
  exact h

end Piece

/-! ## Meaning -/

/-- The text can be cut into a part for each piece. -/
def Matches (pattern : List (Piece α)) (text : List α) : Prop :=
  ∃ parts, List.Forall₂ Piece.Takes pattern parts ∧ parts.flatten = text

variable {p : Piece α} {pattern pattern' : List (Piece α)} {text : List α}

@[simp] theorem matches_nil : Matches [] text ↔ text = [] := by
  constructor
  · rintro ⟨parts, hparts, rfl⟩
    rw [List.forall₂_nil_left_iff.1 hparts, List.flatten_nil]
  · rintro rfl
    exact ⟨[], .nil, rfl⟩

theorem matches_cons :
    Matches (p :: pattern) text ↔ ∃ part rest, text = part ++ rest ∧ p.Takes part ∧
      Matches pattern rest := by
  constructor
  · rintro ⟨parts, hparts, rfl⟩
    obtain ⟨part, parts, hpart, hrest, rfl⟩ := List.forall₂_cons_left_iff.1 hparts
    exact ⟨part, parts.flatten, List.flatten_cons, hpart, parts, hrest, rfl⟩
  · rintro ⟨part, rest, rfl, hpart, parts, hparts, rfl⟩
    exact ⟨part :: parts, .cons hpart hparts, List.flatten_cons⟩

theorem matches_append :
    Matches (pattern ++ pattern') text ↔ ∃ before after, text = before ++ after ∧
      Matches pattern before ∧ Matches pattern' after := by
  induction pattern generalizing text with
  | nil => simp
  | cons p pattern ih =>
    rw [List.cons_append, matches_cons]
    constructor
    · rintro ⟨part, rest, rfl, hpart, hrest⟩
      obtain ⟨before, after, rfl, hbefore, hafter⟩ := ih.1 hrest
      exact ⟨part ++ before, after, (List.append_assoc _ _ _).symm,
        matches_cons.2 ⟨part, before, rfl, hpart, hbefore⟩, hafter⟩
    · rintro ⟨whole, after, rfl, hwhole, hafter⟩
      obtain ⟨part, before, rfl, hpart, hbefore⟩ := matches_cons.1 hwhole
      exact ⟨part, before ++ after, List.append_assoc _ _ _, hpart,
        ih.2 ⟨before, after, rfl, hbefore, hafter⟩⟩

theorem matches_run_cons :
    Matches (.run :: pattern) text ↔ ∃ rest, rest <:+ text ∧ Matches pattern rest := by
  rw [matches_cons]
  constructor
  · rintro ⟨part, rest, rfl, -, hrest⟩
    exact ⟨rest, List.suffix_append part rest, hrest⟩
  · rintro ⟨rest, ⟨part, rfl⟩, hrest⟩
    exact ⟨part, rest, rfl, trivial, hrest⟩

theorem not_matches_cons_nil (hp : p ≠ .run) : ¬Matches (p :: pattern) [] := by
  intro h
  obtain ⟨part, rest, hnil, hpart, -⟩ := matches_cons.1 h
  obtain ⟨a, rfl, -⟩ := (Piece.takes_iff hp).1 hpart
  cases hnil

theorem matches_cons_cons (hp : p ≠ .run) {a : α} :
    Matches (p :: pattern) (a :: text) ↔ p.Fits a ∧ Matches pattern text := by
  rw [matches_cons]
  constructor
  · rintro ⟨part, rest, h, hpart, hrest⟩
    obtain ⟨b, rfl, hb⟩ := (Piece.takes_iff hp).1 hpart
    rw [List.singleton_append, List.cons.injEq] at h
    obtain ⟨rfl, rfl⟩ := h
    exact ⟨hb, hrest⟩
  · rintro ⟨ha, hrest⟩
    exact ⟨[a], text, rfl, (Piece.takes_iff hp).2 ⟨a, rfl, ha⟩, hrest⟩

theorem matches_exacts {named : List α} :
    Matches (named.map .exact ++ pattern) text ↔ ∃ rest, text = named ++ rest ∧
      Matches pattern rest := by
  induction named generalizing text with
  | nil => simp
  | cons a named ih =>
    have ha : Piece.exact a ≠ .run := fun h ↦ by cases h
    rw [List.map_cons, List.cons_append]
    cases text with
    | nil =>
      refine iff_of_false (not_matches_cons_nil ha) ?_
      rintro ⟨rest, h, -⟩
      cases h
    | cons b text =>
      rw [matches_cons_cons ha, ih]
      constructor
      · rintro ⟨rfl, rest, rfl, hrest⟩
        exact ⟨rest, rfl, hrest⟩
      · rintro ⟨rest, h, hrest⟩
        rw [List.cons_append, List.cons.injEq] at h
        exact ⟨h.1.symm, rest, h.2, hrest⟩

/-- Only stars take nothing. -/
theorem matches_nil_right [DecidableEq α] :
    Matches pattern [] ↔ pattern.all (· = .run) = true := by
  induction pattern with
  | nil => simp
  | cons p pattern ih =>
    rw [List.all_cons, Bool.and_eq_true, decide_eq_true_eq, ← ih]
    by_cases hp : p = .run
    · subst hp
      rw [matches_run_cons, and_iff_right rfl]
      simp
    · exact iff_of_false (not_matches_cons_nil hp) fun h ↦ hp h.1

/-- Each piece but a star takes an element. -/
theorem length_eq_of_matches (hrun : .run ∉ pattern) (h : Matches pattern text) :
    text.length = pattern.length := by
  induction pattern generalizing text with
  | nil => rw [matches_nil.1 h]; rfl
  | cons p pattern ih =>
    rw [List.mem_cons, not_or] at hrun
    obtain ⟨part, rest, rfl, hpart, hrest⟩ := matches_cons.1 h
    obtain ⟨a, rfl, -⟩ := (Piece.takes_iff (Ne.symm hrun.1)).1 hpart
    rw [List.singleton_append, List.length_cons, List.length_cons, ih hrun.2 hrest]

/-! ## Writing -/

/-- The piece that an element writes, with one element for any element and one for any run. -/
def piece [DecidableEq α] (one run a : α) : Piece α :=
  if a = one then .one else if a = run then .run else .exact a

def pieces [DecidableEq α] (one run : α) (pattern : List α) : List (Piece α) :=
  pattern.map (piece one run)

theorem piece_eq_run_iff [DecidableEq α] {one run a : α} (h : one ≠ run) :
    piece one run a = .run ↔ a = run := by
  rw [piece]
  split
  · next ha => exact iff_of_false (fun h ↦ by cases h) (ha ▸ h)
  · split
    · next ha => exact iff_of_true rfl ha
    · next ha => exact iff_of_false (fun h ↦ by cases h) ha

theorem fits_piece_iff [DecidableEq α] {one run a b : α} (hb : b ≠ run) :
    (piece one run a).Fits b ↔ a = one ∨ a = b := by
  rw [piece]
  split
  · next ha => exact iff_of_true trivial (.inl ha)
  · next hone =>
    rw [or_iff_right hone]
    split
    · next ha => exact iff_of_false id (ha ▸ hb.symm)
    · rfl

/-! ## Search -/

/-- What is left to match, and where to go back to: the pattern after the last star, and the text
where its run ends so far. -/
structure Search (α : Type u) where
  pattern : List (Piece α)
  text : List α
  star : Option (List (Piece α) × List α)

namespace Search

/-- Gives one more element to the last star. -/
def back (s : Search α) : Search α ⊕ Bool :=
  match s.star with
  | some (pattern, _ :: text) => .inl ⟨pattern, text, some (pattern, text)⟩
  | _ => .inr false

def step [DecidableEq α] (s : Search α) : Search α ⊕ Bool :=
  match s.text, s.pattern with
  | [], pattern => .inr (pattern.all (· = .run))
  | _ :: _, [] => s.back
  | a :: text, p :: pattern =>
    if p.Fits a then .inl ⟨pattern, text, s.star⟩
    else if p = .run then .inl ⟨pattern, a :: text, some (pattern, a :: text)⟩
    else s.back

/-- There is text left, and the pattern's first piece takes none of it. -/
def Stuck (s : Search α) : Prop :=
  s.text ≠ [] ∧ ∀ p ∈ s.pattern.head?, p ≠ .run ∧ ∀ a ∈ s.text.head?, ¬p.Fits a

theorem not_matches_of_stuck {s : Search α} (h : s.Stuck) : ¬Matches s.pattern s.text := by
  obtain ⟨pattern, text, star⟩ := s
  obtain ⟨htext, hhead⟩ := h
  obtain ⟨a, text, rfl⟩ := List.exists_cons_of_ne_nil htext
  cases pattern with
  | nil => exact fun h ↦ htext (matches_nil.1 h)
  | cons p pattern =>
    obtain ⟨hp, hfits⟩ := hhead p rfl
    rw [matches_cons_cons hp]
    exact fun h ↦ hfits a rfl h.1

variable {s t : Search α}

/-- The rounds of the search. -/
inductive Round : Search α → Search α → Prop
  | fits {p : Piece α} {pattern : List (Piece α)} {a : α} {text : List α}
      {star : Option (List (Piece α) × List α)} (h : p.Fits a) :
      Round ⟨p :: pattern, a :: text, star⟩ ⟨pattern, text, star⟩
  | star {pattern : List (Piece α)} {text : List α} {star : Option (List (Piece α) × List α)}
      (h : text ≠ []) : Round ⟨.run :: pattern, text, star⟩ ⟨pattern, text, some (pattern, text)⟩
  | back {pattern pattern' : List (Piece α)} {a : α} {text text' : List α}
      (h : Stuck ⟨pattern', text', some (pattern, a :: text)⟩) :
      Round ⟨pattern', text', some (pattern, a :: text)⟩ ⟨pattern, text, some (pattern, text)⟩

theorem round_of_back (hstuck : s.Stuck) (h : s.back = .inl t) : Round s t := by
  obtain ⟨pattern, text, _ | ⟨pattern', _ | ⟨a, text'⟩⟩⟩ := s
  · cases h
  · cases h
  · cases h
    exact .back hstuck

theorem verdict_of_back {b : Bool} (h : s.back = .inr b) :
    b = false ∧ ∀ pattern text, s.star = some (pattern, text) → text = [] := by
  obtain ⟨pattern, text, _ | ⟨pattern', _ | ⟨a, text'⟩⟩⟩ := s
  · cases h
    exact ⟨rfl, fun _ _ hstar ↦ by cases hstar⟩
  · cases h
    exact ⟨rfl, fun _ _ hstar ↦ by cases hstar; rfl⟩
  · cases h

theorem round_of_step [DecidableEq α] (h : s.step = .inl t) : Round s t := by
  obtain ⟨pattern, text, star⟩ := s
  cases text with
  | nil => cases h
  | cons a text =>
    cases pattern with
    | nil => exact round_of_back ⟨List.cons_ne_nil a text, by simp⟩ h
    | cons p pattern =>
      rw [step] at h
      dsimp only at h
      split at h
      · next hfits =>
        cases h
        exact .fits hfits
      · next hfits =>
        split at h
        · next hrun =>
          cases h
          subst hrun
          exact .star (List.cons_ne_nil a text)
        · next hrun =>
          refine round_of_back ⟨List.cons_ne_nil a text, ?_⟩ h
          rintro _ ⟨⟩
          exact ⟨hrun, by rintro _ ⟨⟩; exact hfits⟩

theorem verdict_of_step [DecidableEq α] {b : Bool} (h : s.step = .inr b) :
    s.text = [] ∧ b = s.pattern.all (· = .run) ∨
      s.Stuck ∧ b = false ∧ ∀ pattern text, s.star = some (pattern, text) → text = [] := by
  obtain ⟨pattern, text, star⟩ := s
  cases text with
  | nil => exact .inl ⟨rfl, (Sum.inr.inj h).symm⟩
  | cons a text =>
    cases pattern with
    | nil => exact .inr ⟨⟨List.cons_ne_nil a text, by simp⟩, verdict_of_back h⟩
    | cons p pattern =>
      rw [step] at h
      dsimp only at h
      split at h
      · cases h
      · next hfits =>
        split at h
        · cases h
        · next hrun =>
          refine .inr ⟨⟨List.cons_ne_nil a text, ?_⟩, verdict_of_back h⟩
          rintro _ ⟨⟩
          exact ⟨hrun, by rintro _ ⟨⟩; exact hfits⟩

/-! ## The invariant -/

/-- What there is to find. -/
def Goal (s : Search α) : Prop :=
  match s.star with
  | none => Matches s.pattern s.text
  | some (pattern, text) => ∃ rest, rest <:+ text ∧ Matches pattern rest

/-- Since the last star, each piece has taken an element. -/
def Aligned (s : Search α) : Prop :=
  ∀ pattern text, s.star = some (pattern, text) → ∃ taken part, pattern = taken ++ s.pattern ∧
    text = part ++ s.text ∧ .run ∉ taken ∧ Matches taken part

theorem Aligned.split {pattern last : List (Piece α)} {text whole : List α}
    (h : Aligned ⟨pattern, text, some (last, whole)⟩) : ∃ taken part, last = taken ++ pattern ∧
      whole = part ++ text ∧ .run ∉ taken ∧ Matches taken part :=
  h last whole rfl

/-- Pieces without a star take the same from every end of a text. -/
theorem exists_suffix_of_matches {taken pattern : List (Piece α)} {part text rest : List α}
    (hrun : .run ∉ taken) (hpart : Matches taken part) (hrest : rest <:+ part ++ text)
    (h : Matches (taken ++ pattern) rest) :
    ∃ after, after <:+ text ∧ Matches pattern after ∧
      rest.length = part.length + after.length := by
  obtain ⟨before, after, rfl, hbefore, hafter⟩ := matches_append.1 h
  have hlength : before.length = part.length := by
    rw [length_eq_of_matches hrun hbefore, length_eq_of_matches hrun hpart]
  refine ⟨after, ?_, hafter, by rw [List.length_append, hlength]⟩
  have hle := hrest.length_le
  rw [List.length_append, List.length_append, hlength] at hle
  exact List.suffix_of_suffix_length_le ((List.suffix_append before after).trans hrest)
    (List.suffix_append part text) (Nat.le_of_add_le_add_left hle)

theorem Round.aligned (h : Round s t) (hs : s.Aligned) : t.Aligned := by
  intro pattern text hstar
  cases h with
  | @fits p pattern' a text' star hfits =>
    obtain ⟨taken, part, rfl, rfl, hrun, hpart⟩ := hs pattern text hstar
    refine ⟨taken ++ [p], part ++ [a], ?_, ?_, ?_, matches_append.2 ⟨part, [a], rfl, hpart, ?_⟩⟩
    · rw [List.append_assoc, List.singleton_append]
    · rw [List.append_assoc, List.singleton_append]
    · rw [List.mem_append, List.mem_singleton]
      rintro (hmem | rfl)
      · exact hrun hmem
      · exact hfits
    · exact (matches_cons_cons hfits.ne_run).2 ⟨hfits, matches_nil.2 rfl⟩
  | star htext =>
    cases hstar
    exact ⟨[], [], rfl, rfl, List.not_mem_nil, matches_nil.2 rfl⟩
  | back hstuck =>
    cases hstar
    exact ⟨[], [], rfl, rfl, List.not_mem_nil, matches_nil.2 rfl⟩

/-- A round keeps what there is to find. -/
theorem Round.goal_iff (h : Round s t) (hs : s.Aligned) : t.Goal ↔ s.Goal := by
  cases h with
  | @fits p pattern a text star hfits =>
    cases star with
    | none => exact ((matches_cons_cons hfits.ne_run).trans (and_iff_right hfits)).symm
    | some star => rfl
  | @star pattern text star htext =>
    obtain _ | ⟨last, whole⟩ := star
    · exact matches_run_cons.symm
    · obtain ⟨taken, part, rfl, rfl, hrun, hpart⟩ := hs.split
      constructor
      · rintro ⟨rest, hrest, hmatches⟩
        exact ⟨part ++ text, List.suffix_refl _, matches_append.2 ⟨part, text, rfl, hpart,
          matches_run_cons.2 ⟨rest, hrest, hmatches⟩⟩⟩
      · rintro ⟨rest, hrest, hmatches⟩
        obtain ⟨after, hafter, hmatches, -⟩ := exists_suffix_of_matches hrun hpart hrest hmatches
        obtain ⟨rest', hrest', hmatches⟩ := matches_run_cons.1 hmatches
        exact ⟨rest', hrest'.trans hafter, hmatches⟩
  | @back pattern pattern' a text text' hstuck =>
    constructor
    · rintro ⟨rest, hrest, hmatches⟩
      exact ⟨rest, hrest.trans (List.suffix_cons a text), hmatches⟩
    · rintro ⟨rest, hrest, hmatches⟩
      rcases List.suffix_cons_iff.1 hrest with rfl | hrest
      · obtain ⟨taken, part, rfl, hwhole, hrun, hpart⟩ := hs.split
        rw [hwhole] at hmatches hrest
        obtain ⟨after, hafter, hmatches, hlength⟩ :=
          exists_suffix_of_matches hrun hpart hrest hmatches
        rw [List.length_append] at hlength
        rw [hafter.eq_of_length (Nat.add_left_cancel hlength).symm] at hmatches
        exact absurd hmatches (not_matches_of_stuck hstuck)
      · exact ⟨rest, hrest, hmatches⟩

theorem verdict_iff_goal [DecidableEq α] {b : Bool} (h : s.step = .inr b) (hs : s.Aligned) :
    b = true ↔ s.Goal := by
  obtain ⟨pattern, text, star⟩ := s
  rcases verdict_of_step h with ⟨rfl, rfl⟩ | ⟨hstuck, rfl, hstar⟩
  · rw [← matches_nil_right]
    obtain _ | ⟨last, whole⟩ := star
    · rfl
    · obtain ⟨taken, part, rfl, rfl, hrun, hpart⟩ := hs.split
      constructor
      · intro hmatches
        exact ⟨part ++ [], List.suffix_refl _, matches_append.2 ⟨part, [], rfl, hpart, hmatches⟩⟩
      · rintro ⟨rest, hrest, hmatches⟩
        obtain ⟨after, hafter, hmatches, -⟩ := exists_suffix_of_matches hrun hpart hrest hmatches
        obtain rfl := List.suffix_nil.1 hafter
        exact hmatches
  · refine iff_of_false Bool.false_ne_true ?_
    obtain _ | ⟨last, whole⟩ := star
    · exact not_matches_of_stuck hstuck
    · obtain rfl := hstar last whole rfl
      obtain ⟨taken, part, -, hnil, -⟩ := hs.split
      exact absurd (List.append_eq_nil_iff.1 hnil.symm).2 hstuck.1

/-! ## The end of the search -/

/-- What is left is no more than there was, and a return to the star leaves less text. -/
structure Within (pieces size : Nat) (s : Search α) : Prop where
  pattern : s.pattern.length ≤ pieces
  text : s.text.length ≤ size
  star : ∀ pattern text, s.star = some (pattern, text) → pattern.length ≤ pieces ∧
    text.length ≤ size

def measure (pieces size : Nat) (s : Search α) : Nat :=
  (s.star.elim size fun star ↦ star.2.length) * (pieces + 1) + s.pattern.length

theorem Round.within {pieces size : Nat} (h : Round s t) (hs : s.Within pieces size) :
    t.Within pieces size := by
  obtain ⟨hpattern, htext, hstar⟩ := hs
  cases h with
  | fits hfits => exact ⟨Nat.le_of_succ_le hpattern, Nat.le_of_succ_le htext, hstar⟩
  | star hne =>
    refine ⟨Nat.le_of_succ_le hpattern, htext, fun pattern text hnew ↦ ?_⟩
    cases hnew
    exact ⟨Nat.le_of_succ_le hpattern, htext⟩
  | back hstuck =>
    obtain ⟨hold, hwhole⟩ := hstar _ _ rfl
    refine ⟨hold, Nat.le_of_succ_le hwhole, fun pattern text hnew ↦ ?_⟩
    cases hnew
    exact ⟨hold, Nat.le_of_succ_le hwhole⟩

theorem Round.measure_lt {pieces size : Nat} (h : Round s t) (hs : s.Within pieces size)
    (haligned : s.Aligned) : t.measure pieces size < s.measure pieces size := by
  cases h with
  | fits hfits => exact Nat.add_lt_add_left (Nat.lt_succ_self _) _
  | @star pattern text star hne =>
    refine Nat.add_lt_add_of_le_of_lt (Nat.mul_le_mul_right _ ?_) (Nat.lt_succ_self _)
    obtain _ | ⟨last, whole⟩ := star
    · exact hs.text
    · obtain ⟨taken, part, -, rfl, -⟩ := haligned.split
      exact (List.suffix_append part text).length_le
  | @back pattern pattern' a text text' hstuck =>
    have hle := (hs.star _ _ rfl).1
    show text.length * (pieces + 1) + pattern.length <
      (text.length + 1) * (pieces + 1) + pattern'.length
    rw [Nat.succ_mul]
    omega

/-- The search from the beginning of a pattern and a text. -/
def start (pattern : List (Piece α)) (text : List α) : Search α := ⟨pattern, text, none⟩

/-- **The search ends, and its verdict is the meaning.** -/
theorem exists_run [DecidableEq α] (pattern : List (Piece α)) (text : List α) {fuel : Nat}
    (hfuel : text.length * (pattern.length + 1) + pattern.length < fuel) :
    ∃ b, Loop.run step fuel (start pattern text) = some b ∧ (b = true ↔ Matches pattern text) := by
  have hstart : (start pattern text).Aligned := by
    rintro _ _ ⟨⟩
  have hwithin : (start pattern text).Within pattern.length text.length := by
    refine ⟨Nat.le_refl _, Nat.le_refl _, ?_⟩
    rintro _ _ ⟨⟩
  obtain ⟨b, hb⟩ := Loop.exists_run
    (I := fun s : Search α ↦ s.Aligned ∧ s.Within pattern.length text.length)
    (m := measure pattern.length text.length)
    (fun s t hs hstep ↦ ⟨⟨(round_of_step hstep).aligned hs.1, (round_of_step hstep).within hs.2⟩,
      (round_of_step hstep).measure_lt hs.2 hs.1⟩)
    (s := start pattern text) ⟨hstart, hwithin⟩ hfuel
  refine ⟨b, hb, ?_⟩
  have hgoal := (Loop.ends_of_run hb).post
    (I := fun s : Search α ↦ s.Aligned ∧ (s.Goal ↔ Matches pattern text))
    (Q := fun b ↦ b = true ↔ Matches pattern text)
    (fun s t hs hstep ↦ ⟨(round_of_step hstep).aligned hs.1,
      ((round_of_step hstep).goal_iff hs.1).trans hs.2⟩)
    (fun s b hs hstep ↦ (verdict_iff_goal hstep hs.1).trans hs.2)
  exact hgoal ⟨hstart, Iff.rfl⟩

end Search

end Glob

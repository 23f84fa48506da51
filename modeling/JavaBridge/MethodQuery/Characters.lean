import JavaBridge.MethodQuery.Glob

/-!
# Characters and bytes of a pattern

`glob_matches` compares bytes. What a pattern means by its characters, and where the two agree.

Main results:

* `MethodQuery.byteMatches_literal`: on bytes, each character that a pattern names is met at a
  character of the name.
* `MethodQuery.globMatches_eq_charMatches_iff`: the patterns, and the names, on which bytes and
  characters agree.
-/

namespace JavaBridge.MethodQuery

open Glob (Matches Piece)

/-- The meaning of a pattern by characters. -/
def CharMatches (pattern name : String) : Prop :=
  Matches (Glob.pieces '?' '*' pattern.toList) name.toList

/-! ## Gaps -/

def IsWildcard (c : Char) : Prop := c = '?' ∨ c = '*'

instance (c : Char) : Decidable (IsWildcard c) := inferInstanceAs (Decidable (c = '?' ∨ c = '*'))

/-- The wildcards between one character that a pattern names and the next. -/
def gaps (pattern : List Char) : List (List Char) := pattern.splitOnP fun c ↦ ¬IsWildcard c

/-- The sizes that wildcards take together. -/
def Admits (gap : List Char) (n : Nat) : Prop :=
  gap.count '?' ≤ n ∧ ('*' ∈ gap ∨ gap.count '?' = n)

theorem gaps_of_wildcards {gap : List Char} (h : ∀ c ∈ gap, IsWildcard c) : gaps gap = [gap] :=
  List.splitOnP_eq_singleton fun c hc ↦ decide_eq_false (not_not.2 (h c hc))

theorem gaps_append_cons {gap : List Char} (h : ∀ c ∈ gap, IsWildcard c) {c : Char}
    (hc : ¬IsWildcard c) (rest : List Char) : gaps (gap ++ c :: rest) = gap :: gaps rest :=
  List.splitOnP_append_cons_of_forall_mem (fun c hc ↦ decide_eq_false (not_not.2 (h c hc))) c
    (decide_eq_true hc) rest

theorem exists_gap (pattern : List Char) : (∀ c ∈ pattern, IsWildcard c) ∨
    ∃ gap c rest, pattern = gap ++ c :: rest ∧ (∀ c ∈ gap, IsWildcard c) ∧ ¬IsWildcard c := by
  induction pattern with
  | nil => exact .inl (List.forall_mem_nil _)
  | cons d pattern ih =>
    by_cases hd : IsWildcard d
    · rcases ih with hall | ⟨gap, c, rest, rfl, hgap, hc⟩
      · exact .inl (List.forall_mem_cons.2 ⟨hd, hall⟩)
      · exact .inr ⟨d :: gap, c, rest, rfl, List.forall_mem_cons.2 ⟨hd, hgap⟩, hc⟩
    · exact .inr ⟨[], d, pattern, rfl, List.forall_mem_nil _, hd⟩

/-- A pattern is a gap, or a gap before a named character and a pattern. -/
theorem gap_induction {motive : List Char → Prop}
    (gap : ∀ gap, (∀ c ∈ gap, IsWildcard c) → motive gap)
    (literal : ∀ gap c rest, (∀ c ∈ gap, IsWildcard c) → ¬IsWildcard c → motive rest →
      motive (gap ++ c :: rest)) (pattern : List Char) : motive pattern := by
  induction hn : pattern.length using Nat.strong_induction_on generalizing pattern with
  | h n ih =>
    rcases exists_gap pattern with hall | ⟨before, c, rest, rfl, hbefore, hc⟩
    · exact gap pattern hall
    · refine literal before c rest hbefore hc (ih rest.length ?_ rest rfl)
      rw [← hn, List.length_append, List.length_cons]
      omega

/-! ## Wildcards -/

/-- The pieces of a gap. -/
def wildPieces {α : Type} (gap : List Char) : List (Piece α) :=
  gap.map fun c ↦ if c = '?' then .one else .run

theorem matches_wildPieces {α : Type} {gap : List Char} (h : ∀ c ∈ gap, IsWildcard c)
    {text : List α} : Matches (wildPieces gap) text ↔ Admits gap text.length := by
  induction gap generalizing text with
  | nil =>
    rw [wildPieces, List.map_nil, Glob.matches_nil, ← List.length_eq_zero_iff]
    simp [Admits, eq_comm]
  | cons c gap ih =>
    obtain ⟨hc, h⟩ := List.forall_mem_cons.1 h
    have ih := @ih h
    rw [wildPieces, List.map_cons, ← wildPieces]
    rcases hc with rfl | rfl
    · rw [if_pos rfl, Admits, List.count_cons_self]
      have hone : (Piece.one : Piece α) ≠ .run := fun h ↦ by cases h
      have hmem : '*' ∈ '?' :: gap ↔ '*' ∈ gap := by simp
      cases text with
      | nil => exact iff_of_false (Glob.not_matches_cons_nil hone) (by simp)
      | cons a text =>
        rw [Glob.matches_cons_cons hone, ih, Admits, hmem, List.length_cons]
        simp [Piece.Fits]
    · have hcount : ('*' :: gap).count '?' = gap.count '?' :=
        List.count_cons_of_ne (by decide)
      rw [if_neg (by decide), Glob.matches_run_cons, Admits, hcount]
      simp only [ih, Admits, List.mem_cons_self, true_or, and_true]
      constructor
      · rintro ⟨rest, hrest, hle, -⟩
        exact Nat.le_trans hle hrest.length_le
      · intro hle
        refine ⟨text.drop (text.length - gap.count '?'), List.drop_suffix _ _, ?_⟩
        rw [List.length_drop, Nat.sub_sub_self hle]
        exact ⟨Nat.le_refl _, .inr rfl⟩

/-! ## Characters and bytes -/

def charPieces (pattern : List Char) : List (Piece Char) := Glob.pieces '?' '*' pattern

theorem charPieces_append (pattern pattern' : List Char) :
    charPieces (pattern ++ pattern') = charPieces pattern ++ charPieces pattern' :=
  List.map_append

theorem bytePieces_append (pattern pattern' : List UInt8) :
    bytePieces (pattern ++ pattern') = bytePieces pattern ++ bytePieces pattern' :=
  List.map_append

theorem charPieces_gap {gap : List Char} (h : ∀ c ∈ gap, IsWildcard c) :
    charPieces gap = wildPieces gap := by
  refine List.map_congr_left fun c hc ↦ ?_
  rcases h c hc with rfl | rfl
  · rfl
  · rfl

theorem bytePieces_gap {gap : List Char} (h : ∀ c ∈ gap, IsWildcard c) :
    bytePieces (Utf8.encode gap) = wildPieces gap := by
  induction gap with
  | nil => rfl
  | cons c gap ih =>
    obtain ⟨hc, hgap⟩ := List.forall_mem_cons.1 h
    rcases hc with rfl | rfl
    · rw [Utf8.encode_cons_of_ascii (by decide)]
      exact congrArg _ (ih hgap)
    · rw [Utf8.encode_cons_of_ascii (by decide)]
      exact congrArg _ (ih hgap)

theorem charPieces_literal {c : Char} (hc : ¬IsWildcard c) : charPieces [c] = [c].map .exact := by
  rw [IsWildcard, not_or] at hc
  simp [charPieces, Glob.pieces, Glob.piece, hc.1, hc.2]

theorem bytePieces_literal {c : Char} (hc : ¬IsWildcard c) :
    bytePieces (String.utf8EncodeChar c) = (String.utf8EncodeChar c).map .exact := by
  refine List.map_congr_left fun b hb ↦ ?_
  have hne (w : Char) (hascii : Utf8.IsAscii w) (hw : IsWildcard w) : b ≠ w.val.toUInt8 := by
    rintro rfl
    have heq := Utf8.ofUInt8_eq_of_mem hb (by rwa [Utf8.ofUInt8_of_ascii hascii])
    rw [Utf8.ofUInt8_of_ascii hascii] at heq
    exact hc (heq ▸ hw)
  rw [Glob.piece, if_neg (hne '?' (by decide) (.inl rfl)), if_neg (hne '*' (by decide) (.inr rfl))]

/-! ## Meaning by gaps -/

variable {gap rest name : List Char} {c : Char}

/-- The pattern matches by characters. -/
abbrev ByChars (pattern name : List Char) : Prop := Matches (charPieces pattern) name

/-- The pattern matches by bytes. -/
abbrev ByBytes (pattern name : List Char) : Prop :=
  Matches (bytePieces (Utf8.encode pattern)) (Utf8.encode name)

theorem charMatches_gap (h : ∀ c ∈ gap, IsWildcard c) :
    ByChars gap name ↔ Admits gap name.length := by
  rw [ByChars, charPieces_gap h, matches_wildPieces h]

theorem byteMatches_gap (h : ∀ c ∈ gap, IsWildcard c) :
    ByBytes gap name ↔ Admits gap (Utf8.size name) := by
  rw [ByBytes, bytePieces_gap h, matches_wildPieces h, Utf8.size]

theorem charMatches_literal (h : ∀ c ∈ gap, IsWildcard c) (hc : ¬IsWildcard c) :
    ByChars (gap ++ c :: rest) name ↔ ∃ before after, name = before ++ c :: after ∧
      Admits gap before.length ∧ ByChars rest after := by
  rw [ByChars, charPieces_append, Glob.matches_append]
  constructor
  · rintro ⟨before, after, rfl, hbefore, hafter⟩
    rw [← List.singleton_append, charPieces_append, charPieces_literal hc,
      Glob.matches_exacts] at hafter
    obtain ⟨after, rfl, hafter⟩ := hafter
    exact ⟨before, after, rfl, (charMatches_gap h).1 hbefore, hafter⟩
  · rintro ⟨before, after, rfl, hbefore, hafter⟩
    refine ⟨before, c :: after, rfl, (charMatches_gap h).2 hbefore, ?_⟩
    rw [← List.singleton_append, charPieces_append, charPieces_literal hc, Glob.matches_exacts]
    exact ⟨after, rfl, hafter⟩

/-- Each character that the pattern names is met at a character of the name. -/
theorem byteMatches_literal (h : ∀ c ∈ gap, IsWildcard c) (hc : ¬IsWildcard c) :
    ByBytes (gap ++ c :: rest) name ↔ ∃ before after, name = before ++ c :: after ∧
      Admits gap (Utf8.size before) ∧ ByBytes rest after := by
  have hpieces : bytePieces (Utf8.encode (gap ++ c :: rest)) = wildPieces gap ++
      ((String.utf8EncodeChar c).map .exact ++ bytePieces (Utf8.encode rest)) := by
    rw [Utf8.encode_append, bytePieces_append, bytePieces_gap h, Utf8.encode_cons,
      bytePieces_append, bytePieces_literal hc]
  rw [ByBytes, hpieces, Glob.matches_append]
  constructor
  · rintro ⟨before, tail, hname, hbefore, htail⟩
    obtain ⟨after, rfl, hafter⟩ := Glob.matches_exacts.1 htail
    obtain ⟨before, after, rfl, rfl, rfl⟩ := Utf8.encode_eq_append hname
    exact ⟨before, after, rfl, (matches_wildPieces h).1 hbefore, hafter⟩
  · rintro ⟨before, after, rfl, hbefore, hafter⟩
    refine ⟨Utf8.encode before, Utf8.encode (c :: after), Utf8.encode_append _ _,
      (matches_wildPieces h).2 hbefore, Glob.matches_exacts.2 ⟨_, Utf8.encode_cons c after, hafter⟩⟩

/-- Where the gaps cannot tell sizes in bytes from sizes in characters, no more can the pattern. -/
theorem byBytes_iff_byChars {pattern : List Char}
    (h : ∀ gap ∈ gaps pattern, ∀ part, part <:+: name →
      (Admits gap (Utf8.size part) ↔ Admits gap part.length)) :
    ByBytes pattern name ↔ ByChars pattern name := by
  induction pattern using gap_induction generalizing name with
  | gap gap hgap =>
    rw [byteMatches_gap hgap, charMatches_gap hgap]
    exact h gap (by rw [gaps_of_wildcards hgap]; exact List.mem_singleton_self _) name
      (List.infix_refl name)
  | literal gap c rest hgap hc ih =>
    rw [gaps_append_cons hgap hc, List.forall_mem_cons] at h
    rw [byteMatches_literal hgap hc, charMatches_literal hgap hc]
    refine exists_congr fun before ↦ exists_congr fun after ↦ and_congr_right ?_
    rintro rfl
    refine and_congr (h.1 before ⟨[], c :: after, rfl⟩) (ih fun gap hmem part hpart ↦ ?_)
    exact h.2 gap hmem part (hpart.trans ⟨before ++ [c], [], by simp⟩)

/-! ## Where bytes and characters agree -/

/-- A gap that takes whole characters, whichever it takes: a `?` only beside a star, and alone. -/
def Covered (gap : List Char) : Prop := '?' ∈ gap → gap.count '?' = 1 ∧ '*' ∈ gap

instance (gap : List Char) : Decidable (Covered gap) :=
  inferInstanceAs (Decidable ('?' ∈ gap → gap.count '?' = 1 ∧ '*' ∈ gap))

theorem admits_size_iff (h : Covered gap) (part : List Char) :
    Admits gap (Utf8.size part) ↔ Admits gap part.length := by
  have hle := Utf8.length_le_size part
  have hzero := @Utf8.size_eq_zero_iff part
  rw [← List.length_eq_zero_iff] at hzero
  by_cases hmem : '?' ∈ gap
  · obtain ⟨hcount, hstar⟩ := h hmem
    simp only [Admits, hcount, hstar, true_or, and_true]
    omega
  · simp only [Admits, List.count_eq_zero_of_not_mem hmem, Nat.zero_le, true_and]
    refine or_congr Iff.rfl ?_
    omega

/-- The characters that a pattern needs at least. -/
def solid (pattern : List Char) : Nat := pattern.countP (· ≠ '*')

theorem solid_gap (h : ∀ c ∈ gap, IsWildcard c) : solid gap = gap.count '?' := by
  refine List.countP_congr fun c hc ↦ ?_
  rcases h c hc with rfl | rfl
  · exact iff_of_true (by decide) (by decide)
  · exact iff_of_false (by decide) (by decide)

theorem solid_append_cons (gap rest : List Char) (hc : ¬IsWildcard c) :
    solid (gap ++ c :: rest) = solid gap + (solid rest + 1) := by
  rw [IsWildcard, not_or] at hc
  have hpos : decide (c ≠ '*') = true := decide_eq_true hc.2
  rw [solid, List.countP_append, List.countP_cons, if_pos hpos]
  rfl

theorem solid_le_length {pattern : List Char} (h : ByChars pattern name) :
    solid pattern ≤ name.length := by
  induction pattern using gap_induction generalizing name with
  | gap gap hgap =>
    rw [solid_gap hgap]
    exact ((charMatches_gap hgap).1 h).1
  | literal gap c rest hgap hc ih =>
    obtain ⟨before, after, rfl, hbefore, hafter⟩ := (charMatches_literal hgap hc).1 h
    rw [solid_append_cons gap rest hc, solid_gap hgap, List.length_append, List.length_cons]
    exact Nat.add_le_add hbefore.1 (Nat.succ_le_succ (ih hafter))

/-- A text for wildcards that has as many bytes as they need, in few characters. -/
def shortFill (gap : List Char) : List Char :=
  if 2 ≤ gap.count '?' then 'é' :: List.replicate (gap.count '?' - 2) 'a'
  else List.replicate (gap.count '?') 'a'

theorem shortFill_spec (gap : List Char) : (∀ c ∈ shortFill gap, ¬IsWildcard c) ∧
    Utf8.size (shortFill gap) = gap.count '?' ∧ (shortFill gap).length ≤ gap.count '?' ∧
      (2 ≤ gap.count '?' → (shortFill gap).length < gap.count '?') := by
  have hsize (n : Nat) : Utf8.size (List.replicate n 'a') = n := by
    have hascii := Utf8.size_eq_length_iff.2 (fun c (hc : c ∈ List.replicate n 'a') ↦
      show Utf8.IsAscii c by rw [List.eq_of_mem_replicate hc]; decide)
    rw [hascii, List.length_replicate]
  have hplain (n : Nat) : ∀ c ∈ List.replicate n 'a', ¬IsWildcard c := by
    intro c hc
    rw [List.eq_of_mem_replicate hc]
    decide
  rw [shortFill]
  split
  · next h =>
    refine ⟨List.forall_mem_cons.2 ⟨by decide, hplain _⟩, ?_, ?_, fun _ ↦ ?_⟩
    · rw [Utf8.size_cons, hsize, show 'é'.utf8Size = 2 by decide]
      omega
    · rw [List.length_cons, List.length_replicate]
      omega
    · rw [List.length_cons, List.length_replicate]
      omega
  · next h => exact ⟨hplain _, hsize _, by rw [List.length_replicate], fun h' ↦ absurd h' h⟩

/-- A name that the pattern takes by its bytes; a gap with two `?` makes it too short for the
characters. -/
theorem exists_byBytes (pattern : List Char) : ∃ name, (∀ c ∈ name, ¬IsWildcard c) ∧
    ByBytes pattern name ∧ name.length ≤ solid pattern ∧
      ((∃ gap ∈ gaps pattern, 2 ≤ gap.count '?') → name.length < solid pattern) := by
  induction pattern using gap_induction with
  | gap gap hgap =>
    obtain ⟨hplain, hsize, hle, hlt⟩ := shortFill_spec gap
    have hadmits : Admits gap (Utf8.size (shortFill gap)) :=
      ⟨Nat.le_of_eq hsize.symm, .inr hsize.symm⟩
    refine ⟨shortFill gap, hplain, (byteMatches_gap hgap).2 hadmits, ?_⟩
    rw [gaps_of_wildcards hgap, solid_gap hgap]
    exact ⟨hle, fun h ↦ hlt (by simpa using h)⟩
  | literal gap c rest hgap hc ih =>
    obtain ⟨hplain, hsize, hle, hlt⟩ := shortFill_spec gap
    obtain ⟨name, hname, hrest, hle', hlt'⟩ := ih
    refine ⟨shortFill gap ++ c :: name, ?_, (byteMatches_literal hgap hc).2
      ⟨shortFill gap, name, rfl, ⟨Nat.le_of_eq hsize.symm, .inr hsize.symm⟩, hrest⟩, ?_⟩
    · exact List.forall_mem_append.2 ⟨hplain, List.forall_mem_cons.2 ⟨hc, hname⟩⟩
    · rw [gaps_append_cons hgap hc, solid_append_cons gap rest hc, solid_gap hgap,
        List.length_append, List.length_cons]
      refine ⟨Nat.add_le_add hle (Nat.succ_le_succ hle'), ?_⟩
      rintro ⟨bad, hbad, hcount⟩
      rcases List.mem_cons.1 hbad with rfl | hbad
      · exact Nat.add_lt_add_of_lt_of_le (hlt hcount) (Nat.succ_le_succ hle')
      · exact Nat.add_lt_add_of_le_of_lt hle (Nat.succ_lt_succ (hlt' ⟨bad, hbad, hcount⟩))

/-- The ASCII characters that a pattern names. -/
def asciiLiterals (pattern : List Char) : Nat :=
  pattern.countP fun c ↦ ¬IsWildcard c ∧ Utf8.IsAscii c

def asciiCount (name : List Char) : Nat := name.countP fun c ↦ Utf8.IsAscii c

theorem asciiLiterals_gap (h : ∀ c ∈ gap, IsWildcard c) : asciiLiterals gap = 0 :=
  List.countP_eq_zero.2 fun c hc hmem ↦ (of_decide_eq_true hmem).1 (h c hc)

theorem asciiLiterals_append_cons (h : ∀ c ∈ gap, IsWildcard c) (hc : ¬IsWildcard c)
    (rest : List Char) :
    asciiLiterals (gap ++ c :: rest) = asciiCount [c] + asciiLiterals rest := by
  rw [asciiLiterals, List.countP_append, ← asciiLiterals, asciiLiterals_gap h, Nat.zero_add,
    ← List.singleton_append, List.countP_append]
  refine congrArg (· + _) (List.countP_congr fun d hd ↦ ?_)
  rw [List.mem_singleton.1 hd]
  simp [hc]

theorem asciiCount_append_cons (before after : List Char) (c : Char) :
    asciiCount (before ++ c :: after) =
      asciiCount before + (asciiCount [c] + asciiCount after) := by
  rw [← List.singleton_append, asciiCount, List.countP_append, List.countP_append]
  rfl

/-- A name that the pattern takes by its characters, with nothing of ASCII in the gaps. -/
theorem exists_byChars (pattern : List Char) : ∃ name, (∀ c ∈ name, ¬IsWildcard c) ∧
    ByChars pattern name ∧ asciiCount name = asciiLiterals pattern := by
  have hfill (n : Nat) : (∀ c ∈ List.replicate n 'é', ¬IsWildcard c) ∧
      asciiCount (List.replicate n 'é') = 0 := by
    refine ⟨fun c hc ↦ ?_, List.countP_eq_zero.2 fun c hc ↦ ?_⟩
    · rw [List.eq_of_mem_replicate hc]
      decide
    · rw [List.eq_of_mem_replicate hc]
      decide
  have hadmits (gap : List Char) :
      Admits gap (List.replicate (gap.count '?') 'é').length := by
    rw [List.length_replicate]
    exact ⟨Nat.le_refl _, .inr rfl⟩
  induction pattern using gap_induction with
  | gap gap hgap =>
    obtain ⟨hplain, hcount⟩ := hfill (gap.count '?')
    exact ⟨_, hplain, (charMatches_gap hgap).2 (hadmits gap),
      hcount.trans (asciiLiterals_gap hgap).symm⟩
  | literal gap c rest hgap hc ih =>
    obtain ⟨hplain, hcount⟩ := hfill (gap.count '?')
    obtain ⟨name, hname, hrest, hcount'⟩ := ih
    refine ⟨List.replicate (gap.count '?') 'é' ++ c :: name, ?_,
      (charMatches_literal hgap hc).2 ⟨_, name, rfl, hadmits gap, hrest⟩, ?_⟩
    · exact List.forall_mem_append.2 ⟨hplain, List.forall_mem_cons.2 ⟨hc, hname⟩⟩
    · rw [asciiCount_append_cons, hcount, hcount', asciiLiterals_append_cons hgap hc, Nat.zero_add]

/-- A `?` that takes one byte takes an ASCII character. -/
theorem asciiCount_pos_of_admits (hcount : gap.count '?' = 1) (hstar : '*' ∉ gap)
    {part : List Char} (h : Admits gap (Utf8.size part)) : 0 < asciiCount part := by
  have hsize : Utf8.size part = 1 := (hcount.symm.trans (h.2.resolve_left hstar)).symm
  have hne : part ≠ [] := by
    rintro rfl
    cases hsize
  have hlength := List.length_pos_iff.2 hne
  have hle := Utf8.length_le_size part
  have hascii := Utf8.size_eq_length_iff.1 (show Utf8.size part = part.length by omega)
  rw [asciiCount, List.countP_pos_iff]
  obtain ⟨c, hc⟩ := List.exists_mem_of_ne_nil part hne
  exact ⟨c, hc, decide_eq_true (hascii c hc)⟩

theorem asciiLiterals_le {pattern : List Char} (h : ByBytes pattern name) :
    asciiLiterals pattern ≤ asciiCount name ∧
      ((∃ gap ∈ gaps pattern, gap.count '?' = 1 ∧ '*' ∉ gap) →
        asciiLiterals pattern < asciiCount name) := by
  induction pattern using gap_induction generalizing name with
  | gap gap hgap =>
    rw [asciiLiterals_gap hgap, gaps_of_wildcards hgap]
    refine ⟨Nat.zero_le _, ?_⟩
    rintro ⟨bad, hbad, hcount, hstar⟩
    rw [List.mem_singleton.1 hbad] at hcount hstar
    exact asciiCount_pos_of_admits hcount hstar ((byteMatches_gap hgap).1 h)
  | literal gap c rest hgap hc ih =>
    obtain ⟨before, after, rfl, hbefore, hafter⟩ := (byteMatches_literal hgap hc).1 h
    obtain ⟨hle, hlt⟩ := ih hafter
    rw [asciiLiterals_append_cons hgap hc, asciiCount_append_cons, gaps_append_cons hgap hc]
    refine ⟨by omega, ?_⟩
    rintro ⟨bad, hbad, hcount, hstar⟩
    rcases List.mem_cons.1 hbad with rfl | hbad
    · have hpos := asciiCount_pos_of_admits hcount hstar hbefore
      omega
    · have hlt := hlt ⟨bad, hbad, hcount, hstar⟩
      omega

/-! ## Queried names -/

/-- A name of a class or a method, which has no wildcard in it. -/
structure QueriedName where
  text : String
  plain : ∀ c ∈ text.toList, ¬IsWildcard c

/-- A pattern whose every `?` stands beside a star and apart from each other `?`. -/
def WholeCharacters (pattern : String) : Prop := ∀ gap ∈ gaps pattern.toList, Covered gap

theorem globMatches_iff_byBytes (pattern : String) (name : QueriedName) :
    globMatches pattern name.text = true ↔ ByBytes pattern.toList name.text.toList :=
  globMatches_eq_true_iff pattern fun h ↦ name.plain '*' h (.inr rfl)

/-- A pattern that leaves a `?` uncovered tells bytes from characters on some name. -/
theorem exists_name_of_not_covered {pattern gap : List Char} (hgap : gap ∈ gaps pattern)
    (hcovered : ¬Covered gap) : ∃ name, (∀ c ∈ name, ¬IsWildcard c) ∧
      ¬(ByBytes pattern name ↔ ByChars pattern name) := by
  rw [Covered, Classical.not_imp] at hcovered
  obtain ⟨hmem, hnot⟩ := hcovered
  have hpos := List.count_pos_iff.2 hmem
  rcases Nat.lt_or_ge 1 (gap.count '?') with htwo | hone
  · obtain ⟨name, hplain, hbytes, -, hlt⟩ := exists_byBytes pattern
    refine ⟨name, hplain, fun h ↦ ?_⟩
    exact absurd (solid_le_length (h.1 hbytes)) (Nat.not_le.2 (hlt ⟨gap, hgap, htwo⟩))
  · have hcount : gap.count '?' = 1 := Nat.le_antisymm hone hpos
    have hstar : '*' ∉ gap := fun h ↦ hnot ⟨hcount, h⟩
    obtain ⟨name, hplain, hchars, hascii⟩ := exists_byChars pattern
    refine ⟨name, hplain, fun h ↦ ?_⟩
    have hlt := (asciiLiterals_le (h.2 hchars)).2 ⟨gap, hgap, hcount, hstar⟩
    rw [hascii] at hlt
    exact Nat.lt_irrefl _ hlt

/-- The patterns that mean the same on every name. -/
theorem forall_name_iff (pattern : String) :
    (∀ name : QueriedName,
        globMatches pattern name.text = true ↔ CharMatches pattern name.text) ↔
      WholeCharacters pattern := by
  simp only [globMatches_iff_byBytes]
  constructor
  · intro h gap hgap
    by_contra hcovered
    obtain ⟨name, hplain, hdiffer⟩ := exists_name_of_not_covered hgap hcovered
    have hsame := h ⟨String.ofList name, by rwa [String.toList_ofList]⟩
    rw [CharMatches, String.toList_ofList] at hsame
    exact hdiffer hsame
  · intro h name
    exact byBytes_iff_byChars fun gap hgap part _ ↦ admits_size_iff (h gap hgap) part

/-- The names on which every pattern means the same. A question mark for each character of the name
tells whether there are as many bytes. -/
theorem forall_pattern_iff (name : QueriedName) :
    (∀ pattern : String,
        globMatches pattern name.text = true ↔ CharMatches pattern name.text) ↔
      ∀ c ∈ name.text.toList, Utf8.IsAscii c := by
  simp only [globMatches_iff_byBytes]
  constructor
  · intro h
    have hgap : ∀ c ∈ List.replicate name.text.toList.length '?', IsWildcard c :=
      fun c hc ↦ .inl (List.eq_of_mem_replicate hc)
    have hcount : (List.replicate name.text.toList.length '?').count '?' =
        name.text.toList.length := List.count_replicate_self
    have hstar : '*' ∉ List.replicate name.text.toList.length '?' :=
      fun hmem ↦ absurd (List.eq_of_mem_replicate hmem) (by decide)
    have hsame := h (String.ofList (List.replicate name.text.toList.length '?'))
    rw [CharMatches, String.toList_ofList, byteMatches_gap hgap] at hsame
    have hbytes := hsame.2 ((charMatches_gap hgap).2 ⟨Nat.le_of_eq hcount, .inr hcount⟩)
    rw [← Utf8.size_eq_length_iff, ← hbytes.2.resolve_left hstar, hcount]
  · intro h pattern
    refine byBytes_iff_byChars fun gap _ part hpart ↦ ?_
    rw [Utf8.size_eq_length_iff.2 fun c hc ↦ h c (hpart.subset hc)]

/-- **Bytes and characters** agree on every name exactly for the patterns that take whole
characters, and for every pattern exactly on the ASCII names. -/
theorem globMatches_eq_charMatches_iff (pattern : String) (name : QueriedName) :
    ((∀ other : QueriedName,
        globMatches pattern other.text = true ↔ CharMatches pattern other.text) ↔
      WholeCharacters pattern) ∧
    ((∀ other : String,
        globMatches other name.text = true ↔ CharMatches other name.text) ↔
      ∀ c ∈ name.text.toList, Utf8.IsAscii c) :=
  ⟨forall_name_iff pattern, forall_pattern_iff name⟩

/-- The name `é` has one character, which `?` does not take, though `??` does. -/
theorem not_globMatches_eq_charMatches :
    (globMatches "?" "é" = false ∧ CharMatches "?" "é") ∧
      globMatches "??" "é" = true ∧ ¬CharMatches "??" "é" := by
  refine ⟨⟨by decide +kernel, ?_⟩, by decide +kernel, ?_⟩
  · exact ⟨[['é']], .cons rfl .nil, rfl⟩
  · intro h
    have hle := solid_le_length h
    exact absurd hle (by decide +kernel)

end JavaBridge.MethodQuery

import JavaBridge.Library.Glob
import JavaBridge.MethodQuery

/-!
# The matcher

The loop of `glob_matches` as a step on its variables, and what it decides of the bytes.

Main results:

* `MethodQuery.map_globStep`: on a value without stars, the loop is the greedy search.
* `MethodQuery.globMatches_iff`: the loop ends, and decides whether the value can be cut up by the
  pattern.
-/

namespace JavaBridge.MethodQuery

/-- The variables of the loop. -/
structure GlobState where
  p : Nat
  v : Nat
  star : Option Nat
  starValue : Nat

/-- Gives one more byte to the last star, or fails. -/
def globBack (s : GlobState) : GlobState ⊕ Option Nat :=
  match s.star with
  | some starIndex =>
    .inl { s with p := starIndex + 1, v := s.starValue + 1, starValue := s.starValue + 1 }
  | none => .inr none

/-- A round of the loop. It is left for `return false` with nothing, and at the end of the value
with the position in the pattern. -/
def globStep (pattern value : List UInt8) (s : GlobState) : GlobState ⊕ Option Nat :=
  if s.v < value.length then
    if s.p < pattern.length ∧
        (pattern[s.p]? = some '?'.val.toUInt8 ∨ pattern[s.p]? = value[s.v]?) then
      .inl { s with p := s.p + 1, v := s.v + 1 }
    else if s.p < pattern.length ∧ pattern[s.p]? = some '*'.val.toUInt8 then
      .inl { s with p := s.p + 1, star := some s.p, starValue := s.v }
    else globBack s
  else .inr (some s.p)

/-- What is returned after the loop. -/
def globVerdict (pattern : List UInt8) : Option Nat → Bool
  | none => false
  | some p => ((pattern.drop p).dropWhile (· = '*'.val.toUInt8)).isEmpty

def globStart : GlobState := ⟨0, 0, none, 0⟩

variable {pattern value : List UInt8}

theorem globLoop_eq_run (fuel : Nat) (s : GlobState) :
    globLoop pattern value fuel s.p s.v s.star s.starValue =
      (Loop.run (globStep pattern value) fuel s).join := by
  induction fuel generalizing s with
  | zero => rfl
  | succ fuel ih =>
    rw [globLoop.eq_def, Loop.run, globStep]
    dsimp only
    split
    · split
      · exact ih { s with p := s.p + 1, v := s.v + 1 }
      · split
        · exact ih { s with p := s.p + 1, star := some s.p, starValue := s.v }
        · obtain ⟨p, v, _ | starIndex, starValue⟩ := s
          · rfl
          · exact ih ⟨starIndex + 1, starValue + 1, some starIndex, starValue + 1⟩
    · rfl

/-! ## The search -/

/-- The pattern that bytes write. -/
def bytePieces (pattern : List UInt8) : List (Glob.Piece UInt8) :=
  Glob.pieces '?'.val.toUInt8 '*'.val.toUInt8 pattern

/-- The search that the loop is at. -/
def toSearch (pattern value : List UInt8) (s : GlobState) : Glob.Search UInt8 where
  pattern := (bytePieces pattern).drop s.p
  text := value.drop s.v
  star := s.star.map fun starIndex ↦
    ((bytePieces pattern).drop (starIndex + 1), value.drop s.starValue)

/-- The star's run ends before the position in the value. -/
def StarBehind (s : GlobState) : Prop := ∀ starIndex, s.star = some starIndex → s.starValue ≤ s.v

theorem starBehind_of_globStep {s t : GlobState} (hs : StarBehind s)
    (h : globStep pattern value s = .inl t) : StarBehind t := by
  rw [globStep] at h
  split at h
  · split at h
    · cases h
      exact fun starIndex hstar ↦ Nat.le_succ_of_le (hs starIndex hstar)
    · split at h
      · cases h
        exact fun _ _ ↦ Nat.le_refl _
      · obtain ⟨p, v, _ | starIndex, starValue⟩ := s
        · cases h
        · cases h
          exact fun _ _ ↦ Nat.le_refl _
  · cases h

theorem one_ne_run : '?'.val.toUInt8 ≠ '*'.val.toUInt8 := by decide

theorem globVerdict_some (pattern : List UInt8) (p : Nat) :
    globVerdict pattern (some p) = ((bytePieces pattern).drop p).all (· = .run) := by
  rw [globVerdict, bytePieces, Glob.pieces, ← List.map_drop, List.all_map]
  induction pattern.drop p with
  | nil => rfl
  | cons b rest ih =>
    have hpiece : decide (Glob.piece '?'.val.toUInt8 '*'.val.toUInt8 b = .run) =
        decide (b = '*'.val.toUInt8) := decide_eq_decide.2 (Glob.piece_eq_run_iff one_ne_run)
    rw [List.dropWhile_cons, List.all_cons, Function.comp_apply, hpiece]
    by_cases hb : b = '*'.val.toUInt8
    · rw [if_pos (decide_eq_true hb), ih, decide_eq_true hb, Bool.true_and]
    · rw [if_neg (ne_true_of_eq_false (decide_eq_false hb)), decide_eq_false hb]
      rfl

theorem map_globBack {s : GlobState} (hs : StarBehind s) (hv : s.v < value.length) :
    (globBack s).map (toSearch pattern value) (globVerdict pattern) =
      (toSearch pattern value s).back := by
  obtain ⟨p, v, _ | starIndex, starValue⟩ := s
  · rfl
  · have hlt : starValue < value.length := Nat.lt_of_le_of_lt (hs starIndex rfl) hv
    simp only [globBack, toSearch, Glob.Search.back, Option.map_some,
      List.drop_eq_getElem_cons hlt, Sum.map_inl]

/-- On a value without stars, a round of the loop is one of the search. -/
theorem map_globStep (hvalue : '*'.val.toUInt8 ∉ value) {s : GlobState} (hs : StarBehind s) :
    (globStep pattern value s).map (toSearch pattern value) (globVerdict pattern) =
      (toSearch pattern value s).step := by
  have hlength : (bytePieces pattern).length = pattern.length := List.length_map _
  have hback := @map_globBack pattern value s hs
  obtain ⟨p, v, star, starValue⟩ := s
  rw [globStep]
  dsimp only at hback ⊢
  by_cases hv : v < value.length
  · have htext : value.drop v = value[v] :: value.drop (v + 1) := List.drop_eq_getElem_cons hv
    rw [if_pos hv]
    by_cases hp : p < pattern.length
    · have hpiece : (bytePieces pattern).drop p =
          Glob.piece '?'.val.toUInt8 '*'.val.toUInt8 pattern[p] ::
            (bytePieces pattern).drop (p + 1) := by
        rw [List.drop_eq_getElem_cons (hlength.symm ▸ hp)]
        simp [bytePieces, Glob.pieces]
      have hne : value[v] ≠ '*'.val.toUInt8 := fun h ↦ hvalue (h ▸ List.getElem_mem hv)
      have hstep : (toSearch pattern value ⟨p, v, star, starValue⟩).step =
          if pattern[p] = '?'.val.toUInt8 ∨ pattern[p] = value[v] then
            .inl (toSearch pattern value ⟨p + 1, v + 1, star, starValue⟩)
          else if pattern[p] = '*'.val.toUInt8 then
            .inl (toSearch pattern value ⟨p + 1, v, some p, v⟩)
          else (toSearch pattern value ⟨p, v, star, starValue⟩).back := by
        simp only [Glob.Search.step, toSearch, hpiece, htext, Glob.fits_piece_iff hne,
          Glob.piece_eq_run_iff one_ne_run, Option.map_some]
      rw [hstep, List.getElem?_eq_getElem hp, List.getElem?_eq_getElem hv]
      simp only [hp, true_and, Option.some.injEq]
      split
      · rfl
      · split
        · rfl
        · exact hback hv
    · have hnil : (bytePieces pattern).drop p = [] :=
        List.drop_eq_nil_of_le (hlength.symm ▸ Nat.not_lt.1 hp)
      rw [if_neg fun h ↦ hp h.1, if_neg fun h ↦ hp h.1, hback hv]
      simp only [Glob.Search.step, toSearch, hnil, htext]
  · have hnil : value.drop v = [] := List.drop_eq_nil_of_le (Nat.not_lt.1 hv)
    rw [if_neg hv, Sum.map_inr, globVerdict_some]
    simp only [Glob.Search.step, toSearch, hnil]

/-- On a value without stars, the loop ends soon, and its verdict is the meaning. -/
theorem exists_run_globStep (pattern : List UInt8) (hvalue : '*'.val.toUInt8 ∉ value) :
    ∃ result, Loop.run (globStep pattern value) ((value.length + 1) * (pattern.length + 2))
        globStart = some result ∧
      (globVerdict pattern result = true ↔ Glob.Matches (bytePieces pattern) value) := by
  have hfuel : value.length * ((bytePieces pattern).length + 1) + (bytePieces pattern).length <
      (value.length + 1) * (pattern.length + 2) := by
    rw [show (bytePieces pattern).length = pattern.length from List.length_map _, Nat.succ_mul,
      Nat.mul_succ value.length (pattern.length + 1)]
    omega
  obtain ⟨b, hb, hmatches⟩ := Glob.Search.exists_run (bytePieces pattern) value hfuel
  have hmap := Loop.run_map (I := StarBehind) (f := toSearch pattern value)
    (g := globVerdict pattern) (fun s hs ↦ map_globStep hvalue hs)
    (fun s t hs hstep ↦ starBehind_of_globStep hs hstep)
    ((value.length + 1) * (pattern.length + 2)) (s := globStart) (by rintro _ ⟨⟩)
  rw [show toSearch pattern value globStart = Glob.Search.start (bytePieces pattern) value from rfl,
    hb, Option.map_eq_some_iff] at hmap
  obtain ⟨result, hresult, rfl⟩ := hmap
  exact ⟨result, hresult, hmatches⟩

/-! ## Strings -/

/-- The bytes of a string. -/
def asBytes (text : String) : List UInt8 := Utf8.encode text.toList

theorem globMatches_eq (pattern value : String) :
    globMatches pattern value = globVerdict (asBytes pattern)
      (Loop.run (globStep (asBytes pattern) (asBytes value))
        (((asBytes value).length + 1) * ((asBytes pattern).length + 2)) globStart).join := by
  rw [← globLoop_eq_run, globMatches]
  dsimp only [asBytes, globStart]
  cases globLoop (Utf8.encode pattern.toList) (Utf8.encode value.toList) _ 0 0 none 0 with
  | none => rfl
  | some p => rfl

theorem mem_asBytes_star {value : String} :
    '*'.val.toUInt8 ∈ asBytes value ↔ '*' ∈ value.toList :=
  Utf8.mem_encode_iff (by decide)

theorem globMatches_eq_true_iff (pattern : String) {value : String} (hvalue : '*' ∉ value.toList) :
    globMatches pattern value = true ↔
      Glob.Matches (bytePieces (asBytes pattern)) (asBytes value) := by
  obtain ⟨result, hresult, hmatches⟩ := exists_run_globStep (asBytes pattern)
    (mem_asBytes_star.not.2 hvalue)
  rw [globMatches_eq, hresult]
  exact hmatches

/-- **The matcher**: the loop ends, and what is returned after it is whether the value can be cut
into a part for each byte of the pattern. -/
theorem globMatches_iff (pattern value : String) (hvalue : '*' ∉ value.toList) :
    (∃ result, Loop.Ends (globStep (asBytes pattern) (asBytes value)) globStart result ∧
      globMatches pattern value = globVerdict (asBytes pattern) result) ∧
    (globMatches pattern value = true ↔
      ∃ parts, List.Forall₂ Glob.Piece.Takes (bytePieces (asBytes pattern)) parts ∧
        parts.flatten = asBytes value) := by
  constructor
  · obtain ⟨result, hresult, -⟩ := exists_run_globStep (asBytes pattern)
      (mem_asBytes_star.not.2 hvalue)
    refine ⟨result, Loop.ends_of_run hresult, ?_⟩
    rw [globMatches_eq, hresult]
    rfl
  · exact globMatches_eq_true_iff pattern hvalue

theorem globMatches_iff_stars :
    (∃ result, Loop.Ends (globStep (asBytes "*a?*b") (asBytes "aaxaxb")) globStart result ∧
      globMatches "*a?*b" "aaxaxb" = globVerdict (asBytes "*a?*b") result) ∧
    (globMatches "*a?*b" "aaxaxb" = true ↔
      ∃ parts, List.Forall₂ Glob.Piece.Takes (bytePieces (asBytes "*a?*b")) parts ∧
        parts.flatten = asBytes "aaxaxb") :=
  globMatches_iff "*a?*b" "aaxaxb" (by decide)

end JavaBridge.MethodQuery

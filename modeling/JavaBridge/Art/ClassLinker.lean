import JavaBridge.Art.Replace
import JavaBridge.Art.RuntimeLayout

/-!
# The trampolines of the class linker

The class linker keeps four trampolines in a row. They are found from the field that points to the
intern table, which the runtime has, too, or where there is none such, by what ART says of four words
in a row.

Main results:

* `scanPredicates_eq_ok_iff`: without the anchor there has to be one place that fits.
* `detectClassLinkerTrampolines_eq_ok_iff`: which trampolines are found.
-/

namespace JavaBridge.Art

open RunnableThread (hex unsupported)

structure DetectedTrampolines extends ArtClassLinkerTrampolines where
  quickImtConflictTrampoline : BitVec 64

/-- What ART says of an entrypoint. -/
structure ArtClassLinkerEntrypointPredicates where
  isQuickResolutionStub : BitVec 64 → BitVec 64 → Bool
  isQuickToInterpreterBridge : BitVec 64 → BitVec 64 → Bool
  isQuickGenericJniStub : BitVec 64 → BitVec 64 → Bool

structure ClassLinkerTrampolineOffsets where
  quickResolution : Nat
  quickImtConflict : Nat
  quickGenericJni : Nat
  quickToInterpreterBridge : Nat

def classLinkerTrampolineOffsetsFromAnchor (apiLevel : Int) (internTableAnchorOffset : Nat) :
    ClassLinkerTrampolineOffsets :=
  let delta := if 30 ≤ apiLevel then 6 else if 29 ≤ apiLevel then 4 else 3
  let quickGenericJni := internTableAnchorOffset + delta * POINTER_SIZE
  let quickResolution :=
    if 23 ≤ apiLevel then quickGenericJni - 2 * POINTER_SIZE else quickGenericJni - 3 * POINTER_SIZE
  ⟨quickResolution, quickGenericJni - POINTER_SIZE, quickGenericJni, quickGenericJni + POINTER_SIZE⟩

def classLinkerTrampolineOffsetsFromQuickResolution (quickResolution : Nat) :
    ClassLinkerTrampolineOffsets :=
  ⟨quickResolution, quickResolution + POINTER_SIZE, quickResolution + 2 * POINTER_SIZE,
    quickResolution + 3 * POINTER_SIZE⟩

/-- `(200..1000).step_by(8)`. -/
def anchorOffsets : List Nat := (List.range 100).map (200 + POINTER_SIZE * ·)

/-- `(200..4296 - 24).step_by(8)`. -/
def quickResolutionOffsets : List Nat := (List.range 509).map (200 + POINTER_SIZE * ·)

section

variable {θ : Type} (memory : MemoryRanges) (m : ByteMemory) (classLinker : BitVec 64)

/-! ## Reads -/

def readTrampoline (offset : Nat) (name : String) : Except (Error θ) (BitVec 64) :=
  match readUsize (classLinker + BitVec.ofNat 64 offset) memory m with
  | none =>
    unsupported FEATURE_METHOD_REPLACEMENT
      ("unable to read ClassLinker " ++ name ++ " at offset " ++ hex offset)
  | some value =>
    if value = 0 then
      unsupported FEATURE_METHOD_REPLACEMENT
        ("ClassLinker " ++ name ++ " at offset " ++ hex offset ++ " is null")
    else if !memory.containsExecutable value 1 then
      unsupported FEATURE_METHOD_REPLACEMENT
        ("ClassLinker " ++ name ++ " at offset " ++ hex offset ++ " is not executable")
    else .ok value

def readClassLinkerTrampolines (offsets : ClassLinkerTrampolineOffsets) :
    Except (Error θ) DetectedTrampolines := do
  let quickResolution ← readTrampoline memory m classLinker offsets.quickResolution
    "quick resolution trampoline"
  let quickImtConflict ← readTrampoline memory m classLinker offsets.quickImtConflict
    "quick IMT conflict trampoline"
  let quickGenericJni ← readTrampoline memory m classLinker offsets.quickGenericJni
    "quick generic JNI trampoline"
  let quickToInterpreterBridge ← readTrampoline memory m classLinker
    offsets.quickToInterpreterBridge "quick-to-interpreter bridge trampoline"
  .ok ⟨⟨quickResolution, quickGenericJni, quickToInterpreterBridge⟩, quickImtConflict⟩

/-! ## Detection -/

variable (predicates : ArtClassLinkerEntrypointPredicates)

/-- The four words at an offset can be read, and ART takes three of them for what they should be. -/
def matchesPredicates (offset : Nat) : Bool :=
  match readUsize (classLinker + BitVec.ofNat 64 offset) memory m,
    readUsize (classLinker + BitVec.ofNat 64 (offset + POINTER_SIZE)) memory m,
    readUsize (classLinker + BitVec.ofNat 64 (offset + 2 * POINTER_SIZE)) memory m,
    readUsize (classLinker + BitVec.ofNat 64 (offset + 3 * POINTER_SIZE)) memory m with
  | some quickResolution, some _, some quickGenericJni, some quickToInterpreter =>
    let classLinker := normalizeAddress classLinker
    predicates.isQuickResolutionStub classLinker quickResolution &&
      predicates.isQuickGenericJniStub classLinker quickGenericJni &&
      predicates.isQuickToInterpreterBridge classLinker quickToInterpreter
  | _, _, _, _ => false

def scanPredicates : Option DetectedTrampolines → List Nat →
    Except (Error θ) (Option DetectedTrampolines)
  | candidate, [] => .ok candidate
  | candidate, offset :: offsets =>
    if !matchesPredicates memory m classLinker predicates offset then
      scanPredicates candidate offsets
    else do
      let trampolines ← readClassLinkerTrampolines memory m classLinker
        (classLinkerTrampolineOffsetsFromQuickResolution offset)
      if candidate.isSome then
        unsupported FEATURE_METHOD_REPLACEMENT ("unable to determine ClassLinker trampoline " ++
          "offsets: predicate scan found multiple candidates")
      else scanPredicates (some trampolines) offsets

def detectClassLinkerTrampolinesByPredicate
    (predicates : Option ArtClassLinkerEntrypointPredicates) :
    Except (Error θ) DetectedTrampolines := do
  match predicates with
  | none =>
    unsupported FEATURE_METHOD_REPLACEMENT ("unable to determine ClassLinker trampoline offsets: " ++
      "intern table anchor was not found and ClassLinker quick-entrypoint predicate symbols are " ++
      "unavailable")
  | some predicates =>
    match ← scanPredicates memory m classLinker predicates none quickResolutionOffsets with
    | some trampolines => .ok trampolines
    | none =>
      unsupported FEATURE_METHOD_REPLACEMENT ("unable to determine ClassLinker trampoline " ++
        "offsets: intern table anchor was not found and predicate scan found no quick trampoline " ++
        "sequence")

/-- The class linker points to the intern table at the offset. -/
def IsAnchor (layout : ArtRuntimeLayout) (offset : Nat) : Prop :=
  readUsize (layout.classLinker + BitVec.ofNat 64 offset) memory m = some layout.internTable

instance decidableIsAnchor (layout : ArtRuntimeLayout) :
    DecidablePred (IsAnchor memory m layout) :=
  fun _ ↦ inferInstanceAs (Decidable (_ = _))

def detectClassLinkerTrampolines (layout : ArtRuntimeLayout) (apiLevel : Int)
    (predicates : Option ArtClassLinkerEntrypointPredicates) :
    Except (Error θ) DetectedTrampolines :=
  if layout.internTable = 0 then
    unsupported FEATURE_METHOD_REPLACEMENT "ART runtime intern table pointer is null"
  else
    match anchorOffsets.find? (IsAnchor memory m layout ·) with
    | some offset =>
      readClassLinkerTrampolines memory m layout.classLinker
        (classLinkerTrampolineOffsetsFromAnchor apiLevel offset)
    | none => detectClassLinkerTrampolinesByPredicate memory m layout.classLinker predicates

/-! ## What is found -/

/-- The class linker has an executable trampoline at an offset. -/
structure IsTrampoline (offset : Nat) (value : BitVec 64) : Prop where
  read : readUsize (classLinker + BitVec.ofNat 64 offset) memory m = some value
  ne_zero : value ≠ 0
  executable : memory.containsExecutable value 1 = true

structure AreTrampolines (offsets : ClassLinkerTrampolineOffsets)
    (trampolines : DetectedTrampolines) : Prop where
  quickResolution : IsTrampoline memory m classLinker offsets.quickResolution
    trampolines.quickResolutionTrampoline
  quickImtConflict : IsTrampoline memory m classLinker offsets.quickImtConflict
    trampolines.quickImtConflictTrampoline
  quickGenericJni : IsTrampoline memory m classLinker offsets.quickGenericJni
    trampolines.quickGenericJniTrampoline
  quickToInterpreterBridge : IsTrampoline memory m classLinker offsets.quickToInterpreterBridge
    trampolines.quickToInterpreterBridgeTrampoline

variable {memory m classLinker predicates}

theorem readTrampoline_eq_ok_iff {offset : Nat} {name : String} {value : BitVec 64} :
    (readTrampoline memory m classLinker offset name : Except (Error θ) _) = .ok value ↔
      IsTrampoline memory m classLinker offset value := by
  rw [readTrampoline]
  split
  case h_1 hread =>
    constructor
    · intro h
      cases h
    · intro h
      cases hread.symm.trans h.read
  case h_2 value' hread =>
    constructor
    · intro h
      split at h
      case isTrue => cases h
      case isFalse hne =>
        split at h
        case isTrue => cases h
        case isFalse hexecutable =>
          obtain rfl := Except.ok.inj h
          exact ⟨hread, hne, by simpa using hexecutable⟩
    · intro h
      obtain rfl := Option.some.inj (hread.symm.trans h.read)
      rw [if_neg h.ne_zero, if_neg]
      rw [h.executable]
      exact Bool.false_ne_true

theorem readClassLinkerTrampolines_eq_ok_iff {offsets : ClassLinkerTrampolineOffsets}
    {trampolines : DetectedTrampolines} :
    (readClassLinkerTrampolines memory m classLinker offsets : Except (Error θ) _) =
      .ok trampolines ↔ AreTrampolines memory m classLinker offsets trampolines := by
  constructor
  · intro h
    obtain ⟨quickResolution, hresolution, h⟩ := Fallible.bind_eq_ok.mp h
    obtain ⟨quickImtConflict, hconflict, h⟩ := Fallible.bind_eq_ok.mp h
    obtain ⟨quickGenericJni, hjni, h⟩ := Fallible.bind_eq_ok.mp h
    obtain ⟨quickToInterpreterBridge, hbridge, h⟩ := Fallible.bind_eq_ok.mp h
    obtain rfl := Except.ok.inj h
    exact ⟨readTrampoline_eq_ok_iff.mp hresolution, readTrampoline_eq_ok_iff.mp hconflict,
      readTrampoline_eq_ok_iff.mp hjni, readTrampoline_eq_ok_iff.mp hbridge⟩
  · intro h
    refine Fallible.bind_eq_ok.mpr ⟨_, readTrampoline_eq_ok_iff.mpr h.quickResolution, ?_⟩
    refine Fallible.bind_eq_ok.mpr ⟨_, readTrampoline_eq_ok_iff.mpr h.quickImtConflict, ?_⟩
    refine Fallible.bind_eq_ok.mpr ⟨_, readTrampoline_eq_ok_iff.mpr h.quickGenericJni, ?_⟩
    exact Fallible.bind_eq_ok.mpr ⟨_, readTrampoline_eq_ok_iff.mpr h.quickToInterpreterBridge, rfl⟩

/-- A second place that fits is an error. -/
theorem scanPredicates_some_eq_ok_iff {offsets : List Nat} {found : DetectedTrampolines}
    {trampolines : Option DetectedTrampolines} :
    (scanPredicates memory m classLinker predicates (some found) offsets : Except (Error θ) _) =
      .ok trampolines ↔
    offsets.filter (matchesPredicates memory m classLinker predicates) = [] ∧
      trampolines = some found := by
  induction offsets with
  | nil =>
    constructor
    · intro h
      exact ⟨rfl, (Except.ok.inj h).symm⟩
    · rintro ⟨-, rfl⟩
      rfl
  | cons offset offsets ih =>
    rw [scanPredicates]
    by_cases hmatches : matchesPredicates memory m classLinker predicates offset = true
    · rw [if_neg (by simp [hmatches]), List.filter_cons_of_pos hmatches]
      constructor
      · intro h
        obtain ⟨trampolines', -, h⟩ := Fallible.bind_eq_ok.mp h
        cases h
      · rintro ⟨h, -⟩
        exact absurd h (List.cons_ne_nil offset _)
    · rw [if_pos (by simp [hmatches]), List.filter_cons_of_neg hmatches, ih]

/-- **Without the anchor there has to be one place that fits.** -/
theorem scanPredicates_eq_ok_iff {offsets : List Nat} {trampolines : DetectedTrampolines} :
    (scanPredicates memory m classLinker predicates none offsets : Except (Error θ) _) =
      .ok (some trampolines) ↔
    ∃ offset, offsets.filter (matchesPredicates memory m classLinker predicates) = [offset] ∧
      AreTrampolines memory m classLinker
        (classLinkerTrampolineOffsetsFromQuickResolution offset) trampolines := by
  induction offsets with
  | nil =>
    constructor
    · intro h
      cases h
    · rintro ⟨offset, h, -⟩
      cases h
  | cons offset offsets ih =>
    rw [scanPredicates]
    by_cases hmatches : matchesPredicates memory m classLinker predicates offset = true
    · rw [if_neg (by simp [hmatches]), List.filter_cons_of_pos hmatches]
      constructor
      · intro h
        obtain ⟨found, hfound, h⟩ := Fallible.bind_eq_ok.mp h
        obtain ⟨hnone, heq⟩ := scanPredicates_some_eq_ok_iff.mp h
        obtain rfl := Option.some.inj heq
        exact ⟨offset, by rw [hnone], readClassLinkerTrampolines_eq_ok_iff.mp hfound⟩
      · rintro ⟨offset', h, hfound⟩
        obtain ⟨rfl, hnone⟩ := List.cons.inj h
        exact Fallible.bind_eq_ok.mpr ⟨trampolines,
          readClassLinkerTrampolines_eq_ok_iff.mpr hfound,
          scanPredicates_some_eq_ok_iff.mpr ⟨hnone, rfl⟩⟩
    · rw [if_pos (by simp [hmatches]), List.filter_cons_of_neg hmatches, ih]

variable {layout : ArtRuntimeLayout} {apiLevel : Int}

/-- The class linker of a layout has trampolines, behind the anchor or at the one place that fits. -/
structure HasTrampolines (memory : MemoryRanges) (m : ByteMemory) (layout : ArtRuntimeLayout)
    (apiLevel : Int) (predicates : Option ArtClassLinkerEntrypointPredicates)
    (trampolines : DetectedTrampolines) : Prop where
  internTable_ne : layout.internTable ≠ 0
  place : (∃ offset, anchorOffsets.find? (IsAnchor memory m layout ·) = some offset ∧
      AreTrampolines memory m layout.classLinker
        (classLinkerTrampolineOffsetsFromAnchor apiLevel offset) trampolines) ∨
    anchorOffsets.find? (IsAnchor memory m layout ·) = none ∧
      ∃ predicates', predicates = some predicates' ∧ ∃ offset,
        quickResolutionOffsets.filter
          (matchesPredicates memory m layout.classLinker predicates') = [offset] ∧
        AreTrampolines memory m layout.classLinker
          (classLinkerTrampolineOffsetsFromQuickResolution offset) trampolines

theorem detectClassLinkerTrampolinesByPredicate_eq_ok_iff
    {predicates : Option ArtClassLinkerEntrypointPredicates} {trampolines : DetectedTrampolines} :
    (detectClassLinkerTrampolinesByPredicate memory m classLinker predicates :
      Except (Error θ) _) = .ok trampolines ↔
    ∃ predicates', predicates = some predicates' ∧ ∃ offset,
      quickResolutionOffsets.filter (matchesPredicates memory m classLinker predicates') =
        [offset] ∧
      AreTrampolines memory m classLinker
        (classLinkerTrampolineOffsetsFromQuickResolution offset) trampolines := by
  rw [detectClassLinkerTrampolinesByPredicate.eq_def]
  generalize quickResolutionOffsets = offsets
  cases predicates with
  | none =>
    constructor
    · intro h
      cases h
    · rintro ⟨predicates', h, -⟩
      cases h
  | some predicates =>
    constructor
    · intro h
      obtain ⟨found, hfound, h⟩ := Fallible.bind_eq_ok.mp h
      cases found with
      | none => cases h
      | some found =>
        obtain rfl := Except.ok.inj h
        exact ⟨predicates, rfl, scanPredicates_eq_ok_iff.mp hfound⟩
    · rintro ⟨predicates', h, hplace⟩
      obtain rfl := Option.some.inj h
      exact Fallible.bind_eq_ok.mpr ⟨_, scanPredicates_eq_ok_iff.mpr hplace, rfl⟩

theorem detectClassLinkerTrampolines_eq_ok_iff
    {predicates : Option ArtClassLinkerEntrypointPredicates} {trampolines : DetectedTrampolines} :
    (detectClassLinkerTrampolines memory m layout apiLevel predicates : Except (Error θ) _) =
      .ok trampolines ↔ HasTrampolines memory m layout apiLevel predicates trampolines := by
  rw [detectClassLinkerTrampolines]
  split
  case isTrue hnull =>
    constructor
    · intro h
      cases h
    · intro h
      exact absurd hnull h.internTable_ne
  case isFalse hne =>
    split
    case h_1 offset hanchor =>
      rw [readClassLinkerTrampolines_eq_ok_iff]
      constructor
      · intro h
        exact ⟨hne, .inl ⟨offset, hanchor, h⟩⟩
      · rintro ⟨-, ⟨offset', hanchor', h⟩ | ⟨hnone, -⟩⟩
        · obtain rfl := Option.some.inj (hanchor.symm.trans hanchor')
          exact h
        · cases hanchor.symm.trans hnone
    case h_2 hanchor =>
      rw [detectClassLinkerTrampolinesByPredicate_eq_ok_iff]
      constructor
      · intro h
        exact ⟨hne, .inr ⟨hanchor, h⟩⟩
      · rintro ⟨-, ⟨offset, hanchor', -⟩ | ⟨-, h⟩⟩
        · cases hanchor.symm.trans hanchor'
        · exact h

end

end JavaBridge.Art

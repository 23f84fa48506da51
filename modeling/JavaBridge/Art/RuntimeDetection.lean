import JavaBridge.Art.ClassLinker

/-!
# What is detected of the runtime

For replacements the first candidate counts whose class linker has trampolines, and for everything
else the first candidate. Either way nothing is looked at but what can be read.

Main results:

* `detectRuntimeLayoutFromRuntime_eq_ok_iff`: the plain detection takes the first candidate.
* `detectRuntimeLayoutAndTrampolines_lawful`: the other one takes the first that has trampolines,
  depends on no byte that is not mapped, and fails with a reason.
-/

namespace JavaBridge.Art

open Probe
open RunnableThread (unsupported)

section

variable {θ : Type} (memory : MemoryRanges) (m : ByteMemory) (feature : String)

def detectJniIdsIndirection (runtime : BitVec 64) (setJniIdType : Option Code) :
    Except (Error θ) (Option Int) := do
  match setJniIdType with
  | none => .ok none
  | some setJniIdType =>
    match ← detectJniIdsIndirectionOffset feature setJniIdType with
    | none => .ok none
    | some offset =>
      .ok ((readU32 (runtime + BitVec.ofNat 64 offset) memory m).map BitVec.toInt)

variable (apiLevel : Int) (runtime vmValue : BitVec 64)

def detectRuntimeLayoutFromRuntime : Except (Error θ) ArtRuntimeLayout := do
  match (← scanRuntimeLayoutCandidates memory m runtime Verdict.accepted apiLevel vmValue
      feature).1 with
  | .accepted layout => .ok layout
  | .exhausted _ => unsupported feature "unable to determine ART runtime field offsets"

variable (display : Error θ → String) (setJniIdType : Option Code)
  (predicates : Option ArtClassLinkerEntrypointPredicates)

/-- What a candidate is worth for replacements, with what `Display` makes of an error. -/
def probeLayout (layout : ArtRuntimeLayout) :
    Verdict (Error θ) String (ArtRuntimeLayout × DetectedTrampolines) :=
  match detectJniIdsIndirection memory m feature layout.runtime setJniIdType with
  | .error error => .failed error
  | .ok jniIdsIndirection =>
    let layout := { layout with jniIdsIndirection := jniIdsIndirection }
    match detectClassLinkerTrampolines memory m layout apiLevel predicates with
    | .ok trampolines => .accepted (layout, trampolines)
    | .error (.unsupportedFeature _ reason) => .rejected reason
    | .error error => .rejected (display error)

def detectRuntimeLayoutAndTrampolines :
    Except (Error θ) (ArtRuntimeLayout × DetectedTrampolines) := do
  match ← scanRuntimeLayoutCandidates memory m runtime
      (probeLayout memory m feature apiLevel display setJniIdType predicates) apiLevel vmValue
      feature with
  | (.accepted result, _) => .ok result
  | (.exhausted (some reason), _) => unsupported feature reason
  | (.exhausted none, true) =>
    unsupported feature
      "unable to determine ART runtime field offsets: no non-null ClassLinker candidates"
  | (.exhausted none, false) =>
    unsupported feature "unable to determine ART runtime field offsets"

variable {memory m feature apiLevel runtime vmValue display setJniIdType predicates}

/-! ## The scan -/

theorem scanRuntimeLayoutCandidates_eq_accepted_iff {τ : Type} {result : τ} {found : Bool}
    {accept : ArtRuntimeLayout → Verdict (Error θ) String τ} :
    scanRuntimeLayoutCandidates memory m runtime accept apiLevel vmValue feature =
      .ok (.accepted result, found) ↔
    26 ≤ apiLevel ∧ runtime ≠ 0 ∧ found = true ∧
      ∃ before layout after, candidates memory m runtime apiLevel vmValue =
        before ++ layout :: after ∧ Rejected accept before ∧ accept layout = .accepted result := by
  rw [scanRuntimeLayoutCandidates]
  split
  case isTrue hapi =>
    constructor
    · intro h
      cases h
    · rintro ⟨hapi', -⟩
      omega
  case isFalse hapi =>
    split
    case isTrue hnull =>
      constructor
      · intro h
        cases h
      · rintro ⟨-, hne, -⟩
        exact absurd hnull hne
    case isFalse hne =>
      rw [scanVmOffsets_eq, ← search_eq_accepted_iff none, candidates]
      cases search accept none (vmOffsets.flatMap _) with
      | error error =>
        constructor
        · intro h
          cases h
        · rintro ⟨-, -, -, h⟩
          cases h
      | ok outcome =>
        cases outcome with
        | accepted result' =>
          constructor
          · intro h
            cases h
            exact ⟨Int.not_lt.mp hapi, hne, rfl, rfl⟩
          · rintro ⟨-, -, rfl, h⟩
            cases h
            rfl
        | exhausted first =>
          constructor
          · intro h
            cases h
          · rintro ⟨-, -, -, h⟩
            cases h

/-- **The plain detection takes the first candidate.** -/
theorem detectRuntimeLayoutFromRuntime_eq_ok_iff {layout : ArtRuntimeLayout} :
    (detectRuntimeLayoutFromRuntime memory m feature apiLevel runtime vmValue :
      Except (Error θ) _) = .ok layout ↔
    26 ≤ apiLevel ∧ runtime ≠ 0 ∧
      (candidates memory m runtime apiLevel vmValue).head? = some layout := by
  constructor
  · intro h
    obtain ⟨⟨outcome, found⟩, hscan, h⟩ := Fallible.bind_eq_ok.mp h
    cases outcome with
    | exhausted first => cases h
    | accepted result =>
      obtain rfl := Except.ok.inj h
      obtain ⟨hapi, hne, -, before, candidate, after, hsplit, hbefore, haccepted⟩ :=
        scanRuntimeLayoutCandidates_eq_accepted_iff.mp hscan
      cases haccepted
      cases before with
      | nil =>
        rw [hsplit]
        exact ⟨hapi, hne, rfl⟩
      | cons first before =>
        obtain ⟨reason, hreason⟩ := hbefore first List.mem_cons_self
        cases hreason
  · rintro ⟨hapi, hne, hhead⟩
    refine Fallible.bind_eq_ok.mpr ⟨(.accepted layout, true), ?_, rfl⟩
    obtain ⟨after, hsplit⟩ := List.head?_eq_some_iff.mp hhead
    exact scanRuntimeLayoutCandidates_eq_accepted_iff.mpr
      ⟨hapi, hne, rfl, [], layout, after, hsplit, List.forall_mem_nil _, rfl⟩

/-! ## The probe -/

theorem runtime_of_candidate {offsets : RuntimeLayoutOffsets} {layout : ArtRuntimeLayout}
    (h : readRuntimeLayoutCandidate memory m runtime offsets = some layout) :
    layout.runtime = runtime := by
  rw [readRuntimeLayoutCandidate] at h
  obtain ⟨heap, -, h⟩ := Option.bind_eq_some_iff.mp h
  obtain ⟨threadList, -, h⟩ := Option.bind_eq_some_iff.mp h
  obtain ⟨internTable, -, h⟩ := Option.bind_eq_some_iff.mp h
  obtain ⟨classLinker, -, h⟩ := Option.bind_eq_some_iff.mp h
  split at h
  case h_1 =>
    obtain ⟨jniIdManager, -, h⟩ := Option.bind_eq_some_iff.mp h
    rw [← Option.some.inj h]
  case h_2 => rw [← Option.some.inj h]

theorem runtime_of_mem_candidates {layout : ArtRuntimeLayout}
    (h : layout ∈ candidates memory m runtime apiLevel vmValue) : layout.runtime = runtime := by
  obtain ⟨vmOffset, -, hat⟩ := List.mem_flatMap.mp h
  rw [candidatesAt] at hat
  split at hat
  case isTrue =>
    obtain ⟨offsets, -, hcandidate⟩ := List.mem_filterMap.mp hat
    exact runtime_of_candidate (candidate_eq_some_iff.mp hcandidate).1
  case isFalse => cases hat

/-- Only the class linker and the intern table matter. -/
theorem hasTrampolines_congr {layout : ArtRuntimeLayout} {indirection : Option Int}
    {trampolines : DetectedTrampolines} :
    HasTrampolines memory m { layout with jniIdsIndirection := indirection } apiLevel predicates
        trampolines ↔
      HasTrampolines memory m layout apiLevel predicates trampolines :=
  ⟨fun h ↦ ⟨h.internTable_ne, h.place⟩, fun h ↦ ⟨h.internTable_ne, h.place⟩⟩

theorem probeLayout_eq_accepted_iff {layout : ArtRuntimeLayout}
    {result : ArtRuntimeLayout × DetectedTrampolines} :
    probeLayout memory m feature apiLevel display setJniIdType predicates layout =
      .accepted result ↔
    ∃ indirection,
      detectJniIdsIndirection memory m feature layout.runtime setJniIdType =
        (.ok indirection : Except (Error θ) _) ∧
      result.1 = { layout with jniIdsIndirection := indirection } ∧
      HasTrampolines memory m layout apiLevel predicates result.2 := by
  rw [probeLayout]
  cases detectJniIdsIndirection memory m feature layout.runtime setJniIdType with
  | error error =>
    constructor
    · intro h
      cases h
    · rintro ⟨indirection, h, -⟩
      cases h
  | ok indirection =>
    dsimp only
    cases hdetect : (detectClassLinkerTrampolines memory m
        { layout with jniIdsIndirection := indirection } apiLevel predicates :
          Except (Error θ) DetectedTrampolines) with
    | ok trampolines =>
      have hhas := hasTrampolines_congr.mp (detectClassLinkerTrampolines_eq_ok_iff.mp hdetect)
      constructor
      · intro h
        obtain rfl := Verdict.accepted.inj h
        exact ⟨indirection, rfl, rfl, hhas⟩
      · rintro ⟨indirection', h, hresult, hhas'⟩
        obtain rfl := Except.ok.inj h
        have heq := hdetect.symm.trans
          (detectClassLinkerTrampolines_eq_ok_iff.mpr (hasTrampolines_congr.mpr hhas'))
        rw [Except.ok.inj heq, ← hresult]
    | error error =>
      constructor
      · intro h
        cases error <;> cases h
      · rintro ⟨indirection', h, -, hhas⟩
        obtain rfl := Except.ok.inj h
        cases hdetect.symm.trans
          (detectClassLinkerTrampolines_eq_ok_iff.mpr (hasTrampolines_congr.mpr hhas))

theorem probeLayout_eq_rejected_iff {layout : ArtRuntimeLayout} :
    (∃ reason, probeLayout memory m feature apiLevel display setJniIdType predicates layout =
      .rejected reason) ↔
    (∃ indirection, detectJniIdsIndirection memory m feature layout.runtime setJniIdType =
      (.ok indirection : Except (Error θ) _)) ∧
      ∀ trampolines, ¬HasTrampolines memory m layout apiLevel predicates trampolines := by
  rw [probeLayout]
  cases detectJniIdsIndirection memory m feature layout.runtime setJniIdType with
  | error error =>
    constructor
    · rintro ⟨reason, h⟩
      cases h
    · rintro ⟨⟨indirection, h⟩, -⟩
      cases h
  | ok indirection =>
    dsimp only
    cases hdetect : (detectClassLinkerTrampolines memory m
        { layout with jniIdsIndirection := indirection } apiLevel predicates :
          Except (Error θ) DetectedTrampolines) with
    | ok trampolines =>
      have hhas := hasTrampolines_congr.mp (detectClassLinkerTrampolines_eq_ok_iff.mp hdetect)
      constructor
      · rintro ⟨reason, h⟩
        cases h
      · rintro ⟨-, hnot⟩
        exact absurd hhas (hnot trampolines)
    | error error =>
      refine iff_of_true ?_ ⟨⟨indirection, rfl⟩, fun trampolines hhas ↦ ?_⟩
      · cases error <;> exact ⟨_, rfl⟩
      · cases hdetect.symm.trans
          (detectClassLinkerTrampolines_eq_ok_iff.mpr (hasTrampolines_congr.mpr hhas))

/-! ## Mapped bytes only -/

variable {m' : ByteMemory}

theorem readRuntimeWord_eq (memory : MemoryRanges) (m : ByteMemory) (runtime : BitVec 64)
    (offset : Nat) : readRuntimeWord memory m runtime offset =
      readUsize (runtime + BitVec.ofNat 64 offset) memory m := by
  rw [readUsize, MemoryRanges.contains, MemoryRanges.containsIn_normalizeAddress]
  rfl

theorem readRuntimeWord_of_sameMapped (runtime : BitVec 64) (h : SameMapped memory m m') :
    readRuntimeWord memory m' runtime = readRuntimeWord memory m runtime := by
  funext offset
  rw [readRuntimeWord_eq, readRuntimeWord_eq, readUsize_of_sameMapped h]

theorem candidatesAt_of_sameMapped (h : SameMapped memory m m') :
    candidatesAt memory m' runtime apiLevel vmValue =
      candidatesAt memory m runtime apiLevel vmValue := by
  have hword := readRuntimeWord_of_sameMapped runtime h
  have hcandidate : candidate memory m' runtime = candidate memory m runtime := by
    funext offsets
    rw [candidate, candidate, readRuntimeLayoutCandidate, readRuntimeLayoutCandidate, hword]
  funext vmOffset
  rw [candidatesAt, candidatesAt, hword, hcandidate]

theorem scanRuntimeLayoutCandidates_of_sameMapped {τ : Type} (h : SameMapped memory m m')
    {accept : ArtRuntimeLayout → Verdict (Error θ) String τ} :
    scanRuntimeLayoutCandidates memory m' runtime accept apiLevel vmValue feature =
      scanRuntimeLayoutCandidates memory m runtime accept apiLevel vmValue feature := by
  rw [scanRuntimeLayoutCandidates, scanRuntimeLayoutCandidates, scanVmOffsets_eq, scanVmOffsets_eq,
    candidatesAt_of_sameMapped h, readRuntimeWord_of_sameMapped runtime h]

theorem readClassLinkerTrampolines_of_sameMapped (h : SameMapped memory m m')
    (classLinker : BitVec 64) (offsets : ClassLinkerTrampolineOffsets) :
    (readClassLinkerTrampolines memory m' classLinker offsets : Except (Error θ) _) =
      readClassLinkerTrampolines memory m classLinker offsets := by
  simp only [readClassLinkerTrampolines, readTrampoline, readUsize_of_sameMapped h]

theorem scanPredicates_of_sameMapped (h : SameMapped memory m m') (classLinker : BitVec 64)
    (predicates : ArtClassLinkerEntrypointPredicates) (offsets : List Nat)
    (found : Option DetectedTrampolines) :
    (scanPredicates memory m' classLinker predicates found offsets : Except (Error θ) _) =
      scanPredicates memory m classLinker predicates found offsets := by
  induction offsets generalizing found with
  | nil => rfl
  | cons offset offsets ih =>
    have hmatches : matchesPredicates memory m' classLinker predicates offset =
        matchesPredicates memory m classLinker predicates offset := by
      simp only [matchesPredicates, readUsize_of_sameMapped h]
    rw [scanPredicates, scanPredicates, readClassLinkerTrampolines_of_sameMapped h, hmatches]
    simp only [ih]

theorem detectClassLinkerTrampolines_of_sameMapped (h : SameMapped memory m m')
    (layout : ArtRuntimeLayout) :
    (detectClassLinkerTrampolines memory m' layout apiLevel predicates : Except (Error θ) _) =
      detectClassLinkerTrampolines memory m layout apiLevel predicates := by
  have hanchor : (fun offset ↦ decide (IsAnchor memory m' layout offset)) =
      fun offset ↦ decide (IsAnchor memory m layout offset) := by
    funext offset
    rw [decide_eq_decide, IsAnchor, IsAnchor, readUsize_of_sameMapped h]
  rw [detectClassLinkerTrampolines, detectClassLinkerTrampolines, hanchor]
  simp only [readClassLinkerTrampolines_of_sameMapped h,
    detectClassLinkerTrampolinesByPredicate.eq_def, scanPredicates_of_sameMapped h]

theorem probeLayout_of_sameMapped (h : SameMapped memory m m') :
    probeLayout memory m' feature apiLevel display setJniIdType predicates =
      probeLayout memory m feature apiLevel display setJniIdType predicates := by
  funext layout
  simp only [probeLayout, detectJniIdsIndirection, readU32_of_sameMapped h,
    detectClassLinkerTrampolines_of_sameMapped h]

theorem detectRuntimeLayoutAndTrampolines_of_sameMapped (h : SameMapped memory m m') :
    detectRuntimeLayoutAndTrampolines memory m' feature apiLevel runtime vmValue display
        setJniIdType predicates =
      detectRuntimeLayoutAndTrampolines memory m feature apiLevel runtime vmValue display
        setJniIdType predicates := by
  rw [detectRuntimeLayoutAndTrampolines, detectRuntimeLayoutAndTrampolines,
    probeLayout_of_sameMapped h, scanRuntimeLayoutCandidates_of_sameMapped h]

/-! ## What is detected for replacements -/

/-- The layout of the first candidate whose class linker has trampolines. -/
structure IsReplacementLayout (θ : Type) (memory : MemoryRanges) (m : ByteMemory)
    (feature : String) (apiLevel : Int) (runtime vmValue : BitVec 64) (setJniIdType : Option Code)
    (predicates : Option ArtClassLinkerEntrypointPredicates)
    (result : ArtRuntimeLayout × DetectedTrampolines) : Prop where
  le_apiLevel : 26 ≤ apiLevel
  runtime_ne : runtime ≠ 0
  first : ∃ before layout after, candidates memory m runtime apiLevel vmValue =
      before ++ layout :: after ∧
    (∀ candidate ∈ before, ∀ trampolines,
      ¬HasTrampolines memory m candidate apiLevel predicates trampolines) ∧
    HasTrampolines memory m layout apiLevel predicates result.2 ∧
    ∃ indirection, (detectJniIdsIndirection memory m feature runtime setJniIdType :
      Except (Error θ) _) = .ok indirection ∧
      result.1 = { layout with jniIdsIndirection := indirection }

theorem detectRuntimeLayoutAndTrampolines_iff
    {result : ArtRuntimeLayout × DetectedTrampolines} :
    detectRuntimeLayoutAndTrampolines memory m feature apiLevel runtime vmValue display
      setJniIdType predicates = (.ok result : Except (Error θ) _) ↔
    IsReplacementLayout θ memory m feature apiLevel runtime vmValue setJniIdType predicates
      result := by
  have hruntime {before after : List ArtRuntimeLayout} {layout : ArtRuntimeLayout}
      (hsplit : candidates memory m runtime apiLevel vmValue = before ++ layout :: after) :
      layout.runtime = runtime ∧ ∀ candidate ∈ before, candidate.runtime = runtime := by
    constructor
    · exact runtime_of_mem_candidates (hsplit ▸ List.mem_append_right _ List.mem_cons_self)
    · intro candidate hcandidate
      exact runtime_of_mem_candidates (hsplit ▸ List.mem_append_left _ hcandidate)
  constructor
  · intro h
    obtain ⟨⟨outcome, found⟩, hscan, h⟩ := Fallible.bind_eq_ok.mp h
    cases outcome with
    | exhausted first => cases first <;> cases found <;> cases h
    | accepted result' =>
      obtain rfl := Except.ok.inj h
      obtain ⟨hapi, hne, -, before, layout, after, hsplit, hbefore, haccepted⟩ :=
        scanRuntimeLayoutCandidates_eq_accepted_iff.mp hscan
      obtain ⟨indirection, hjni, hresult, hhas⟩ := probeLayout_eq_accepted_iff.mp haccepted
      rw [(hruntime hsplit).1] at hjni
      refine ⟨hapi, hne, before, layout, after, hsplit, ?_, hhas, indirection, hjni, hresult⟩
      intro candidate hcandidate
      exact (probeLayout_eq_rejected_iff.mp (hbefore candidate hcandidate)).2
  · rintro ⟨hapi, hne, before, layout, after, hsplit, hbefore, hhas, indirection, hjni, hresult⟩
    obtain ⟨hlayout, hall⟩ := hruntime hsplit
    refine Fallible.bind_eq_ok.mpr ⟨(.accepted result, true), ?_, rfl⟩
    refine scanRuntimeLayoutCandidates_eq_accepted_iff.mpr
      ⟨hapi, hne, rfl, before, layout, after, hsplit, ?_, ?_⟩
    · intro candidate hcandidate
      refine probeLayout_eq_rejected_iff.mpr ⟨⟨indirection, ?_⟩, hbefore candidate hcandidate⟩
      rw [hall candidate hcandidate]
      exact hjni
    · refine probeLayout_eq_accepted_iff.mpr ⟨indirection, ?_, hresult, hhas⟩
      rw [hlayout]
      exact hjni

/-! ## How it fails -/

variable {error : Error θ}

theorem isUnsupported_of_detectJniIdsIndirection
    (h : detectJniIdsIndirection memory m feature runtime setJniIdType = .error error) :
    IsUnsupported feature error := by
  cases setJniIdType with
  | none => cases h
  | some setJniIdType =>
    rcases Fallible.bind_eq_error.mp h with herror | ⟨offset, -, h⟩
    · exact isUnsupported_of_detectIndirectionFrom herror
    · cases offset <;> cases h

theorem isUnsupported_of_probeLayout {layout : ArtRuntimeLayout}
    (h : probeLayout memory m feature apiLevel display setJniIdType predicates layout =
      .failed error) : IsUnsupported feature error := by
  rw [probeLayout] at h
  cases hjni : detectJniIdsIndirection memory m feature layout.runtime setJniIdType with
  | error error' =>
    rw [hjni] at h
    obtain rfl := Verdict.failed.inj h
    exact isUnsupported_of_detectJniIdsIndirection hjni
  | ok indirection =>
    rw [hjni] at h
    dsimp only at h
    split at h
    case h_1 => cases h
    case h_2 => cases h
    case h_3 => cases h

theorem scanRuntimeLayoutCandidates_eq_error {τ : Type}
    {accept : ArtRuntimeLayout → Verdict (Error θ) String τ}
    (h : scanRuntimeLayoutCandidates memory m runtime accept apiLevel vmValue feature =
      .error error) :
    IsUnsupported feature error ∨ ∃ layout, accept layout = .failed error := by
  rw [scanRuntimeLayoutCandidates] at h
  split at h
  case isTrue => exact .inl (isUnsupported_of_unsupported h)
  case isFalse =>
    split at h
    case isTrue => exact .inl (isUnsupported_of_unsupported h)
    case isFalse =>
      rw [scanVmOffsets_eq] at h
      cases hsearch : search accept none
          (vmOffsets.flatMap (candidatesAt memory m runtime apiLevel vmValue)) with
      | ok outcome =>
        rw [hsearch] at h
        cases h
      | error error' =>
        rw [hsearch] at h
        obtain rfl := Except.error.inj h
        obtain ⟨-, layout, -, -, -, hfailed⟩ := (search_eq_failed_iff none).mp hsearch
        exact .inr ⟨layout, hfailed⟩

theorem isUnsupported_of_detectRuntimeLayoutAndTrampolines
    (h : detectRuntimeLayoutAndTrampolines memory m feature apiLevel runtime vmValue display
      setJniIdType predicates = .error error) : IsUnsupported feature error := by
  rcases Fallible.bind_eq_error.mp h with herror | ⟨⟨outcome, found⟩, -, h⟩
  · rcases scanRuntimeLayoutCandidates_eq_error herror with herror | ⟨layout, hfailed⟩
    · exact herror
    · exact isUnsupported_of_probeLayout hfailed
  · cases outcome with
    | accepted result => cases h
    | exhausted first =>
      cases first with
      | some reason => exact isUnsupported_of_unsupported h
      | none => cases found <;> exact isUnsupported_of_unsupported h

/-- **What is detected for replacements** is the layout of the first candidate whose class linker has
trampolines. No byte counts that is not mapped, and a failure says what is not supported. -/
theorem detectRuntimeLayoutAndTrampolines_lawful (θ : Type) (memory : MemoryRanges)
    (m : ByteMemory) (feature : String) (apiLevel : Int) (runtime vmValue : BitVec 64)
    (display : Error θ → String) (setJniIdType : Option Code)
    (predicates : Option ArtClassLinkerEntrypointPredicates) :
    (∀ result, detectRuntimeLayoutAndTrampolines memory m feature apiLevel runtime vmValue display
        setJniIdType predicates = .ok result ↔
      IsReplacementLayout θ memory m feature apiLevel runtime vmValue setJniIdType predicates
        result) ∧
    (∀ m', SameMapped memory m m' →
      detectRuntimeLayoutAndTrampolines memory m' feature apiLevel runtime vmValue display
          setJniIdType predicates =
        detectRuntimeLayoutAndTrampolines memory m feature apiLevel runtime vmValue display
          setJniIdType predicates) ∧
    ∀ error, detectRuntimeLayoutAndTrampolines memory m feature apiLevel runtime vmValue display
        setJniIdType predicates = .error error → IsUnsupported feature error :=
  ⟨fun _ ↦ detectRuntimeLayoutAndTrampolines_iff,
    fun _ ↦ detectRuntimeLayoutAndTrampolines_of_sameMapped,
    fun _ ↦ isUnsupported_of_detectRuntimeLayoutAndTrampolines⟩

/-- A memory that has some words. -/
def wordsAt (words : List (BitVec 64 × BitVec 64)) : ByteMemory := fun a ↦
  match words.find? fun word ↦ (a - word.1).toNat < 8 with
  | some word => BitVec.ofNat 8 (word.2.toNat / 256 ^ (a - word.1).toNat)
  | none => 0

/-- On API 30 the first candidate is one word off, and has a class linker without trampolines. -/
theorem detectRuntimeLayoutAndTrampolines_second :
    detectRuntimeLayoutAndTrampolines (θ := Unit)
      ⟨[⟨0x10000, 0x10188, true, false⟩, ⟨0x20000, 0x20108, true, false⟩,
        ⟨0x30000, 0x31000, false, true⟩]⟩
      (wordsAt [(0x10180, 0x7000), (0x10178, 0x30060), (0x10168, 0x30ff0), (0x10160, 0x20000),
        (0x10158, 0x30010), (0x10150, 0x30020), (0x10118, 0x30050), (0x10110, 0x30030),
        (0x10120, 1), (0x200c8, 0x30010), (0x200e8, 0x30100), (0x200f0, 0x30200),
        (0x200f8, 0x30300), (0x20100, 0x30400)])
      FEATURE_METHOD_REPLACEMENT 30 0x10000 0x7000 (fun _ ↦ "")
      (some fun n ↦ [⟨.ldr, 0x40000, some [.reg (.other 8), .mem .x0 0x120]⟩,
        ⟨.cmp, 0x40004, some []⟩][n]?) none =
    .ok (⟨0x10000, 0x30030, 0x30020, 0x20000, 0x30010, 0x30060, some 1⟩,
      ⟨⟨0x30100, 0x30300, 0x30400⟩, 0x30200⟩) := by
  refine ((detectRuntimeLayoutAndTrampolines_lawful _ _ _ _ _ _ _ _ _ _).1 _).mpr ?_
  refine ⟨by decide, by decide, [⟨0x10000, 0x30050, 0x30010, 0x30ff0, 0x20000, 0x30060, none⟩],
    ⟨0x10000, 0x30030, 0x30020, 0x20000, 0x30010, 0x30060, none⟩, [], by rfl, ?_, ?_, some 1,
    by rfl, by rfl⟩
  · intro candidate hcandidate trampolines hhas
    obtain rfl := List.mem_singleton.mp hcandidate
    rcases hhas.place with ⟨offset, hanchor, -⟩ | ⟨-, predicates, hnone, -⟩
    · cases hanchor
    · cases hnone
  · exact (detectClassLinkerTrampolines_eq_ok_iff (θ := Unit)).mp (by rfl)

end

end JavaBridge.Art

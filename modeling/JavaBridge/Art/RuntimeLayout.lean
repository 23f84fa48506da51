import JavaBridge.Art.Dispatch
import JavaBridge.Art.FieldOffsets
import JavaBridge.Art.Memory
import JavaBridge.Library.Probe

/-!
# The layout of the runtime

The fields of the runtime of ART are found from the one that points to the VM: wherever that value
is, the other fields are at offsets that the API level says. Nothing is read that is not mapped.

Main results:

* `scanVmOffsets_eq`: the loops are one search among the candidates.
-/

namespace JavaBridge.Art

open Probe

def STD_STRING_SIZE : Nat := 3 * POINTER_SIZE
def K_POINTER_JNI_ID_TYPE : Int := 0

structure ArtRuntimeLayout where
  runtime : BitVec 64
  heap : BitVec 64
  threadList : BitVec 64
  classLinker : BitVec 64
  internTable : BitVec 64
  jniIdManager : BitVec 64
  jniIdsIndirection : Option Int
  deriving DecidableEq

def ArtRuntimeLayout.usesIndirectJniIds (layout : ArtRuntimeLayout) : Bool :=
  layout.jniIdManager ≠ 0 && layout.jniIdsIndirection.any (· ≠ K_POINTER_JNI_ID_TYPE)

structure RuntimeLayoutOffsets where
  vm : Nat
  heap : Nat
  threadList : Nat
  internTable : Nat
  classLinker : Nat
  jniIdManager : Option Nat
  deriving DecidableEq

/-! ## Offsets -/

def checkedSub (a b : Nat) : Option Nat := if b ≤ a then some (a - b) else none

def classLinkerOffsetsForApi (apiLevel : Int) (vmOffset : Nat) : List Nat :=
  if 33 ≤ apiLevel then [vmOffset - 4 * POINTER_SIZE]
  else if 30 ≤ apiLevel then [vmOffset - 3 * POINTER_SIZE, vmOffset - 4 * POINTER_SIZE]
  else if 29 ≤ apiLevel then [vmOffset - 2 * POINTER_SIZE]
  else if 27 ≤ apiLevel then [vmOffset - STD_STRING_SIZE - 3 * POINTER_SIZE]
  else [vmOffset - STD_STRING_SIZE - 2 * POINTER_SIZE]

def runtimeHeapOffsetForApi (apiLevel : Int) (threadListOffset : Nat) : Option Nat :=
  if 34 ≤ apiLevel then checkedSub threadListOffset (9 * POINTER_SIZE)
  else if 24 ≤ apiLevel then checkedSub threadListOffset (8 * POINTER_SIZE)
  else if 23 ≤ apiLevel then checkedSub threadListOffset (7 * POINTER_SIZE)
  else checkedSub threadListOffset (4 * POINTER_SIZE)

def RuntimeLayoutOffsets.fromClassLinker (apiLevel : Int) (vm classLinker : Nat) :
    Option RuntimeLayoutOffsets := do
  let internTable ← checkedSub classLinker POINTER_SIZE
  let threadList ← checkedSub internTable POINTER_SIZE
  let heap ← runtimeHeapOffsetForApi apiLevel threadList
  let jniIdManager ← if 30 ≤ apiLevel then (checkedSub vm POINTER_SIZE).map some else some none
  some ⟨vm, heap, threadList, internTable, classLinker, jniIdManager⟩

def runtimeLayoutOffsetCandidatesForApi (apiLevel : Int) (vmOffset : Nat) :
    List RuntimeLayoutOffsets :=
  (classLinkerOffsetsForApi apiLevel vmOffset).filterMap
    (RuntimeLayoutOffsets.fromClassLinker apiLevel vmOffset)

/-- `(384..(384 + (100 * POINTER_SIZE))).step_by(POINTER_SIZE)`. -/
def vmOffsets : List Nat := (List.range 100).map (384 + POINTER_SIZE * ·)

/-! ## Candidates -/

section

variable (memory : MemoryRanges) (m : ByteMemory) (runtime : BitVec 64)

def readRuntimeWord (offset : Nat) : Option (BitVec 64) :=
  let address := runtime + BitVec.ofNat 64 offset
  if memory.contains address POINTER_SIZE then some (m.word (normalizeAddress address)) else none

def readRuntimeLayoutCandidate (offsets : RuntimeLayoutOffsets) : Option ArtRuntimeLayout := do
  let heap ← readRuntimeWord memory m runtime offsets.heap
  let threadList ← readRuntimeWord memory m runtime offsets.threadList
  let internTable ← readRuntimeWord memory m runtime offsets.internTable
  let classLinker ← readRuntimeWord memory m runtime offsets.classLinker
  let jniIdManager ← match offsets.jniIdManager with
    | some offset => readRuntimeWord memory m runtime offset
    | none => some 0
  some ⟨runtime, heap, threadList, classLinker, internTable, jniIdManager, none⟩

def runtimeLayoutPointersAreReadable (layout : ArtRuntimeLayout) : Bool :=
  [layout.heap, layout.threadList, layout.classLinker, layout.internTable].all
      (memory.contains · POINTER_SIZE) &&
    (layout.jniIdManager = 0 || memory.contains layout.jniIdManager POINTER_SIZE)

variable {θ τ : Type} (accept : ArtRuntimeLayout → Verdict (Error θ) String τ)

/-- The inner loop. -/
def scanOffsets : Option String → List RuntimeLayoutOffsets →
    Except (Error θ) (Outcome String τ)
  | first, [] => .ok (.exhausted first)
  | first, offsets :: rest =>
    match readRuntimeLayoutCandidate memory m runtime offsets with
    | none => scanOffsets first rest
    | some layout =>
      if layout.heap = 0 ∨ layout.threadList = 0 ∨ layout.classLinker = 0 ∨
          layout.internTable = 0 then
        scanOffsets first rest
      else if !runtimeLayoutPointersAreReadable memory layout then scanOffsets first rest
      else
        match accept layout with
        | .failed error => .error error
        | .rejected reason => scanOffsets (first.or (some reason)) rest
        | .accepted result => .ok (.accepted result)

variable (apiLevel : Int) (vmValue : BitVec 64)

/-- The outer loop, which says whether the value has been found, too. -/
def scanVmOffsets : Bool → Option String → List Nat →
    Except (Error θ) (Outcome String τ × Bool)
  | foundVm, first, [] => .ok (.exhausted first, foundVm)
  | foundVm, first, vmOffset :: rest =>
    match readRuntimeWord memory m runtime vmOffset with
    | none => scanVmOffsets foundVm first rest
    | some value =>
      if value ≠ vmValue then scanVmOffsets foundVm first rest
      else do
        match ← scanOffsets memory m runtime accept first
            (runtimeLayoutOffsetCandidatesForApi apiLevel vmOffset) with
        | .accepted result => .ok (.accepted result, true)
        | .exhausted first => scanVmOffsets true first rest

def scanRuntimeLayoutCandidates (feature : String) :
    Except (Error θ) (Outcome String τ × Bool) :=
  if apiLevel < 26 then
    RunnableThread.unsupported feature ("Android API level " ++ toString apiLevel ++
      " is below the API 26+ arm64 milestone")
  else if runtime = 0 then RunnableThread.unsupported feature "ART runtime pointer is null"
  else scanVmOffsets memory m runtime accept apiLevel vmValue false none vmOffsets

/-! ## The scan is one search -/

/-- What a layout has to be before anything more is looked at. -/
def Usable (layout : ArtRuntimeLayout) : Prop :=
  (layout.heap ≠ 0 ∧ layout.threadList ≠ 0 ∧ layout.classLinker ≠ 0 ∧ layout.internTable ≠ 0) ∧
    runtimeLayoutPointersAreReadable memory layout = true

instance decidableUsable : DecidablePred (Usable memory) :=
  fun _ ↦ inferInstanceAs (Decidable (_ ∧ _))

def candidate (offsets : RuntimeLayoutOffsets) : Option ArtRuntimeLayout :=
  (readRuntimeLayoutCandidate memory m runtime offsets).filter (Usable memory ·)

/-- The candidates where the value of the VM is at an offset. -/
def candidatesAt (vmOffset : Nat) : List ArtRuntimeLayout :=
  if readRuntimeWord memory m runtime vmOffset = some vmValue then
    (runtimeLayoutOffsetCandidatesForApi apiLevel vmOffset).filterMap (candidate memory m runtime)
  else []

def candidates : List ArtRuntimeLayout :=
  vmOffsets.flatMap (candidatesAt memory m runtime apiLevel vmValue)

def foundVm : Bool :=
  vmOffsets.any fun vmOffset ↦ readRuntimeWord memory m runtime vmOffset = some vmValue

variable {memory m runtime accept apiLevel vmValue}

theorem candidate_eq_some_iff {offsets : RuntimeLayoutOffsets} {layout : ArtRuntimeLayout} :
    candidate memory m runtime offsets = some layout ↔
      readRuntimeLayoutCandidate memory m runtime offsets = some layout ∧
        Usable memory layout := by
  rw [candidate, Option.filter_eq_some_iff, decide_eq_true_iff]

theorem scanOffsets_eq (first : Option String) (offsets : List RuntimeLayoutOffsets) :
    scanOffsets memory m runtime accept first offsets =
      search accept first (offsets.filterMap (candidate memory m runtime)) := by
  induction offsets generalizing first with
  | nil => rfl
  | cons offsets rest ih =>
    rw [scanOffsets]
    split
    case h_1 hread =>
      have hnone : candidate memory m runtime offsets = none := by
        rw [candidate, hread]
        rfl
      rw [List.filterMap_cons_none hnone]
      exact ih first
    case h_2 layout hread =>
      by_cases husable : Usable memory layout
      · rw [List.filterMap_cons_some (candidate_eq_some_iff.mpr ⟨hread, husable⟩), search, if_neg,
          if_neg]
        · cases accept layout with
          | failed error => rfl
          | accepted result => rfl
          | rejected reason => exact ih _
        · rw [husable.2]
          exact Bool.false_ne_true
        · push Not
          exact husable.1
      · have hnone : candidate memory m runtime offsets = none := by
          rw [candidate, hread, Option.filter_some, if_neg (by simpa using husable)]
        rw [List.filterMap_cons_none hnone, ← ih first]
        split
        case isTrue => rfl
        case isFalse hnull =>
          push Not at hnull
          rw [if_pos]
          rw [Bool.not_eq_true']
          exact Bool.eq_false_of_not_eq_true fun hreadable ↦ husable ⟨hnull, hreadable⟩

/-- **The loops are one search among the candidates.** -/
theorem scanVmOffsets_eq (found : Bool) (first : Option String) (offsets : List Nat) :
    scanVmOffsets memory m runtime accept apiLevel vmValue found first offsets =
      (search accept first
        (offsets.flatMap (candidatesAt memory m runtime apiLevel vmValue))).map fun
          | .accepted result => (.accepted result, true)
          | .exhausted first => (.exhausted first, found || offsets.any fun offset ↦
              readRuntimeWord memory m runtime offset = some vmValue) := by
  induction offsets generalizing found first with
  | nil =>
    rw [List.flatMap_nil, List.any_nil, Bool.or_false]
    rfl
  | cons offset rest ih =>
    rw [scanVmOffsets, List.flatMap_cons, search_append, List.any_cons]
    by_cases hvm : readRuntimeWord memory m runtime offset = some vmValue
    · rw [hvm]
      dsimp only
      rw [if_neg (not_not_intro rfl), scanOffsets_eq, candidatesAt, if_pos hvm, decide_eq_true rfl,
        Bool.true_or, Bool.or_true]
      cases search accept first ((runtimeLayoutOffsetCandidatesForApi apiLevel offset).filterMap
          (candidate memory m runtime)) with
      | error error => rfl
      | ok outcome =>
        cases outcome with
        | accepted result => rfl
        | exhausted first' =>
          refine (ih true first').trans ?_
          rw [Bool.true_or]
          rfl
    · have hskip : candidatesAt memory m runtime apiLevel vmValue offset = [] := if_neg hvm
      rw [hskip, decide_eq_false hvm, Bool.false_or]
      refine Eq.trans ?_ (ih found first)
      split
      case h_1 => rfl
      case h_2 value hvalue =>
        rw [if_pos]
        rintro rfl
        exact hvm hvalue

end

end JavaBridge.Art

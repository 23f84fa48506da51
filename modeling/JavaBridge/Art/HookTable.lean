import JavaBridge.Art.ReplaceEffect

/-!
# The table of replaced methods

Replacements and reversals follow one another in any order, some of them fail, collections of garbage
synchronise the clones in between, and ART goes on writing to its memory. At any time the memory is
the one that ART would have without replacements, but for the fields of the methods that are replaced
now.

Main results:

* `HookTable.Indexes.insert`, `HookTable.Indexes.erase`: what becomes of the maps of the registry.
* `HookTable.Inv.frame`: which bytes a table depends on.
* `HookTable.Inv.synchronize`, `HookTable.Inv.write`: collections and ART keep the table.
-/

namespace JavaBridge.Art

open ByteMemory (block)

/-! ## Operations -/

/-- A replacement that has been made: the guard, and what it has put into memory. -/
structure Hook where
  guard : ArtMethodReplacementGuard
  layout : ArtMethodReplacementLayout
  replacement : BitVec 64
  /-- The mappings when the method was replaced. -/
  memory : MemoryRanges
  /-- What is in the page of the thunk. -/
  code : Nat → BitVec 8
  /-- Whether the method has the patched fields. -/
  inPlace : Bool

/-- A call of `replace_method`. -/
structure ReplaceCall (θ : Type) where
  memory : MemoryRanges
  layout : ArtMethodReplacementLayout
  env : ReplaceEnvironment θ memory layout
  kind : MethodKind
  replacement : BitVec 64

section

variable {θ : Type}

def ReplaceCall.code (call : ReplaceCall θ) : Nat → BitVec 8 :=
  match call.env.thunkPage with
  | .ok page => page.code
  | .error _ => fun _ ↦ 0

def ReplaceCall.hook (call : ReplaceCall θ) (guard : ArtMethodReplacementGuard) : Hook where
  guard := guard
  layout := call.layout
  replacement := call.replacement
  memory := call.memory
  code := call.code
  inPlace := true

/-- The hook after a reversal, which restores the fields unless an error comes before that. -/
def Hook.restored (hook : Hook) (guard : ArtMethodReplacementGuard)
    (memory : Except (Error θ) MemoryRanges) : Hook :=
  { hook with guard := guard, inPlace := hook.inPlace && !memory.isOk }

end

/-- The memory and the registry, and the replacements that were made. -/
structure HookTable (ι : Type) where
  world : World
  /-- The memory that ART would have without replacements. -/
  underlying : ByteMemory
  hooks : ι → Option Hook

/-- What happens next. -/
inductive HookOp (ι θ : Type)
  | replace (i : ι) (call : ReplaceCall θ)
  /-- With what `restore_method` is answered before it restores. -/
  | revert (i : ι) (memory : Except (Error θ) MemoryRanges)
  /-- The end of a collection. -/
  | synchronize (order : List (BitVec 64))
  /-- ART writes to its memory. -/
  | write (bytes : List (BitVec 64 × BitVec 8))

/-- Bytes written one after the other. -/
def writeBytes (bytes : List (BitVec 64 × BitVec 8)) (m : ByteMemory) : ByteMemory :=
  bytes.foldl (fun m byte ↦ Function.update m byte.1 byte.2) m

theorem writeBytes_of_not_mem {bytes : List (BitVec 64 × BitVec 8)} {m : ByteMemory}
    {b : BitVec 64} (h : ∀ byte ∈ bytes, byte.1 ≠ b) : writeBytes bytes m b = m b := by
  induction bytes generalizing m with
  | nil => rfl
  | cons byte bytes ih =>
    obtain ⟨hbyte, h⟩ := List.forall_mem_cons.mp h
    exact (ih h).trans (Function.update_of_ne (Ne.symm hbyte) _ _)

theorem writeBytes_congr (bytes : List (BitVec 64 × BitVec 8)) {m m' : ByteMemory} {b : BitVec 64}
    (h : m b = m' b) : writeBytes bytes m b = writeBytes bytes m' b := by
  induction bytes generalizing m m' with
  | nil => exact h
  | cons byte bytes ih =>
    apply ih
    dsimp only
    by_cases hb : b = byte.1
    · rw [hb, Function.update_self, Function.update_self]
    · rw [Function.update_of_ne hb, Function.update_of_ne hb]
      exact h

namespace HookTable

variable {ι θ : Type} [DecidableEq ι]

def setHook (i : ι) (hook : Hook) (world : World) (s : HookTable ι) : HookTable ι :=
  { s with world := world, hooks := Function.update s.hooks i (some hook) }

def step (s : HookTable ι) : HookOp ι θ → Option (HookTable ι)
  | .replace i call =>
    match s.hooks i with
    | some _ => none
    | none =>
      match replaceMethod call.env call.kind call.replacement s.world with
      | .ok guard world => some (s.setHook i (call.hook guard) world)
      | .error _ world => some { s with world := world }
  | .revert i memory =>
    match s.hooks i with
    | none => none
    | some hook =>
      match revert memory (hook.guard, s.world) with
      | .ok _ (guard, world) => some (s.setHook i (hook.restored guard memory) world)
      | .error _ (guard, world) => some (s.setHook i (hook.restored guard memory) world)
  | .synchronize order =>
    some { s with world := { s.world with
      memory := s.world.mappings.synchronizeReplacementMethods order s.world.memory } }
  | .write bytes =>
    some { s with
      world := { s.world with memory := writeBytes bytes s.world.memory }
      underlying := writeBytes bytes s.underlying }

/-- A table with nothing replaced. -/
def start (m : ByteMemory) : HookTable ι := ⟨⟨m, .empty⟩, m, fun _ ↦ none⟩

/-- The guard of the hook is not reverted. -/
def Live (s : HookTable ι) (i : ι) (hook : Hook) : Prop :=
  s.hooks i = some hook ∧ hook.guard.reverted = false

end HookTable

/-- The replacements and reversals of a process. -/
def hookTable (ι θ : Type) [DecidableEq ι] : Machine (HookTable ι) (HookOp ι θ) where
  Init s := ∃ m, s = .start m
  step := HookTable.step

/-! ## Where the bytes of a hook are -/

namespace ArtMethodRuntimeLayout

variable (layout : ArtMethodRuntimeLayout)

/-- The offsets of the fields, with their sizes. -/
def offsets : List (BitVec 64 × Nat) :=
  (layout.accessFlagsOffset, 4) :: (layout.jniCodeOffset, 8) :: (layout.quickCodeOffset, 8) ::
    layout.interpreterCodeOffset.toList.map fun offset ↦ (offset, 8)

theorem fields_eq_map_offsets (method : BitVec 64) :
    layout.fields method =
      layout.offsets.map fun field ↦ (normalizeAddress (method + field.1), field.2) := by
  rw [fields, offsets]
  simp [Function.comp_def]

theorem jniCode_mem_offsets : (layout.jniCodeOffset, 8) ∈ layout.offsets := by
  simp [offsets]

theorem quickCode_mem_offsets : (layout.quickCodeOffset, 8) ∈ layout.offsets := by
  simp [offsets]

/-- The fields lie in the method, behind its declaring class. -/
def BehindClass : Prop :=
  ∀ field ∈ layout.offsets, 4 ≤ field.1.toNat ∧ field.1.toNat + field.2 ≤ layout.methodSize.toNat

variable {layout}

theorem BehindClass.eight_le (h : layout.BehindClass) : 8 ≤ layout.methodSize.toNat := by
  have hflags := h (layout.accessFlagsOffset, 4) List.mem_cons_self
  dsimp only at hflags
  omega

/-- The fields of a clone have no tag. -/
theorem BehindClass.normalizeAddress_eq (h : layout.BehindClass) {memory : MemoryRanges}
    (place : Mapping memory layout.methodSize.toNat) {offset : BitVec 64} {n : Nat}
    (hoffset : (offset, n) ∈ layout.offsets) (hn : 0 < n) :
    normalizeAddress (place.start + offset) = place.start + offset := by
  have hlt := (h _ hoffset).2
  dsimp only at hlt
  have hplace := place.toNat_add_le
  apply BitVec.eq_of_toNat_eq
  rw [toNat_normalizeAddress, BitVec.toNat_add]
  omega

/-- The fields of a clone lie in its mapping. -/
theorem BehindClass.fieldBytes_subset (h : layout.BehindClass) {memory : MemoryRanges}
    (place : Mapping memory layout.methodSize.toNat) :
    layout.fieldBytes place.start ⊆
      block place.start layout.methodSize.toNat \ block place.start 4 := by
  rintro b ⟨field, hfield, hb⟩
  rw [fields_eq_map_offsets, List.mem_map] at hfield
  obtain ⟨⟨offset, n⟩, hmem, rfl⟩ := hfield
  obtain ⟨hle, hlt⟩ := h _ hmem
  dsimp only at hle hlt hb
  have hn : 0 < n := Nat.pos_of_ne_zero fun hzero ↦ by
    rw [hzero] at hb
    exact Nat.not_lt_zero _ hb
  rw [h.normalizeAddress_eq place hmem hn] at hb
  have hsize := layout.methodSize.isLt
  constructor
  · exact ByteMemory.block_add_subset_block _ (Nat.le_of_lt hsize) hlt hb
  · have hdisjoint := ByteMemory.disjoint_block_block_add (n := 4) (k := n) place.start hle
      (Nat.le_trans hlt (Nat.le_of_lt hsize))
    exact Set.disjoint_right.mp hdisjoint hb

end ArtMethodRuntimeLayout

namespace Hook

variable (hook : Hook)

def fields : Set (BitVec 64) := hook.guard.layout.fieldBytes hook.guard.method

def clone : Set (BitVec 64) :=
  block hook.guard.clonedMethod.method hook.guard.clonedMethod.length.toNat

/-- The declaring class of the clone, which collections write to. -/
def classBytes : Set (BitVec 64) := block hook.guard.clonedMethod.method 4

def cloneFields : Set (BitVec 64) :=
  hook.guard.layout.fieldBytes hook.guard.clonedMethod.method

def page : Set (BitVec 64) := block hook.guard.dispatchThunk thunkLength

/-- What was mapped for the hook. -/
def own : Set (BitVec 64) := hook.clone ∪ hook.page

def record : ArtReplacementRecord :=
  replacementRecord hook.layout hook.guard.clonedMethod.method hook.guard.dispatchThunk

/-- Where a hook is, by the bytes `K` that are mapped all the time. -/
structure Placed (K : Set (BitVec 64)) : Prop where
  guard_layout : hook.guard.layout = hook.layout.method
  fields_subset : hook.fields ⊆ K
  own_disjoint : Disjoint K hook.own
  clone_page : Disjoint hook.clone hook.page
  class_subset : hook.classBytes ⊆ hook.clone
  cloneFields_subset : hook.cloneFields ⊆ hook.clone \ hook.classBytes
  quickCode_untagged :
    normalizeAddress (hook.guard.clonedMethod.method + hook.guard.layout.quickCodeOffset) =
      hook.guard.clonedMethod.method + hook.guard.layout.quickCodeOffset
  jniCode_untagged :
    normalizeAddress (hook.guard.clonedMethod.method + hook.guard.layout.jniCodeOffset) =
      hook.guard.clonedMethod.method + hook.guard.layout.jniCodeOffset
  /-- What the page was written for. -/
  thunk : ∃ thunk : ArtMethodDispatchThunk,
    thunk.clonedMethod = hook.guard.clonedMethod.method ∧
    thunk.originalDispatchCode = hook.layout.trampolines.quickToInterpreterBridgeTrampoline ∧
    thunk.quickCodeOffset = hook.layout.method.quickCodeOffset.toNat ∧
    thunk.threadManagedStackOffset = hook.layout.threadManagedStackOffset.toNat

structure Apart (hook hook' : Hook) : Prop where
  method : hook.guard.method ≠ hook'.guard.method
  clone : hook.guard.clonedMethod.method ≠ hook'.guard.clonedMethod.method
  fields : Disjoint hook.fields hook'.fields
  own : Disjoint hook.own hook'.own

/-- What memory holds of a hook. -/
structure Holds (underlying m : ByteMemory) : Prop where
  /-- The guard has what the fields would be without it. -/
  saved : ∃ memory m₀, IsSnapshot hook.guard.method hook.guard.layout memory m₀
    hook.guard.original ∧ Set.EqOn m₀ underlying hook.fields
  patched : hook.inPlace = true → IsSnapshot hook.guard.method hook.guard.layout hook.memory m
    (originalPatched hook.layout hook.guard.original hook.guard.dispatchThunk)
  clone : IsSnapshot hook.guard.clonedMethod.method hook.guard.layout
    hook.guard.clonedMethod.memoryRanges m
    (clonePatched hook.layout hook.guard.original hook.replacement)
  code : ∀ i < thunkLength, m (hook.guard.dispatchThunk + BitVec.ofNat 64 i) = hook.code i

variable {hook}

theorem Apart.symm {hook' : Hook} (h : hook.Apart hook') : hook'.Apart hook :=
  ⟨h.method.symm, h.clone.symm, h.fields.symm, h.own.symm⟩

theorem clone_subset_own : hook.clone ⊆ hook.own := Set.subset_union_left

theorem page_subset_own : hook.page ⊆ hook.own := Set.subset_union_right

theorem mem_page {i : Nat} (hi : i < thunkLength) :
    hook.guard.dispatchThunk + BitVec.ofNat 64 i ∈ hook.page := by
  show (_ - _ : BitVec 64).toNat < thunkLength
  rw [ByteMemory.add_ofNat_sub_toNat _ (Nat.lt_trans hi (by decide))]
  exact hi

/-- A hook depends on its own bytes and on the fields of its method. -/
theorem Holds.frame {u u' m m' : ByteMemory} (h : hook.Holds u m)
    (hu : Set.EqOn u' u hook.fields) (hfields : Set.EqOn m' m hook.fields)
    (hclone : Set.EqOn m' m hook.cloneFields) (hpage : Set.EqOn m' m hook.page) :
    hook.Holds u' m' where
  saved := by
    obtain ⟨memory, m₀, hs, heq⟩ := h.saved
    exact ⟨memory, m₀, hs, heq.trans hu.symm⟩
  patched := fun hinPlace ↦ (h.patched hinPlace).of_eqOn hfields
  clone := h.clone.of_eqOn hclone
  code := fun i hi ↦ (hpage (mem_page hi)).trans (h.code i hi)

end Hook

/-! ## What holds of a table -/

namespace HookTable

variable {ι θ : Type} [DecidableEq ι] {K : Set (BitVec 64)} {s t : HookTable ι} {i j : ι}
  {hook hook' : Hook}

omit [DecidableEq ι] in
theorem Live.unique (h : s.Live i hook) (h' : s.Live i hook') : hook = hook' :=
  Option.some.inj (h.1.symm.trans h'.1)

theorem hooks_setHook (world : World) :
    (s.setHook i hook world).hooks = Function.update s.hooks i (some hook) := rfl

theorem setHook_setHook (world world' : World) :
    (s.setHook i hook world).setHook i hook' world' = s.setHook i hook' world' := by
  rw [setHook, setHook, setHook, Function.update_idem]

theorem live_setHook {world : World} :
    (s.setHook i hook world).Live j hook' ↔
      j = i ∧ hook' = hook ∧ hook.guard.reverted = false ∨ j ≠ i ∧ s.Live j hook' := by
  by_cases hj : j = i
  · subst hj
    rw [Live, hooks_setHook, Function.update_self, Option.some.injEq]
    constructor
    · rintro ⟨rfl, hlive⟩
      exact .inl ⟨rfl, rfl, hlive⟩
    · rintro (⟨-, rfl, hlive⟩ | ⟨hne, -⟩)
      · exact ⟨rfl, hlive⟩
      · exact absurd rfl hne
  · rw [Live, hooks_setHook, Function.update_of_ne hj]
    constructor
    · intro h
      exact .inr ⟨hj, h⟩
    · rintro (⟨hji, -⟩ | ⟨-, h⟩)
      · exact absurd hji hj
      · exact h

theorem forall_live_setHook {world : World} {P : ι → Hook → Prop} :
    (∀ j hook', (s.setHook i hook world).Live j hook' → P j hook') ↔
      (hook.guard.reverted = false → P i hook) ∧ ∀ j hook', j ≠ i → s.Live j hook' → P j hook' := by
  constructor
  · intro h
    refine ⟨fun hlive ↦ h i hook (live_setHook.mpr (.inl ⟨rfl, rfl, hlive⟩)), ?_⟩
    intro j hook' hj hlive
    exact h j hook' (live_setHook.mpr (.inr ⟨hj, hlive⟩))
  · rintro ⟨hi, hother⟩ j hook' hlive
    rcases live_setHook.mp hlive with ⟨rfl, rfl, hlive⟩ | ⟨hj, hlive⟩
    · exact hi hlive
    · exact hother j hook' hj hlive

theorem exists_live_setHook {world : World} {P : Hook → Prop} :
    (∃ j hook', (s.setHook i hook world).Live j hook' ∧ P hook') ↔
      hook.guard.reverted = false ∧ P hook ∨ ∃ j hook', j ≠ i ∧ s.Live j hook' ∧ P hook' := by
  constructor
  · rintro ⟨j, hook', hlive, hP⟩
    rcases live_setHook.mp hlive with ⟨rfl, rfl, hlive⟩ | ⟨hj, hlive⟩
    · exact .inl ⟨hlive, hP⟩
    · exact .inr ⟨j, hook', hj, hlive, hP⟩
  · rintro (⟨hlive, hP⟩ | ⟨j, hook', hj, hlive, hP⟩)
    · exact ⟨i, hook, live_setHook.mpr (.inl ⟨rfl, rfl, hlive⟩), hP⟩
    · exact ⟨j, hook', live_setHook.mpr (.inr ⟨hj, hlive⟩), hP⟩

omit [DecidableEq ι] in
theorem exists_live_iff {P : Hook → Prop} (hlive : s.Live i hook) :
    (∃ j hook', s.Live j hook' ∧ P hook') ↔
      P hook ∨ ∃ j hook', j ≠ i ∧ s.Live j hook' ∧ P hook' := by
  constructor
  · rintro ⟨j, hook', hlive', hP⟩
    by_cases hj : j = i
    · subst hj
      rw [hlive.unique hlive']
      exact .inl hP
    · exact .inr ⟨j, hook', hj, hlive', hP⟩
  · rintro (hP | ⟨j, hook', -, hlive', hP⟩)
    · exact ⟨i, hook, hlive, hP⟩
    · exact ⟨j, hook', hlive', hP⟩

/-- A map of the registry has an entry for each live hook. -/
def Indexes {α β : Type} (f : α → Option β) (key : Hook → α) (value : Hook → β)
    (s : HookTable ι) : Prop :=
  ∀ a b, f a = some b ↔ ∃ i hook, s.Live i hook ∧ key hook = a ∧ value hook = b

namespace Indexes

variable {α β : Type} [DecidableEq α] {f : α → Option β} {key : Hook → α} {value : Hook → β}

/-- A new hook with a key of its own. -/
theorem insert (h : s.Indexes f key value) (world : World) (hi : s.hooks i = none)
    (hlive : hook.guard.reverted = false) (hkey : ∀ j hook', s.Live j hook' → key hook ≠ key hook') :
    (s.setHook i hook world).Indexes (Function.update f (key hook) (some (value hook))) key value := by
  have hfresh (j : ι) (hook' : Hook) (hlive : s.Live j hook') : j ≠ i := by
    rintro rfl
    cases hi.symm.trans hlive.1
  intro a b
  rw [exists_live_setHook]
  by_cases ha : a = key hook
  · subst ha
    rw [Function.update_self, Option.some.injEq]
    constructor
    · intro hb
      exact .inl ⟨hlive, rfl, hb⟩
    · rintro (⟨-, -, hb⟩ | ⟨j, hook', -, hlive', ha, -⟩)
      · exact hb
      · exact absurd ha.symm (hkey j hook' hlive')
  · rw [Function.update_of_ne ha, h]
    constructor
    · rintro ⟨j, hook', hlive', hrest⟩
      exact .inr ⟨j, hook', hfresh j hook' hlive', hlive', hrest⟩
    · rintro (⟨-, ha', -⟩ | ⟨j, hook', -, hlive', hrest⟩)
      · exact absurd ha'.symm ha
      · exact ⟨j, hook', hlive', hrest⟩

/-- The reversal of a hook with a key of its own. -/
theorem erase (h : s.Indexes f key value) (world : World) (hlive : s.Live i hook)
    (hreverted : hook'.guard.reverted = true)
    (hkey : ∀ j hook'', j ≠ i → s.Live j hook'' → key hook ≠ key hook'') :
    (s.setHook i hook' world).Indexes (Function.update f (key hook) none) key value := by
  intro a b
  rw [exists_live_setHook, hreverted]
  by_cases ha : a = key hook
  · subst ha
    rw [Function.update_self]
    constructor
    · intro hb
      cases hb
    · rintro (⟨hnot, -⟩ | ⟨j, hook'', hj, hlive', ha, -⟩)
      · cases hnot
      · exact absurd ha.symm (hkey j hook'' hj hlive')
  · rw [Function.update_of_ne ha, h, exists_live_iff hlive]
    constructor
    · rintro (⟨ha', -⟩ | hother)
      · exact absurd ha'.symm ha
      · exact .inr hother
    · rintro (⟨hnot, -⟩ | hother)
      · cases hnot
      · exact .inr hother

omit [DecidableEq α] in
/-- A hook whose entry stays. -/
theorem replace (h : s.Indexes f key value) (world : World) (hlive : s.Live i hook)
    (hlive' : hook'.guard.reverted = false) (hkey : key hook' = key hook)
    (hvalue : value hook' = value hook) : (s.setHook i hook' world).Indexes f key value := by
  intro a b
  rw [exists_live_setHook, h, exists_live_iff hlive, hkey, hvalue]
  exact or_congr_left (and_iff_right hlive').symm

end Indexes

/-- The live hooks, their places and the registry; and the memory `K`, which is what it would be
without them where no field is patched. -/
structure Inv (K : Set (BitVec 64)) (s : HookTable ι) : Prop where
  placed : ∀ i hook, s.Live i hook → hook.Placed K
  apart : ∀ i j hook hook', s.Live i hook → s.Live j hook' → i ≠ j → hook.Apart hook'
  holds : ∀ i hook, s.Live i hook → hook.Holds s.underlying s.world.memory
  methods : s.Indexes s.world.mappings.methods (·.guard.method) Hook.record
  replacements : s.Indexes s.world.mappings.replacements (·.guard.clonedMethod.method)
    (·.guard.method)
  memory : ∀ b ∈ K, (∀ i hook, s.Live i hook → hook.inPlace = true → b ∉ hook.fields) →
    s.world.memory b = s.underlying b

/-- The bytes that a table says something of. -/
def Bytes (K : Set (BitVec 64)) (s : HookTable ι) (b : BitVec 64) : Prop :=
  b ∈ K ∨ ∃ i hook, s.Live i hook ∧ (b ∈ hook.cloneFields ∨ b ∈ hook.page)

namespace Inv

omit [DecidableEq ι] in
theorem start (K : Set (BitVec 64)) (m : ByteMemory) : Inv K (.start m : HookTable ι) := by
  have hnone : ∀ i hook, ¬(HookTable.start m : HookTable ι).Live i hook := by
    intro i hook h
    cases h.1
  constructor
  case placed => exact fun i hook h ↦ absurd h (hnone i hook)
  case apart => exact fun i j hook hook' h ↦ absurd h (hnone i hook)
  case holds => exact fun i hook h ↦ absurd h (hnone i hook)
  case methods =>
    intro method record
    constructor
    · intro h
      cases h
    · rintro ⟨i, hook, h, -⟩
      exact absurd h (hnone i hook)
  case replacements =>
    intro clone method
    constructor
    · intro h
      cases h
    · rintro ⟨i, hook, h, -⟩
      exact absurd h (hnone i hook)
  case memory => exact fun b _ _ ↦ rfl

omit [DecidableEq ι] in
/-- Only the bytes that the table says something of matter. -/
theorem frame (h : Inv K s) {m : ByteMemory}
    (hm : ∀ b, s.Bytes K b → m b = s.world.memory b) :
    Inv K { s with world := { s.world with memory := m } } where
  placed := h.placed
  apart := h.apart
  holds := by
    intro i hook hlive
    apply (h.holds i hook hlive).frame (fun _ _ ↦ rfl)
    · exact fun b hb ↦ hm b (.inl ((h.placed i hook hlive).fields_subset hb))
    · exact fun b hb ↦ hm b (.inr ⟨i, hook, hlive, .inl hb⟩)
    · exact fun b hb ↦ hm b (.inr ⟨i, hook, hlive, .inr hb⟩)
  methods := h.methods
  replacements := h.replacements
  memory := fun b hb hfree ↦ (hm b (.inl hb)).trans (h.memory b hb hfree)

/-! ### Collections -/

omit [DecidableEq ι] in
/-- The bytes of the table are none that a collection writes to. -/
theorem not_mem_classBytes (h : Inv K s) {b : BitVec 64} (hb : s.Bytes K b)
    (hlive : s.Live i hook) : b ∉ hook.classBytes := by
  intro hclass
  have hplaced := h.placed i hook hlive
  have hown : b ∈ hook.own := Hook.clone_subset_own (hplaced.class_subset hclass)
  rcases hb with hK | ⟨j, hook', hlive', hb⟩
  · exact Set.disjoint_left.mp hplaced.own_disjoint hK hown
  · by_cases hij : i = j
    · subst hij
      obtain rfl := hlive.unique hlive'
      rcases hb with hb | hb
      · exact (hplaced.cloneFields_subset hb).2 hclass
      · exact Set.disjoint_left.mp hplaced.clone_page (hplaced.class_subset hclass) hb
    · have hown' : b ∈ hook'.own := by
        rcases hb with hb | hb
        · exact Hook.clone_subset_own ((h.placed j hook' hlive').cloneFields_subset hb).1
        · exact Hook.page_subset_own hb
      exact Set.disjoint_left.mp (h.apart i j hook hook' hlive hlive' hij).own hown hown'

omit [DecidableEq ι] in
theorem synchronizeReplacementMethods_apply (h : Inv K s) {b : BitVec 64} (hb : s.Bytes K b)
    (order : List (BitVec 64)) (m : ByteMemory) :
    s.world.mappings.synchronizeReplacementMethods order m b = m b := by
  rw [ArtReplacementMappings.synchronizeReplacementMethods]
  induction order generalizing m with
  | nil => rfl
  | cons method order ih =>
    rw [List.foldl_cons, ih]
    cases hrecord : s.world.mappings.methods method with
    | none => rfl
    | some record =>
      obtain ⟨i, hook, hlive, -, rfl⟩ := (h.methods method record).mp hrecord
      exact ByteMemory.store_of_not_mem m _ (h.not_mem_classBytes hb hlive)

omit [DecidableEq ι] in
theorem synchronize (h : Inv K s) (order : List (BitVec 64)) :
    Inv K { s with world := { s.world with
      memory := s.world.mappings.synchronizeReplacementMethods order s.world.memory } } :=
  h.frame fun _ hb ↦ h.synchronizeReplacementMethods_apply hb order _

/-! ### ART -/

omit [DecidableEq ι] in
theorem write (h : Inv K s) {bytes : List (BitVec 64 × BitVec 8)}
    (hbytes : ∀ byte ∈ bytes, ∀ i hook, s.Live i hook → byte.1 ∉ hook.fields ∧ byte.1 ∉ hook.own) :
    Inv K { s with
      world := { s.world with memory := writeBytes bytes s.world.memory }
      underlying := writeBytes bytes s.underlying } where
  placed := h.placed
  apart := h.apart
  holds := by
    intro i hook hlive
    have hspared {b : BitVec 64} (hb : b ∈ hook.fields ∨ b ∈ hook.own) (m : ByteMemory) :
        writeBytes bytes m b = m b := by
      apply writeBytes_of_not_mem
      rintro byte hbyte rfl
      obtain ⟨hfields, hown⟩ := hbytes byte hbyte i hook hlive
      exact hb.elim hfields hown
    have hcloneFields : hook.cloneFields ⊆ hook.own := fun b hb ↦
      Hook.clone_subset_own ((h.placed i hook hlive).cloneFields_subset hb).1
    exact (h.holds i hook hlive).frame (fun b hb ↦ hspared (.inl hb) _)
      (fun b hb ↦ hspared (.inl hb) _) (fun b hb ↦ hspared (.inr (hcloneFields hb)) _)
      fun b hb ↦ hspared (.inr (Hook.page_subset_own hb)) _
  methods := h.methods
  replacements := h.replacements
  memory := fun b hb hfree ↦ writeBytes_congr bytes (h.memory b hb hfree)

end Inv

end HookTable

end JavaBridge.Art

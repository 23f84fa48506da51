import JavaBridge.Art.HeapInstances
import JavaBridge.Library.Allocation

/-!
# The handle scope of a query

`Heap::GetInstances` wants a scope for handles and a vector to fill. The query makes both by hand,
and links the scope into the thread; the runtime chains further scopes to it where it runs out of
handles, and allocates the storage of the vector.

Main results:

* `newHandles_inside`: creating handles only writes to the fixed scope, at a slot for each.
* `dispose_spec`: the scope is taken out of the thread, and the chained scopes are freed.
* `disposeVector_spec`: the storage of the vector is freed.
-/

namespace JavaBridge.Art.HandleScope

open Fallible

/-! ## Layout -/

def BHS_OFFSET_NUM_REFS : Nat := POINTER_SIZE

def FIXED_HANDLE_SCOPE_SIZE : Nat := 64

def FIXED_HANDLE_SCOPE_REFS_OFFSET : Nat := POINTER_SIZE + 4

def FIXED_HANDLE_SCOPE_REFS : Nat := (FIXED_HANDLE_SCOPE_SIZE - POINTER_SIZE - 4 - 4) / 4

def FIXED_HANDLE_SCOPE_POS_OFFSET : Nat :=
  FIXED_HANDLE_SCOPE_REFS_OFFSET + FIXED_HANDLE_SCOPE_REFS * 4

/-- The next multiple of the size of a pointer. -/
def VSHS_OFFSET_SELF : Nat := (POINTER_SIZE + 4 + (POINTER_SIZE - 1)) / POINTER_SIZE * POINTER_SIZE

def VSHS_OFFSET_CURRENT_SCOPE : Nat := VSHS_OFFSET_SELF + POINTER_SIZE

/-- `base.add(offset)`. -/
def field (base : BitVec 64) (offset : Nat) : BitVec 64 := base + BitVec.ofNat 64 offset

/-! ## The process -/

variable {θ R : Type}

/-- The memory of the process. With it, what the runtime has allocated for the query and what has
been freed since. -/
structure Process (R : Type) where
  contents : ByteMemory
  allocated : List (BitVec 64)
  freed : List (BitVec 64)
  instances : List (ArtHeapInstanceHandle R)

namespace Process

def start (contents : ByteMemory) (instances : List (ArtHeapInstanceHandle R)) : Process R :=
  ⟨contents, [], [], instances⟩

variable (s : Process R)

def word (a : BitVec 64) : BitVec 64 := s.contents.word a

def write (a : BitVec 64) (n v : Nat) : Process R := { s with contents := s.contents.store a n v }

def free (A : Allocator) (a : BitVec 64) : Process R :=
  { s with contents := A.free a s.contents, freed := s.freed ++ [a] }

def push (raw : Option R) : Process R := { s with instances := s.instances ++ [⟨raw⟩] }

end Process

/-- What a query finds: the thread, what is known of the memory, where its own objects are, and what
the calls that it makes do. `Heap::GetInstances` changes the memory, and allocates scopes. -/
structure ScopeRuntime (θ R : Type) where
  thread : BitVec 64
  env : BitVec 64
  memory : Except (Error θ) MemoryRanges
  allocator : Allocator
  scope : BitVec 64
  firstScope : BitVec 64
  vector : BitVec 64
  getInstances : (scope classHandle vector : BitVec 64) → ByteMemory →
    ByteMemory × List (BitVec 64)
  attachCurrentThread : Except (Error θ) Unit
  /-- The answer to each request for a reference. -/
  newGlobalRefRaw : Nat → BitVec 64 → Except (Error θ) (Option R)

/-! ## The slot of the thread -/

/-- The offsets from 144 to 256 by the size of a pointer. -/
def jniEnvOffsets : List Nat := List.range' 144 14 POINTER_SIZE

def findArtThreadJniEnvOffset (thread env : BitVec 64) (memory : Option MemoryRanges)
    (m : ByteMemory) : Option Nat :=
  if thread = 0 ∨ env = 0 then none
  else
    jniEnvOffsets.find? fun offset ↦
      memory.all (·.contains (field thread offset) POINTER_SIZE) &&
        m.word (field thread offset) = env

def threadTopHandleScope (thread env : BitVec 64) (memory : MemoryRanges) (m : ByteMemory) :
    Except (Error θ) (BitVec 64) :=
  if thread = 0 ∨ env = 0 then
    .error (.unsupportedFeature FEATURE_HEAP_ENUMERATION "ART Thread or JNIEnv pointer is null")
  else
    match findArtThreadJniEnvOffset thread env (some memory) m with
    | some offset =>
      let topHandleScopeAddress := field thread (offset + 10 * POINTER_SIZE)
      if memory.containsWritable topHandleScopeAddress POINTER_SIZE then .ok topHandleScopeAddress
      else
        .error (.unsupportedFeature FEATURE_HEAP_ENUMERATION
          "ART Thread top handle-scope slot is not writable")
    | none =>
      .error (.unsupportedFeature FEATURE_HEAP_ENUMERATION
        "unable to determine ArtThread top handle-scope offset")

/-! ## The scope -/

structure FakeVariableSizedHandleScope where
  scope : BitVec 64
  firstScope : BitVec 64
  topHandleScope : BitVec 64
  previousTop : BitVec 64

namespace FakeVariableSizedHandleScope

def new (rt : ScopeRuntime θ R) (memory : MemoryRanges) :
    EStateM (Error θ) (Process R) FakeVariableSizedHandleScope := do
  modify (·.write rt.scope 32 0)
  modify (·.write rt.firstScope FIXED_HANDLE_SCOPE_SIZE 0)
  let s ← get
  let topHandleScope ← MonadExcept.ofExcept
    (threadTopHandleScope rt.thread rt.env memory s.contents)
  let previousTop := s.word topHandleScope
  modify (·.write (field rt.firstScope BHS_OFFSET_NUM_REFS) 4 FIXED_HANDLE_SCOPE_REFS)
  modify (·.write (field rt.firstScope FIXED_HANDLE_SCOPE_POS_OFFSET) 4 0)
  modify (·.write rt.scope POINTER_SIZE previousTop.toNat)
  modify (·.write (field rt.scope BHS_OFFSET_NUM_REFS) 4 (-1 : BitVec 32).toNat)
  modify (·.write (field rt.scope VSHS_OFFSET_SELF) POINTER_SIZE rt.thread.toNat)
  modify (·.write (field rt.scope VSHS_OFFSET_CURRENT_SCOPE) POINTER_SIZE rt.firstScope.toNat)
  modify (·.write topHandleScope POINTER_SIZE rt.scope.toNat)
  pure ⟨rt.scope, rt.firstScope, topHandleScope, previousTop⟩

variable (self : FakeVariableSizedHandleScope)

def newHandle (object : BitVec 32) : EStateM (Error θ) (Process R) (BitVec 64) := do
  let s ← get
  let position := s.contents.load (field self.firstScope FIXED_HANDLE_SCOPE_POS_OFFSET) 4
  if FIXED_HANDLE_SCOPE_REFS ≤ position then
    throw (.unsupportedFeature FEATURE_HEAP_ENUMERATION
      "fake variable-sized handle scope exhausted while creating class handle")
  else do
    let handle := field self.firstScope (FIXED_HANDLE_SCOPE_REFS_OFFSET + position * 4)
    modify (·.write handle 4 object.toNat)
    modify (·.write (field self.firstScope FIXED_HANDLE_SCOPE_POS_OFFSET) 4 (position + 1))
    pure handle

variable (A : Allocator)

/-- The loop of `dispose`, for no more scopes than the bound. -/
def freeScopes : Nat → BitVec 64 → Process R → Process R
  | 0, _, s => s
  | bound + 1, current, s =>
    if current = 0 ∨ current = self.firstScope then s
    else
      let next := s.word current
      freeScopes bound next (s.free A current)

def dispose (bound : Nat) (s : Process R) : Process R :=
  if s.word (field self.scope VSHS_OFFSET_SELF) = 0 then s
  else
    let s := s.write self.topHandleScope POINTER_SIZE self.previousTop.toNat
    let current := s.word (field self.scope VSHS_OFFSET_CURRENT_SCOPE)
    let s := self.freeScopes A bound current s
    s.write (field self.scope VSHS_OFFSET_SELF) POINTER_SIZE 0

def drop (bound : Nat) (s : Process R) : Process R :=
  if s.word (field self.scope VSHS_OFFSET_SELF) = 0 then s else self.dispose A bound s

end FakeVariableSizedHandleScope

/-! ## The vector -/

/-- The vector that is at an address. -/
def vectorAt (vector : BitVec 64) (m : ByteMemory) : ArtHandleVector :=
  ⟨m.word vector, m.word (field vector POINTER_SIZE), m.word (field vector (2 * POINTER_SIZE))⟩

/-- `ArtHandleVector::dispose`. -/
def disposeVector (A : Allocator) (vector : BitVec 64) (s : Process R) : Process R :=
  let first := s.word vector
  let s := if first = 0 then s else s.free A first
  s.write vector (3 * POINTER_SIZE) 0

/-! ## The query -/

section

variable (rt : ScopeRuntime θ R)

/-- The loop over the handles, from one of them on. -/
def promoteHandles : Nat → List (BitVec 64) → EStateM (Error θ) (Process R) Unit
  | _, [] => pure ()
  | index, handle :: handles => do
    let raw ← MonadExcept.ofExcept (rt.newGlobalRefRaw index handle)
    modify (·.push raw)
    promoteHandles (index + 1) handles

/-- The storage of the vector, where it has any. -/
def storage (m : ByteMemory) : List (BitVec 64) :=
  if m.word rt.vector = 0 then [] else [m.word rt.vector]

/-- What the runtime has allocated for the query when the vector is filled. -/
def allocatedBy (filled : ByteMemory × List (BitVec 64)) : List (BitVec 64) :=
  filled.2 ++ storage rt filled.1

/-- The call of `Heap::GetInstances`. -/
def callGetInstances (self : FakeVariableSizedHandleScope) (classHandle : BitVec 64)
    (s : Process R) : Process R :=
  let filled := rt.getInstances self.scope classHandle rt.vector s.contents
  { s with contents := filled.1, allocated := s.allocated ++ allocatedBy rt filled }

/-- The query, up to where the vector is filled. -/
def fillVector (self : FakeVariableSizedHandleScope) (needleClassReference : BitVec 32) :
    EStateM (Error θ) (Process R) Unit := do
  let classHandle ← self.newHandle needleClassReference
  modify (·.write rt.vector (3 * POINTER_SIZE) 0)
  modify (callGetInstances rt self classHandle)

/-- The query, from where the vector is filled on. -/
def takeInstances (self : FakeVariableSizedHandleScope) (bound : Nat) :
    EStateM (Error θ) (Process R) Unit := do
  MonadExcept.ofExcept rt.attachCurrentThread
  let s ← get
  promoteHandles rt 0 ((vectorAt rt.vector s.contents).handles s.contents)
  modify (disposeVector rt.allocator rt.vector)
  modify (self.dispose rt.allocator bound)

def chooseInstancesWithGetInstances (bound : Nat) (needleClassReference : BitVec 32) :
    EStateM (Error θ) (Process R) Unit := do
  let memory ← MonadExcept.ofExcept rt.memory
  let scope ← FakeVariableSizedHandleScope.new rt memory
  defer (scope.drop rt.allocator bound) do
    fillVector rt scope needleClassReference
    takeInstances rt scope bound

end

/-! ## Fields -/

theorem field_subset {base : BitVec 64} {offset n k : Nat} (h : offset + n ≤ k)
    (hk : k ≤ 2 ^ 64) : ByteMemory.block (field base offset) n ⊆ ByteMemory.block base k := by
  apply ByteMemory.block_add_subset_block base hk
  rw [BitVec.toNat_ofNat]
  exact (Nat.add_le_add_right (Nat.mod_le _ _) n).trans h

theorem field_field (base : BitVec 64) (offset offset' : Nat) :
    field (field base offset) offset' = field base (offset + offset') := by
  rw [field, field, field, BitVec.ofNat_add, BitVec.add_assoc]

theorem disjoint_field {base : BitVec 64} {offset n offset' n' : Nat} (h : offset + n ≤ offset')
    (hk : offset' + n' ≤ 2 ^ 64) :
    Disjoint (ByteMemory.block (field base offset) n)
      (ByteMemory.block (field base offset') n') := by
  rw [Set.disjoint_left]
  intro b hb hb'
  have hlt : (b - (base + BitVec.ofNat 64 offset)).toNat < n := hb
  have hlt' : (b - (base + BitVec.ofNat 64 offset')).toNat < n' := hb'
  bv_omega

theorem word_write_of_disjoint {s : Process R} {a b : BitVec 64} {n v : Nat}
    (h : Disjoint (ByteMemory.block a n) (ByteMemory.block b 8)) :
    (s.write a n v).word b = s.word b :=
  ByteMemory.word_store_of_disjoint s.contents v h

theorem word_write_self {s : Process R} {a : BitVec 64} (value : BitVec 64) :
    (s.write a POINTER_SIZE value.toNat).word a = value := ByteMemory.word_store s.contents a value

/-! ## Creating handles -/

namespace FakeVariableSizedHandleScope

variable (self : FakeVariableSizedHandleScope)

/-- The slots for references, and the number of those in use. -/
def slots : Set (BitVec 64) :=
  ByteMemory.block (field self.firstScope FIXED_HANDLE_SCOPE_REFS_OFFSET)
      (FIXED_HANDLE_SCOPE_REFS * 4) ∪
    ByteMemory.block (field self.firstScope FIXED_HANDLE_SCOPE_POS_OFFSET) 4

theorem slots_subset : self.slots ⊆ ByteMemory.block self.firstScope FIXED_HANDLE_SCOPE_SIZE := by
  apply Set.union_subset
  · exact field_subset (by decide) (by decide)
  · exact field_subset (by decide) (by decide)

/-- Outside the slots, and in what is recorded, nothing has changed. -/
structure OnlySlots (scope : FakeVariableSizedHandleScope) (s t : Process R) : Prop where
  contents : Set.EqOn t.contents s.contents scope.slotsᶜ
  allocated : t.allocated = s.allocated
  freed : t.freed = s.freed

theorem OnlySlots.refl (s : Process R) : self.OnlySlots s s :=
  ⟨Set.eqOn_refl _ _, rfl, rfl⟩

theorem OnlySlots.trans {scope : FakeVariableSizedHandleScope} {s t u : Process R}
    (h : scope.OnlySlots s t) (h' : scope.OnlySlots t u) : scope.OnlySlots s u :=
  ⟨h'.contents.trans h.contents, h'.allocated.trans h.allocated, h'.freed.trans h.freed⟩

/-- The slot of an index. -/
def slot (index : Nat) : BitVec 64 :=
  field self.firstScope (FIXED_HANDLE_SCOPE_REFS_OFFSET + index * 4)

/-- A handle is a slot of its own. Where there are no more slots, nothing is written. -/
theorem newHandle_spec (object : BitVec 32) (s : Process R) :
    wp (self.newHandle object : EStateM (Error θ) (Process R) (BitVec 64))
      (fun handle t ↦ (∃ index < FIXED_HANDLE_SCOPE_REFS, handle = self.slot index) ∧
        self.OnlySlots s t)
      (fun _ t ↦ t = s) s := by
  rw [newHandle]
  simp only [wp_bind, wp_get, wp_ite, wp_throw, wp_modify, wp_pure]
  constructor
  · intro _
    trivial
  · intro hposition
    generalize s.contents.load (field self.firstScope FIXED_HANDLE_SCOPE_POS_OFFSET) 4 =
      position at *
    have hlt := Nat.lt_of_not_le hposition
    refine ⟨⟨position, hlt, rfl⟩, ?_, rfl, rfl⟩
    have hslot : ByteMemory.block (self.slot position) 4 ⊆ self.slots := by
      apply Set.Subset.trans _ Set.subset_union_left
      rw [slot, ← field_field]
      exact field_subset (by omega) (by decide)
    intro a ha
    have hhandle : a ∉ ByteMemory.block (self.slot position) 4 := fun h ↦ ha (hslot h)
    have hcount : a ∉ ByteMemory.block (field self.firstScope FIXED_HANDLE_SCOPE_POS_OFFSET) 4 :=
      fun h ↦ ha (Set.mem_union_right _ h)
    exact (ByteMemory.store_of_not_mem _ _ hcount).trans (ByteMemory.store_of_not_mem _ _ hhandle)

/-- One handle after another, whether they are created or not. -/
def newHandles : List (BitVec 32) → Process R → List (Except (Error θ) (BitVec 64)) × Process R
  | [], s => ([], s)
  | object :: objects, s =>
    let first := outcome (self.newHandle object) s
    let rest := newHandles objects first.2
    (first.1 :: rest.1, rest.2)

/-- **However many handles are created, each is a slot, and nothing but slots is written.** -/
theorem newHandles_inside (objects : List (BitVec 32)) (s : Process R) :
    (∀ handle, .ok handle ∈ (self.newHandles (θ := θ) objects s).1 →
      ∃ index < FIXED_HANDLE_SCOPE_REFS, handle = self.slot index) ∧
    self.OnlySlots s (self.newHandles (θ := θ) objects s).2 := by
  induction objects generalizing s with
  | nil =>
    refine ⟨?_, .refl self s⟩
    intro handle hmem
    cases hmem
  | cons object objects ih =>
    have hfirst := (wp_iff_outcome (P := fun result t ↦
      (∀ handle, result = .ok handle →
        ∃ index < FIXED_HANDLE_SCOPE_REFS, handle = self.slot index) ∧ self.OnlySlots s t)).1
      (wp_mono (self.newHandle_spec (θ := θ) object s) ?_ ?_)
    · obtain ⟨hslot, honly⟩ := hfirst
      obtain ⟨hslots, hrest⟩ := ih (outcome (self.newHandle (θ := θ) object) s).2
      refine ⟨?_, honly.trans hrest⟩
      intro handle hmem
      rcases List.mem_cons.1 hmem with heq | hmem
      · exact hslot handle heq.symm
      · exact hslots handle hmem
    · rintro handle t ⟨hslot, honly⟩
      refine ⟨?_, honly⟩
      rintro _ ⟨⟩
      exact hslot
    · rintro error t rfl
      refine ⟨?_, .refl self t⟩
      intro handle heq
      cases heq

end FakeVariableSizedHandleScope

/-! ## Blocks of the runtime -/

section

variable (rt : ScopeRuntime θ R)

/-- The thread as far as it is looked at, and the objects of the query, with their sizes. -/
def inUse : List (BitVec 64 × Nat) :=
  [(rt.thread, 256 + 10 * POINTER_SIZE), (rt.scope, 32), (rt.firstScope, FIXED_HANDLE_SCOPE_SIZE),
    (rt.vector, 3 * POINTER_SIZE)]

/-- What is in use is apart. -/
def Placed : Prop :=
  (inUse rt).Pairwise fun used used' ↦
    Disjoint (ByteMemory.block used.1 used.2) (ByteMemory.block used'.1 used'.2)

/-- Blocks that have been allocated are apart from what is in use and from each other. -/
structure Allocated (blocks : List (BitVec 64)) : Prop where
  ne_null : ∀ a ∈ blocks, a ≠ 0
  size : ∀ a ∈ blocks, POINTER_SIZE ≤ rt.allocator.size a
  fresh : ∀ a ∈ blocks, ∀ used ∈ inUse rt,
    Disjoint (rt.allocator.block a) (ByteMemory.block used.1 used.2)
  apart : blocks.Pairwise fun a b ↦ Disjoint (rt.allocator.block a) (rt.allocator.block b)

/-- The scope is linked into the thread, and these scopes are chained to it. -/
structure Armed (overflow : List (BitVec 64)) (s : Process R) : Prop where
  self : s.word (field rt.scope VSHS_OFFSET_SELF) = rt.thread
  chain : s.contents.Chain (s.word (field rt.scope VSHS_OFFSET_CURRENT_SCOPE)) overflow
    rt.firstScope

/-- The scope of the query, from its slot in the thread. -/
def fakeScope (topHandleScope previousTop : BitVec 64) : FakeVariableSizedHandleScope :=
  ⟨rt.scope, rt.firstScope, topHandleScope, previousTop⟩

end

variable {rt : ScopeRuntime θ R} {overflow : List (BitVec 64)} {s t : Process R}

namespace Placed

variable (h : Placed rt)
include h

theorem thread_scope : Disjoint (ByteMemory.block rt.thread (256 + 10 * POINTER_SIZE))
    (ByteMemory.block rt.scope 32) :=
  (List.pairwise_cons.1 h).1 (rt.scope, 32) List.mem_cons_self

theorem thread_firstScope : Disjoint (ByteMemory.block rt.thread (256 + 10 * POINTER_SIZE))
    (ByteMemory.block rt.firstScope FIXED_HANDLE_SCOPE_SIZE) :=
  (List.pairwise_cons.1 h).1 (rt.firstScope, FIXED_HANDLE_SCOPE_SIZE)
    (List.mem_cons_of_mem _ List.mem_cons_self)

theorem scope_firstScope : Disjoint (ByteMemory.block rt.scope 32)
    (ByteMemory.block rt.firstScope FIXED_HANDLE_SCOPE_SIZE) :=
  (List.pairwise_cons.1 (List.Pairwise.of_cons h)).1 (rt.firstScope, FIXED_HANDLE_SCOPE_SIZE)
    List.mem_cons_self

theorem scope_vector : Disjoint (ByteMemory.block rt.scope 32)
    (ByteMemory.block rt.vector (3 * POINTER_SIZE)) :=
  (List.pairwise_cons.1 (List.Pairwise.of_cons h)).1 (rt.vector, 3 * POINTER_SIZE)
    (List.mem_cons_of_mem _ List.mem_cons_self)

end Placed

namespace Allocated

variable {blocks blocks' : List (BitVec 64)} {a : BitVec 64}

theorem nil : Allocated rt [] where
  ne_null a ha := by cases ha
  size a ha := by cases ha
  fresh a ha := by cases ha
  apart := .nil

theorem sublist (h : Allocated rt blocks) (hsub : blocks'.Sublist blocks) :
    Allocated rt blocks' where
  ne_null a ha := h.ne_null a (hsub.subset ha)
  size a ha := h.size a (hsub.subset ha)
  fresh a ha := h.fresh a (hsub.subset ha)
  apart := h.apart.sublist hsub

theorem mem_block (h : Allocated rt blocks) (ha : a ∈ blocks) : a ∈ rt.allocator.block a := by
  show (a - a).toNat < rt.allocator.size a
  rw [BitVec.sub_self]
  exact (Nat.succ_pos 7).trans_le (h.size a ha)

theorem link_subset (h : Allocated rt blocks) (ha : a ∈ blocks) :
    ByteMemory.block a 8 ⊆ rt.allocator.block a :=
  ByteMemory.block_subset_block a (h.size a ha)

theorem nodup (h : Allocated rt blocks) : blocks.Nodup := by
  apply h.apart.imp_of_mem
  rintro a b ha - hdisjoint rfl
  exact Set.disjoint_left.1 hdisjoint (h.mem_block ha) (h.mem_block ha)

theorem thread (h : Allocated rt blocks) (ha : a ∈ blocks) :
    Disjoint (rt.allocator.block a) (ByteMemory.block rt.thread (256 + 10 * POINTER_SIZE)) :=
  h.fresh a ha (rt.thread, 256 + 10 * POINTER_SIZE) List.mem_cons_self

theorem scope (h : Allocated rt blocks) (ha : a ∈ blocks) :
    Disjoint (rt.allocator.block a) (ByteMemory.block rt.scope 32) :=
  h.fresh a ha (rt.scope, 32) (List.mem_cons_of_mem _ List.mem_cons_self)

theorem ne_firstScope (h : Allocated rt blocks) (ha : a ∈ blocks) : a ≠ rt.firstScope := by
  rintro rfl
  have hdisjoint := h.fresh _ ha (rt.firstScope, FIXED_HANDLE_SCOPE_SIZE)
    (List.mem_cons_of_mem _ (List.mem_cons_of_mem _ List.mem_cons_self))
  apply Set.disjoint_left.1 hdisjoint (h.mem_block ha)
  show (rt.firstScope - rt.firstScope).toNat < FIXED_HANDLE_SCOPE_SIZE
  rw [BitVec.sub_self]
  decide

theorem vector (h : Allocated rt blocks) (ha : a ∈ blocks) :
    Disjoint (rt.allocator.block a) (ByteMemory.block rt.vector (3 * POINTER_SIZE)) :=
  h.fresh a ha (rt.vector, 3 * POINTER_SIZE) (List.mem_cons_of_mem _ (List.mem_cons_of_mem _
    (List.mem_cons_of_mem _ List.mem_cons_self)))

end Allocated

/-! ## The scope is disposed of -/

theorem self_subset : ByteMemory.block (field rt.scope VSHS_OFFSET_SELF) 8 ⊆
    ByteMemory.block rt.scope 32 := field_subset (by decide) (by decide)

theorem current_subset : ByteMemory.block (field rt.scope VSHS_OFFSET_CURRENT_SCOPE) 8 ⊆
    ByteMemory.block rt.scope 32 := field_subset (by decide) (by decide)

/-- What is written elsewhere leaves the scope as it is. -/
theorem Armed.of_eqOn (h : Armed rt overflow s) (halloc : Allocated rt overflow)
    (hscope : Set.EqOn t.contents s.contents (ByteMemory.block rt.scope 32))
    (hoverflow : ∀ a ∈ overflow, Set.EqOn t.contents s.contents (rt.allocator.block a)) :
    Armed rt overflow t where
  self := (ByteMemory.word_congr_of_eqOn (hscope.mono self_subset)).trans h.self
  chain := by
    have hcurrent : t.word (field rt.scope VSHS_OFFSET_CURRENT_SCOPE) =
        s.word (field rt.scope VSHS_OFFSET_CURRENT_SCOPE) :=
      ByteMemory.word_congr_of_eqOn (hscope.mono current_subset)
    rw [hcurrent]
    apply h.chain.of_eqOn
    intro a ha
    exact (hoverflow a ha).mono (halloc.link_subset ha)

theorem Armed.congr (h : Armed rt overflow s) (hcontents : t.contents = s.contents) :
    Armed rt overflow t := by
  have hword : t.word = s.word := by
    funext a
    exact congrArg (fun m ↦ ByteMemory.word m a) hcontents
  constructor
  · rw [hword]
    exact h.self
  · rw [hword, hcontents]
    exact h.chain

/-- The chained scopes are freed, each once. -/
theorem freeScopes_eq (top previous : BitVec 64) {bound : Nat} {current : BitVec 64}
    (halloc : Allocated rt overflow) (hchain : s.contents.Chain current overflow rt.firstScope)
    (hbound : overflow.length ≤ bound) :
    (fakeScope rt top previous).freeScopes rt.allocator bound current s =
      { s with
        contents := rt.allocator.freeAll overflow s.contents
        freed := s.freed ++ overflow } := by
  induction overflow generalizing bound current s with
  | nil =>
    obtain rfl : current = rt.firstScope := hchain
    rw [List.append_nil]
    cases bound with
    | zero => rfl
    | succ bound => exact if_pos (.inr rfl)
  | cons node nodes ih =>
    obtain ⟨rfl, hrest⟩ := hchain
    obtain ⟨bound, rfl⟩ : ∃ n, bound = n + 1 := Nat.exists_eq_succ_of_ne_zero (by
      rintro rfl
      cases hbound)
    have hgoes : ¬(current = 0 ∨ current = (fakeScope rt top previous).firstScope) :=
      not_or.2 ⟨halloc.ne_null current List.mem_cons_self,
        halloc.ne_firstScope List.mem_cons_self⟩
    have hnodes := halloc.sublist (List.sublist_cons_self current nodes)
    have hchain : (s.free rt.allocator current).contents.Chain (s.word current) nodes
        rt.firstScope := by
      apply hrest.of_eqOn
      intro a ha
      have hapart := List.rel_of_pairwise_cons halloc.apart ha
      exact (Allocator.free_eqOn hapart).mono (hnodes.link_subset ha)
    rw [FakeVariableSizedHandleScope.freeScopes, if_neg hgoes]
    dsimp only
    rw [ih hnodes hchain (Nat.le_of_succ_le_succ hbound)]
    simp only [Process.free, Allocator.freeAll_cons, List.append_assoc, List.singleton_append]

/-- What `dispose` does while the scope is linked. -/
structure Disposed (rt : ScopeRuntime θ R) (top previous : BitVec 64) (overflow : List (BitVec 64))
    (s t : Process R) : Prop where
  restored : t.word top = previous
  cleared : t.word (field rt.scope VSHS_OFFSET_SELF) = 0
  freed : t.freed = s.freed ++ overflow
  allocated : t.allocated = s.allocated

/-- **The slot gets its value back, and the chained scopes are freed.** -/
theorem dispose_spec (previous : BitVec 64) {top : BitVec 64} {bound : Nat} (hplaced : Placed rt)
    (halloc : Allocated rt overflow) (hbound : overflow.length ≤ bound) (hthread : rt.thread ≠ 0)
    (htop : ByteMemory.block top 8 ⊆ ByteMemory.block rt.thread (256 + 10 * POINTER_SIZE))
    (h : Armed rt overflow s) :
    Disposed rt top previous overflow s
      ((fakeScope rt top previous).dispose rt.allocator bound s) := by
  have hself : ¬s.word (field (fakeScope rt top previous).scope VSHS_OFFSET_SELF) = 0 :=
    h.self.trans_ne hthread
  have hlinked : Armed rt overflow (s.write top POINTER_SIZE previous.toNat) := by
    apply h.of_eqOn halloc
    · exact ByteMemory.store_eqOn_of_disjoint _ _ (hplaced.thread_scope.mono_left htop)
    · intro a ha
      exact ByteMemory.store_eqOn_of_disjoint _ _ ((halloc.thread ha).symm.mono_left htop)
  have hscopes := freeScopes_eq top previous halloc hlinked.chain hbound
  rw [FakeVariableSizedHandleScope.dispose, if_neg hself]
  dsimp only [fakeScope] at hscopes ⊢
  rw [hscopes]
  constructor
  case restored =>
    have hapart : Disjoint (ByteMemory.block (field rt.scope VSHS_OFFSET_SELF) POINTER_SIZE)
        (ByteMemory.block top 8) :=
      (hplaced.thread_scope.mono htop self_subset).symm
    rw [word_write_of_disjoint hapart]
    have hfree : Set.EqOn (rt.allocator.freeAll overflow
        (s.write top POINTER_SIZE previous.toNat).contents)
        (s.write top POINTER_SIZE previous.toNat).contents (ByteMemory.block top 8) := by
      apply Allocator.freeAll_eqOn
      intro a ha
      exact (halloc.thread ha).mono_right htop
    exact (ByteMemory.word_congr_of_eqOn hfree).trans (word_write_self previous)
  case cleared => exact word_write_self 0
  case freed => rfl
  case allocated => rfl

/-- A scope that has been disposed of is not disposed of again. -/
theorem drop_of_cleared {top previous : BitVec 64} {bound : Nat}
    (h : s.word (field rt.scope VSHS_OFFSET_SELF) = 0) :
    (fakeScope rt top previous).drop rt.allocator bound s = s := if_pos h

theorem drop_of_armed {top previous : BitVec 64} {bound : Nat} (hthread : rt.thread ≠ 0)
    (h : Armed rt overflow s) :
    (fakeScope rt top previous).drop rt.allocator bound s =
      (fakeScope rt top previous).dispose rt.allocator bound s := by
  apply if_neg
  exact h.self.trans_ne hthread

/-! ## The vector is disposed of -/

/-- **The storage of the vector is freed**, and the scope stays as it is. -/
theorem disposeVector_spec (hplaced : Placed rt)
    (halloc : Allocated rt (overflow ++ storage rt s.contents)) (h : Armed rt overflow s) :
    Armed rt overflow (disposeVector rt.allocator rt.vector s) ∧
      (disposeVector rt.allocator rt.vector s).freed = s.freed ++ storage rt s.contents ∧
      (disposeVector rt.allocator rt.vector s).allocated = s.allocated := by
  have hoverflow := halloc.sublist (List.sublist_append_left overflow _)
  -- the words of the vector, written in the end
  have hwrite : ∀ t : Process R, Armed rt overflow t →
      Armed rt overflow (t.write rt.vector (3 * POINTER_SIZE) 0) := by
    intro t ht
    apply ht.of_eqOn hoverflow
    · exact ByteMemory.store_eqOn_of_disjoint _ _ hplaced.scope_vector.symm
    · intro a ha
      exact ByteMemory.store_eqOn_of_disjoint _ _ (hoverflow.vector ha).symm
  by_cases hnull : s.word rt.vector = 0
  · have hstorage : storage rt s.contents = [] := if_pos hnull
    rw [disposeVector, if_pos hnull, hstorage, List.append_nil]
    exact ⟨hwrite s h, rfl, rfl⟩
  · have hstorage : storage rt s.contents = [s.word rt.vector] := if_neg hnull
    rw [hstorage] at halloc ⊢
    rw [disposeVector, if_neg hnull]
    refine ⟨hwrite _ ?_, rfl, rfl⟩
    have hmem : s.word rt.vector ∈ overflow ++ [s.word rt.vector] :=
      List.mem_append_right _ List.mem_cons_self
    apply h.of_eqOn hoverflow
    · exact Allocator.free_eqOn (halloc.scope hmem)
    · intro a ha
      have hapart := (List.pairwise_append.1 halloc.apart).2.2 a ha _ List.mem_cons_self
      exact Allocator.free_eqOn hapart.symm

end JavaBridge.Art.HandleScope

import JavaBridge.Library.ByteMemory

/-!
# Blocks that are freed

An allocator knows the size of its blocks, and may write anything into a block that is freed. A
chain is a list in memory whose nodes each begin with the address of the next one.

Main results:

* `ByteMemory.Chain.congr`: a chain only depends on the words at its nodes.
* `Allocator.freeAll_eqOn`: what is apart from all the blocks stays when they are freed.
-/

/-- `free`, which may write into the block that is freed and nowhere else. -/
structure Allocator where
  size : BitVec 64 → Nat
  free : BitVec 64 → ByteMemory → ByteMemory
  frame : ∀ (a : BitVec 64) (m : ByteMemory),
    Set.EqOn (free a m) m (ByteMemory.block a (size a))ᶜ

namespace ByteMemory

/-- From `head` on, the words at the nodes lead from each to the next, and at last to `stop`. -/
def Chain (m : ByteMemory) : BitVec 64 → List (BitVec 64) → BitVec 64 → Prop
  | head, [], stop => head = stop
  | head, node :: nodes, stop => head = node ∧ Chain m (m.word node) nodes stop

theorem Chain.congr {m m' : ByteMemory} {head stop : BitVec 64} {nodes : List (BitVec 64)}
    (h : Chain m head nodes stop) (heq : ∀ node ∈ nodes, m'.word node = m.word node) :
    Chain m' head nodes stop := by
  induction nodes generalizing head with
  | nil => exact h
  | cons node nodes ih =>
    obtain ⟨hnode, hrest⟩ := h
    obtain ⟨hword, hwords⟩ := List.forall_mem_cons.1 heq
    refine ⟨hnode, ?_⟩
    rw [hword]
    exact ih hrest hwords

/-- A chain does not depend on what is apart from its nodes. -/
theorem Chain.of_eqOn {m m' : ByteMemory} {head stop : BitVec 64} {nodes : List (BitVec 64)}
    (h : Chain m head nodes stop) (heq : ∀ node ∈ nodes, Set.EqOn m' m (block node 8)) :
    Chain m' head nodes stop := by
  apply h.congr
  intro node hnode
  exact word_congr_of_eqOn (heq node hnode)

end ByteMemory

namespace Allocator

variable (A : Allocator)

/-- The bytes of the block at an address. -/
def block (a : BitVec 64) : Set (BitVec 64) := ByteMemory.block a (A.size a)

def freeAll (blocks : List (BitVec 64)) (m : ByteMemory) : ByteMemory :=
  blocks.foldl (fun m a ↦ A.free a m) m

variable {A} {s : Set (BitVec 64)} {m : ByteMemory}

theorem free_eqOn {a : BitVec 64} (h : Disjoint (A.block a) s) : Set.EqOn (A.free a m) m s :=
  (A.frame a m).mono (Set.disjoint_right.1 h)

@[simp] theorem freeAll_nil : A.freeAll [] m = m := rfl

@[simp] theorem freeAll_cons {a : BitVec 64} {blocks : List (BitVec 64)} :
    A.freeAll (a :: blocks) m = A.freeAll blocks (A.free a m) := rfl

theorem freeAll_eqOn {blocks : List (BitVec 64)} (h : ∀ a ∈ blocks, Disjoint (A.block a) s) :
    Set.EqOn (A.freeAll blocks m) m s := by
  induction blocks generalizing m with
  | nil => exact Set.eqOn_refl m s
  | cons a blocks ih =>
    obtain ⟨ha, hblocks⟩ := List.forall_mem_cons.1 h
    rw [freeAll_cons]
    exact (ih hblocks).trans (free_eqOn ha)

end Allocator

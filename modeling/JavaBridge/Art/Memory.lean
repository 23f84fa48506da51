import JavaBridge.Library.ByteMemory

/-!
# The memory of the process

What of the address space is mapped, as `/proc/self/maps` said, and the reads and writes of runtime
structures. All of them go to the address without its tag.

Main results:

* `MemoryRanges.covers_of_contains`: every byte of a range that is contained is mapped.
* `Mapping.not_covers`: a fresh mapping has none of the bytes that were mapped before.
-/

namespace JavaBridge.Art

/-- The address without its tag byte. -/
def normalizeAddress (address : BitVec 64) : BitVec 64 := address &&& 0x00ffffffffffffff

theorem toNat_normalizeAddress (a : BitVec 64) :
    (normalizeAddress a).toNat = a.toNat % 2 ^ 56 := by
  rw [normalizeAddress, BitVec.toNat_and]
  exact Nat.and_two_pow_sub_one_eq_mod a.toNat 56

@[simp] theorem normalizeAddress_normalizeAddress (a : BitVec 64) :
    normalizeAddress (normalizeAddress a) = normalizeAddress a := by
  apply BitVec.eq_of_toNat_eq
  rw [toNat_normalizeAddress, toNat_normalizeAddress, Nat.mod_mod]

/-- A readable range. -/
structure MemoryRange where
  start : BitVec 64
  stop : BitVec 64
  writable : Bool
  executable : Bool

structure MemoryRanges where
  ranges : List MemoryRange

namespace MemoryRanges

variable (memory : MemoryRanges)

/-- Some range of the wanted kind has the `length` bytes at `address`. -/
def containsIn (wanted : MemoryRange → Bool) (address : BitVec 64) (length : Nat) : Bool :=
  let address := normalizeAddress address
  if 2 ^ 64 ≤ address.toNat + length then false
  else
    memory.ranges.any fun range ↦
      wanted range && normalizeAddress range.start ≤ address &&
        address.toNat + length ≤ (normalizeAddress range.stop).toNat

def contains : BitVec 64 → Nat → Bool := memory.containsIn fun _ ↦ true

def containsExecutable : BitVec 64 → Nat → Bool := memory.containsIn (·.executable)

def containsWritable : BitVec 64 → Nat → Bool := memory.containsIn (·.writable)

/-- The byte at an address is in one of the ranges. -/
def Covers (a : BitVec 64) : Prop :=
  ∃ range ∈ memory.ranges, normalizeAddress range.start ≤ a ∧ a < normalizeAddress range.stop

variable {memory}

/-- Every byte of a range that is contained is covered. -/
theorem covers_of_contains {address b : BitVec 64} {length : Nat}
    (h : memory.contains address length = true) (hb : (b - normalizeAddress address).toNat < length) :
    memory.Covers b := by
  rw [contains, containsIn] at h
  split at h
  · cases h
  · next hlt =>
    obtain ⟨range, hrange, h⟩ := List.any_eq_true.1 h
    simp only [Bool.true_and, Bool.and_eq_true, decide_eq_true_eq] at h
    refine ⟨range, hrange, ?_⟩
    generalize normalizeAddress address = a at *
    generalize normalizeAddress range.start = start at *
    generalize normalizeAddress range.stop = stop at *
    bv_omega

end MemoryRanges

/-- An anonymous mapping where nothing was mapped: `mmap` without `MAP_FIXED`, whose result carries
no tag. -/
structure Mapping (memory : MemoryRanges) (length : Nat) where
  start : BitVec 64
  toNat_add_le : start.toNat + length ≤ 2 ^ 56
  not_covers : ∀ a, memory.Covers a → length ≤ (a - start).toNat

namespace Mapping

variable {memory : MemoryRanges} {length : Nat} (mapping : Mapping memory length)

/-- What `/proc/self/maps` says of the mapping. -/
def memoryRanges : MemoryRanges where
  ranges := [⟨mapping.start, mapping.start + BitVec.ofNat 64 length, false, false⟩]

/-- The mapping covers its own bytes and no others. -/
theorem lt_of_covers {a : BitVec 64} (h : mapping.memoryRanges.Covers a) :
    (a - mapping.start).toNat < length := by
  obtain ⟨range, hrange, hstart, hstop⟩ := h
  obtain rfl := List.mem_singleton.1 hrange
  have hle := mapping.toNat_add_le
  have hlt := a.isLt
  rw [BitVec.le_def, toNat_normalizeAddress] at hstart
  rw [BitVec.lt_def, toNat_normalizeAddress, BitVec.toNat_add, BitVec.toNat_ofNat] at hstop
  dsimp only at hstart hstop
  rw [BitVec.toNat_sub]
  omega

end Mapping

/-! ## Places in a contained range -/

theorem toNat_normalizeAddress_lt (a : BitVec 64) : (normalizeAddress a).toNat < 2 ^ 56 := by
  rw [toNat_normalizeAddress]
  exact Nat.mod_lt _ (by decide)

/-- The tag does not change on the way up to the end of the untagged addresses. -/
theorem normalizeAddress_add {a : BitVec 64} {i : Nat}
    (h : (normalizeAddress a).toNat + i < 2 ^ 56) :
    normalizeAddress (a + BitVec.ofNat 64 i) = normalizeAddress a + BitVec.ofNat 64 i := by
  apply BitVec.eq_of_toNat_eq
  rw [toNat_normalizeAddress] at h
  rw [toNat_normalizeAddress, BitVec.toNat_add, BitVec.toNat_add, toNat_normalizeAddress,
    BitVec.toNat_ofNat]
  omega

namespace MemoryRanges

variable {memory : MemoryRanges} {wanted : MemoryRange → Bool} {address : BitVec 64} {length : Nat}

@[simp] theorem containsIn_normalizeAddress :
    memory.containsIn wanted (normalizeAddress address) length =
      memory.containsIn wanted address length := by
  rw [containsIn, containsIn, normalizeAddress_normalizeAddress]

theorem toNat_add_lt_of_containsIn (h : memory.containsIn wanted address length = true) :
    (normalizeAddress address).toNat + length < 2 ^ 56 := by
  rw [containsIn] at h
  split at h
  · cases h
  · obtain ⟨range, -, h⟩ := List.any_eq_true.1 h
    simp only [Bool.and_eq_true, decide_eq_true_eq] at h
    exact Nat.lt_of_le_of_lt h.2 (toNat_normalizeAddress_lt _)

end MemoryRanges

/-! ## Reads and writes -/

def readUsize (pointer : BitVec 64) (memory : MemoryRanges) (m : ByteMemory) :
    Option (BitVec 64) :=
  let address := normalizeAddress pointer
  if memory.contains address 8 then some (m.word address) else none

def readU32 (pointer : BitVec 64) (memory : MemoryRanges) (m : ByteMemory) : Option (BitVec 32) :=
  let address := normalizeAddress pointer
  if memory.contains address 4 then some (BitVec.ofNat 32 (m.load address 4)) else none

def writeUsize (pointer value : BitVec 64) (m : ByteMemory) : ByteMemory :=
  m.store (normalizeAddress pointer) 8 value.toNat

def writeU32 (pointer : BitVec 64) (value : BitVec 32) (m : ByteMemory) : ByteMemory :=
  m.store (normalizeAddress pointer) 4 value.toNat

end JavaBridge.Art

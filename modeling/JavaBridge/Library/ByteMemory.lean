import Mathlib.Algebra.Ring.Nat
import Mathlib.Data.Set.Lattice
import Mathlib.Order.CompletePartialOrder

/-!
# A byte-addressed memory

Sixty-four bit addresses, one byte each, little-endian. Values move as natural numbers: `load`
spells the number of `n` bytes, `store` keeps the low `n` bytes of the number it is given, and
addresses wrap around.

Main results:

* `ByteMemory.load_store_prefix`: the low bytes of what was stored, read back at its address.
* `ByteMemory.load_store_of_apart`: a store elsewhere is not seen.
* `ByteMemory.apart_add`: two ranges at different offsets of one base are apart.
* `ByteMemory.block_add_subset_block`, `ByteMemory.disjoint_block_block_add`: the fields of a block.
* `ByteMemory.writeBack_eq`: storing the old contents of some ranges, which may overlap, undoes
  whatever was stored in them.
-/

instance lawfulBEq_address : LawfulBEq (BitVec 64) := inferInstance

/-- The contents of a sixty-four bit address space. -/
abbrev ByteMemory := BitVec 64 → BitVec 8

namespace ByteMemory

/-- The number spelled by `n` bytes, the lowest first. -/
def load (m : ByteMemory) (a : BitVec 64) : Nat → Nat
  | 0 => 0
  | n + 1 => (m a).toNat + 256 * load m (a + 1) n

/-- The sixty-four bit word at an address. -/
def word (m : ByteMemory) (a : BitVec 64) : BitVec 64 := BitVec.ofNat 64 (m.load a 8)

/-- `m` with the low `n` bytes of `v` at `a`. -/
def store (m : ByteMemory) (a : BitVec 64) (n v : Nat) : ByteMemory :=
  fun b ↦ if (b - a).toNat < n then BitVec.ofNat 8 (v / 256 ^ (b - a).toNat) else m b

/-- No byte of the `k` bytes at `b` is one of the `n` bytes at `a`. -/
def Apart (a : BitVec 64) (n : Nat) (b : BitVec 64) (k : Nat) : Prop :=
  ∀ i < k, n ≤ (b + BitVec.ofNat 64 i - a).toNat

/-! ## Loads -/

@[simp] theorem load_zero (m : ByteMemory) (a : BitVec 64) : m.load a 0 = 0 := rfl

theorem load_succ (m : ByteMemory) (a : BitVec 64) (n : Nat) :
    m.load a (n + 1) = (m a).toNat + 256 * m.load (a + 1) n := rfl

theorem load_lt (m : ByteMemory) (a : BitVec 64) (n : Nat) : m.load a n < 256 ^ n := by
  induction n generalizing a with
  | zero => exact Nat.one_pos
  | succ n ih =>
    have hbyte : (m a).toNat < 256 := (m a).isLt
    have hrest := ih (a + 1)
    rw [load_succ, Nat.pow_succ]
    omega

theorem add_ofNat_succ (a : BitVec 64) (i : Nat) :
    a + BitVec.ofNat 64 (i + 1) = a + 1 + BitVec.ofNat 64 i := by
  rw [BitVec.ofNat_add, BitVec.add_assoc, BitVec.add_comm (1 : BitVec 64)]
  rfl

/-- A load only looks at its own bytes. -/
theorem load_congr {m m' : ByteMemory} {a : BitVec 64} {n : Nat}
    (h : ∀ i < n, m (a + BitVec.ofNat 64 i) = m' (a + BitVec.ofNat 64 i)) :
    m.load a n = m'.load a n := by
  induction n generalizing a with
  | zero => rfl
  | succ n ih =>
    have hhead : m a = m' a := by simpa using h 0 (Nat.succ_pos n)
    rw [load_succ, load_succ, hhead]
    congr 2
    apply ih
    intro i hi
    rw [← add_ofNat_succ]
    exact h (i + 1) (Nat.succ_lt_succ hi)

/-- The low `k` bytes of a number of `n` bytes. -/
theorem load_mod (m : ByteMemory) (a : BitVec 64) {k n : Nat} (h : k ≤ n) :
    m.load a n % 256 ^ k = m.load a k := by
  induction k generalizing a n with
  | zero => rw [Nat.pow_zero, Nat.mod_one, load_zero]
  | succ k ih =>
    obtain ⟨n, rfl⟩ : ∃ j, n = j + 1 := ⟨n - 1, by omega⟩
    have hbyte : (m a).toNat < 256 := (m a).isLt
    rw [load_succ, load_succ, ← ih (a + 1) (Nat.le_of_succ_le_succ h), Nat.pow_succ,
      Nat.mul_comm (256 ^ k), Nat.mod_mul]
    congr 1
    · omega
    · congr 2
      omega

theorem word_toNat (m : ByteMemory) (a : BitVec 64) : (m.word a).toNat = m.load a 8 :=
  (BitVec.toNat_ofNat ..).trans (Nat.mod_eq_of_lt (m.load_lt a 8))

/-! ## Stores -/

theorem store_of_lt (m : ByteMemory) {a b : BitVec 64} {n : Nat} (v : Nat)
    (h : (b - a).toNat < n) :
    m.store a n v b = BitVec.ofNat 8 (v / 256 ^ (b - a).toNat) := if_pos h

theorem store_of_le (m : ByteMemory) {a b : BitVec 64} {n : Nat} (v : Nat)
    (h : n ≤ (b - a).toNat) : m.store a n v b = m b := if_neg (Nat.not_lt.mpr h)

theorem add_ofNat_sub_toNat (a : BitVec 64) {i : Nat} (h : i < 2 ^ 64) :
    (a + BitVec.ofNat 64 i - a).toNat = i := by
  rw [BitVec.add_comm, BitVec.add_sub_cancel, BitVec.toNat_ofNat, Nat.mod_eq_of_lt h]

/-- The bytes `j` to `j + k` of what was stored. -/
theorem load_store_segment (m : ByteMemory) (a : BitVec 64) {n j k : Nat} (v : Nat)
    (hn : n ≤ 2 ^ 64) (h : j + k ≤ n) :
    (m.store a n v).load (a + BitVec.ofNat 64 j) k = v / 256 ^ j % 256 ^ k := by
  induction k generalizing j with
  | zero => rw [load_zero, Nat.pow_zero, Nat.mod_one]
  | succ k ih =>
    have hoff := add_ofNat_sub_toNat a (i := j) (by omega)
    have hhead : m.store a n v (a + BitVec.ofNat 64 j) = BitVec.ofNat 8 (v / 256 ^ j) := by
      rw [store_of_lt m v (by rw [hoff]; omega), hoff]
    have hnext : a + BitVec.ofNat 64 j + 1 = a + BitVec.ofNat 64 (j + 1) := by
      rw [BitVec.ofNat_add, BitVec.add_assoc]
      rfl
    rw [load_succ, hhead, hnext, ih (by omega), BitVec.toNat_ofNat, pow_succ 256 k,
      Nat.mul_comm (256 ^ k), Nat.mod_mul, Nat.div_div_eq_div_mul, ← Nat.pow_succ]

theorem load_store_prefix (m : ByteMemory) (a : BitVec 64) {n k : Nat} (v : Nat)
    (hn : n ≤ 2 ^ 64) (h : k ≤ n) : (m.store a n v).load a k = v % 256 ^ k := by
  have := load_store_segment m a (j := 0) v hn (by omega : 0 + k ≤ n)
  simpa using this

theorem load_store_of_apart (m : ByteMemory) {a b : BitVec 64} {n k : Nat} (v : Nat)
    (h : Apart a n b k) : (m.store a n v).load b k = m.load b k :=
  load_congr fun i hi ↦ store_of_le m v (h i hi)

theorem word_store (m : ByteMemory) (a value : BitVec 64) :
    (m.store a 8 value.toNat).word a = value := by
  apply BitVec.eq_of_toNat_eq
  rw [word_toNat, load_store_prefix m a value.toNat (by decide) (Nat.le_refl 8)]
  exact Nat.mod_eq_of_lt value.isLt

/-! ## Ranges apart -/

/-- Two ranges at different offsets of one base, neither of which wraps around into the other. -/
theorem apart_add (a : BitVec 64) {i n j k : Nat} (hi : i + n ≤ 2 ^ 64) (hj : j + k ≤ 2 ^ 64)
    (h : i + n ≤ j ∨ j + k ≤ i) :
    Apart (a + BitVec.ofNat 64 i) n (a + BitVec.ofNat 64 j) k := by
  intro l hl
  have hsum : a + BitVec.ofNat 64 j + BitVec.ofNat 64 l - (a + BitVec.ofNat 64 i) =
      BitVec.ofNat 64 (j + l) - BitVec.ofNat 64 i := by
    rw [BitVec.ofNat_add]
    bv_omega
  rcases Nat.eq_zero_or_pos n with rfl | hn
  · exact Nat.zero_le _
  have hil : i % 2 ^ 64 = i := Nat.mod_eq_of_lt (by omega)
  have hjl : (j + l) % 2 ^ 64 = j + l := Nat.mod_eq_of_lt (by omega)
  rw [hsum, BitVec.toNat_sub, BitVec.toNat_ofNat, BitVec.toNat_ofNat, hil, hjl]
  rcases h with h | h
  · -- the second range lies above the first
    have hsplit : 2 ^ 64 - i + (j + l) = j + l - i + 2 ^ 64 := by omega
    rw [hsplit, Nat.add_mod_right, Nat.mod_eq_of_lt (by omega)]
    omega
  · rw [Nat.mod_eq_of_lt (by omega)]
    omega

/-! ## Blocks -/

/-- The `n` bytes at an address. -/
def block (a : BitVec 64) (n : Nat) : Set (BitVec 64) := {b | (b - a).toNat < n}

theorem block_subset_block (a : BitVec 64) {n k : Nat} (h : n ≤ k) : block a n ⊆ block a k :=
  fun _ hb ↦ Nat.lt_of_lt_of_le hb h

theorem toNat_sub_eq_add {a b offset : BitVec 64}
    (h : (b - (a + offset)).toNat + offset.toNat < 2 ^ 64) :
    (b - a).toNat = (b - (a + offset)).toNat + offset.toNat := by
  bv_omega

/-- A field inside a block. -/
theorem block_add_subset_block (a : BitVec 64) {offset : BitVec 64} {n k : Nat}
    (hk : k ≤ 2 ^ 64) (h : offset.toNat + n ≤ k) : block (a + offset) n ⊆ block a k := by
  intro b hb
  have hlt : (b - (a + offset)).toNat < n := hb
  show (b - a).toNat < k
  have hsum : (b - (a + offset)).toNat + offset.toNat < 2 ^ 64 := by omega
  rw [toNat_sub_eq_add hsum]
  omega

/-- A field behind the first bytes of a block. -/
theorem disjoint_block_block_add (a : BitVec 64) {offset : BitVec 64} {n k : Nat}
    (hn : n ≤ offset.toNat) (h : offset.toNat + k ≤ 2 ^ 64) :
    Disjoint (block a n) (block (a + offset) k) := by
  rw [Set.disjoint_left]
  intro b hb hb'
  have hlt : (b - a).toNat < n := hb
  have hlt' : (b - (a + offset)).toNat < k := hb'
  have hsum : (b - (a + offset)).toNat + offset.toNat < 2 ^ 64 := by omega
  rw [toNat_sub_eq_add hsum] at hlt
  omega

theorem disjoint_block_of_le {a b : BitVec 64} {n k : Nat} (h : a.toNat + n ≤ b.toNat)
    (hk : b.toNat + k ≤ 2 ^ 64) : Disjoint (block a n) (block b k) := by
  rw [Set.disjoint_left]
  intro c hc hc'
  have hlt : (c - a).toNat < n := hc
  have hlt' : (c - b).toNat < k := hc'
  bv_omega

/-- Two ranges that do not wrap around, one behind the other. -/
theorem disjoint_block_of_le_or {a b : BitVec 64} {n k : Nat} (ha : a.toNat + n ≤ 2 ^ 64)
    (hb : b.toNat + k ≤ 2 ^ 64) (h : a.toNat + n ≤ b.toNat ∨ b.toNat + k ≤ a.toNat) :
    Disjoint (block a n) (block b k) := by
  rcases h with h | h
  · exact disjoint_block_of_le h hb
  · exact (disjoint_block_of_le h ha).symm

theorem load_congr_of_eqOn {m m' : ByteMemory} {a : BitVec 64} {n : Nat} (hn : n ≤ 2 ^ 64)
    (h : Set.EqOn m m' (block a n)) : m.load a n = m'.load a n := by
  apply load_congr
  intro i hi
  apply h
  show (a + BitVec.ofNat 64 i - a).toNat < n
  rw [add_ofNat_sub_toNat a (Nat.lt_of_lt_of_le hi hn)]
  exact hi

theorem word_congr_of_eqOn {m m' : ByteMemory} {a : BitVec 64} (h : Set.EqOn m m' (block a 8)) :
    m.word a = m'.word a := by
  rw [word, word, load_congr_of_eqOn (by decide) h]

theorem store_of_not_mem (m : ByteMemory) {a b : BitVec 64} {n : Nat} (v : Nat)
    (h : b ∉ block a n) : m.store a n v b = m b := store_of_le m v (Nat.not_lt.1 h)

theorem store_of_mem (m m' : ByteMemory) {a b : BitVec 64} {n : Nat} (v : Nat)
    (h : b ∈ block a n) : m.store a n v b = m'.store a n v b := by
  rw [store_of_lt m v h, store_of_lt m' v h]

theorem store_eqOn_of_disjoint (m : ByteMemory) {a : BitVec 64} {n : Nat} (v : Nat)
    {s : Set (BitVec 64)} (h : Disjoint (block a n) s) : Set.EqOn (m.store a n v) m s :=
  fun _ hb ↦ store_of_not_mem m v (Set.disjoint_right.1 h hb)

theorem word_store_of_disjoint (m : ByteMemory) {a b : BitVec 64} {n : Nat} (v : Nat)
    (h : Disjoint (block a n) (block b 8)) : (m.store a n v).word b = m.word b :=
  word_congr_of_eqOn (store_eqOn_of_disjoint m v h)

/-! ## Putting back what was loaded -/

theorem load_div (m : ByteMemory) (a : BitVec 64) {n i : Nat} (h : i < n) :
    m.load a n / 256 ^ i % 256 = (m (a + BitVec.ofNat 64 i)).toNat := by
  induction n generalizing a i with
  | zero => cases h
  | succ n ih =>
    have hbyte : (m a).toNat < 256 := (m a).isLt
    rw [load_succ]
    obtain _ | i := i
    · rw [Nat.pow_zero, Nat.div_one, Nat.add_mul_mod_self_left, Nat.mod_eq_of_lt hbyte]
      simp
    · rw [Nat.pow_succ', ← Nat.div_div_eq_div_mul, Nat.add_mul_div_left _ _ (by decide),
        Nat.div_eq_of_lt hbyte, Nat.zero_add, ih (a + 1) (Nat.lt_of_succ_lt_succ h),
        ← add_ofNat_succ]

/-- A byte of a range whose contents were stored. -/
theorem store_load (m m' : ByteMemory) {a b : BitVec 64} {n : Nat} (h : (b - a).toNat < n) :
    m.store a n (m'.load a n) b = m' b := by
  rw [store_of_lt m _ h]
  apply BitVec.eq_of_toNat_eq
  rw [BitVec.toNat_ofNat, show 2 ^ 8 = 256 from rfl, load_div m' a h, BitVec.ofNat_toNat,
    BitVec.setWidth_eq, BitVec.add_comm, BitVec.sub_add_cancel]

/-- What is there already, stored once more. -/
theorem store_load_self (m : ByteMemory) (a : BitVec 64) (n : Nat) :
    m.store a n (m.load a n) = m := by
  funext b
  by_cases h : (b - a).toNat < n
  · exact store_load m m h
  · exact store_of_le m _ (Nat.not_lt.1 h)

/-- `m` with the contents of `m'` in some ranges, one after the other. -/
def writeBack (m' : ByteMemory) (ranges : List (BitVec 64 × Nat)) (m : ByteMemory) : ByteMemory :=
  ranges.foldl (fun m range ↦ m.store range.1 range.2 (m'.load range.1 range.2)) m

/-- Where `m` differs from `m'` in the ranges only, nothing is left of the difference. -/
theorem writeBack_eq {m m' : ByteMemory} {ranges : List (BitVec 64 × Nat)}
    (h : ∀ b, (∀ range ∈ ranges, range.2 ≤ (b - range.1).toNat) → m b = m' b) :
    writeBack m' ranges m = m' := by
  induction ranges generalizing m with
  | nil =>
    funext b
    exact h b nofun
  | cons range ranges ih =>
    apply ih
    intro b hb
    by_cases hrange : (b - range.1).toNat < range.2
    · exact store_load m m' hrange
    · refine (store_of_le m _ (Nat.not_lt.1 hrange)).trans ?_
      apply h
      exact List.forall_mem_cons.2 ⟨Nat.not_lt.1 hrange, hb⟩

theorem writeBack_of_not_mem {m m' : ByteMemory} {ranges : List (BitVec 64 × Nat)} {b : BitVec 64}
    (h : ∀ range ∈ ranges, b ∉ block range.1 range.2) : writeBack m' ranges m b = m b := by
  induction ranges generalizing m with
  | nil => rfl
  | cons range ranges ih =>
    obtain ⟨hrange, h⟩ := List.forall_mem_cons.1 h
    exact (ih h).trans (store_of_not_mem m _ hrange)

/-- Every byte of the ranges is written back. -/
theorem writeBack_of_mem {m m' : ByteMemory} {ranges : List (BitVec 64 × Nat)} {b : BitVec 64}
    (h : ∃ range ∈ ranges, b ∈ block range.1 range.2) : writeBack m' ranges m b = m' b := by
  induction ranges generalizing m with
  | nil =>
    obtain ⟨range, hrange, -⟩ := h
    cases hrange
  | cons range ranges ih =>
    by_cases hrest : ∃ range ∈ ranges, b ∈ block range.1 range.2
    · exact ih hrest
    · push Not at hrest
      refine (writeBack_of_not_mem hrest).trans ?_
      obtain ⟨range', hmem, hb⟩ := h
      rcases List.mem_cons.1 hmem with rfl | hmem
      · exact store_load m m' hb
      · exact absurd hb (hrest range' hmem)

end ByteMemory

import JavaBridge.Art.Memory
import JavaBridge.Library.Scan

/-!
# The control socket of the JDWP state

ART's JDWP state keeps the descriptor of its control socket between two zero bytes, and `-1` there
says that it has none yet. The bridge looks for that pattern near the end of the state and puts its
own descriptor in.

Main results:

* `isControlSocketCandidate_iff`: the scan compares the bytes of the window.
* `patchJdwpControlSocket_iff`: the first pattern inside the window is patched, unless it is the
  last one that the window has room for.
-/

namespace JavaBridge.Art

open Scan

def JDWP_STATE_CONTROL_SOCKET_SCAN_START : Nat := 8252
def JDWP_STATE_CONTROL_SOCKET_SCAN_LEN : Nat := 256
def JDWP_STATE_CONTROL_SOCKET_PATTERN_LEN : Nat := 6

/-! ## The scan -/

def scanStart (state : BitVec 64) : BitVec 64 :=
  state + BitVec.ofNat 64 JDWP_STATE_CONTROL_SOCKET_SCAN_START

/-- The offsets of the candidates: `0..SCAN_LEN.saturating_sub(PATTERN_LEN)`. -/
def controlSocketOffsets : List Nat :=
  List.range (JDWP_STATE_CONTROL_SOCKET_SCAN_LEN - JDWP_STATE_CONTROL_SOCKET_PATTERN_LEN)

/-- A byte read through a pointer, of which the processor drops the tag. -/
def readByte (pointer : BitVec 64) (m : ByteMemory) : BitVec 8 := m (normalizeAddress pointer)

/-- The six bytes at the candidate are the pattern. -/
def isControlSocketCandidate (candidate : BitVec 64) (m : ByteMemory) : Bool :=
  readByte candidate m == 0 && readByte (candidate + 1) m == 0xff &&
    readByte (candidate + 2) m == 0xff && readByte (candidate + 3) m == 0xff &&
    readByte (candidate + 4) m == 0xff && readByte (candidate + 5) m == 0

def patchJdwpControlSocket (state : BitVec 64) (controlFd : BitVec 32) (memory : MemoryRanges)
    (m : ByteMemory) : Bool × ByteMemory :=
  if 2 ^ 64 ≤ state.toNat + JDWP_STATE_CONTROL_SOCKET_SCAN_START then (false, m)
  else if memory.contains (scanStart state) JDWP_STATE_CONTROL_SOCKET_SCAN_LEN = false then
    (false, m)
  else
    match controlSocketOffsets.find? fun o ↦
      isControlSocketCandidate (scanStart state + BitVec.ofNat 64 o) m with
    | none => (false, m)
    | some o =>
      let controlSocket := scanStart state + BitVec.ofNat 64 o + 1
      if memory.containsWritable controlSocket 4 then (true, writeU32 controlSocket controlFd m)
      else (false, m)

/-! ## The window -/

/-- The first byte of the window after a state. -/
def controlSocketWindow (state : BitVec 64) : BitVec 64 := normalizeAddress (scanStart state)

/-- `00 FF FF FF FF 00` at an offset from `start`. -/
structure HasPattern (start : BitVec 64) (m : ByteMemory) (o : Nat) : Prop where
  first : m (start + BitVec.ofNat 64 o) = 0
  inner : ∀ i < 4, m (start + BitVec.ofNat 64 (o + 1 + i)) = 0xff
  last : m (start + BitVec.ofNat 64 (o + 5)) = 0

instance decidableHasPattern (start : BitVec 64) (m : ByteMemory) (o : Nat) :
    Decidable (HasPattern start m o) :=
  decidable_of_iff
    (m (start + BitVec.ofNat 64 o) = 0 ∧
      (∀ i < 4, m (start + BitVec.ofNat 64 (o + 1 + i)) = 0xff) ∧
      m (start + BitVec.ofNat 64 (o + 5)) = 0)
    ⟨fun h ↦ ⟨h.1, h.2.1, h.2.2⟩, fun h ↦ ⟨h.first, h.inner, h.last⟩⟩

/-- The window is there and can be read. -/
structure WindowReadable (state : BitVec 64) (memory : MemoryRanges) : Prop where
  no_overflow : state.toNat + JDWP_STATE_CONTROL_SOCKET_SCAN_START < 2 ^ 64
  contains : memory.contains (controlSocketWindow state) JDWP_STATE_CONTROL_SOCKET_SCAN_LEN = true

/-- The first pattern that lies inside the window is at the offset. -/
def FirstPattern (state : BitVec 64) (m : ByteMemory) : Nat → Prop :=
  IsFirst
    (fun o ↦ o + JDWP_STATE_CONTROL_SOCKET_PATTERN_LEN ≤ JDWP_STATE_CONTROL_SOCKET_SCAN_LEN ∧
      HasPattern (controlSocketWindow state) m o)
    JDWP_STATE_CONTROL_SOCKET_SCAN_LEN

/-- The four bytes between the zeros of the pattern at an offset. -/
def controlSocketAt (state : BitVec 64) (o : Nat) : BitVec 64 :=
  controlSocketWindow state + BitVec.ofNat 64 (o + 1)

/-- The first pattern of the readable window is at the offset, and can be overwritten. -/
structure Patchable (state : BitVec 64) (memory : MemoryRanges) (m : ByteMemory) (o : Nat) :
    Prop where
  readable : WindowReadable state memory
  first : FirstPattern state m o
  writable : memory.containsWritable (controlSocketAt state o) 4 = true

/-- The descriptor stands in the bytes of the first pattern, and where there is no such pattern that
can be overwritten, nothing has changed. -/
structure PatchesFirst (state : BitVec 64) (controlFd : BitVec 32) (memory : MemoryRanges)
    (m : ByteMemory) (result : Bool × ByteMemory) : Prop where
  of_patchable : ∀ o, Patchable state memory m o →
    result = (true, m.store (controlSocketAt state o) 4 controlFd.toNat)
  of_not_patchable : (∀ o, ¬Patchable state memory m o) → result = (false, m)

variable {state : BitVec 64} {controlFd : BitVec 32} {memory : MemoryRanges} {m : ByteMemory}
  {o : Nat}

/-! ## What the scan sees -/

theorem normalizeAddress_window (h : WindowReadable state memory) {i : Nat}
    (hi : i < JDWP_STATE_CONTROL_SOCKET_SCAN_LEN) :
    normalizeAddress (scanStart state + BitVec.ofNat 64 i) =
      controlSocketWindow state + BitVec.ofNat 64 i := by
  have hlt := MemoryRanges.toNat_add_lt_of_containsIn h.contains
  rw [controlSocketWindow, normalizeAddress_normalizeAddress] at hlt
  apply normalizeAddress_add
  exact Nat.lt_trans (Nat.add_lt_add_left hi _) hlt

/-- The candidate's bytes are those of the window. -/
theorem isControlSocketCandidate_iff (h : WindowReadable state memory)
    (ho : o + JDWP_STATE_CONTROL_SOCKET_PATTERN_LEN ≤ JDWP_STATE_CONTROL_SOCKET_SCAN_LEN) :
    isControlSocketCandidate (scanStart state + BitVec.ofNat 64 o) m = true ↔
      HasPattern (controlSocketWindow state) m o := by
  have hbyte (i : Nat) (hi : i < JDWP_STATE_CONTROL_SOCKET_PATTERN_LEN) :
      readByte (scanStart state + BitVec.ofNat 64 o + BitVec.ofNat 64 i) m =
        m (controlSocketWindow state + BitVec.ofNat 64 (o + i)) := by
    rw [readByte, BitVec.add_assoc, ← BitVec.ofNat_add]
    exact congrArg m (normalizeAddress_window h (by omega))
  rw [isControlSocketCandidate]
  simp only [Bool.and_eq_true, beq_iff_eq]
  have h0 := hbyte 0 (by decide)
  rw [BitVec.add_zero] at h0
  constructor
  · rintro ⟨⟨⟨⟨⟨hfirst, h1⟩, h2⟩, h3⟩, h4⟩, hlast⟩
    refine ⟨h0.symm.trans hfirst, ?_, (hbyte 5 (by decide)).symm.trans hlast⟩
    intro i hi
    rw [Nat.add_assoc, Nat.add_comm 1]
    refine (hbyte (i + 1) (Nat.succ_lt_succ (Nat.lt_succ_of_lt hi))).symm.trans ?_
    obtain _ | _ | _ | _ | i := i
    · exact h1
    · exact h2
    · exact h3
    · exact h4
    · exact absurd hi (Nat.not_lt.2 (Nat.le_add_left 4 i))
  · intro hp
    exact ⟨⟨⟨⟨⟨h0.trans hp.first, (hbyte 1 (by decide)).trans (hp.inner 0 (by decide))⟩,
      (hbyte 2 (by decide)).trans (hp.inner 1 (by decide))⟩,
      (hbyte 3 (by decide)).trans (hp.inner 2 (by decide))⟩,
      (hbyte 4 (by decide)).trans (hp.inner 3 (by decide))⟩, (hbyte 5 (by decide)).trans hp.last⟩

/-- The last offset that the window has room for a pattern at. -/
def lastOffset : Nat := JDWP_STATE_CONTROL_SOCKET_SCAN_LEN - JDWP_STATE_CONTROL_SOCKET_PATTERN_LEN

/-- The scan finds the first pattern, unless it is at the last offset. -/
theorem find?_controlSocketOffsets_eq_some_iff (h : WindowReadable state memory) :
    (controlSocketOffsets.find? fun o ↦
        isControlSocketCandidate (scanStart state + BitVec.ofNat 64 o) m) = some o ↔
      FirstPattern state m o ∧ o ≠ lastOffset := by
  have hlen : JDWP_STATE_CONTROL_SOCKET_SCAN_LEN =
    lastOffset + JDWP_STATE_CONTROL_SOCKET_PATTERN_LEN := rfl
  have hinside {j : Nat} (hj : j < lastOffset) :
      isControlSocketCandidate (scanStart state + BitVec.ofNat 64 j) m = true ↔
        j + JDWP_STATE_CONTROL_SOCKET_PATTERN_LEN ≤ JDWP_STATE_CONTROL_SOCKET_SCAN_LEN ∧
          HasPattern (controlSocketWindow state) m j := by
    have hle : j + JDWP_STATE_CONTROL_SOCKET_PATTERN_LEN ≤ JDWP_STATE_CONTROL_SOCKET_SCAN_LEN :=
      Nat.add_le_add_right (Nat.le_of_lt hj) _
    rw [isControlSocketCandidate_iff h hle, and_iff_right hle]
  rw [controlSocketOffsets, find?_range_eq_some_iff]
  refine (isFirst_congr fun _ hj ↦ hinside hj).trans ?_
  constructor
  · intro hfirst
    exact ⟨hfirst.of_lt (Nat.lt_of_lt_of_le hfirst.lt (Nat.sub_le _ _)),
      Nat.ne_of_lt hfirst.lt⟩
  · rintro ⟨hfirst, hne⟩
    apply hfirst.of_lt
    exact Nat.lt_of_le_of_ne (Nat.le_of_add_le_add_right hfirst.holds.1) hne

theorem controlSocket_eq (h : WindowReadable state memory) (ho : FirstPattern state m o) :
    normalizeAddress (scanStart state + BitVec.ofNat 64 o + 1) = controlSocketAt state o := by
  have hlt : o + 1 < JDWP_STATE_CONTROL_SOCKET_SCAN_LEN :=
    Nat.lt_of_lt_of_le (Nat.add_lt_add_left (by decide) o) ho.holds.1
  have hsum : scanStart state + BitVec.ofNat 64 o + 1 =
      scanStart state + BitVec.ofNat 64 (o + 1) := by
    rw [BitVec.ofNat_add, ← BitVec.add_assoc]
    rfl
  rw [hsum, normalizeAddress_window h hlt, controlSocketAt]

/-! ## What is patched -/

theorem WindowReadable.contains_scanStart (h : WindowReadable state memory) :
    memory.contains (scanStart state) JDWP_STATE_CONTROL_SOCKET_SCAN_LEN ≠ false := by
  have hcontains := h.contains
  rw [controlSocketWindow, MemoryRanges.contains, MemoryRanges.containsIn_normalizeAddress]
    at hcontains
  rw [MemoryRanges.contains, hcontains]
  exact Bool.noConfusion

theorem patch_of_not_readable (h : ¬WindowReadable state memory) :
    patchJdwpControlSocket state controlFd memory m = (false, m) := by
  rw [patchJdwpControlSocket]
  split
  · rfl
  · next hoverflow =>
    rw [if_pos]
    by_contra hcontains
    refine h ⟨Nat.lt_of_not_le hoverflow, ?_⟩
    rw [Bool.not_eq_false] at hcontains
    exact MemoryRanges.containsIn_normalizeAddress.trans hcontains

/-- Where only the last offset has the pattern, nothing happens. -/
theorem patch_of_not_first (h : WindowReadable state memory)
    (hlast : ∀ o, FirstPattern state m o → o = lastOffset) :
    patchJdwpControlSocket state controlFd memory m = (false, m) := by
  have hfind : (controlSocketOffsets.find? fun o ↦
      isControlSocketCandidate (scanStart state + BitVec.ofNat 64 o) m) = none := by
    rw [Option.eq_none_iff_forall_ne_some]
    intro o ho
    obtain ⟨hfirst, hne⟩ := (find?_controlSocketOffsets_eq_some_iff h).1 ho
    exact hne (hlast o hfirst)
  rw [patchJdwpControlSocket, if_neg (Nat.not_le.2 h.no_overflow), if_neg h.contains_scanStart,
    hfind]

theorem patch_of_first (h : WindowReadable state memory) (ho : FirstPattern state m o)
    (hne : o ≠ lastOffset) :
    patchJdwpControlSocket state controlFd memory m =
      if memory.containsWritable (controlSocketAt state o) 4 then
        (true, m.store (controlSocketAt state o) 4 controlFd.toNat)
      else (false, m) := by
  have hfind := (find?_controlSocketOffsets_eq_some_iff h).2 ⟨ho, hne⟩
  rw [patchJdwpControlSocket, if_neg (Nat.not_le.2 h.no_overflow), if_neg h.contains_scanStart,
    hfind]
  dsimp only
  rw [writeU32, ← controlSocket_eq h ho, MemoryRanges.containsWritable,
    MemoryRanges.containsIn_normalizeAddress]

/-- **The first pattern of the window is patched** just if it is not the one at the last offset. -/
theorem patchJdwpControlSocket_iff (state : BitVec 64) (controlFd : BitVec 32)
    (memory : MemoryRanges) (m : ByteMemory) :
    PatchesFirst state controlFd memory m (patchJdwpControlSocket state controlFd memory m) ↔
      ¬Patchable state memory m lastOffset := by
  constructor
  · intro h hlast
    have htrue := h.of_patchable lastOffset hlast
    rw [patch_of_not_first hlast.readable fun o ho ↦ ho.unique hlast.first] at htrue
    cases htrue
  · intro hlast
    by_cases hreadable : WindowReadable state memory
    · by_cases hfirst : ∃ o, FirstPattern state m o ∧ o ≠ lastOffset
      · obtain ⟨o, ho, hne⟩ := hfirst
        rw [patch_of_first hreadable ho hne]
        split
        · next hwritable =>
          refine ⟨?_, fun hnone ↦ absurd ⟨hreadable, ho, hwritable⟩ (hnone o)⟩
          intro o' ho'
          rw [ho.unique ho'.first]
        · next hwritable =>
          refine ⟨?_, fun _ ↦ rfl⟩
          intro o' ho'
          rw [ho.unique ho'.first] at hwritable
          exact absurd ho'.writable hwritable
      · push Not at hfirst
        rw [patch_of_not_first hreadable hfirst]
        refine ⟨?_, fun _ ↦ rfl⟩
        intro o ho
        obtain rfl := hfirst o ho.first
        exact absurd ho hlast
    · rw [patch_of_not_readable hreadable]
      exact ⟨fun o ho ↦ absurd ho.readable hreadable, fun _ ↦ rfl⟩

/-! ## The last offset -/

/-- Zeros, but for the four bytes before the last one of the window of a state at `0x1000`. -/
def patternAtEnd : ByteMemory :=
  ByteMemory.store (fun _ ↦ 0) (controlSocketAt 0x1000 lastOffset) 4 0xffffffff

/-- The pages of that state, which can be read and written. -/
def statePages : MemoryRanges := ⟨[⟨0x1000, 0x4000, true, false⟩]⟩

/-- A pattern that ends where the window ends is not patched. -/
theorem not_patchesFirst_patternAtEnd :
    ¬PatchesFirst 0x1000 77 statePages patternAtEnd
      (patchJdwpControlSocket 0x1000 77 statePages patternAtEnd) := by
  intro h
  have hresult : (patchJdwpControlSocket 0x1000 77 statePages patternAtEnd).1 = false := by
    decide +kernel
  have hfirst : FirstPattern 0x1000 patternAtEnd lastOffset :=
    ⟨by decide, by decide +kernel, by decide +kernel⟩
  have hpatchable : Patchable 0x1000 statePages patternAtEnd lastOffset :=
    ⟨⟨by decide, by decide +kernel⟩, hfirst, by decide +kernel⟩
  rw [h.of_patchable lastOffset hpatchable] at hresult
  cases hresult

end JavaBridge.Art

import JavaBridge.Library.Utf8

/-!
# UTF-16 and modified UTF-8

The text of a Java string is a list of UTF-16 units. Modified UTF-8 encodes each unit for itself, and
the zero unit in two bytes, so that no byte is zero and a supplementary character takes two times
three bytes.

Main results:

* `ModifiedUtf8.decodeUtf16_encodeUtf16`: UTF-16 is decoded.
* `ModifiedUtf8.encode_eq_utf8_iff`: modified UTF-8 is UTF-8 exactly of the text without `U+0000` and
  without supplementary characters.
-/

namespace ModifiedUtf8

/-! ## UTF-16 -/

/-- The character has two units. -/
def IsSupplementary (c : Char) : Prop := 0x10000 ≤ c.toNat

instance (c : Char) : Decidable (IsSupplementary c) := inferInstanceAs (Decidable (_ ≤ _))

def encodeUtf16Char (c : Char) : List (BitVec 16) :=
  if IsSupplementary c then
    [BitVec.ofNat 16 (0xD800 + (c.toNat - 0x10000) / 0x400),
      BitVec.ofNat 16 (0xDC00 + (c.toNat - 0x10000) % 0x400)]
  else [BitVec.ofNat 16 c.toNat]

def encodeUtf16 (cs : List Char) : List (BitVec 16) := cs.flatMap encodeUtf16Char

/-- The text of some units, where every surrogate has its pair. -/
def decodeUtf16 : List (BitVec 16) → Option (List Char)
  | [] => some []
  | unit :: units =>
    if unit.toNat < 0xD800 ∨ 0xE000 ≤ unit.toNat then
      (decodeUtf16 units).map (Char.ofNat unit.toNat :: ·)
    else
      match units with
      | [] => none
      | low :: units =>
        if unit.toNat < 0xDC00 ∧ 0xDC00 ≤ low.toNat ∧ low.toNat < 0xE000 then
          (decodeUtf16 units).map (Char.ofNat
            (0x10000 + (unit.toNat - 0xD800) * 0x400 + (low.toNat - 0xDC00)) :: ·)
        else none

theorem toNat_lt (c : Char) : c.toNat < 0xD800 ∨ 0xDFFF < c.toNat ∧ c.toNat < 0x110000 := c.valid

/-- The high surrogate of a supplementary character is a unit. -/
theorem toNat_high_mod (c : Char) :
    (0xD800 + (c.toNat - 0x10000) / 0x400) % 2 ^ 16 = 0xD800 + (c.toNat - 0x10000) / 0x400 := by
  have hc := toNat_lt c
  omega

theorem decodeUtf16_encodeUtf16Char_append (c : Char) (units : List (BitVec 16)) :
    decodeUtf16 (encodeUtf16Char c ++ units) = (decodeUtf16 units).map (c :: ·) := by
  have hc := toNat_lt c
  rw [encodeUtf16Char]
  split
  · next hsupplementary =>
    have hle : 0x10000 ≤ c.toNat := hsupplementary
    have hhigh := toNat_high_mod c
    have hlow : (0xDC00 + (c.toNat - 0x10000) % 0x400) % 2 ^ 16 =
        0xDC00 + (c.toNat - 0x10000) % 0x400 := by omega
    have hback : 0x10000 + (0xD800 + (c.toNat - 0x10000) / 0x400 - 0xD800) * 0x400 +
        (0xDC00 + (c.toNat - 0x10000) % 0x400 - 0xDC00) = c.toNat := by omega
    rw [List.cons_append, List.cons_append, List.nil_append, decodeUtf16.eq_def]
    simp only [BitVec.toNat_ofNat, hhigh, hlow]
    rw [if_neg (by omega), if_pos (by omega), hback, Char.ofNat_toNat]
  · next hplain =>
    have hlt : c.toNat < 0x10000 := Nat.not_le.1 hplain
    have hunit : c.toNat % 2 ^ 16 = c.toNat := Nat.mod_eq_of_lt hlt
    rw [List.singleton_append, decodeUtf16.eq_def]
    simp only [BitVec.toNat_ofNat, hunit]
    rw [if_pos (by omega), Char.ofNat_toNat]

/-- UTF-16 is decoded. -/
theorem decodeUtf16_encodeUtf16 (cs : List Char) : decodeUtf16 (encodeUtf16 cs) = some cs := by
  induction cs with
  | nil => rfl
  | cons c cs ih =>
    rw [encodeUtf16, List.flatMap_cons, decodeUtf16_encodeUtf16Char_append, ← encodeUtf16, ih]
    rfl

/-! ## Modified UTF-8 -/

def encodeUnit (unit : BitVec 16) : List UInt8 :=
  let v := unit.toNat
  if 1 ≤ v ∧ v ≤ 0x7f then [UInt8.ofNat v]
  else if v ≤ 0x7ff then [UInt8.ofNat (v / 64 % 32 + 0xc0), UInt8.ofNat (v % 64 + 0x80)]
  else
    [UInt8.ofNat (v / 4096 % 16 + 0xe0), UInt8.ofNat (v / 64 % 64 + 0x80),
      UInt8.ofNat (v % 64 + 0x80)]

def encode (units : List (BitVec 16)) : List UInt8 := units.flatMap encodeUnit

/-- The character is the same in both encodings. -/
def IsPlain (c : Char) : Prop := c.toNat ≠ 0 ∧ ¬IsSupplementary c

instance (c : Char) : Decidable (IsPlain c) := inferInstanceAs (Decidable (_ ∧ _))

theorem toNat_ofNat_uInt8 (n : Nat) : (UInt8.ofNat n).toNat = n % 256 := UInt8.toNat_ofNat'

/-- No byte is zero. -/
theorem ne_zero_of_mem_encode {units : List (BitVec 16)} {b : UInt8} (hb : b ∈ encode units) :
    b ≠ 0 := by
  obtain ⟨unit, -, hb⟩ := List.mem_flatMap.1 hb
  rintro rfl
  have hbyte (n : Nat) : (0 : UInt8) = UInt8.ofNat n → n % 256 = 0 := by
    intro h
    rw [← toNat_ofNat_uInt8, ← h]
    rfl
  rw [encodeUnit] at hb
  split at hb
  · have := hbyte _ (List.mem_singleton.1 hb)
    omega
  · split at hb
    · simp only [List.mem_cons, List.not_mem_nil, or_false] at hb
      rcases hb with hb | hb <;> have := hbyte _ hb <;> omega
    · simp only [List.mem_cons, List.not_mem_nil, or_false] at hb
      rcases hb with hb | hb | hb <;> have := hbyte _ hb <;> omega

theorem encode_encodeUtf16_cons (c : Char) (cs : List Char) :
    encode (encodeUtf16 (c :: cs)) = encode (encodeUtf16Char c) ++ encode (encodeUtf16 cs) := by
  rw [encodeUtf16, List.flatMap_cons, encode, List.flatMap_append]
  rfl

theorem encode_encodeUtf16Char_of_plain {c : Char} (hc : IsPlain c) :
    encode (encodeUtf16Char c) = String.utf8EncodeChar c := by
  have hlt : c.toNat < 0x10000 := Nat.not_le.1 hc.2
  have hne : c.toNat ≠ 0 := hc.1
  have hunit : c.toNat % 2 ^ 16 = c.toNat := Nat.mod_eq_of_lt hlt
  rw [encodeUtf16Char, if_neg hc.2, encode, List.flatMap_singleton, encodeUnit]
  simp only [BitVec.toNat_ofNat, hunit]
  rw [String.utf8EncodeChar]
  show _ = if c.toNat ≤ 127 then [UInt8.ofNat c.toNat]
    else if c.toNat ≤ 2047 then
      [UInt8.ofNat (c.toNat / 64 % 32 + 192), UInt8.ofNat (c.toNat % 64 + 128)]
    else if c.toNat ≤ 65535 then [UInt8.ofNat (c.toNat / 4096 % 16 + 224),
      UInt8.ofNat (c.toNat / 64 % 64 + 128), UInt8.ofNat (c.toNat % 64 + 128)]
    else _
  by_cases hone : c.toNat ≤ 127
  · rw [if_pos hone, if_pos ⟨Nat.pos_of_ne_zero hne, hone⟩]
  · rw [if_neg hone, if_neg fun h ↦ hone h.2]
    by_cases htwo : c.toNat ≤ 2047
    · rw [if_pos htwo, if_pos htwo]
    · rw [if_neg htwo, if_neg htwo, if_pos (Nat.le_of_lt_succ hlt)]

/-- No encoding of a character begins with the bytes of a zero unit or of a high surrogate. -/
theorem utf8EncodeChar_append_ne {d : Char} {b₀ b₁ : UInt8} {bs bs' : List UInt8}
    (hb : b₀ = 0xc0 ∨ b₀ = 0xed ∧ 0xa0 ≤ b₁.toNat) :
    String.utf8EncodeChar d ++ bs ≠ b₀ :: b₁ :: bs' := by
  have hd := toNat_lt d
  rw [String.utf8EncodeChar]
  show (if d.toNat ≤ 127 then [UInt8.ofNat d.toNat]
    else if d.toNat ≤ 2047 then
      [UInt8.ofNat (d.toNat / 64 % 32 + 192), UInt8.ofNat (d.toNat % 64 + 128)]
    else if d.toNat ≤ 65535 then [UInt8.ofNat (d.toNat / 4096 % 16 + 224),
      UInt8.ofNat (d.toNat / 64 % 64 + 128), UInt8.ofNat (d.toNat % 64 + 128)]
    else [UInt8.ofNat (d.toNat / 262144 % 8 + 240), UInt8.ofNat (d.toNat / 4096 % 64 + 128),
      UInt8.ofNat (d.toNat / 64 % 64 + 128), UInt8.ofNat (d.toNat % 64 + 128)]) ++ bs ≠ _
  have hb₀ : b₀.toNat = 192 ∨ b₀.toNat = 237 ∧ 160 ≤ b₁.toNat := by
    rcases hb with rfl | ⟨rfl, hb₁⟩
    · exact .inl rfl
    · exact .inr ⟨rfl, hb₁⟩
  intro h
  split at h
  · have h₀ := congrArg UInt8.toNat (List.cons.inj h).1
    rw [toNat_ofNat_uInt8] at h₀
    omega
  · split at h
    · have h₀ := congrArg UInt8.toNat (List.cons.inj h).1
      rw [toNat_ofNat_uInt8] at h₀
      omega
    · split at h
      · have h₀ := congrArg UInt8.toNat (List.cons.inj h).1
        have h₁ := congrArg UInt8.toNat (List.cons.inj (List.cons.inj h).2).1
        rw [toNat_ofNat_uInt8] at h₀ h₁
        omega
      · have h₀ := congrArg UInt8.toNat (List.cons.inj h).1
        rw [toNat_ofNat_uInt8] at h₀
        omega

theorem exists_encode_of_not_plain {c : Char} (hc : ¬IsPlain c) :
    ∃ b₀ b₁ bs, encode (encodeUtf16Char c) = b₀ :: b₁ :: bs ∧
      (b₀ = 0xc0 ∨ b₀ = 0xed ∧ 0xa0 ≤ b₁.toNat) := by
  have hc' := toNat_lt c
  rw [encodeUtf16Char]
  split
  · next hsupplementary =>
    have hle : 0x10000 ≤ c.toNat := hsupplementary
    have hhigh := toNat_high_mod c
    rw [encode, List.flatMap_cons, encodeUnit]
    simp only [BitVec.toNat_ofNat, hhigh]
    rw [if_neg (by omega), if_neg (by omega)]
    refine ⟨_, _, _, rfl, .inr ⟨?_, ?_⟩⟩
    · rw [show (0xD800 + (c.toNat - 0x10000) / 0x400) / 4096 % 16 + 0xe0 = 0xed by omega]
      rfl
    · rw [toNat_ofNat_uInt8]
      omega
  · next hplain =>
    have hzero : c.toNat = 0 := by
      by_contra hne
      exact hc ⟨hne, hplain⟩
    rw [hzero]
    exact ⟨_, _, _, rfl, .inl rfl⟩

/-- Modified UTF-8 is UTF-8 exactly of the text without `U+0000` and without supplementary
characters, and then of that text. -/
theorem encode_eq_utf8_iff {cs ds : List Char} :
    encode (encodeUtf16 cs) = Utf8.encode ds ↔ ds = cs ∧ ∀ c ∈ cs, IsPlain c := by
  induction cs generalizing ds with
  | nil =>
    rw [encodeUtf16, List.flatMap_nil, encode, List.flatMap_nil, eq_comm, Utf8.encode_eq_nil]
    exact ⟨fun h ↦ ⟨h, fun _ hc ↦ absurd hc List.not_mem_nil⟩, And.left⟩
  | cons c cs ih =>
    rw [encode_encodeUtf16_cons]
    by_cases hc : IsPlain c
    · rw [encode_encodeUtf16Char_of_plain hc]
      cases ds with
      | nil =>
        refine ⟨fun h ↦ ?_, fun h ↦ absurd h.1 nofun⟩
        exact absurd (List.append_eq_nil_iff.1 h).1 String.utf8EncodeChar_ne_nil
      | cons d ds =>
        rw [Utf8.encode_cons]
        constructor
        · intro h
          obtain ⟨rfl, hrest⟩ := Utf8.encodeChar_append_inj h
          obtain ⟨rfl, hcs⟩ := ih.1 hrest
          exact ⟨rfl, List.forall_mem_cons.2 ⟨hc, hcs⟩⟩
        · rintro ⟨heq, hplain⟩
          obtain ⟨rfl, rfl⟩ := List.cons.inj heq
          rw [ih.2 ⟨rfl, (List.forall_mem_cons.1 hplain).2⟩]
    · obtain ⟨b₀, b₁, bs, hbytes, hb⟩ := exists_encode_of_not_plain hc
      refine ⟨fun h ↦ ?_, fun h ↦ absurd (h.2 c List.mem_cons_self) hc⟩
      rw [hbytes] at h
      cases ds with
      | nil => cases h
      | cons d ds =>
        rw [Utf8.encode_cons] at h
        exact absurd h.symm (utf8EncodeChar_append_ne hb)

end ModifiedUtf8

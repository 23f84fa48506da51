import Mathlib.Algebra.Ring.Nat
import Mathlib.Data.List.Basic

/-!
# UTF-8 text by its bytes

Text is a list of characters, its encoding a list of bytes, and a position in the text is an offset
into the bytes. `Utf8.slice` is the text between two offsets, where both are character boundaries.

Main results:

* `Utf8.encode_cons_of_ascii`, `Utf8.ofUInt8_eq_of_mem`: an ASCII character has a byte of its own,
  which is a byte of no other character.
* `Utf8.decode?_eq_some`: what decoding accepts.
* `Utf8.encode_eq_append`: a character among the bytes of a text is a character of the text.
* `Utf8.slice_append`: the offsets of a middle part cut it out.
-/

namespace Utf8

/-- The bytes of a text. -/
def encode (cs : List Char) : List UInt8 := cs.flatMap String.utf8EncodeChar

/-- How many bytes a text takes. -/
def size (cs : List Char) : Nat := (encode cs).length

/-! ## Encoding -/

@[simp] theorem encode_nil : encode [] = [] := rfl

theorem encode_cons (c : Char) (cs : List Char) :
    encode (c :: cs) = String.utf8EncodeChar c ++ encode cs :=
  List.flatMap_cons

@[simp] theorem encode_append (cs cs' : List Char) : encode (cs ++ cs') = encode cs ++ encode cs' :=
  List.flatMap_append

@[simp] theorem size_nil : size [] = 0 := rfl

@[simp] theorem size_cons (c : Char) (cs : List Char) : size (c :: cs) = c.utf8Size + size cs := by
  rw [size, encode_cons, List.length_append, String.length_utf8EncodeChar, size]

@[simp] theorem size_append (cs cs' : List Char) : size (cs ++ cs') = size cs + size cs' := by
  rw [size, encode_append, List.length_append, size, size]

theorem length_le_size (cs : List Char) : cs.length ≤ size cs := by
  induction cs with
  | nil => exact Nat.le_refl 0
  | cons c cs ih =>
    have := c.utf8Size_pos
    rw [List.length_cons, size_cons]
    omega

@[simp] theorem encode_eq_nil {cs : List Char} : encode cs = [] ↔ cs = [] := by
  constructor
  · intro h
    have := length_le_size cs
    rw [size, h] at this
    exact List.length_eq_zero_iff.1 (Nat.le_zero.1 this)
  · rintro rfl
    rfl

/-! ## Bytes below `0x80` -/

/-- The character has a byte of its own. -/
def IsAscii (c : Char) : Prop := c.utf8Size = 1

instance (c : Char) : Decidable (IsAscii c) := inferInstanceAs (Decidable (c.utf8Size = 1))

theorem encode_cons_of_ascii {c : Char} (hc : IsAscii c) (cs : List Char) :
    encode (c :: cs) = c.val.toUInt8 :: encode cs := by
  rw [encode_cons, String.utf8EncodeChar_eq_singleton hc, List.singleton_append]

theorem ofUInt8_of_ascii {c : Char} (hc : IsAscii c) : Char.ofUInt8 c.val.toUInt8 = c := by
  have hle : c.val.toNat ≤ 0x7f := UInt32.le_iff_toNat_le.1 (Char.utf8Size_eq_one_iff.1 hc)
  apply Char.ext
  apply UInt32.toNat_inj.1
  show c.val.toUInt8.toUInt32.toNat = c.val.toNat
  rw [UInt8.toNat_toUInt32, UInt32.toNat_toUInt8]
  omega

theorem le_or (a b : UInt8) : b ≤ a ||| b := by
  rw [UInt8.le_iff_toNat_le, UInt8.toNat_or]
  exact Nat.right_le_or

/-- No byte of a character beyond ASCII is below `0x80`. -/
theorem le_of_mem_encodeChar {c : Char} (hc : ¬IsAscii c) {b : UInt8}
    (hb : b ∈ String.utf8EncodeChar c) : 0x80 ≤ b := by
  have hcases : c.utf8Size = 2 ∨ c.utf8Size = 3 ∨ c.utf8Size = 4 := by
    have := c.utf8Size_pos
    have := c.utf8Size_le_four
    have : c.utf8Size ≠ 1 := hc
    omega
  have hlead : ∀ a lead : UInt8, 0x80 ≤ lead → 0x80 ≤ a ||| lead :=
    fun a lead h ↦ UInt8.le_trans h (le_or a lead)
  rcases hcases with h | h | h
  · rw [String.utf8EncodeChar_eq_cons_cons h] at hb
    simp only [List.mem_cons, List.not_mem_nil, or_false] at hb
    rcases hb with rfl | rfl <;> exact hlead _ _ (by decide)
  · rw [String.utf8EncodeChar_eq_cons_cons_cons h] at hb
    simp only [List.mem_cons, List.not_mem_nil, or_false] at hb
    rcases hb with rfl | rfl | rfl <;> exact hlead _ _ (by decide)
  · rw [String.utf8EncodeChar_eq_cons_cons_cons_cons h] at hb
    simp only [List.mem_cons, List.not_mem_nil, or_false] at hb
    rcases hb with rfl | rfl | rfl | rfl <;> exact hlead _ _ (by decide)

/-- A byte that is an ASCII character is a byte of that character only. -/
theorem ofUInt8_eq_of_mem {c : Char} {b : UInt8} (hb : b ∈ String.utf8EncodeChar c)
    (hascii : IsAscii (Char.ofUInt8 b)) : Char.ofUInt8 b = c := by
  by_cases hc : IsAscii c
  · rw [String.utf8EncodeChar_eq_singleton hc, List.mem_singleton] at hb
    rw [hb, ofUInt8_of_ascii hc]
  · have hle : (0x80 : UInt8).toNat ≤ b.toNat := UInt8.le_iff_toNat_le.1 (le_of_mem_encodeChar hc hb)
    have hlt : (Char.ofUInt8 b).val.toNat ≤ 0x7f :=
      UInt32.le_iff_toNat_le.1 (Char.utf8Size_eq_one_iff.1 hascii)
    rw [show (Char.ofUInt8 b).val = b.toUInt32 from rfl, UInt8.toNat_toUInt32] at hlt
    exact absurd (Nat.le_trans hle hlt) (by decide)

/-- An ASCII character is one of the bytes where it is one of the characters. -/
theorem mem_encode_iff {c : Char} (hc : IsAscii c) {cs : List Char} :
    c.val.toUInt8 ∈ encode cs ↔ c ∈ cs := by
  rw [encode, List.mem_flatMap]
  constructor
  · rintro ⟨d, hd, hmem⟩
    have heq := ofUInt8_eq_of_mem hmem (by rwa [ofUInt8_of_ascii hc])
    rw [ofUInt8_of_ascii hc] at heq
    rwa [heq]
  · intro h
    refine ⟨c, h, ?_⟩
    rw [String.utf8EncodeChar_eq_singleton hc]
    exact List.mem_singleton_self _

/-- A text has a byte for each character where it is ASCII. -/
theorem size_eq_length_iff {cs : List Char} : size cs = cs.length ↔ ∀ c ∈ cs, IsAscii c := by
  induction cs with
  | nil => exact iff_of_true rfl (List.forall_mem_nil _)
  | cons c cs ih =>
    have hpos := c.utf8Size_pos
    have hle := length_le_size cs
    rw [size_cons, List.length_cons, List.forall_mem_cons, ← ih, IsAscii]
    omega

theorem size_eq_zero_iff {cs : List Char} : size cs = 0 ↔ cs = [] := by
  rw [size, List.length_eq_zero_iff, encode_eq_nil]

/-- The first byte of a text. -/
theorem exists_cons_encode (c : Char) (cs : List Char) :
    ∃ b bs, encode (c :: cs) = b :: bs ∧ b ∈ String.utf8EncodeChar c := by
  obtain ⟨b, bs, hbs⟩ := List.exists_cons_of_ne_nil (String.utf8EncodeChar_ne_nil (c := c))
  exact ⟨b, bs ++ encode cs, by rw [encode_cons, hbs, List.cons_append],
    hbs ▸ List.mem_cons_self⟩

/-! ## Decoding -/

/-- The text of some bytes, where they are UTF-8. -/
def decode? (bytes : List UInt8) : Option String := String.fromUTF8? bytes.toByteArray

theorem decode?_eq_some {bytes : List UInt8} {text : String} :
    decode? bytes = some text ↔ bytes = encode text.toList := by
  have htext : text.toByteArray = (encode text.toList).toByteArray := by
    conv_lhs => rw [← String.ofList_toList (s := text), String.toByteArray_ofList]
    rfl
  rw [decode?, String.fromUTF8?]
  constructor
  · intro h
    split at h
    · cases h
      exact List.toByteArray_inj.1 htext
    · cases h
  · rintro rfl
    rw [← htext, dif_pos text.isValidUTF8]
    rfl

/-- No encoding of a character is the beginning of another one. -/
theorem encodeChar_append_inj {c d : Char} {bs bs' : List UInt8}
    (h : String.utf8EncodeChar c ++ bs = String.utf8EncodeChar d ++ bs') : c = d ∧ bs = bs' := by
  have hc := ByteArray.utf8DecodeChar?_utf8EncodeChar_append (b := bs.toByteArray) (c := c)
  rw [← List.toByteArray_append, h, List.toByteArray_append,
    ByteArray.utf8DecodeChar?_utf8EncodeChar_append] at hc
  obtain rfl : d = c := Option.some.inj hc
  exact ⟨rfl, List.append_cancel_left h⟩

/-! ## Boundaries -/

/-- A byte of a character after its first one. -/
def IsContinuation (b : UInt8) : Prop := 0x80 ≤ b ∧ b < 0xc0

theorem isContinuation_or (a : UInt8) : IsContinuation (a &&& 0x3f ||| 0x80) := by
  have hall : ∀ n < 256, UInt8.ofNat n &&& 0x3f ||| 0x80 < 0xc0 := by decide +kernel
  refine ⟨le_or _ _, ?_⟩
  have h := hall a.toNat a.toNat_lt_size
  rwa [UInt8.ofNat_toNat] at h

theorem not_isContinuation_or {a lead : UInt8} (h : 0xc0 ≤ lead) :
    ¬IsContinuation (a ||| lead) := by
  rintro ⟨-, hlt⟩
  exact absurd (UInt8.lt_of_le_of_lt (UInt8.le_trans h (le_or a lead)) hlt) (UInt8.lt_irrefl _)

/-- The first byte of a character, and the others. -/
theorem exists_lead (c : Char) : ∃ lead rest, String.utf8EncodeChar c = lead :: rest ∧
    ¬IsContinuation lead ∧ ∀ b ∈ rest, IsContinuation b := by
  have hcases : c.utf8Size = 1 ∨ c.utf8Size = 2 ∨ c.utf8Size = 3 ∨ c.utf8Size = 4 := by
    have := c.utf8Size_pos
    have := c.utf8Size_le_four
    omega
  rcases hcases with h | h | h | h
  · refine ⟨_, [], String.utf8EncodeChar_eq_singleton h, ?_, List.forall_mem_nil _⟩
    rintro ⟨hle, -⟩
    have hascii := UInt32.le_iff_toNat_le.1 (Char.utf8Size_eq_one_iff.1 h)
    rw [UInt8.le_iff_toNat_le, UInt32.toNat_toUInt8] at hle
    exact absurd (Nat.le_trans hle (Nat.mod_le _ _)) (Nat.not_le.2 (Nat.lt_succ_of_le hascii))
  · refine ⟨_, _, String.utf8EncodeChar_eq_cons_cons h, not_isContinuation_or (by decide), ?_⟩
    simp [isContinuation_or]
  · refine ⟨_, _, String.utf8EncodeChar_eq_cons_cons_cons h, not_isContinuation_or (by decide), ?_⟩
    simp [isContinuation_or]
  · refine ⟨_, _, String.utf8EncodeChar_eq_cons_cons_cons_cons h,
      not_isContinuation_or (by decide), ?_⟩
    simp [isContinuation_or]

/-- Where a character is found among the bytes of a text, it is one of the text. -/
theorem encode_eq_append {cs : List Char} {before after : List UInt8} {c : Char}
    (h : encode cs = before ++ (String.utf8EncodeChar c ++ after)) :
    ∃ cs₁ cs₂, cs = cs₁ ++ c :: cs₂ ∧ before = encode cs₁ ∧ after = encode cs₂ := by
  induction cs generalizing before with
  | nil =>
    have hnil := (List.append_eq_nil_iff.1 (List.append_eq_nil_iff.1 h.symm).2).1
    exact absurd hnil String.utf8EncodeChar_ne_nil
  | cons d cs ih =>
    rw [encode_cons] at h
    cases before with
    | nil =>
      obtain ⟨rfl, rfl⟩ := encodeChar_append_inj h
      exact ⟨[], cs, rfl, rfl, rfl⟩
    | cons b before =>
      obtain ⟨lead, rest, hlead, hnot, -⟩ := exists_lead c
      obtain ⟨lead', rest', hlead', -, hcontinues⟩ := exists_lead d
      rcases List.append_eq_append_iff.1 h with ⟨middle, hbefore, hrest⟩ | ⟨middle, hmiddle, hrest⟩
      · obtain ⟨cs₁, cs₂, rfl, rfl, rfl⟩ := ih hrest
        exact ⟨d :: cs₁, cs₂, rfl, hbefore.trans (encode_cons d cs₁).symm, rfl⟩
      · cases middle with
        | nil =>
          obtain ⟨cs₁, cs₂, rfl, hnil, rfl⟩ := @ih [] hrest.symm
          refine ⟨d :: cs₁, cs₂, rfl, ?_, rfl⟩
          rw [encode_cons, ← hnil, hmiddle, List.append_nil, List.append_nil]
        | cons m middle =>
          -- the first byte of `c` would be a later byte of `d`
          rw [hlead, List.cons_append, List.cons_append, List.cons.injEq] at hrest
          rw [hlead', List.cons_append, List.cons.injEq] at hmiddle
          refine absurd (hcontinues lead ?_) hnot
          rw [hmiddle.2, hrest.1]
          exact List.mem_append_right before List.mem_cons_self

/-! ## Slices -/

/-- The text from a byte offset on, where it is a character boundary. -/
def drop : Nat → List Char → Option (List Char)
  | 0, cs => some cs
  | _ + 1, [] => none
  | n + 1, c :: cs => if c.utf8Size ≤ n + 1 then drop (n + 1 - c.utf8Size) cs else none

/-- The text up to a byte offset, where it is a character boundary. -/
def take : Nat → List Char → Option (List Char)
  | 0, _ => some []
  | _ + 1, [] => none
  | n + 1, c :: cs =>
    if c.utf8Size ≤ n + 1 then (take (n + 1 - c.utf8Size) cs).map (c :: ·) else none

/-- The text between two byte offsets, where both are character boundaries in order. -/
def slice (start stop : Nat) (cs : List Char) : Option (List Char) :=
  if start ≤ stop then (drop start cs).bind (take (stop - start)) else none

@[simp] theorem drop_zero (cs : List Char) : drop 0 cs = some cs := by
  cases cs <;> rfl

@[simp] theorem take_zero (cs : List Char) : take 0 cs = some [] := by
  cases cs <;> rfl

theorem drop_cons (c : Char) (cs : List Char) {n : Nat} (h : c.utf8Size ≤ n) :
    drop n (c :: cs) = drop (n - c.utf8Size) cs := by
  obtain _ | n := n
  · exact absurd c.utf8Size_pos (Nat.not_lt.2 h)
  · rw [drop, if_pos h]

theorem take_cons (c : Char) (cs : List Char) {n : Nat} (h : c.utf8Size ≤ n) :
    take n (c :: cs) = (take (n - c.utf8Size) cs).map (c :: ·) := by
  obtain _ | n := n
  · exact absurd c.utf8Size_pos (Nat.not_lt.2 h)
  · rw [take, if_pos h]

theorem drop_append (cs cs' : List Char) : drop (size cs) (cs ++ cs') = some cs' := by
  induction cs with
  | nil => exact drop_zero cs'
  | cons c cs ih =>
    rw [List.cons_append, size_cons, drop_cons c _ (Nat.le_add_right _ _), Nat.add_sub_cancel_left]
    exact ih

theorem take_append (cs cs' : List Char) : take (size cs) (cs ++ cs') = some cs := by
  induction cs with
  | nil => exact take_zero cs'
  | cons c cs ih =>
    rw [List.cons_append, size_cons, take_cons c _ (Nat.le_add_right _ _), Nat.add_sub_cancel_left,
      ih]
    rfl

/-- The offsets of a middle part cut it out. -/
theorem slice_append (before middle after : List Char) :
    slice (size before) (size before + size middle) (before ++ (middle ++ after)) = some middle := by
  rw [slice, if_pos (Nat.le_add_right _ _), drop_append, Option.bind_some, Nat.add_sub_cancel_left,
    take_append]

example : slice 2 3 "é;".toList = some [';'] := by decide

example : slice 1 3 "é;".toList = none := by decide

end Utf8

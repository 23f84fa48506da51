import JavaBridge.Error
import JavaBridge.Library.ModifiedUtf8

/-!
# Strings of the runtime

Every text that the runtime hands over comes with a zero byte at its end: the characters of
`GetStringUTFChars`, the descriptor of a class and the contents of a `std::string`. The sources read
them with `CStr::to_str`, which takes UTF-8.

Main results:

* `cstrToStr_of_zero`: what is read of a text up to its zero byte.
* `getStringRaw_encodeUtf16`, `getStringUtfRaw_encodeUtf16`: what the two accessors make of a Java
  string.
-/

namespace JavaBridge

variable {θ : Type}

/-- `CStr::from_ptr(…).to_str()`, of the bytes from the pointer on. -/
def cstrToStr (bytes : List UInt8) : Except (Error θ) String :=
  match Utf8.decode? (bytes.takeWhile (· ≠ 0)) with
  | some text => .ok text
  | none => .error .invalidUtf8

/-! ## Java strings -/

/-- What the runtime answers to the accessors of a string, apart from its characters. -/
structure StringAnswers (θ : Type) where
  /-- `check_pending_exception` after `GetStringLength`. -/
  lengthChecked : Except (Error θ) Unit
  /-- `check_pending_exception` where `GetStringChars` or `GetStringUTFChars` gave null. -/
  charsNull : Option (Except (Error θ) Unit)

/-- A null pointer for the characters. -/
def StringAnswers.chars (jni : StringAnswers θ) (operation : String) : Except (Error θ) Unit :=
  match jni.charsNull with
  | none => .ok ()
  | some checked => checked.bind fun _ ↦ .error (.nullReturn operation)

/-- A null reference, or a string with its UTF-16 units. -/
def getStringRaw (jni : StringAnswers θ) (string : Option (List (BitVec 16))) :
    Except (Error θ) String :=
  match string with
  | none => .error (.nullReturn "JNIEnv::GetStringLength")
  | some units => do
    jni.lengthChecked
    jni.chars "JNIEnv::GetStringChars"
    match ModifiedUtf8.decodeUtf16 units with
    | some text => .ok (String.ofList text)
    | none => .error .invalidUtf16

/-- The runtime gives a string in modified UTF-8. -/
def getStringUtfRaw (jni : StringAnswers θ) (units : List (BitVec 16)) :
    Except (Error θ) String := do
  jni.chars "JNIEnv::GetStringUTFChars"
  cstrToStr (ModifiedUtf8.encode units ++ [0])

/-- No accessor fails. -/
def StringAnswers.granted : StringAnswers θ := ⟨.ok (), none⟩

/-! ## Strings of C++ -/

/-- The three words of a `std::string`. -/
structure ArtStdString where
  word₀ : BitVec 64
  word₁ : BitVec 64
  word₂ : BitVec 64

/-- The bytes of a word in memory. -/
def wordBytes (word : BitVec 64) : List UInt8 :=
  (List.range 8).map fun i ↦ UInt8.ofNat (word.toNat / 256 ^ i)

namespace ArtStdString

variable (string : ArtStdString) (deref : BitVec 64 → List UInt8)

/-- The bytes from `data` on, where it is not null: those of the heap, at a pointer, or those of the
string itself after the first. -/
def data : Option (List UInt8) :=
  if string.word₀ &&& 1 ≠ 0 then
    if string.word₂ = 0 then none else some (deref string.word₂)
  else
    some ((wordBytes string.word₀ ++ wordBytes string.word₁ ++ wordBytes string.word₂).drop 1)

protected def toString : Except (Error θ) String :=
  match string.data deref with
  | none => .error (.nullReturn "std::string::c_str")
  | some bytes => cstrToStr bytes

/-- The string holds a text: its bytes, and a zero byte after them. -/
def Holds (text : List UInt8) : Prop := ∃ rest, string.data deref = some (text ++ 0 :: rest)

end ArtStdString

/-- `descriptor` is what is at the pointer that `GetDescriptor` gives. -/
def classDescriptorFromArt (descriptor : Option (List UInt8)) : Except (Error θ) String :=
  match descriptor with
  | none => .error (.nullReturn "art::mirror::Class::GetDescriptor")
  | some bytes => cstrToStr bytes

/-! ## What is read -/

/-- A text without zero bytes is read up to the zero byte after it. -/
theorem cstrToStr_of_zero {text rest : List UInt8} (h : ∀ b ∈ text, b ≠ 0) :
    cstrToStr (θ := θ) (text ++ 0 :: rest) =
      match Utf8.decode? text with
      | some text => .ok text
      | none => .error .invalidUtf8 := by
  have htake : (text ++ 0 :: rest).takeWhile (· ≠ 0) = text := by
    rw [List.takeWhile_append_of_pos fun b hb ↦ decide_eq_true (h b hb)]
    simp
  rw [cstrToStr, htake]

/-- Modified UTF-8 is read where it is UTF-8. -/
theorem cstrToStr_modifiedUtf8 {cs : List Char} {rest : List UInt8} {text : String} :
    cstrToStr (θ := θ) (ModifiedUtf8.encode (ModifiedUtf8.encodeUtf16 cs) ++ 0 :: rest) =
      .ok text ↔ (∀ c ∈ cs, ModifiedUtf8.IsPlain c) ∧ String.ofList cs = text := by
  rw [cstrToStr_of_zero fun _ ↦ ModifiedUtf8.ne_zero_of_mem_encode]
  constructor
  · intro h
    split at h
    · next text' htext =>
      obtain rfl := Except.ok.inj h
      obtain ⟨htext, hplain⟩ := ModifiedUtf8.encode_eq_utf8_iff.1 (Utf8.decode?_eq_some.1 htext)
      exact ⟨hplain, by rw [← htext, String.ofList_toList]⟩
    · cases h
  · rintro ⟨hplain, rfl⟩
    have htext : ModifiedUtf8.encode (ModifiedUtf8.encodeUtf16 cs) =
        Utf8.encode (String.ofList cs).toList := by
      rw [String.toList_ofList]
      exact ModifiedUtf8.encode_eq_utf8_iff.2 ⟨rfl, hplain⟩
    rw [Utf8.decode?_eq_some.2 htext]

theorem getStringRaw_encodeUtf16 (cs : List Char) :
    getStringRaw (θ := θ) .granted (some (ModifiedUtf8.encodeUtf16 cs)) =
      .ok (String.ofList cs) := by
  rw [getStringRaw, ModifiedUtf8.decodeUtf16_encodeUtf16]
  rfl

theorem getStringUtfRaw_encodeUtf16 {cs : List Char} {text : String} :
    getStringUtfRaw (θ := θ) .granted (ModifiedUtf8.encodeUtf16 cs) = .ok text ↔
      (∀ c ∈ cs, ModifiedUtf8.IsPlain c) ∧ String.ofList cs = text :=
  cstrToStr_modifiedUtf8

end JavaBridge

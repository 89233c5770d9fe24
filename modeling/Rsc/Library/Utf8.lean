import Mathlib.Data.List.Basic

/-!
UTF-8: the bytes of a text, and the lossy decoding of any bytes, as in Rust's
`String::from_utf8_lossy`. Bytes that begin no character are replaced by U+FFFD, one
for each maximal ill-formed part.
-/

namespace Rsc.Library.Utf8

/-- The bytes of a text. -/
def encode (text : String) : List UInt8 := text.toUTF8.data.toList

theorem encode_eq (text : String) : encode text = text.toList.flatMap String.utf8EncodeChar := by
  rw [encode, String.toUTF8, ← String.utf8Encode_toList]
  simp [List.utf8Encode]

theorem encode_append (s t : String) : encode (s ++ t) = encode s ++ encode t := by
  simp [encode_eq]

theorem encode_inj {s t : String} : encode s = encode t ↔ s = t := by
  constructor
  · intro h
    exact String.toByteArray_inj.mp (ByteArray.ext (Array.toList_inj.mp h))
  · rintro rfl
    rfl

/-- `String::from_utf8`: what is decoded is encoded to the same bytes. -/
theorem fromUTF8?_eq_some {bytes : List UInt8} {text : String} :
    String.fromUTF8? ⟨bytes.toArray⟩ = some text ↔ bytes = encode text := by
  unfold String.fromUTF8?
  constructor
  · intro h
    split at h
    · cases h
      rfl
    · cases h
  · rintro rfl
    have harray : (⟨(encode text).toArray⟩ : ByteArray) = text.toUTF8 := by
      rw [encode, Array.toArray_toList]
    rw [harray]
    exact dif_pos text.isValidUTF8

/-! ## Lossy decoding -/

/-- How many bytes follow a first byte, and the range of the first of them. -/
def following (b : UInt8) : Option (Nat × UInt8 × UInt8) :=
  if 0xC2 ≤ b ∧ b ≤ 0xDF then some (1, 0x80, 0xBF)
  else if b = 0xE0 then some (2, 0xA0, 0xBF)
  else if b = 0xED then some (2, 0x80, 0x9F)
  else if 0xE1 ≤ b ∧ b ≤ 0xEF then some (2, 0x80, 0xBF)
  else if b = 0xF0 then some (3, 0x90, 0xBF)
  else if 0xF1 ≤ b ∧ b ≤ 0xF3 then some (3, 0x80, 0xBF)
  else if b = 0xF4 then some (3, 0x80, 0x8F)
  else none

def isContinuation (b : UInt8) : Bool := 0x80 ≤ b && b ≤ 0xBF

/-- The length of the maximal part of a character that the bytes begin with, when they
do not begin with a whole one. -/
def illFormedLength (b : UInt8) (bytes : List UInt8) : Nat :=
  match following b, bytes with
  | some (count, low, high), second :: more =>
      if low ≤ second ∧ second ≤ high then
        2 + ((more.take (count - 1)).takeWhile isContinuation).length
      else 1
  | _, _ => 1

/-- The first character, and the number of bytes it takes. -/
def decodeFirst (b : UInt8) (bytes : List UInt8) : Char × Nat :=
  match (b :: bytes).toByteArray.utf8DecodeChar? 0 with
  | some c => (c, c.utf8Size)
  | none => ('\uFFFD', illFormedLength b bytes)

/-- The characters of at most `fuel` steps. -/
def decodeAux : Nat → List UInt8 → List Char
  | fuel + 1, b :: bytes =>
      (decodeFirst b bytes).1 :: decodeAux fuel ((b :: bytes).drop (decodeFirst b bytes).2)
  | _, _ => []

/-- `String::from_utf8_lossy`. -/
def decodeLossy (bytes : List UInt8) : String := .ofList (decodeAux bytes.length bytes)

theorem decodeFirst_encodeChar {c : Char} {b : UInt8} {bytes rest : List UInt8}
    (h : String.utf8EncodeChar c ++ rest = b :: bytes) :
    decodeFirst b bytes = (c, c.utf8Size) := by
  have hdecode : (b :: bytes).toByteArray.utf8DecodeChar? 0 = some c := by
    rw [← h, List.toByteArray_append]
    exact ByteArray.utf8DecodeChar?_utf8EncodeChar_append
  rw [decodeFirst, hdecode]

theorem decodeAux_encodeChar (fuel : Nat) (c : Char) (rest : List UInt8) :
    decodeAux (fuel + 1) (String.utf8EncodeChar c ++ rest) = c :: decodeAux fuel rest := by
  have hsize := String.length_utf8EncodeChar c
  have hpos := c.utf8Size_pos
  obtain ⟨b, bytes, hbytes⟩ : ∃ b bytes, String.utf8EncodeChar c ++ rest = b :: bytes := by
    apply List.exists_cons_of_ne_nil
    intro h
    have hlength := congrArg List.length h
    simp at hlength
    omega
  rw [hbytes, decodeAux, decodeFirst_encodeChar hbytes, ← hbytes, ← hsize, List.drop_left]

theorem decodeAux_flatMap {fuel : Nat} {l : List Char} (h : l.length ≤ fuel) :
    decodeAux fuel (l.flatMap String.utf8EncodeChar) = l := by
  induction l generalizing fuel with
  | nil => cases fuel <;> rfl
  | cons c l ih =>
    cases fuel with
    | zero => simp at h
    | succ fuel =>
      rw [List.flatMap_cons, decodeAux_encodeChar, ih (by simpa using h)]

theorem length_le_encode (text : String) : text.toList.length ≤ (encode text).length := by
  rw [encode_eq, List.length_flatMap]
  induction text.toList with
  | nil => simp
  | cons c l ih =>
    have hpos := c.utf8Size_pos
    simp only [List.length_cons, List.map_cons, List.sum_cons, String.length_utf8EncodeChar]
      at ih ⊢
    omega

/-- The bytes of a text are decoded to the text. -/
@[simp] theorem decodeLossy_encode (text : String) : decodeLossy (encode text) = text := by
  rw [decodeLossy]
  conv_lhs => rw [encode_eq text]
  rw [decodeAux_flatMap (by rw [← encode_eq]; exact length_le_encode text), String.ofList_toList]

/-! ## ASCII -/

/-- What a byte can be is checked on the 256 values. -/
theorem forall_byte {P : UInt8 → Prop} (h : ∀ n < 256, P (.ofNat n)) (b : UInt8) : P b := by
  have hb := h b.toNat b.toNat_lt
  rwa [UInt8.ofNat_toNat] at hb

/-- The text of bytes below 128. -/
def ascii (bytes : List UInt8) : String := .ofList (bytes.map fun b => Char.ofNat b.toNat)

theorem utf8EncodeChar_ofNat {b : UInt8} (h : b < 128) :
    String.utf8EncodeChar (Char.ofNat b.toNat) = [b] := by
  have hall : ∀ n < 128, String.utf8EncodeChar (Char.ofNat n) = [UInt8.ofNat n] := by decide
  rw [hall b.toNat h, UInt8.ofNat_toNat]

theorem encode_ascii {bytes : List UInt8} (h : ∀ b ∈ bytes, b < 128) :
    encode (ascii bytes) = bytes := by
  rw [encode_eq, ascii, String.toList_ofList, List.flatMap_map]
  induction bytes with
  | nil => rfl
  | cons b bytes ih =>
    rw [List.flatMap_cons, utf8EncodeChar_ofNat (h b List.mem_cons_self),
      ih fun c hc => h c (List.mem_cons_of_mem _ hc), List.singleton_append]

/-- A byte below 128 stands for its own character only. -/
theorem toNat_of_mem_encodeChar {c : Char} {b : UInt8} (hb : b < 128)
    (h : b ∈ String.utf8EncodeChar c) : c.toNat = b.toNat := by
  rw [UInt8.lt_iff_toNat_lt] at hb
  have hlt : b.toNat < 128 := hb
  simp only [String.utf8EncodeChar, ← Char.toNat.eq_1] at h
  split at h
  · next hc =>
    rw [List.mem_singleton.mp h]
    simp
    omega
  · exfalso
    split at h
    · simp only [List.mem_cons, List.not_mem_nil, or_false] at h
      rcases h with rfl | rfl <;> simp at hlt <;> omega
    · split at h
      · simp only [List.mem_cons, List.not_mem_nil, or_false] at h
        rcases h with rfl | rfl | rfl <;> simp at hlt <;> omega
      · simp only [List.mem_cons, List.not_mem_nil, or_false] at h
        rcases h with rfl | rfl | rfl | rfl <;> simp at hlt <;> omega

theorem notMem_encode {text : String} {c : Char} (hc : c.toNat < 128) (h : c ∉ text.toList) :
    UInt8.ofNat c.toNat ∉ encode text := by
  rw [encode_eq]
  intro hmem
  obtain ⟨d, hd, hb⟩ := List.mem_flatMap.mp hmem
  have hval : (UInt8.ofNat c.toNat).toNat = c.toNat := by simp; omega
  have heq := toNat_of_mem_encodeChar (by rw [UInt8.lt_iff_toNat_lt, hval]; exact hc) hb
  rw [hval] at heq
  obtain rfl : d = c := Char.toNat_inj.mp heq
  exact h hd

/-- Ill-formed bytes: a cut character, a stray continuation, an overlong form. -/
example : decodeLossy [0x61, 0xE2, 0x82, 0x62, 0x80, 0xC0, 0xAF] =
    "a\uFFFDb\uFFFD\uFFFD\uFFFD" := by decide

end Rsc.Library.Utf8

import Rsc.Library.Text
import Rsc.Library.Utf8

/-!
The base64 of RFC 4648: the URL-safe one of section 5 without padding, and the standard one of
section 4.
-/

namespace Rsc.Library.Base64

open Utf8

/-- A letter, a digit, `-` or `_`. -/
def isUrlSafe (b : UInt8) : Bool :=
  (65 ≤ b && b ≤ 90) || (97 ≤ b && b ≤ 122) || (48 ≤ b && b ≤ 57) || b == 45 || b == 95

/-- The symbol of a number below 64. -/
def symbol (n : Nat) : UInt8 :=
  if n < 26 then .ofNat (65 + n)
  else if n < 52 then .ofNat (71 + n)
  else if n < 62 then .ofNat (n - 4)
  else if n = 62 then 45
  else 95

/-- Three bytes make four symbols; one or two bytes at the end make two or three. -/
def encodeBytes : List UInt8 → List UInt8
  | [] => []
  | [a] => [symbol (a.toNat / 4), symbol (a.toNat % 4 * 16)]
  | [a, b] =>
      [symbol (a.toNat / 4), symbol (a.toNat % 4 * 16 + b.toNat / 16), symbol (b.toNat % 16 * 4)]
  | a :: b :: c :: bytes =>
      symbol (a.toNat / 4) :: symbol (a.toNat % 4 * 16 + b.toNat / 16) ::
        symbol (b.toNat % 16 * 4 + c.toNat / 64) :: symbol (c.toNat % 64) :: encodeBytes bytes

/-- `URL_SAFE_NO_PAD.encode`. -/
def urlSafe (bytes : List UInt8) : String := ascii (encodeBytes bytes)

theorem length_encodeBytes (bytes : List UInt8) :
    (encodeBytes bytes).length = (8 * bytes.length + 5) / 6 := by
  fun_induction encodeBytes bytes with
  | case1 => rfl
  | case2 a => simp
  | case3 a b => simp
  | case4 a b c bytes ih =>
    simp only [List.length_cons, ih]
    omega

theorem isUrlSafe_symbol (n : Nat) : isUrlSafe (symbol n) = true := by
  by_cases h : n < 63
  · have hall : ∀ n < 63, isUrlSafe (symbol n) = true := by decide
    exact hall n h
  · unfold symbol
    split_ifs
    · omega
    · omega
    · omega
    · rfl
    · rfl

theorem isUrlSafe_encodeBytes {bytes : List UInt8} {b : UInt8} (h : b ∈ encodeBytes bytes) :
    isUrlSafe b = true := by
  fun_induction encodeBytes bytes with
  | case1 => cases h
  | case2 a =>
    simp only [List.mem_cons, List.not_mem_nil, or_false] at h
    rcases h with rfl | rfl <;> exact isUrlSafe_symbol _
  | case3 a b' =>
    simp only [List.mem_cons, List.not_mem_nil, or_false] at h
    rcases h with rfl | rfl | rfl <;> exact isUrlSafe_symbol _
  | case4 a b' c bytes ih =>
    simp only [List.mem_cons] at h
    rcases h with rfl | rfl | rfl | rfl | h
    · exact isUrlSafe_symbol _
    · exact isUrlSafe_symbol _
    · exact isUrlSafe_symbol _
    · exact isUrlSafe_symbol _
    · exact ih h

theorem isUrlSafe_lt {b : UInt8} (h : isUrlSafe b = true) : b < 128 := by
  have hall : ∀ b, isUrlSafe b = true → b < 128 := forall_byte (by decide +kernel)
  exact hall b h

theorem encode_urlSafe (bytes : List UInt8) : encode (urlSafe bytes) = encodeBytes bytes :=
  encode_ascii fun _ hb => isUrlSafe_lt (isUrlSafe_encodeBytes hb)

/-- 32 bytes make 43 symbols. -/
theorem length_encode_urlSafe {bytes : List UInt8} (h : bytes.length = 32) :
    (encode (urlSafe bytes)).length = 43 := by
  rw [encode_urlSafe, length_encodeBytes, h]

/-! ## Different bytes -/

/-- The number of a symbol. -/
def value (b : UInt8) : Nat :=
  if b = 45 then 62
  else if b = 95 then 63
  else if b < 58 then b.toNat + 4
  else if b < 91 then b.toNat - 65
  else b.toNat - 71

theorem value_symbol : ∀ n < 64, value (symbol n) = n := by decide

theorem symbol_inj {n m : Nat} (hn : n < 64) (hm : m < 64) (h : symbol n = symbol m) : n = m := by
  rw [← value_symbol n hn, h, value_symbol m hm]

/-- Three bytes are known from their four symbols. -/
theorem group_inj {a b c a' b' c' : UInt8} (h₁ : symbol (a.toNat / 4) = symbol (a'.toNat / 4))
    (h₂ : symbol (a.toNat % 4 * 16 + b.toNat / 16) = symbol (a'.toNat % 4 * 16 + b'.toNat / 16))
    (h₃ : symbol (b.toNat % 16 * 4 + c.toNat / 64) = symbol (b'.toNat % 16 * 4 + c'.toNat / 64))
    (h₄ : symbol (c.toNat % 64) = symbol (c'.toNat % 64)) : a = a' ∧ b = b' ∧ c = c' := by
  have ha := a.toNat_lt
  have ha' := a'.toNat_lt
  have hb := b.toNat_lt
  have hb' := b'.toNat_lt
  have hc := c.toNat_lt
  have hc' := c'.toNat_lt
  have h₁ := symbol_inj (by omega) (by omega) h₁
  have h₂ := symbol_inj (by omega) (by omega) h₂
  have h₃ := symbol_inj (by omega) (by omega) h₃
  have h₄ := symbol_inj (by omega) (by omega) h₄
  refine ⟨UInt8.toNat_inj.mp ?_, UInt8.toNat_inj.mp ?_, UInt8.toNat_inj.mp ?_⟩
  · omega
  · omega
  · omega

/-- Different bytes, as many of them, have different symbols. The last symbol carries the bits
that are left: two of one byte, four of two. -/
theorem encodeBytes_inj {bytes bytes' : List UInt8} (hlength : bytes.length = bytes'.length)
    (h : encodeBytes bytes = encodeBytes bytes') : bytes = bytes' := by
  fun_induction encodeBytes bytes generalizing bytes' with
  | case1 => exact (List.length_eq_zero_iff.mp hlength.symm).symm
  | case2 a =>
    obtain ⟨a', rfl⟩ := List.length_eq_one_iff.mp hlength.symm
    simp only [encodeBytes, List.cons.injEq, and_true] at h
    obtain ⟨rfl, -, -⟩ := @group_inj a 0 0 a' 0 0 h.1 h.2 rfl rfl
    rfl
  | case3 a b =>
    obtain ⟨a', b', rfl⟩ := List.length_eq_two.mp hlength.symm
    simp only [encodeBytes, List.cons.injEq, and_true] at h
    obtain ⟨rfl, rfl, -⟩ := @group_inj a b 0 a' b' 0 h.1 h.2.1 h.2.2 rfl
    rfl
  | case4 a b c bytes ih =>
    rcases bytes' with _ | ⟨a', _ | ⟨b', _ | ⟨c', bytes'⟩⟩⟩
    · cases hlength
    · cases hlength
    · cases hlength
    simp only [encodeBytes, List.cons.injEq] at h
    obtain ⟨h₁, h₂, h₃, h₄, hrest⟩ := h
    obtain ⟨rfl, rfl, rfl⟩ := group_inj h₁ h₂ h₃ h₄
    rw [ih (by simpa using hlength) hrest]

theorem urlSafe_inj {bytes bytes' : List UInt8} (hlength : bytes.length = bytes'.length)
    (h : urlSafe bytes = urlSafe bytes') : bytes = bytes' := by
  refine encodeBytes_inj hlength ?_
  rw [← encode_urlSafe, h, encode_urlSafe]

/-! ## The standard alphabet -/

/-- `+` and `/` stand for `-` and `_`. -/
def toStandard (b : UInt8) : UInt8 := if b = 45 then 43 else if b = 95 then 47 else b

/-- `STANDARD_NO_PAD.encode`. -/
def standardNoPad (bytes : List UInt8) : String := ascii ((encodeBytes bytes).map toStandard)

/-- `STANDARD.encode`: `=` fill the last four symbols. -/
def standard (bytes : List UInt8) : String :=
  let symbols := (encodeBytes bytes).map toStandard
  ascii (symbols ++ List.replicate ((4 - symbols.length % 4) % 4) 61)

theorem isWhitespace_toStandard {bytes : List UInt8} {b : UInt8}
    (h : b ∈ (encodeBytes bytes).map toStandard) :
    Text.isWhitespace (Char.ofNat b.toNat) = false := by
  have hall : ∀ b, isUrlSafe b = true →
      Text.isWhitespace (Char.ofNat (toStandard b).toNat) = false := forall_byte (by decide +kernel)
  obtain ⟨symbol, hsymbol, rfl⟩ := List.mem_map.mp h
  exact hall symbol (isUrlSafe_encodeBytes hsymbol)

theorem isWhitespace_standardNoPad {bytes : List UInt8} {c : Char}
    (h : c ∈ (standardNoPad bytes).toList) : Text.isWhitespace c = false := by
  rw [standardNoPad, ascii, String.toList_ofList] at h
  obtain ⟨b, hb, rfl⟩ := List.mem_map.mp h
  exact isWhitespace_toStandard hb

theorem isWhitespace_standard {bytes : List UInt8} {c : Char}
    (h : c ∈ (standard bytes).toList) : Text.isWhitespace c = false := by
  rw [standard, ascii, String.toList_ofList] at h
  obtain ⟨b, hb, rfl⟩ := List.mem_map.mp h
  rcases List.mem_append.mp hb with hb | hb
  · exact isWhitespace_toStandard hb
  · rw [List.eq_of_mem_replicate hb]
    rfl

/-- The credentials of a client, `web:secret`. -/
example : standard (encode "web:secret") = "d2ViOnNlY3JldA==" ∧
    standardNoPad (encode "web:secret") = "d2ViOnNlY3JldA" := by decide +kernel

end Rsc.Library.Base64

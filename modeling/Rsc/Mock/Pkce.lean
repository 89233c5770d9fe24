import Rsc.Library.Utf8
import Mathlib.Tactic.Linarith

/-!
`rsc-mock/src/pkce.rs`: PKCE with the S256 method. SHA-256 and the base64url
encoding are parameters (`Hashing`); the model is about what is done with them.
-/

namespace Rsc.Mock.Pkce

open Rsc.Library

/-- `str::as_bytes`: the UTF-8 encoding. -/
def asBytes (s : String) : List UInt8 := s.toUTF8.data.toList

theorem asBytes_eq (s : String) : asBytes s = s.toList.flatMap String.utf8EncodeChar :=
  Utf8.encode_eq s

theorem asBytes_inj {s t : String} : asBytes s = asBytes t ↔ s = t := Utf8.encode_inj

/-- The functions the mock takes from its dependencies. -/
structure Hashing where
  sha256 : List UInt8 → List UInt8
  base64url : List UInt8 → String

/-- `s256_challenge`. -/
def s256Challenge (H : Hashing) (verifier : String) : String :=
  H.base64url (H.sha256 (asBytes verifier))

/-- `u8::is_ascii_alphanumeric`. -/
def isAsciiAlphanumeric (b : UInt8) : Bool :=
  (48 ≤ b.toNat && b.toNat ≤ 57) || (65 ≤ b.toNat && b.toNat ≤ 90) ||
    (97 ≤ b.toNat && b.toNat ≤ 122)

/-- A byte of `ALPHA / DIGIT / "-" / "." / "_" / "~"`. -/
def isUnreserved (b : UInt8) : Bool :=
  isAsciiAlphanumeric b || b.toNat == 45 || b.toNat == 46 || b.toNat == 95 || b.toNat == 126

/-- `is_valid_verifier`: the length is counted in bytes. -/
def isValidVerifier (verifier : String) : Bool :=
  (43 ≤ (asBytes verifier).length && (asBytes verifier).length ≤ 128) &&
    (asBytes verifier).all isUnreserved

/-- `is_valid_challenge`: 43 bytes of `ALPHA / DIGIT / "-" / "_"`. -/
def isValidChallenge (challenge : String) : Bool :=
  (asBytes challenge).length == 43 &&
    (asBytes challenge).all fun b => isAsciiAlphanumeric b || b.toNat == 45 || b.toNat == 95

/-- `verify_s256`: the digests are compared byte by byte. -/
def verifyS256 (H : Hashing) (verifier challenge : String) : Bool :=
  isValidVerifier verifier && asBytes (s256Challenge H verifier) == asBytes challenge

/-! ## The verifier in characters -/

/-- An unreserved character of RFC 7636, section 4.1. -/
def Unreserved (c : Char) : Prop :=
  c.isAlphanum = true ∨ c = '-' ∨ c = '.' ∨ c = '_' ∨ c = '~'

theorem unreserved_iff (c : Char) :
    Unreserved c ↔ (48 ≤ c.toNat ∧ c.toNat ≤ 57) ∨ (65 ≤ c.toNat ∧ c.toNat ≤ 90) ∨
      (97 ≤ c.toNat ∧ c.toNat ≤ 122) ∨ c.toNat = 45 ∨ c.toNat = 46 ∨ c.toNat = 95 ∨
      c.toNat = 126 := by
  have he : ∀ d : Char, c = d ↔ c.toNat = d.toNat := fun d => Char.toNat_inj.symm
  have hupper : c.isUpper = decide (65 ≤ c.val ∧ c.val ≤ 90) := rfl
  have hlower : c.isLower = (decide (97 ≤ c.val) && decide (c.val ≤ 122)) := rfl
  have hdigit : c.isDigit = (decide (48 ≤ c.val) && decide (c.val ≤ 57)) := rfl
  have halphanum : c.isAlphanum = (c.isUpper || c.isLower || c.isDigit) := rfl
  simp only [Unreserved, he, halphanum, hupper, hlower, hdigit, Bool.or_eq_true,
    Bool.and_eq_true, decide_eq_true_eq, UInt32.le_iff_toNat_le, Char.toNat]
  simp
  omega

/-- A character is unreserved exactly when all its bytes are, and it is then one byte. -/
theorem all_unreserved_iff (c : Char) :
    (String.utf8EncodeChar c).all isUnreserved = true ↔ Unreserved c := by
  rw [unreserved_iff]
  simp only [String.utf8EncodeChar, ← Char.toNat.eq_1]
  split
  · simp [isUnreserved, isAsciiAlphanumeric]
    omega
  · split
    · simp [isUnreserved, isAsciiAlphanumeric]
      omega
    · split
      · simp [isUnreserved, isAsciiAlphanumeric]
        omega
      · simp [isUnreserved, isAsciiAlphanumeric]
        omega

theorem length_utf8EncodeChar_of_unreserved {c : Char} (h : Unreserved c) :
    (String.utf8EncodeChar c).length = 1 := by
  rw [unreserved_iff] at h
  simp only [String.utf8EncodeChar, ← Char.toNat.eq_1]
  rw [if_pos (by omega)]
  rfl

theorem length_flatMap_of_unreserved {l : List Char} (h : ∀ c ∈ l, Unreserved c) :
    (l.flatMap String.utf8EncodeChar).length = l.length := by
  induction l with
  | nil => rfl
  | cons c l ih =>
    rw [List.flatMap_cons, List.length_append, ih fun d hd => h d (List.mem_cons_of_mem _ hd),
      length_utf8EncodeChar_of_unreserved (h c List.mem_cons_self), List.length_cons,
      Nat.add_comm]

/-- Counting bytes and looking at bytes is the same as counting and looking at
characters: 43 to 128 unreserved characters. -/
theorem isValidVerifier_iff (verifier : String) :
    isValidVerifier verifier = true ↔
      43 ≤ verifier.length ∧ verifier.length ≤ 128 ∧ ∀ c ∈ verifier.toList, Unreserved c := by
  have hall : (asBytes verifier).all isUnreserved = true ↔
      ∀ c ∈ verifier.toList, Unreserved c := by
    rw [asBytes_eq, List.all_flatMap]
    simp only [List.all_eq_true (p := fun c => (String.utf8EncodeChar c).all isUnreserved),
      all_unreserved_iff]
  simp only [isValidVerifier, Bool.and_eq_true, decide_eq_true_eq, hall]
  constructor
  · rintro ⟨⟨h43, h128⟩, hu⟩
    rw [asBytes_eq, length_flatMap_of_unreserved hu, String.length_toList] at h43 h128
    exact ⟨h43, h128, hu⟩
  · rintro ⟨h43, h128, hu⟩
    rw [asBytes_eq, length_flatMap_of_unreserved hu, String.length_toList]
    exact ⟨⟨h43, h128⟩, hu⟩

theorem verifyS256_iff (H : Hashing) (verifier challenge : String) :
    verifyS256 H verifier challenge = true ↔
      isValidVerifier verifier = true ∧ challenge = s256Challenge H verifier := by
  rw [verifyS256, Bool.and_eq_true, beq_iff_eq, asBytes_inj, @eq_comm _ challenge]

end Rsc.Mock.Pkce

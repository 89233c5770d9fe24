import Mathlib.Data.List.TakeWhile

/-!
Operations of Rust's `str` on lists of characters.
-/

namespace Rsc.Library.Text

/-- `str::split_once`. -/
def splitOnce (separator : Char) (text : List Char) : Option (List Char × List Char) :=
  if separator ∈ text then
    some (text.takeWhile (· != separator), (text.dropWhile (· != separator)).drop 1)
  else none

/-- The white space of ASCII. -/
def isWhitespace (c : Char) : Bool := c == ' ' || ('\t' ≤ c && c ≤ '\r')

/-- `str::trim`, for a text whose white space is ASCII. -/
def trim (text : List Char) : List Char :=
  ((text.dropWhile isWhitespace).reverse.dropWhile isWhitespace).reverse

/-- `char::is_whitespace`: the white space of Unicode. -/
def isUnicodeWhitespace (c : Char) : Bool :=
  isWhitespace c || c == '\u0085' || c == '\u00A0' || c == '\u1680' ||
    ('\u2000' ≤ c && c ≤ '\u200A') || c == '\u2028' || c == '\u2029' || c == '\u202F' ||
    c == '\u205F' || c == '\u3000'

/-- `str::trim_end`. -/
def trimEnd (text : List Char) : List Char := (text.reverse.dropWhile isUnicodeWhitespace).reverse

/-- `str::eq_ignore_ascii_case`. -/
def eqIgnoreAsciiCase (a b : List Char) : Bool := a.map Char.toLower == b.map Char.toLower

/-- `str::parse::<u64>`: digits, after a plus sign perhaps, of a number that fits. -/
def parseU64 (text : List Char) : Option Nat :=
  let digits := if text.head? = some '+' then text.tail else text
  if digits ≠ [] ∧ digits.all Char.isDigit ∧ Nat.ofDigitChars 10 digits 0 < UInt64.size then
    some (Nat.ofDigitChars 10 digits 0)
  else none

theorem splitOnce_append {separator : Char} {before : List Char} (h : separator ∉ before)
    (after : List Char) : splitOnce separator (before ++ separator :: after) =
      some (before, after) := by
  have hbefore : ∀ c ∈ before, (c != separator) = true := fun c hc =>
    bne_iff_ne.mpr fun heq => h (heq ▸ hc)
  rw [splitOnce, if_pos (by simp), List.takeWhile_append_of_pos hbefore,
    List.dropWhile_append_of_pos hbefore]
  simp

theorem splitOnce_eq_some {separator : Char} {text before after : List Char} :
    splitOnce separator text = some (before, after) ↔
      text = before ++ separator :: after ∧ separator ∉ before := by
  constructor
  · intro h
    unfold splitOnce at h
    split at h
    · next hmem =>
      obtain ⟨first, rest, htext, hnot⟩ := List.eq_append_cons_of_mem hmem
      have hsplit := splitOnce_append hnot rest
      rw [splitOnce, ← htext, if_pos hmem, h] at hsplit
      cases hsplit
      exact ⟨htext, hnot⟩
    · cases h
  · rintro ⟨rfl, hnot⟩
    exact splitOnce_append hnot after

/-- What `splitOnce` answers, the whole text when the separator does not occur. -/
theorem splitOnce_getD (separator : Char) (text : List Char) :
    (splitOnce separator text).getD (text, []) =
      (text.takeWhile (· != separator), (text.dropWhile (· != separator)).drop 1) := by
  rw [splitOnce]
  split
  · rfl
  · next h =>
    have hall : ∀ c ∈ text, (c != separator) = true := fun c hc =>
      bne_iff_ne.mpr fun heq => h (heq ▸ hc)
    rw [List.takeWhile_eq_self_iff.mpr hall, List.dropWhile_eq_nil_iff.mpr hall]
    rfl

theorem trim_eq_self {text : List Char} (h : ∀ c ∈ text, isWhitespace c = false) :
    trim text = text := by
  have hdrop : ∀ l : List Char, (∀ c ∈ l, isWhitespace c = false) →
      l.dropWhile isWhitespace = l := by
    intro l hl
    cases l with
    | nil => rfl
    | cons c l => exact List.dropWhile_cons_of_neg (by simp [hl c List.mem_cons_self])
  rw [trim, hdrop text h, hdrop _ fun c hc => h c (List.mem_reverse.mp hc), List.reverse_reverse]

theorem trimEnd_append {text blanks : List Char}
    (htext : ∀ c ∈ text.getLast?, isUnicodeWhitespace c = false)
    (hblanks : ∀ c ∈ blanks, isUnicodeWhitespace c = true) : trimEnd (text ++ blanks) = text := by
  have hreverse : text.reverse.dropWhile isUnicodeWhitespace = text.reverse := by
    cases hcases : text.reverse with
    | nil => rfl
    | cons c rest =>
      have hlast : text.getLast? = some c := by
        rw [← List.head?_reverse, hcases, List.head?_cons]
      exact List.dropWhile_cons_of_neg (by simp [htext c hlast])
  rw [trimEnd, List.reverse_append, List.dropWhile_append_of_pos (by simpa using hblanks), hreverse,
    List.reverse_reverse]

/-! ## Fields -/

variable {α : Type*} [BEq α] [LawfulBEq α]

theorem notMem_of_mem_splitOn {a : α} {xs part : List α} (h : part ∈ xs.splitOn a) :
    a ∉ part := by
  induction xs generalizing part with
  | nil =>
    rw [List.splitOn_nil] at h
    rw [List.mem_singleton.mp h]
    exact List.not_mem_nil
  | cons x xs ih =>
    rw [List.splitOn_cons_eq_if_modifyHead] at h
    split at h
    · rcases List.mem_cons.mp h with rfl | h
      · exact List.not_mem_nil
      · exact ih h
    · next hx =>
      cases hsplit : xs.splitOn a with
      | nil => exact absurd hsplit (List.splitOn_ne_nil a xs)
      | cons first rest =>
        rw [hsplit] at h ih
        rcases List.mem_cons.mp h with rfl | h
        · rw [List.mem_cons, not_or]
          exact ⟨fun heq => hx (beq_iff_eq.mpr heq.symm), ih List.mem_cons_self⟩
        · exact ih (List.mem_cons_of_mem _ h)

/-- The text is the given fields, with the separator between them. -/
theorem splitOn_eq_iff {a : α} {xs : List α} {parts : List (List α)} (hparts : parts ≠ []) :
    xs.splitOn a = parts ↔ [a].intercalate parts = xs ∧ ∀ part ∈ parts, a ∉ part := by
  constructor
  · rintro rfl
    exact ⟨List.intercalate_splitOn a, fun _ => notMem_of_mem_splitOn⟩
  · rintro ⟨rfl, hnot⟩
    exact List.splitOn_intercalate a hnot hparts

/-! ## Decimal numbers -/

theorem isDigit_of_mem {n : Nat} {c : Char} (h : c ∈ Nat.toDigits 10 n) : c.isDigit = true :=
  Nat.isDigit_of_mem_toDigits (by decide) (by decide) h

/-- A character that is no digit does not occur in a number. -/
theorem notMem_toDigits {n : Nat} {c : Char} (h : c.isDigit = false) : c ∉ Nat.toDigits 10 n := by
  intro hc
  rw [isDigit_of_mem hc] at h
  cases h

theorem parseU64_toDigits {n : Nat} (h : n < UInt64.size) :
    parseU64 (Nat.toDigits 10 n) = some n := by
  have hsign : (Nat.toDigits 10 n).head? ≠ some '+' := fun hhead =>
    notMem_toDigits (by decide) (List.mem_of_mem_head? hhead)
  rw [parseU64, if_neg hsign, Nat.ofDigitChars_ten_toDigits,
    if_pos ⟨Nat.toDigits_ne_nil, List.all_eq_true.mpr fun _ => isDigit_of_mem, h⟩]

end Rsc.Library.Text

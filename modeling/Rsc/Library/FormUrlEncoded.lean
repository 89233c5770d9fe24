import Rsc.Library.Utf8

/-!
`application/x-www-form-urlencoded`: lists of pairs of texts as bytes, and back. What is
written is read back (`parse_serialize`); reading accepts any bytes.
-/

namespace Rsc.Library.FormUrlEncoded

open Utf8

/-! ## Writing -/

/-- The bytes that stand for themselves: `*`, `-`, `.`, `_`, digits and letters. -/
def isUnchanged (b : UInt8) : Bool :=
  b == 42 || b == 45 || b == 46 || b == 95 || (48 ≤ b && b ≤ 57) || (65 ≤ b && b ≤ 90) ||
    (97 ≤ b && b ≤ 122)

/-- The upper-case digit of a number below 16. -/
def hexDigit (n : Nat) : UInt8 := if n < 10 then .ofNat (48 + n) else .ofNat (55 + n)

def encodeByte (b : UInt8) : List UInt8 :=
  if isUnchanged b then [b]
  else if b = 32 then [43]
  else [37, hexDigit (b.toNat / 16), hexDigit (b.toNat % 16)]

def encodeText (text : String) : List UInt8 := (encode text).flatMap encodeByte

/-- `name=value`. -/
def encodePair (pair : String × String) : List UInt8 :=
  encodeText pair.1 ++ 61 :: encodeText pair.2

def serializeBytes (pairs : List (String × String)) : List UInt8 :=
  [38].intercalate (pairs.map encodePair)

def serialize (pairs : List (String × String)) : String := ascii (serializeBytes pairs)

/-! ## Reading -/

def hexValue (b : UInt8) : Option Nat :=
  if 48 ≤ b ∧ b ≤ 57 then some (b.toNat - 48)
  else if 65 ≤ b ∧ b ≤ 70 then some (b.toNat - 55)
  else if 97 ≤ b ∧ b ≤ 102 then some (b.toNat - 87)
  else none

/-- A percent sign that two digits do not follow stands for itself. -/
def percentDecode : List UInt8 → List UInt8
  | [] => []
  | [b] => [b]
  | [b, c] => [b, c]
  | b :: high :: low :: bytes =>
      if b = 37 then
        match hexValue high, hexValue low with
        | some h, some l => .ofNat (16 * h + l) :: percentDecode bytes
        | _, _ => b :: percentDecode (high :: low :: bytes)
      else b :: percentDecode (high :: low :: bytes)

def plusToSpace (b : UInt8) : UInt8 := if b = 43 then 32 else b

def decodeText (bytes : List UInt8) : String :=
  decodeLossy (percentDecode (bytes.map plusToSpace))

/-- The name goes to the first `=`; without one there is no value. -/
def decodePair (bytes : List UInt8) : String × String :=
  (decodeText (bytes.takeWhile (· != 61)), decodeText ((bytes.dropWhile (· != 61)).drop 1))

/-- The nonempty segments between `&`, as pairs. -/
def parse (bytes : List UInt8) : List (String × String) :=
  ((bytes.splitOn 38).filter fun segment => !segment.isEmpty).map decodePair

/-! ## The bytes that are written -/

/-- A byte of a written text: printable ASCII and no delimiter. -/
def IsWritten (b : UInt8) : Prop := isUnchanged b = true ∨ b = 43 ∨ b = 37

instance (b : UInt8) : Decidable (IsWritten b) := inferInstanceAs (Decidable (_ ∨ _))

theorem isUnchanged_hexDigit : ∀ n < 16, isUnchanged (hexDigit n) = true := by decide

theorem hexValue_hexDigit : ∀ n < 16, hexValue (hexDigit n) = some n := by decide

theorem isWritten_encodeByte {b c : UInt8} (h : c ∈ encodeByte b) : IsWritten c := by
  have hb := b.toNat_lt
  unfold encodeByte at h
  split at h
  · next hb =>
    obtain rfl := List.mem_singleton.mp h
    exact .inl hb
  · split at h
    · exact .inr (.inl (List.mem_singleton.mp h))
    · simp only [List.mem_cons, List.not_mem_nil, or_false] at h
      rcases h with rfl | rfl | rfl
      · exact .inr (.inr rfl)
      · exact .inl (isUnchanged_hexDigit _ (by omega))
      · exact .inl (isUnchanged_hexDigit _ (by omega))

theorem isWritten_encodeText {text : String} {c : UInt8} (h : c ∈ encodeText text) :
    IsWritten c := by
  obtain ⟨b, -, hc⟩ := List.mem_flatMap.mp h
  exact isWritten_encodeByte hc

theorem IsWritten.bounds {b : UInt8} (h : IsWritten b) :
    37 ≤ b ∧ b < 127 ∧ b ≠ 38 ∧ b ≠ 61 ∧ b ≠ 63 := by
  have hall : ∀ b, IsWritten b → 37 ≤ b ∧ b < 127 ∧ b ≠ 38 ∧ b ≠ 61 ∧ b ≠ 63 :=
    forall_byte (by decide +kernel)
  exact hall b h

theorem serializeBytes_cons (pair next : String × String) (pairs : List (String × String)) :
    serializeBytes (pair :: next :: pairs) =
      encodePair pair ++ 38 :: serializeBytes (next :: pairs) := by
  simp [serializeBytes, List.intercalate]

theorem serializeBytes_singleton (pair : String × String) :
    serializeBytes [pair] = encodePair pair := by
  simp [serializeBytes, List.intercalate]

theorem mem_encodePair {pair : String × String} {b : UInt8} (h : b ∈ encodePair pair) :
    IsWritten b ∨ b = 61 := by
  rcases List.mem_append.mp h with h | h
  · exact .inl (isWritten_encodeText h)
  · rcases List.mem_cons.mp h with h | h
    · exact .inr h
    · exact .inl (isWritten_encodeText h)

theorem mem_serializeBytes {pairs : List (String × String)} {b : UInt8}
    (h : b ∈ serializeBytes pairs) : IsWritten b ∨ b = 61 ∨ b = 38 := by
  induction pairs with
  | nil => cases h
  | cons pair pairs ih =>
    cases pairs with
    | nil =>
      rw [serializeBytes_singleton] at h
      exact (mem_encodePair h).imp_right .inl
    | cons next pairs =>
      rw [serializeBytes_cons] at h
      rcases List.mem_append.mp h with h | h
      · exact (mem_encodePair h).imp_right .inl
      · rcases List.mem_cons.mp h with h | h
        · exact .inr (.inr h)
        · exact ih h

/-! ## Reading what was written -/

theorem percentDecode_cons {b : UInt8} (h : b ≠ 37) (bytes : List UInt8) :
    percentDecode (b :: bytes) = b :: percentDecode bytes := by
  match bytes with
  | [] => rfl
  | [_] => rfl
  | _ :: _ :: _ => rw [percentDecode, if_neg h]

theorem plusToSpace_of_isUnchanged {b : UInt8} (h : isUnchanged b = true) : plusToSpace b = b := by
  have hne : b ≠ 43 := by rintro rfl; simp [isUnchanged] at h
  rw [plusToSpace, if_neg hne]

theorem percentDecode_encodeByte (b : UInt8) (rest : List UInt8) :
    percentDecode ((encodeByte b).map plusToSpace ++ rest) = b :: percentDecode rest := by
  have hb := b.toNat_lt
  unfold encodeByte
  split
  · next h =>
    have hne : b ≠ 37 := by rintro rfl; simp [isUnchanged] at h
    rw [List.map_singleton, plusToSpace_of_isUnchanged h, List.singleton_append,
      percentDecode_cons hne]
  · split
    · next h =>
      subst h
      exact percentDecode_cons (by decide) rest
    · have hhigh : b.toNat / 16 < 16 := by omega
      have hlow : b.toNat % 16 < 16 := by omega
      simp only [List.map_cons, List.map_nil, List.cons_append, List.nil_append,
        plusToSpace_of_isUnchanged (isUnchanged_hexDigit _ hhigh),
        plusToSpace_of_isUnchanged (isUnchanged_hexDigit _ hlow)]
      rw [show plusToSpace 37 = 37 from rfl, percentDecode, if_pos rfl, hexValue_hexDigit _ hhigh,
        hexValue_hexDigit _ hlow]
      show UInt8.ofNat (16 * (b.toNat / 16) + b.toNat % 16) :: _ = _
      rw [show 16 * (b.toNat / 16) + b.toNat % 16 = b.toNat by omega, UInt8.ofNat_toNat]

theorem percentDecode_flatMap (bytes : List UInt8) :
    percentDecode ((bytes.flatMap encodeByte).map plusToSpace) = bytes := by
  induction bytes with
  | nil => rfl
  | cons b bytes ih =>
    rw [List.flatMap_cons, List.map_append, percentDecode_encodeByte, ih]

@[simp] theorem decodeText_encodeText (text : String) : decodeText (encodeText text) = text := by
  rw [decodeText, encodeText, percentDecode_flatMap, decodeLossy_encode]

theorem decodePair_encodePair (pair : String × String) : decodePair (encodePair pair) = pair := by
  have hname : ∀ b ∈ encodeText pair.1, (b != 61) = true := fun b hb =>
    bne_iff_ne.mpr (isWritten_encodeText hb).bounds.2.2.2.1
  rw [decodePair, encodePair, List.takeWhile_append_of_pos hname,
    List.dropWhile_append_of_pos hname]
  simp

theorem encodePair_ne_nil (pair : String × String) : encodePair pair ≠ [] := by
  simp [encodePair]

theorem not_mem_encodePair (pair : String × String) : 38 ∉ encodePair pair := by
  intro h
  rcases mem_encodePair h with h | h
  · exact h.bounds.2.2.1 rfl
  · exact absurd h (by decide)

/-- What is written is read back. -/
theorem parse_serializeBytes (pairs : List (String × String)) :
    parse (serializeBytes pairs) = pairs := by
  cases pairs with
  | nil => rfl
  | cons pair pairs =>
    have hsplit : (serializeBytes (pair :: pairs)).splitOn 38 = (pair :: pairs).map encodePair := by
      apply List.splitOn_intercalate
      · intro segment hsegment
        obtain ⟨p, -, rfl⟩ := List.mem_map.mp hsegment
        exact not_mem_encodePair p
      · simp
    rw [parse, hsplit, List.filter_eq_self.mpr, List.map_map]
    · conv_rhs => rw [← List.map_id (pair :: pairs)]
      exact List.map_congr_left fun p _ => decodePair_encodePair p
    · intro segment hsegment
      obtain ⟨p, -, rfl⟩ := List.mem_map.mp hsegment
      simpa using encodePair_ne_nil p

/-! ## Forms joined -/

theorem parse_append (before after : List UInt8) :
    parse (before ++ 38 :: after) = parse before ++ parse after := by
  rw [parse, List.splitOn_append_cons_self, List.filter_append, List.map_append, parse, parse]

theorem parse_segment {segment : List UInt8} (h : 38 ∉ segment) (hne : segment ≠ []) :
    parse segment = [decodePair segment] := by
  rw [parse, List.splitOn_eq_singleton h]
  simp [hne]

/-- What stands behind the last `&` is one pair, also with more bytes of the pair. -/
theorem parse_append_of_ne {b : UInt8} (hb : b ≠ 38) (bytes : List UInt8) :
    ∃ pairs, ∀ more, 38 ∉ more → ∃ pair, parse (bytes ++ b :: more) = pairs ++ [pair] := by
  by_cases h : 38 ∈ bytes
  · obtain ⟨after, before, hreverse, hnot⟩ :=
      List.eq_append_cons_of_mem (List.mem_reverse.mpr h)
    have hbytes : bytes = before.reverse ++ 38 :: after.reverse := by
      rw [← List.reverse_reverse bytes, hreverse]
      simp
    refine ⟨parse before.reverse, fun more hmore =>
      ⟨decodePair (after.reverse ++ b :: more), ?_⟩⟩
    have hsegment : parse (after.reverse ++ b :: more) = [decodePair (after.reverse ++ b :: more)] :=
      parse_segment (by simp [hnot, hmore, hb.symm]) (by simp)
    rw [hbytes, List.append_assoc, List.cons_append, parse_append, hsegment]
  · refine ⟨[], fun more hmore => ⟨decodePair (bytes ++ b :: more), ?_⟩⟩
    rw [parse_segment (by simp [h, hmore, hb.symm]) (by simp), List.nil_append]

/-- A form that does not end in `&`, continued by another, loses a pair. -/
theorem length_parse_append {b : UInt8} (hb : b ≠ 38) (bytes : List UInt8)
    (pair : String × String) (pairs : List (String × String)) :
    (parse (bytes ++ b :: serializeBytes (pair :: pairs))).length =
      (parse (bytes ++ [b])).length + pairs.length := by
  obtain ⟨before, hbefore⟩ := parse_append_of_ne hb bytes
  obtain ⟨last, hlast⟩ := hbefore [] List.not_mem_nil
  obtain ⟨joined, hjoined⟩ := hbefore _ (not_mem_encodePair pair)
  cases pairs with
  | nil =>
    rw [serializeBytes_singleton, hjoined, hlast]
    simp
  | cons next pairs =>
    have hsplit : bytes ++ b :: serializeBytes (pair :: next :: pairs) =
        (bytes ++ b :: encodePair pair) ++ 38 :: serializeBytes (next :: pairs) := by
      rw [serializeBytes_cons, List.append_assoc, List.cons_append]
    rw [hsplit, parse_append, hjoined, hlast, parse_serializeBytes]
    simp only [List.length_append, List.length_cons, List.length_nil]

theorem lt_of_mem_serializeBytes {pairs : List (String × String)} {b : UInt8}
    (h : b ∈ serializeBytes pairs) : 37 ≤ b ∧ b < 127 ∧ b ≠ 63 := by
  rcases mem_serializeBytes h with h | rfl | rfl
  · exact ⟨h.bounds.1, h.bounds.2.1, h.bounds.2.2.2.2⟩
  · decide
  · decide

theorem encode_serialize (pairs : List (String × String)) :
    encode (serialize pairs) = serializeBytes pairs :=
  encode_ascii fun _ hb => UInt8.lt_trans (lt_of_mem_serializeBytes hb).2.1 (by decide)

theorem parse_serialize (pairs : List (String × String)) :
    parse (encode (serialize pairs)) = pairs := by
  rw [encode_serialize, parse_serializeBytes]

/-- A written text has no space, no `#` and no `"`. -/
theorem le_toNat_of_mem_serialize {pairs : List (String × String)} {c : Char}
    (h : c ∈ (serialize pairs).toList) : 37 ≤ c.toNat := by
  rw [serialize, ascii, String.toList_ofList] at h
  obtain ⟨b, hb, rfl⟩ := List.mem_map.mp h
  obtain ⟨hle, hlt, -⟩ := lt_of_mem_serializeBytes hb
  have hall : ∀ b : UInt8, 37 ≤ b ∧ b < 127 → 37 ≤ (Char.ofNat b.toNat).toNat :=
    forall_byte (by decide +kernel)
  exact hall b ⟨hle, hlt⟩

/-- A text of unchanged bytes is written as it is. -/
theorem encodeText_of_isUnchanged {text : String} (h : ∀ b ∈ encode text, isUnchanged b = true) :
    encodeText text = encode text := by
  unfold encodeText
  generalize encode text = bytes at h
  induction bytes with
  | nil => rfl
  | cons b bytes ih =>
    rw [List.flatMap_cons, encodeByte, if_pos (h b List.mem_cons_self),
      ih fun c hc => h c (List.mem_cons_of_mem _ hc), List.singleton_append]

/-- Empty segments are skipped, a value may hold `=`, `+` and `%XX` are decoded. -/
example : parse (encode "&a=b=c&&d+%C3%A9=%zz&e") = [("a", "b=c"), ("d é", "%zz"), ("e", "")] := by
  decide +kernel

end Rsc.Library.FormUrlEncoded

import Rsc.Library.Text
import Rsc.Library.Utf8

/-!
JSON values: written compactly, and read back (`Value.fromSlice_toVec`). Flat objects with their
types are values of one shape (`fromSlice_toVec`).
-/

namespace Rsc.Library.Json

/-- `serde_json::Value`, for any numbers. -/
inductive Value (N : Type)
  | null
  | bool (b : Bool)
  | number (n : N)
  | string (text : String)
  | array (items : List (Value N))
  | object (members : List (String × Value N))

section

variable {N : Type}

/-- `Value::get`: the member of an object. -/
def Value.get (name : String) : Value N → Option (Value N)
  | .object members => (members.find? (·.1 == name)).map (·.2)
  | _ => none

/-- `Value::as_str`. -/
def Value.asStr : Value N → Option String
  | .string text => some text
  | _ => none

/-- `Value::as_bool`. -/
def Value.asBool : Value N → Option Bool
  | .bool b => some b
  | _ => none

end

/-! ## Writing -/

/-- The letter of a short escape. -/
def escapeLetter (c : Char) : Option Char :=
  if c = '"' then some '"'
  else if c = '\\' then some '\\'
  else if c = '\x08' then some 'b'
  else if c = '\x0c' then some 'f'
  else if c = '\n' then some 'n'
  else if c = '\r' then some 'r'
  else if c = '\t' then some 't'
  else none

def hexDigit (n : Nat) : Char := if n < 10 then .ofNat (48 + n) else .ofNat (87 + n)

def escapeChar (c : Char) : List Char :=
  match escapeLetter c with
  | some letter => ['\\', letter]
  | none =>
      if c.toNat < 32 then ['\\', 'u', '0', '0', hexDigit (c.toNat / 16), hexDigit (c.toNat % 16)]
      else [c]

def writeString (text : String) : List Char := '"' :: text.toList.flatMap escapeChar ++ ['"']

mutual

def Value.write : Value String → List Char
  | .null => ['n', 'u', 'l', 'l']
  | .bool true => ['t', 'r', 'u', 'e']
  | .bool false => ['f', 'a', 'l', 's', 'e']
  | .number text => text.toList
  | .string text => writeString text
  | .array [] => ['[', ']']
  | .array (v :: vs) => '[' :: v.write ++ writeItems vs
  | .object [] => ['{', '}']
  | .object (m :: ms) => '{' :: writeString m.1 ++ ':' :: m.2.write ++ writeMembers ms

/-- The items after the first one, each after a comma, and the closing bracket. -/
def writeItems : List (Value String) → List Char
  | [] => [']']
  | v :: vs => ',' :: v.write ++ writeItems vs

/-- The members after the first one, each after a comma, and the closing brace. -/
def writeMembers : List (String × Value String) → List Char
  | [] => ['}']
  | m :: ms => ',' :: writeString m.1 ++ ':' :: m.2.write ++ writeMembers ms

end

/-- The bytes of a value. -/
def Value.toVec (v : Value String) : List UInt8 := Utf8.encode (.ofList v.write)

/-! ## Reading -/

def unescapeLetter (letter : Char) : Option Char :=
  if letter = '"' then some '"'
  else if letter = '\\' then some '\\'
  else if letter = '/' then some '/'
  else if letter = 'b' then some '\x08'
  else if letter = 'f' then some '\x0c'
  else if letter = 'n' then some '\n'
  else if letter = 'r' then some '\r'
  else if letter = 't' then some '\t'
  else none

def hexValue (c : Char) : Option Nat :=
  if '0' ≤ c ∧ c ≤ '9' then some (c.toNat - 48)
  else if 'a' ≤ c ∧ c ≤ 'f' then some (c.toNat - 87)
  else none

/-- The rest of a string, after its opening quote, and what follows it. -/
def readString : List Char → Option (List Char × List Char)
  | [] => none
  | ['\\'] => none
  | '"' :: text => some ([], text)
  | '\\' :: 'u' :: '0' :: '0' :: high :: low :: text => do
      let h ← hexValue high
      let l ← hexValue low
      let (chars, rest) ← readString text
      return (.ofNat (16 * h + l) :: chars, rest)
  | '\\' :: letter :: text => do
      let c ← unescapeLetter letter
      let (chars, rest) ← readString text
      return (c :: chars, rest)
  | c :: text => do
      let (chars, rest) ← readString text
      return (c :: chars, rest)

def expect (c : Char) : List Char → Option (List Char)
  | d :: rest => if c = d then some rest else none
  | [] => none

/-- A character of a number. -/
def isNumeric (c : Char) : Bool := c.isDigit || "+-.eE".toList.contains c

/-- A number is the longest run of its characters; what it means is not looked at. -/
def readNumeral (text : List Char) : Option (Value String × List Char) :=
  let numeral := text.takeWhile isNumeric
  if numeral ≠ [] then some (.number (.ofList numeral), text.dropWhile isNumeric) else none

/-- The name of a member, in quotes, and the colon behind it. -/
def readName (text : List Char) : Option (String × List Char) := do
  let text ← expect '"' text
  let (name, text) ← readString text
  let text ← expect ':' text
  return (.ofList name, text)

mutual

/-- A value of at most `fuel` characters, and what follows it. -/
def readValue : Nat → List Char → Option (Value String × List Char)
  | _ + 1, 'n' :: 'u' :: 'l' :: 'l' :: text => some (.null, text)
  | _ + 1, 't' :: 'r' :: 'u' :: 'e' :: text => some (.bool true, text)
  | _ + 1, 'f' :: 'a' :: 'l' :: 's' :: 'e' :: text => some (.bool false, text)
  | _ + 1, '"' :: text => (readString text).map fun (chars, rest) => (.string (.ofList chars), rest)
  | _ + 1, '[' :: ']' :: text => some (.array [], text)
  | fuel + 1, '[' :: text => do
      let (v, text) ← readValue fuel text
      let (vs, text) ← readItems fuel text
      return (.array (v :: vs), text)
  | _ + 1, '{' :: '}' :: text => some (.object [], text)
  | fuel + 1, '{' :: text => do
      let (name, text) ← readName text
      let (v, text) ← readValue fuel text
      let (ms, text) ← readMembers fuel text
      return (.object ((name, v) :: ms), text)
  | _ + 1, text => readNumeral text
  | 0, _ => none

def readItems : Nat → List Char → Option (List (Value String) × List Char)
  | _ + 1, ']' :: text => some ([], text)
  | fuel + 1, ',' :: text => do
      let (v, text) ← readValue fuel text
      let (vs, text) ← readItems fuel text
      return (v :: vs, text)
  | _, _ => none

def readMembers : Nat → List Char → Option (List (String × Value String) × List Char)
  | _ + 1, '}' :: text => some ([], text)
  | fuel + 1, ',' :: text => do
      let (name, text) ← readName text
      let (v, text) ← readValue fuel text
      let (ms, text) ← readMembers fuel text
      return ((name, v) :: ms, text)
  | _, _ => none

end

/-- The value of a whole text. -/
def readAll (text : List Char) : Option (Value String) :=
  match readValue text.length text with
  | some (v, []) => some v
  | _ => none

/-- The value of the bytes. -/
def Value.fromSlice (bytes : List UInt8) : Option (Value String) :=
  readAll (Utf8.decodeLossy bytes).toList

/-! ## Reading what was written -/

theorem unescapeLetter_of_escapeLetter {c letter : Char} (h : escapeLetter c = some letter) :
    unescapeLetter letter = some c ∧ letter ≠ 'u' := by
  unfold escapeLetter at h
  split_ifs at h
  all_goals
    subst c
    cases h
    decide

theorem hexValue_hexDigit : ∀ n < 16, hexValue (hexDigit n) = some n := by decide

theorem readString_escapeChar (c : Char) (text : List Char) :
    readString (escapeChar c ++ text) =
      (readString text).map fun found => (c :: found.1, found.2) := by
  unfold escapeChar
  cases hletter : escapeLetter c with
  | some letter =>
    obtain ⟨hun, hne⟩ := unescapeLetter_of_escapeLetter hletter
    show readString ('\\' :: letter :: text) = _
    rw [readString]
    · rw [hun]
      cases readString text <;> rfl
    · rintro high low more rfl -
      exact hne rfl
  | none =>
    have hquote : c ≠ '"' := by rintro rfl; cases hletter
    have hslash : c ≠ '\\' := by rintro rfl; cases hletter
    by_cases hsmall : c.toNat < 32
    · rw [if_pos hsmall]
      show readString ('\\' :: 'u' :: '0' :: '0' :: hexDigit (c.toNat / 16) ::
        hexDigit (c.toNat % 16) :: text) = _
      rw [readString, hexValue_hexDigit _ (by omega), hexValue_hexDigit _ (by omega)]
      have hchar : Char.ofNat (16 * (c.toNat / 16) + c.toNat % 16) = c := by
        rw [show 16 * (c.toNat / 16) + c.toNat % 16 = c.toNat by omega, Char.ofNat_toNat]
      cases readString text with
      | none => rfl
      | some found => exact congrArg (fun c => some (c :: found.1, found.2)) hchar
    · rw [if_neg hsmall]
      show readString (c :: text) = _
      rw [readString]
      · cases readString text <;> rfl
      · exact fun h _ => hslash h
      · exact hquote
      · exact fun _ _ _ h _ => hslash h
      · exact fun _ _ h _ => hslash h

theorem readString_flatMap (l rest : List Char) :
    readString (l.flatMap escapeChar ++ '"' :: rest) = some (l, rest) := by
  induction l with
  | nil => rfl
  | cons c l ih =>
    rw [List.flatMap_cons, List.append_assoc, readString_escapeChar, ih]
    rfl

/-- The text of a number: its characters, at least one. -/
def Numeral (text : String) : Prop := text.toList ≠ [] ∧ ∀ c ∈ text.toList, isNumeric c = true

mutual

/-- The numbers in it are written as numbers. -/
def Value.WellFormed : Value String → Prop
  | .number text => Numeral text
  | .array vs => WellFormedItems vs
  | .object ms => WellFormedMembers ms
  | _ => True

def WellFormedItems : List (Value String) → Prop
  | [] => True
  | v :: vs => v.WellFormed ∧ WellFormedItems vs

def WellFormedMembers : List (String × Value String) → Prop
  | [] => True
  | m :: ms => m.2.WellFormed ∧ WellFormedMembers ms

end

/-- What follows a value does not go on with a number. -/
def Ended (rest : List Char) : Prop := ∀ c ∈ rest.head?, isNumeric c = false

theorem ended_nil : Ended [] := nofun

theorem ended_writeItems (vs : List (Value String)) (rest : List Char) :
    Ended (writeItems vs ++ rest) := by
  cases vs <;> · rintro c hc; cases hc; rfl

theorem ended_writeMembers (ms : List (String × Value String)) (rest : List Char) :
    Ended (writeMembers ms ++ rest) := by
  cases ms <;> · rintro c hc; cases hc; rfl

theorem readNumeral_append {text : String} (h : Numeral text) {rest : List Char}
    (hrest : Ended rest) : readNumeral (text.toList ++ rest) = some (.number text, rest) := by
  have htake : rest.takeWhile isNumeric = [] := by
    cases rest with
    | nil => rfl
    | cons c rest => simp [hrest c rfl]
  have hdrop : rest.dropWhile isNumeric = rest := by
    cases rest with
    | nil => rfl
    | cons c rest => simp [hrest c rfl]
  rw [readNumeral, List.takeWhile_append_of_pos h.2, List.dropWhile_append_of_pos h.2, htake, hdrop,
    List.append_nil, if_pos h.1, String.ofList_toList]

theorem Numeral.append_ne_cons {text : String} (h : Numeral text) {c : Char}
    (hc : isNumeric c = false) (rest more : List Char) : text.toList ++ rest ≠ c :: more := by
  intro heq
  cases hchars : text.toList with
  | nil => exact h.1 hchars
  | cons d chars =>
    rw [hchars] at heq
    obtain rfl : d = c := (List.cons.inj heq).1
    rw [h.2 d (hchars ▸ List.mem_cons_self)] at hc
    cases hc

/-- No value begins as an array or an object ends. -/
theorem write_ne_close {v : Value String} (h : v.WellFormed) (rest text : List Char) :
    v.write ++ rest ≠ ']' :: text ∧ v.write ++ rest ≠ '}' :: text := by
  match v with
  | .null | .bool true | .bool false | .string _ | .array [] | .array (_ :: _) | .object []
  | .object (_ :: _) => constructor <;> · intro heq; cases heq
  | .number numeral =>
    exact ⟨Numeral.append_ne_cons h rfl rest text, Numeral.append_ne_cons h rfl rest text⟩

theorem readValue_number {text : String} (h : Numeral text) {fuel : Nat} {rest : List Char}
    (hrest : Ended rest) :
    readValue (fuel + 1) (text.toList ++ rest) = some (.number text, rest) := by
  rw [← readNumeral_append h hrest, readValue]
  -- A number begins as none of the other values does.
  all_goals exact fun _ => h.append_ne_cons rfl _ _

theorem readName_write (name : String) (rest : List Char) :
    readName (writeString name ++ ':' :: rest) = some (name, rest) := by
  have hread := readString_flatMap name.toList (':' :: rest)
  simp only [writeString, List.cons_append, List.append_assoc, List.nil_append]
  rw [readName]
  show (readString _).bind _ = _
  rw [hread]
  show some (String.ofList name.toList, rest) = _
  rw [String.ofList_toList]

mutual

theorem readValue_write : ∀ (v : Value String), v.WellFormed → ∀ (fuel : Nat) (rest : List Char),
    v.write.length ≤ fuel → Ended rest → readValue fuel (v.write ++ rest) = some (v, rest)
  | .null, _, fuel + 1, rest, _, _ => rfl
  | .bool true, _, fuel + 1, rest, _, _ => rfl
  | .bool false, _, fuel + 1, rest, _, _ => rfl
  | .number text, h, fuel + 1, rest, _, hrest => readValue_number h hrest
  | .number text, h, 0, rest, hfuel, _ =>
    absurd (List.length_eq_zero_iff.mp (Nat.le_zero.mp hfuel)) h.1
  | .string text, _, fuel + 1, rest, _, _ => by
    simp only [Value.write, writeString, List.cons_append, List.append_assoc, List.nil_append]
    rw [readValue, readString_flatMap, Option.map_some]
    show some (Value.string (.ofList text.toList), rest) = _
    rw [String.ofList_toList]
  | .array [], _, fuel + 1, rest, _, _ => rfl
  | .array (v :: vs), h, fuel + 1, rest, hfuel, _ => by
    simp only [Value.write, List.length_cons, List.length_append] at hfuel
    have hv := readValue_write v h.1 fuel (writeItems vs ++ rest) (by omega)
      (ended_writeItems vs rest)
    have hvs := readItems_write vs h.2 fuel rest (by omega)
    simp only [Value.write, List.cons_append, List.append_assoc]
    rw [readValue, hv]
    · show (readItems fuel (writeItems vs ++ rest)).bind _ = _
      rw [hvs]
      rfl
    · exact fun text heq => (write_ne_close h.1 _ text).1 heq
  | .object [], _, fuel + 1, rest, _, _ => rfl
  | .object ((name, v) :: ms), h, fuel + 1, rest, hfuel, _ => by
    simp only [Value.write, List.length_cons, List.length_append] at hfuel
    have hv := readValue_write v h.1 fuel (writeMembers ms ++ rest) (by omega)
      (ended_writeMembers ms rest)
    have hms := readMembers_write ms h.2 fuel rest (by omega)
    simp only [Value.write, List.cons_append, List.append_assoc]
    rw [readValue, readName_write]
    · show (readValue fuel (v.write ++ (writeMembers ms ++ rest))).bind _ = _
      rw [hv]
      show (readMembers fuel (writeMembers ms ++ rest)).bind _ = _
      rw [hms]
      rfl
    · rintro text heq
      cases heq

theorem readItems_write : ∀ (vs : List (Value String)), WellFormedItems vs → ∀ (fuel : Nat)
    (rest : List Char), (writeItems vs).length ≤ fuel →
    readItems fuel (writeItems vs ++ rest) = some (vs, rest)
  | [], _, fuel + 1, rest, _ => rfl
  | v :: vs, h, fuel + 1, rest, hfuel => by
    simp only [writeItems, List.length_cons, List.length_append] at hfuel
    have hv := readValue_write v h.1 fuel (writeItems vs ++ rest) (by omega)
      (ended_writeItems vs rest)
    have hvs := readItems_write vs h.2 fuel rest (by omega)
    simp only [writeItems, List.cons_append, List.append_assoc]
    rw [readItems, hv]
    show (readItems fuel (writeItems vs ++ rest)).bind _ = _
    rw [hvs]
    rfl

theorem readMembers_write : ∀ (ms : List (String × Value String)), WellFormedMembers ms →
    ∀ (fuel : Nat) (rest : List Char), (writeMembers ms).length ≤ fuel →
    readMembers fuel (writeMembers ms ++ rest) = some (ms, rest)
  | [], _, fuel + 1, rest, _ => rfl
  | (name, v) :: ms, h, fuel + 1, rest, hfuel => by
    simp only [writeMembers, List.length_cons, List.length_append] at hfuel
    have hv := readValue_write v h.1 fuel (writeMembers ms ++ rest) (by omega)
      (ended_writeMembers ms rest)
    have hms := readMembers_write ms h.2 fuel rest (by omega)
    simp only [writeMembers, List.cons_append, List.append_assoc]
    rw [readMembers, readName_write]
    show (readValue fuel (v.write ++ (writeMembers ms ++ rest))).bind _ = _
    rw [hv]
    show (readMembers fuel (writeMembers ms ++ rest)).bind _ = _
    rw [hms]
    rfl

end

/-- What is written is read back. -/
theorem readAll_write {v : Value String} (h : v.WellFormed) : readAll v.write = some v := by
  have hread := readValue_write v h v.write.length [] (Nat.le_refl _) ended_nil
  rw [List.append_nil] at hread
  rw [readAll, hread]

theorem Value.fromSlice_toVec {v : Value String} (h : v.WellFormed) :
    fromSlice v.toVec = some v := by
  rw [fromSlice, toVec, Utf8.decodeLossy_encode, String.toList_ofList, readAll_write h]

/-! ## Flat objects -/

inductive Scalar
  | str (text : String)
  | num (n : UInt64)
  deriving DecidableEq

/-- A flat object, its members in order. -/
abbrev Document := List (String × Scalar)

/-- A whole number. -/
def Value.ofNat (n : Nat) : Value String := .number (.ofList (Nat.toDigits 10 n))

def Scalar.toValue : Scalar → Value String
  | .str text => .string text
  | .num n => .ofNat n.toNat

def Scalar.ofValue : Value String → Option Scalar
  | .string text => some (.str text)
  | .number text => (Text.parseU64 text.toList).map fun n => .num (.ofNat n)
  | _ => none

def ofMembers : List (String × Value String) → Option Document
  | [] => some []
  | m :: ms => do
      let value ← Scalar.ofValue m.2
      let doc ← ofMembers ms
      return (m.1, value) :: doc

/-- The value of a document. -/
def toValue (doc : Document) : Value String := .object (doc.map fun m => (m.1, m.2.toValue))

def ofValue : Value String → Option Document
  | .object members => ofMembers members
  | _ => none

/-- The bytes of a document. -/
def toVec (doc : Document) : List UInt8 := (toValue doc).toVec

/-- The document of the bytes. -/
def fromSlice (bytes : List UInt8) : Option Document := (Value.fromSlice bytes).bind ofValue

theorem Value.ofNat_wellFormed (n : Nat) : (Value.ofNat n).WellFormed := by
  refine ⟨?_, fun c hc => ?_⟩
  · rw [String.toList_ofList]
    exact Nat.toDigits_ne_nil
  · rw [String.toList_ofList] at hc
    rw [isNumeric, Text.isDigit_of_mem hc, Bool.true_or]

theorem Value.ofNat_injective {n n' : Nat} (h : Value.ofNat n = Value.ofNat n') : n = n' := by
  have htext := congrArg String.toList (Value.number.inj h)
  rw [String.toList_ofList, String.toList_ofList] at htext
  rw [← Nat.ofDigitChars_ten_toDigits (n := n), htext, Nat.ofDigitChars_ten_toDigits]

theorem Scalar.toValue_wellFormed (value : Scalar) : value.toValue.WellFormed := by
  cases value with
  | str text => trivial
  | num n => exact Value.ofNat_wellFormed n.toNat

theorem Scalar.ofValue_toValue (value : Scalar) : ofValue value.toValue = some value := by
  cases value with
  | str text => rfl
  | num n =>
    rw [toValue, Value.ofNat, ofValue, String.toList_ofList, Text.parseU64_toDigits n.toNat_lt,
      Option.map_some, UInt64.ofNat_toNat]

theorem toValue_wellFormed (doc : Document) : (toValue doc).WellFormed := by
  suffices h : WellFormedMembers (doc.map fun m => (m.1, m.2.toValue)) from h
  induction doc with
  | nil => trivial
  | cons m doc ih => exact ⟨m.2.toValue_wellFormed, ih⟩

theorem ofValue_toValue (doc : Document) : ofValue (toValue doc) = some doc := by
  suffices h : ofMembers (doc.map fun m => (m.1, m.2.toValue)) = some doc from h
  induction doc with
  | nil => rfl
  | cons m doc ih =>
    rw [List.map_cons, ofMembers, Scalar.ofValue_toValue, ih]
    rfl

theorem fromSlice_toVec (doc : Document) : fromSlice (toVec doc) = some doc := by
  rw [fromSlice, toVec, Value.fromSlice_toVec (toValue_wellFormed doc), Option.bind_some,
    ofValue_toValue]

end Rsc.Library.Json

import Rsc.Auth.Callback
import Mathlib.Data.Seq.Defs

/-!
The listener of `rsc/src/auth/callback.rs`: the request line that is read from a connection, and
the loop that accepts connections until one of them is the callback.
-/

namespace Rsc.Auth

open Rsc.Library

/-! ## One connection -/

/-- How the bytes end: the peer closes, the connection fails, or nothing more arrives in time. -/
inductive Ending
  | eof
  | error
  | silent

/-- What arrives on a connection before its deadline. -/
structure Input where
  bytes : List UInt8
  ending : Ending

/-- `MAX_REQUEST_BYTES`. -/
def maxRequestBytes : Nat := 16 * 1024

/-- `stream.take(limit)`: the input ends after so many bytes. -/
def Input.take (input : Input) (limit : Nat) : Input :=
  if limit ≤ input.bytes.length then ⟨input.bytes.take limit, .eof⟩ else input

/-- The bytes of a line as text. -/
def readAs (line rest : List UInt8) (ending : Ending) : Option (Nat × String × Input) :=
  (String.fromUTF8? ⟨line.toArray⟩).map fun text => (line.length, text, ⟨rest, ending⟩)

/-- `read_line`: the number of bytes up to and including a newline, or up to the end, and their
text. It is `none` when the connection fails, when the deadline passes before the line is
complete, and when the bytes are not UTF-8. -/
def readLine (input : Input) : Option (Nat × String × Input) :=
  if 10 ∈ input.bytes then
    readAs (input.bytes.takeWhile (· != 10) ++ [10]) ((input.bytes.dropWhile (· != 10)).drop 1)
      input.ending
  else
    match input.ending with
    | .eof => readAs input.bytes [] .eof
    | .error | .silent => none

theorem readLine_cons {line : List UInt8} (h : 10 ∉ line) (rest : List UInt8) (ending : Ending) :
    readLine ⟨line ++ 10 :: rest, ending⟩ = readAs (line ++ [10]) rest ending := by
  have hline : ∀ b ∈ line, (b != 10) = true := fun b hb => bne_iff_ne.mpr fun heq => h (heq ▸ hb)
  rw [readLine, if_pos (by simp), List.takeWhile_append_of_pos hline,
    List.dropWhile_append_of_pos hline]
  simp

theorem length_of_readLine {input rest : Input} {n : Nat} {text : String}
    (h : readLine input = some (n, text, rest)) :
    input.bytes.length = n + rest.bytes.length := by
  obtain ⟨bytes, ending⟩ := input
  by_cases hmem : 10 ∈ bytes
  · obtain ⟨line, after, rfl, hnot⟩ := List.eq_append_cons_of_mem hmem
    rw [readLine_cons hnot, readAs, Option.map_eq_some_iff] at h
    obtain ⟨_, -, hread⟩ := h
    cases hread
    simp
    omega
  · rw [readLine, if_neg hmem] at h
    cases ending with
    | eof =>
      obtain ⟨_, -, hread⟩ := Option.map_eq_some_iff.mp h
      cases hread
      simp
    | error | silent => cases h

/-- The loop of `read_request_line` that drains the headers. -/
def drain (first : String) (input : Input) : Option String :=
  match _h : readLine input with
  | none => none
  | some (n, header, rest) =>
      if _hlast : n = 0 ∨ Text.trimEnd header.toList = [] then
        some (.ofList (Text.trimEnd first.toList))
      else drain first rest
termination_by input.bytes.length
decreasing_by
  have hlength := length_of_readLine _h
  omega

/-- `read_request_line`. -/
def readRequestLine (input : Input) : Option String := do
  let (n, first, rest) ← readLine (input.take maxRequestBytes)
  if n = 0 then none else drain first rest

/-! ## The headers -/

/-- The lines that a newline ends, without it. -/
def completeLines (bytes : List UInt8) : List (List UInt8) := (bytes.splitOn 10).dropLast

/-- The line with its newline, as text. -/
def lineText (line : List UInt8) : Option String := String.fromUTF8? ⟨(line ++ [10]).toArray⟩

/-- The line is UTF-8. -/
def isUtf8 (line : List UInt8) : Bool := (lineText line).isSome

/-- The line is UTF-8 and holds nothing but white space: it ends the headers. -/
def isBlank (line : List UInt8) : Bool := (lineText line).any (Text.trimEnd ·.toList == [])

variable {first : String} {line rest headers : List UInt8} {ending : Ending}

theorem isUtf8_of_isBlank (h : isBlank line = true) : isUtf8 line = true := by
  rw [isBlank, Option.any_eq_true] at h
  obtain ⟨text, htext, -⟩ := h
  rw [isUtf8, htext]
  rfl

/-- One line: it fails the connection, ends the headers, or is drained. -/
theorem drain_cons (h : 10 ∉ line) : drain first ⟨line ++ 10 :: rest, ending⟩ =
    if isUtf8 line = false then none
    else if isBlank line then some (.ofList (Text.trimEnd first.toList))
    else drain first ⟨rest, ending⟩ := by
  have hread := readLine_cons h rest ending
  rw [drain]
  cases htext : lineText line with
  | none =>
    have hutf8 : isUtf8 line = false := by rw [isUtf8, htext]; rfl
    have hnone : readLine ⟨line ++ 10 :: rest, ending⟩ = none := by
      rw [hread, readAs, ← lineText, htext]
      rfl
    rw [if_pos hutf8]
    split
    · rfl
    · next hsome =>
      rw [hnone] at hsome
      cases hsome
  | some text =>
    have hutf8 : isUtf8 line = true := by rw [isUtf8, htext]; rfl
    have hblank : isBlank line = (Text.trimEnd text.toList == []) := by rw [isBlank, htext]; rfl
    have hsome : readLine ⟨line ++ 10 :: rest, ending⟩ =
        some ((line ++ [10]).length, text, ⟨rest, ending⟩) := by
      rw [hread, readAs, ← lineText, htext]
      rfl
    rw [if_neg (by simp [hutf8]), hblank]
    split
    · next hnone =>
      rw [hsome] at hnone
      cases hnone
    · next hother =>
      rw [hsome] at hother
      cases hother
      simp

theorem completeLines_cons (h : 10 ∉ line) :
    completeLines (line ++ 10 :: rest) = line :: completeLines rest := by
  rw [completeLines, List.splitOn_append_cons_self_of_not_mem h,
    List.dropLast_cons_of_ne_nil (List.splitOn_ne_nil _ _), completeLines]

theorem completeLines_of_notMem (h : 10 ∉ rest) : completeLines rest = [] := by
  rw [completeLines, List.splitOn_eq_singleton h]
  rfl

/-- The whole headers: they fail the connection when a line before the first blank one is not
UTF-8. -/
theorem drain_headers (hblank : ∃ line ∈ completeLines headers, isBlank line = true) :
    drain first ⟨headers, ending⟩ =
      if ((completeLines headers).takeWhile (!isBlank ·)).all isUtf8 then
        some (.ofList (Text.trimEnd first.toList))
      else none := by
  induction hlength : headers.length using Nat.strong_induction_on generalizing headers with
  | _ n ih =>
    by_cases hmem : 10 ∈ headers
    · obtain ⟨line, rest, rfl, hnot⟩ := List.eq_append_cons_of_mem hmem
      rw [completeLines_cons hnot] at hblank ⊢
      rw [drain_cons hnot]
      by_cases hline : isBlank line = true
      · rw [if_neg (by simp [isUtf8_of_isBlank hline]), if_pos hline,
          List.takeWhile_cons_of_neg (by simp [hline])]
        rfl
      · have hrest : ∃ line ∈ completeLines rest, isBlank line = true := by
          simpa [hline] using hblank
        have hdrain := ih rest.length (by simp at hlength; omega) hrest rfl
        rw [List.takeWhile_cons_of_pos (by simp [hline]), List.all_cons, if_neg hline, hdrain]
        cases isUtf8 line <;> simp
    · rw [completeLines_of_notMem hmem] at hblank
      simp at hblank

/-! ## The request line -/

/-- The line ends in no blank. -/
def Trimmed (line : List Char) : Prop := ∀ c ∈ line.getLast?, Text.isUnicodeWhitespace c = false

theorem trimmed_of_getLast {line : List Char} {c : Char} (hlast : line.getLast? = some c)
    (hc : Text.isUnicodeWhitespace c = false) : Trimmed line := by
  intro d hd
  obtain rfl : c = d := Option.some.inj (hlast.symm.trans hd)
  exact hc

theorem isBlank_of_empty (h : line = [] ∨ line = [13]) : isBlank line = true := by
  rcases h with rfl | rfl <;> decide +kernel

theorem take_eq (bytes : List UInt8) (ending : Ending) (h : bytes.length ≤ maxRequestBytes) :
    ∃ ending', Input.take ⟨bytes, ending⟩ maxRequestBytes = ⟨bytes, ending'⟩ := by
  unfold Input.take
  split
  · exact ⟨.eof, by rw [List.take_of_length_le h]⟩
  · exact ⟨ending, rfl⟩

/-- The first line is read without its newline. -/
theorem readRequestLine_cons {line terminator : String} {carriage : List UInt8}
    (hbreak : '\n' ∉ line.toList) (htrimmed : Trimmed line.toList)
    (hcarriage : 10 ∉ carriage) (hend : Utf8.encode terminator = carriage ++ [10])
    (hblank : ∀ c ∈ terminator.toList, Text.isUnicodeWhitespace c = true)
    (hsize : (Utf8.encode line ++ carriage ++ 10 :: headers).length ≤ maxRequestBytes) :
    ∃ ending' first, Text.trimEnd first.toList = line.toList ∧
      readRequestLine ⟨Utf8.encode line ++ carriage ++ 10 :: headers, ending⟩ =
        drain first ⟨headers, ending'⟩ := by
  obtain ⟨ending', htake⟩ := take_eq _ ending hsize
  have hline : 10 ∉ Utf8.encode line ++ carriage := by
    rw [List.mem_append, not_or]
    exact ⟨Utf8.notMem_encode (by decide) hbreak, hcarriage⟩
  have htext : String.fromUTF8? ⟨(Utf8.encode line ++ carriage ++ [10]).toArray⟩ =
      some (line ++ terminator) := by
    rw [Utf8.fromUTF8?_eq_some, Utf8.encode_append, hend, List.append_assoc]
  refine ⟨ending', line ++ terminator, ?_, ?_⟩
  · rw [String.toList_append, Text.trimEnd_append htrimmed hblank]
  · rw [readRequestLine, htake, readLine_cons hline, readAs, htext]
    simp

/-- The request line is read before the headers, and lost with them. -/
theorem readRequestLine_headers {line : String} {newline : List UInt8}
    (hbreak : '\n' ∉ line.toList) (htrimmed : Trimmed line.toList)
    (hnewline : newline = [13, 10] ∨ newline = [10])
    (hempty : ∃ header ∈ completeLines headers, header = [] ∨ header = [13])
    (hsize : (Utf8.encode line ++ newline ++ headers).length ≤ maxRequestBytes) :
    readRequestLine ⟨Utf8.encode line ++ newline ++ headers, ending⟩ =
      if ((completeLines headers).takeWhile (!isBlank ·)).all isUtf8 then some line else none := by
  have hblank : ∃ header ∈ completeLines headers, isBlank header = true := by
    obtain ⟨header, hmem, hheader⟩ := hempty
    exact ⟨header, hmem, isBlank_of_empty hheader⟩
  have hparts : ∃ terminator carriage, newline = carriage ++ [10] ∧ 10 ∉ carriage ∧
      Utf8.encode terminator = carriage ++ [10] ∧
      ∀ c ∈ terminator.toList, Text.isUnicodeWhitespace c = true := by
    rcases hnewline with rfl | rfl
    · exact ⟨"\r\n", [13], rfl, by decide, by decide +kernel, List.all_eq_true.mp rfl⟩
    · exact ⟨"\n", [], rfl, by decide, by decide +kernel, List.all_eq_true.mp rfl⟩
  obtain ⟨terminator, carriage, rfl, hcarriage, hend, hspace⟩ := hparts
  have happend : Utf8.encode line ++ (carriage ++ [10]) ++ headers =
      Utf8.encode line ++ carriage ++ 10 :: headers := by simp
  rw [happend] at hsize ⊢
  obtain ⟨ending', first, hfirst, heq⟩ :=
    readRequestLine_cons hbreak htrimmed hcarriage hend hspace hsize
  rw [heq, drain_headers hblank, hfirst, String.ofList_toList]

/-- The request line is returned if and only if no header line before the blank one is broken:
the headers are drained as text. -/
theorem readRequestLine_iff {line : String} {newline : List UInt8}
    (hbreak : '\n' ∉ line.toList) (htrimmed : Trimmed line.toList)
    (hnewline : newline = [13, 10] ∨ newline = [10])
    (hempty : ∃ header ∈ completeLines headers, header = [] ∨ header = [13])
    (hsize : (Utf8.encode line ++ newline ++ headers).length ≤ maxRequestBytes) :
    readRequestLine ⟨Utf8.encode line ++ newline ++ headers, ending⟩ = some line ↔
      ∀ header ∈ (completeLines headers).takeWhile (!isBlank ·), isUtf8 header = true := by
  rw [readRequestLine_headers hbreak htrimmed hnewline hempty hsize, ← List.all_eq_true]
  split
  · next hall => exact iff_of_true rfl hall
  · next hall => exact iff_of_false (Option.some_ne_none _).symm hall

/-- A request line ends with its version. -/
theorem trimmed_callback : Trimmed "GET /callback?code=c&state=s HTTP/1.1".toList :=
  trimmed_of_getLast (c := '1') (by decide) (by decide)

/-- A request with one header. -/
theorem readRequestLine_host : readRequestLine ⟨Utf8.encode "GET /callback?code=c&state=s HTTP/1.1" ++
      [13, 10] ++ Utf8.encode "Host: 127.0.0.1\r\n\r\n", .silent⟩ =
    some "GET /callback?code=c&state=s HTTP/1.1" := by
  refine (readRequestLine_iff (by decide) trimmed_callback (.inl rfl)
    ⟨[13], by decide +kernel, .inr rfl⟩ (by decide +kernel)).mpr ?_
  decide +kernel

/-- A cookie with a byte that is not UTF-8 hides the callback. -/
theorem readRequestLine_cookie :
    (∃ header ∈ completeLines (Utf8.encode "Cookie: a=" ++ [255, 13, 10, 13, 10]),
      header = [] ∨ header = [13]) ∧
    (Utf8.encode "GET /callback?code=c&state=s HTTP/1.1" ++ [13, 10] ++
      (Utf8.encode "Cookie: a=" ++ [255, 13, 10, 13, 10])).length ≤ maxRequestBytes ∧
    readRequestLine ⟨Utf8.encode "GET /callback?code=c&state=s HTTP/1.1" ++ [13, 10] ++
      (Utf8.encode "Cookie: a=" ++ [255, 13, 10, 13, 10]), .silent⟩ ≠
        some "GET /callback?code=c&state=s HTTP/1.1" := by
  have hempty : ∃ header ∈ completeLines (Utf8.encode "Cookie: a=" ++ [255, 13, 10, 13, 10]),
      header = [] ∨ header = [13] := ⟨[13], by decide +kernel, .inr rfl⟩
  have hsize : (Utf8.encode "GET /callback?code=c&state=s HTTP/1.1" ++ [13, 10] ++
      (Utf8.encode "Cookie: a=" ++ [255, 13, 10, 13, 10])).length ≤ maxRequestBytes := by
    decide +kernel
  refine ⟨hempty, hsize, ?_⟩
  rw [readRequestLine_headers (by decide) trimmed_callback (.inl rfl) hempty hsize]
  decide +kernel

/-! ## The accept loop -/

/-- `SUCCESS_PAGE`. -/
def successPage : String :=
  "<!doctype html><meta charset=utf-8><title>rsc</title>" ++
    "<p>Login successful. You can close this tab and go back to rsc.</p>"

/-- `FAILURE_PAGE`. -/
def failurePage : String :=
  "<!doctype html><meta charset=utf-8><title>rsc</title>" ++
    "<p>Login failed. See the terminal for details.</p>"

/-- `NOT_FOUND_PAGE`. -/
def notFoundPage : String :=
  "<!doctype html><meta charset=utf-8><title>rsc</title><p>Not found.</p>"

/-- `respond`: what is written to the connection, if the peer is still there. -/
def respond (status body : String) : String :=
  "HTTP/1.1 " ++ status ++ "\r\nContent-Type: text/html; charset=utf-8\r\nContent-Length: " ++
    (Utf8.encode body).length.repr ++
    "\r\nCache-Control: no-store\r\nConnection: close\r\n\r\n" ++ body

/-- The error of `wait_for_code_with`. -/
inductive WaitError
  | accept (message : String)
  | callback (err : CallbackError)
  | timedOut

/-- How far the loop is. -/
inductive Loop
  | accepting
  | returned (result : Except WaitError String)

/-- What the loop makes of a connection: the response to it, none when it is dropped. -/
def examine (expectedState : String) (input : Input) : Option String × Loop :=
  match readRequestLine input with
  | none => (none, .accepting)
  | some line =>
      match parseRequestLine line.toList expectedState with
      | .ok code => (some (respond "200 OK" successPage), .returned (.ok code))
      | .error .notCallback | .error .malformed =>
          (some (respond "404 Not Found" notFoundPage), .accepting)
      | .error err =>
          (some (respond "400 Bad Request" failurePage), .returned (.error (.callback err)))

/-- The loop, with what it responded to the connections it examined. -/
structure Listening where
  responses : List (Option String)
  loop : Loop

/-- One pass of the loop. After it has returned no connection is accepted. -/
def Listening.pass (expectedState : String) (listening : Listening)
    (accepted : Except String Input) : Listening :=
  match listening.loop, accepted with
  | .returned _, _ => listening
  | .accepting, .error message => { listening with loop := .returned (.error (.accept message)) }
  | .accepting, .ok input =>
      ⟨listening.responses ++ [(examine expectedState input).1], (examine expectedState input).2⟩

/-- The loop after so many passes over the connections that come in. Without a further
connection it waits. -/
def listeningAfter (expectedState : String) (incoming : Stream'.Seq (Except String Input)) :
    Nat → Listening
  | 0 => ⟨[], .accepting⟩
  | n + 1 =>
      match incoming.get? n with
      | none => listeningAfter expectedState incoming n
      | some accepted => (listeningAfter expectedState incoming n).pass expectedState accepted

/-- `wait_for_code_with`, when there is time for so many passes. -/
def waitForCodeWith (expectedState : String) (incoming : Stream'.Seq (Except String Input))
    (passes : Nat) : Except WaitError String :=
  match (listeningAfter expectedState incoming passes).loop with
  | .returned result => result
  | .accepting => .error .timedOut

/-- The connection carries a request for the callback. -/
def Decides (expectedState : String) (input : Input) : Prop :=
  ∃ line, readRequestLine input = some line ∧
    parseRequestLine line.toList expectedState ≠ .error .malformed ∧
    parseRequestLine line.toList expectedState ≠ .error .notCallback

/-- The response to a connection that does not decide. -/
def passedOver (input : Input) : Option String :=
  (readRequestLine input).map fun _ => respond "404 Not Found" notFoundPage

variable {expectedState : String} {incoming : Stream'.Seq (Except String Input)} {input : Input}

theorem examine_of_not_decides (h : ¬ Decides expectedState input) :
    examine expectedState input = (passedOver input, .accepting) := by
  unfold examine passedOver
  cases hline : readRequestLine input with
  | none => rfl
  | some line =>
    have hparse : parseRequestLine line.toList expectedState = .error .malformed ∨
        parseRequestLine line.toList expectedState = .error .notCallback := by
      by_contra hnot
      rw [not_or] at hnot
      exact h ⟨line, hline, hnot⟩
    rcases hparse with hparse | hparse
    · simp [hparse]
    · simp [hparse]

theorem examine_of_decides {line : String} (hline : readRequestLine input = some line)
    (hmalformed : parseRequestLine line.toList expectedState ≠ .error .malformed)
    (hnot : parseRequestLine line.toList expectedState ≠ .error .notCallback) :
    (examine expectedState input).2 =
      .returned ((parseRequestLine line.toList expectedState).mapError .callback) := by
  unfold examine
  rw [hline]
  cases hparse : parseRequestLine line.toList expectedState with
  | ok code => simp [hparse, Except.mapError]
  | error err =>
    cases err with
    | malformed => exact absurd hparse hmalformed
    | notCallback => exact absurd hparse hnot
    | stateMismatch | denied | missingCode => simp [hparse, Except.mapError]

/-- The loop goes on while no connection decides. -/
theorem listeningAfter_accepting {n : Nat}
    (h : ∀ j < n, ∀ accepted, incoming.get? j = some accepted →
      ∃ other, accepted = .ok other ∧ ¬ Decides expectedState other) :
    (listeningAfter expectedState incoming n).loop = .accepting := by
  induction n with
  | zero => rfl
  | succ n ih =>
    have haccepting := ih fun j hj => h j (by omega)
    rw [listeningAfter]
    cases hlast : incoming.get? n with
    | none => exact haccepting
    | some accepted =>
      obtain ⟨other, rfl, hnot⟩ := h n (by omega) accepted hlast
      simp only [Listening.pass, haccepting, examine_of_not_decides hnot]

/-- Every connection that does not decide is answered by 404 or dropped. -/
theorem responses_of_not_decides {n : Nat}
    (h : ∀ j < n, ∃ other, incoming.get? j = some (.ok other) ∧ ¬ Decides expectedState other) :
    (listeningAfter expectedState incoming n).loop = .accepting ∧
      (listeningAfter expectedState incoming n).responses.length = n ∧
      ∀ j < n, ∀ other, incoming.get? j = some (.ok other) →
        (listeningAfter expectedState incoming n).responses[j]? = some (passedOver other) := by
  induction n with
  | zero => exact ⟨rfl, rfl, fun j hj => absurd hj (Nat.not_lt_zero j)⟩
  | succ n ih =>
    obtain ⟨haccepting, hlength, hresponses⟩ := ih fun j hj => h j (by omega)
    obtain ⟨last, hlast, hnot⟩ := h n (by omega)
    have hpass : listeningAfter expectedState incoming (n + 1) =
        ⟨(listeningAfter expectedState incoming n).responses ++ [passedOver last], .accepting⟩ := by
      rw [listeningAfter, hlast]
      simp only [Listening.pass, haccepting, examine_of_not_decides hnot]
    rw [hpass]
    refine ⟨rfl, by simp [hlength], fun j hj other hother => ?_⟩
    rcases Nat.lt_succ_iff_lt_or_eq.mp hj with hlt | rfl
    · rw [List.getElem?_append_left (by omega)]
      exact hresponses j hlt other hother
    · rw [hlast] at hother
      cases hother
      rw [List.getElem?_append_right (by omega), hlength]
      simp

/-- Once it has returned the loop is not moved by what comes in. -/
theorem listeningAfter_of_returned {n m : Nat} {result : Except WaitError String} (hle : n ≤ m)
    (h : (listeningAfter expectedState incoming n).loop = .returned result) :
    listeningAfter expectedState incoming m = listeningAfter expectedState incoming n := by
  induction m, hle using Nat.le_induction with
  | base => rfl
  | succ m _ ih =>
    rw [listeningAfter]
    cases incoming.get? m with
    | none => exact ih
    | some accepted => simp only [ih, Listening.pass, h]

/-- The wait ends with the outcome of the first connection that carries a request for the
callback. Those before it are answered by 404 or dropped, none after it is examined, and
without one the wait lasts to the timeout. -/
theorem wait_ends_on_callback (expectedState : String)
    (incoming : Stream'.Seq (Except String Input)) :
    (∀ n input line, incoming.get? n = some (.ok input) → readRequestLine input = some line →
      parseRequestLine line.toList expectedState ≠ .error .malformed →
      parseRequestLine line.toList expectedState ≠ .error .notCallback →
      (∀ j < n, ∃ other, incoming.get? j = some (.ok other) ∧ ¬ Decides expectedState other) →
      ∀ passes, n < passes →
        waitForCodeWith expectedState incoming passes =
            (parseRequestLine line.toList expectedState).mapError .callback ∧
          (listeningAfter expectedState incoming passes).responses.length = n + 1 ∧
          ∀ j < n, ∀ other, incoming.get? j = some (.ok other) →
            (listeningAfter expectedState incoming passes).responses[j]? =
              some (passedOver other)) ∧
    ∀ passes, (∀ j < passes, ∀ accepted, incoming.get? j = some accepted →
        ∃ other, accepted = .ok other ∧ ¬ Decides expectedState other) →
      waitForCodeWith expectedState incoming passes = .error .timedOut := by
  refine ⟨?_, ?_⟩
  · intro n input line hinput hline hmalformed hnot hbefore passes hpasses
    obtain ⟨haccepting, hlength, hresponses⟩ := responses_of_not_decides hbefore
    have hpass : listeningAfter expectedState incoming (n + 1) =
        ⟨(listeningAfter expectedState incoming n).responses ++
          [(examine expectedState input).1],
          .returned ((parseRequestLine line.toList expectedState).mapError .callback)⟩ := by
      rw [listeningAfter, hinput]
      simp only [Listening.pass, haccepting, examine_of_decides hline hmalformed hnot]
    have hafter := listeningAfter_of_returned (Nat.succ_le_of_lt hpasses)
      (congrArg Listening.loop hpass)
    rw [waitForCodeWith, hafter, hpass]
    refine ⟨rfl, by simp [hlength], fun j hj other hother => ?_⟩
    rw [List.getElem?_append_left (by omega)]
    exact hresponses j hj other hother
  · intro passes hpasses
    rw [waitForCodeWith, listeningAfter_accepting hpasses]

/-- A silent connection, then the callback. -/
theorem wait_ends_on_callback_silent : waitForCodeWith "s"
      (.cons (.ok ⟨[], .silent⟩) (.cons (.ok ⟨Utf8.encode "GET /callback?code=c&state=s HTTP/1.1" ++
        [13, 10] ++ [13, 10], .silent⟩) .nil)) 2 = .ok "c" := by
  have hline : readRequestLine ⟨Utf8.encode "GET /callback?code=c&state=s HTTP/1.1" ++ [13, 10] ++
      [13, 10], .silent⟩ = some "GET /callback?code=c&state=s HTTP/1.1" := by
    rw [readRequestLine_headers (by decide) trimmed_callback (.inl rfl)
      ⟨[13], by decide, .inr rfl⟩ (by decide +kernel)]
    decide +kernel
  have hparse : parseRequestLine "GET /callback?code=c&state=s HTTP/1.1".toList "s" = .ok "c" := by
    decide +kernel
  have hsilent : ¬ Decides "s" ⟨[], .silent⟩ := by
    rintro ⟨line, hread, -⟩
    have hnone : readRequestLine ⟨[], .silent⟩ = none := rfl
    rw [hnone] at hread
    cases hread
  refine ((wait_ends_on_callback "s" _).1 1 _ _ rfl hline (by rw [hparse]; nofun)
    (by rw [hparse]; nofun) ?_ 2 (by decide)).1.trans (by rw [hparse]; rfl)
  intro j hj
  obtain rfl : j = 0 := by omega
  exact ⟨_, rfl, hsilent⟩

end Rsc.Auth

import Rsc.Library.FormUrlEncoded
import Rsc.Library.Text

/-!
`rsc/src/auth/callback.rs`: the request line of the redirect that ends the login in the
browser.
-/

namespace Rsc.Auth

open Rsc.Library

/-- `CallbackError`. -/
inductive CallbackError
  | malformed
  | notCallback
  | stateMismatch
  | denied (reason : String)
  | missingCode
  deriving DecidableEq, Repr

/-- `CALLBACK_PATH`. -/
def callbackPath : List Char := "/callback".toList

/-- The value of the first parameter of the name. -/
def param (params : List (String × String)) (name : String) : Option String :=
  (params.find? (·.1 == name)).map (·.2)

/-- The code among the parameters of the callback, after the check of the state. -/
def callbackCode (params : List (String × String)) (expectedState : String) :
    Except CallbackError String :=
  if param params "state" ≠ some expectedState then .error .stateMismatch
  else
    match param params "error", param params "code" with
    | some reason, _ => .error (.denied reason)
    | none, some code => if code = "" then .error .missingCode else .ok code
    | none, none => .error .missingCode

/-- `parse_request_line`. -/
def parseRequestLine (line : List Char) (expectedState : String) : Except CallbackError String :=
  match line.splitOn ' ' with
  | [method, target, version] =>
      if method = [] ∨ target.head? ≠ some '/' ∨ ¬ "HTTP/".toList <+: version then
        .error .malformed
      else
        let (path, query) := (Text.splitOnce '?' target).getD (target, [])
        if method ≠ "GET".toList ∨ path ≠ callbackPath then .error .notCallback
        else callbackCode (FormUrlEncoded.parse (Utf8.encode (.ofList query))) expectedState
  | _ => .error .malformed

variable {line query target version : List Char} {params : List (String × String)}
  {name value expectedState : String}

/-! ## The parameters -/

/-- The first parameter of the name has the value. -/
def First (params : List (String × String)) (name value : String) : Prop :=
  ∃ before after, params = before ++ (name, value) :: after ∧ ∀ p ∈ before, p.1 ≠ name

/-- No parameter has the name. -/
def Absent (params : List (String × String)) (name : String) : Prop := ∀ p ∈ params, p.1 ≠ name

theorem param_eq_some : param params name = some value ↔ First params name value := by
  rw [param, Option.map_eq_some_iff]
  constructor
  · rintro ⟨⟨key, _⟩, hfind, rfl⟩
    obtain ⟨hkey, before, after, hparams, hbefore⟩ := List.find?_eq_some_iff_append.mp hfind
    obtain rfl : key = name := by simpa using hkey
    exact ⟨before, after, hparams, fun p hp => by simpa using hbefore p hp⟩
  · rintro ⟨before, after, hparams, hbefore⟩
    refine ⟨(name, value), List.find?_eq_some_iff_append.mpr ⟨by simp, before, after, hparams, ?_⟩,
      rfl⟩
    intro p hp
    simpa using hbefore p hp

theorem param_eq_none : param params name = none ↔ Absent params name := by
  rw [param, Option.map_eq_none_iff, List.find?_eq_none]
  simp [Absent]

theorem callbackCode_eq_ok {code : String} : callbackCode params expectedState = .ok code ↔
    First params "state" expectedState ∧ Absent params "error" ∧ First params "code" code ∧
      code ≠ "" := by
  rw [← param_eq_some, ← param_eq_none, ← param_eq_some, callbackCode]
  cases param params "error" <;> cases param params "code" <;> grind

theorem callbackCode_eq_denied {reason : String} :
    callbackCode params expectedState = .error (.denied reason) ↔
      First params "state" expectedState ∧ First params "error" reason := by
  rw [← param_eq_some, ← param_eq_some, callbackCode]
  cases param params "error" <;> cases param params "code" <;> grind

theorem callbackCode_eq_missingCode :
    callbackCode params expectedState = .error .missingCode ↔
      First params "state" expectedState ∧ Absent params "error" ∧
        (Absent params "code" ∨ First params "code" "") := by
  rw [← param_eq_some, ← param_eq_none, ← param_eq_none, ← param_eq_some, callbackCode]
  cases param params "error" <;> cases param params "code" <;> grind

theorem callbackCode_eq_stateMismatch :
    callbackCode params expectedState = .error .stateMismatch ↔
      ¬ First params "state" expectedState := by
  rw [← param_eq_some, callbackCode]
  cases param params "error" <;> cases param params "code" <;> grind

/-- The parameters decide nothing but these four outcomes. -/
theorem callbackCode_ne (params : List (String × String)) (expectedState : String) :
    callbackCode params expectedState ≠ .error .malformed ∧
      callbackCode params expectedState ≠ .error .notCallback := by
  rw [callbackCode]
  cases param params "error" <;> cases param params "code" <;> grind

/-! ## The request line -/

/-- The line is a GET request for the callback path with the query: three fields that single
spaces separate. -/
def RequestsCallback (line query : List Char) : Prop :=
  ∃ target version, line = "GET".toList ++ ' ' :: (target ++ ' ' :: version) ∧
    ' ' ∉ target ∧ ' ' ∉ version ∧ "HTTP/".toList <+: version ∧
    target.takeWhile (· != '?') = callbackPath ∧ (target.dropWhile (· != '?')).drop 1 = query

/-- The parameters of a query. -/
def queryParams (query : List Char) : List (String × String) :=
  FormUrlEncoded.parse (Utf8.encode (.ofList query))

theorem splitOn_space {method : List Char} :
    line.splitOn ' ' = [method, target, version] ↔
      line = method ++ ' ' :: (target ++ ' ' :: version) ∧
        ' ' ∉ method ∧ ' ' ∉ target ∧ ' ' ∉ version := by
  have hjoin : [' '].intercalate [method, target, version] =
      method ++ ' ' :: (target ++ ' ' :: version) := by
    simp [List.intercalate]
  rw [Text.splitOn_eq_iff (by simp), hjoin, eq_comm]
  simp

theorem head?_of_takeWhile {path : List Char} {c : Char}
    (h : target.takeWhile (· != '?') = c :: path) : target.head? = some c := by
  cases target with
  | nil => simp at h
  | cons d target =>
    rw [List.takeWhile_cons] at h
    split at h
    · rw [(List.cons.inj h).1, List.head?_cons]
    · cases h

/-- A request for the callback is answered by its parameters. -/
theorem parseRequestLine_of_requestsCallback (h : RequestsCallback line query) :
    parseRequestLine line expectedState = callbackCode (queryParams query) expectedState := by
  obtain ⟨target, version, hline, htarget, hversion, hhttp, hpath, rfl⟩ := h
  rw [parseRequestLine, splitOn_space.mpr ⟨hline, by decide, htarget, hversion⟩]
  have hhead : target.head? = some '/' := head?_of_takeWhile hpath
  have hshape : ¬ ("GET".toList = [] ∨ target.head? ≠ some '/' ∨ ¬ "HTTP/".toList <+: version) := by
    rw [hhead]
    simpa using hhttp
  have hget : ¬ ("GET".toList ≠ "GET".toList ∨ target.takeWhile (· != '?') ≠ callbackPath) := by
    simpa using hpath
  show (if _ then _ else _) = _
  rw [if_neg hshape, Text.splitOnce_getD]
  exact if_neg hget

/-- Every other line is no callback. -/
theorem parseRequestLine_of_not (h : ∀ query, ¬ RequestsCallback line query)
    (expectedState : String) : parseRequestLine line expectedState = .error .malformed ∨
      parseRequestLine line expectedState = .error .notCallback := by
  rw [parseRequestLine]
  split
  · next method target version hsplit =>
    obtain ⟨hline, -, htarget, hversion⟩ := splitOn_space.mp hsplit
    split
    · exact .inl rfl
    · next hshape =>
      rw [not_or, not_or, not_not, not_not] at hshape
      rw [Text.splitOnce_getD]
      right
      apply if_pos
      by_contra hcallback
      rw [not_or, not_not, not_not] at hcallback
      obtain ⟨rfl, hpath⟩ := hcallback
      exact h _ ⟨target, version, hline, htarget, hversion, hshape.2.2, hpath, rfl⟩
  · exact .inl rfl

/-- Any other outcome than `malformed` and `notCallback` is that of the parameters. -/
theorem parseRequestLine_eq {result : Except CallbackError String}
    (hmalformed : result ≠ .error .malformed) (hnot : result ≠ .error .notCallback) :
    parseRequestLine line expectedState = result ↔ ∃ query, RequestsCallback line query ∧
      callbackCode (queryParams query) expectedState = result := by
  constructor
  · intro h
    by_cases hcallback : ∃ query, RequestsCallback line query
    · obtain ⟨query, hquery⟩ := hcallback
      exact ⟨query, hquery, (parseRequestLine_of_requestsCallback hquery).symm.trans h⟩
    · have hother := parseRequestLine_of_not (not_exists.mp hcallback) expectedState
      rw [h] at hother
      exact (hother.elim hmalformed hnot).elim
  · rintro ⟨query, hquery, h⟩
    exact (parseRequestLine_of_requestsCallback hquery).trans h

theorem parseRequestLine_eq_malformed_or_notCallback :
    (parseRequestLine line expectedState = .error .malformed ∨
      parseRequestLine line expectedState = .error .notCallback) ↔
        ∀ query, ¬ RequestsCallback line query := by
  constructor
  · intro h query hquery
    rw [parseRequestLine_of_requestsCallback hquery] at h
    obtain ⟨hmalformed, hnot⟩ := callbackCode_ne (queryParams query) expectedState
    exact h.elim hmalformed hnot
  · exact fun h => parseRequestLine_of_not h expectedState

/-- The code is that of a callback with the expected state and without an error. Whatever else
is reported of a callback, its state was checked before; a mismatch hides the rest of it. -/
theorem parseRequestLine_accepts (line : List Char) (expectedState : String) :
    (∀ code, parseRequestLine line expectedState = .ok code ↔ ∃ query,
      RequestsCallback line query ∧ First (queryParams query) "state" expectedState ∧
        Absent (queryParams query) "error" ∧ First (queryParams query) "code" code ∧ code ≠ "") ∧
    (∀ reason, parseRequestLine line expectedState = .error (.denied reason) ↔ ∃ query,
      RequestsCallback line query ∧ First (queryParams query) "state" expectedState ∧
        First (queryParams query) "error" reason) ∧
    (parseRequestLine line expectedState = .error .missingCode ↔ ∃ query,
      RequestsCallback line query ∧ First (queryParams query) "state" expectedState ∧
        Absent (queryParams query) "error" ∧
        (Absent (queryParams query) "code" ∨ First (queryParams query) "code" "")) ∧
    (parseRequestLine line expectedState = .error .stateMismatch ↔ ∃ query,
      RequestsCallback line query ∧ ¬ First (queryParams query) "state" expectedState) ∧
    ((parseRequestLine line expectedState = .error .malformed ∨
        parseRequestLine line expectedState = .error .notCallback) ↔
      ∀ query, ¬ RequestsCallback line query) ∧
    ∀ query line' query', RequestsCallback line query → RequestsCallback line' query' →
      ¬ First (queryParams query) "state" expectedState →
      ¬ First (queryParams query') "state" expectedState →
        parseRequestLine line' expectedState = parseRequestLine line expectedState := by
  refine ⟨fun code => ?_, fun reason => ?_, ?_, ?_,
    parseRequestLine_eq_malformed_or_notCallback, ?_⟩
  · rw [parseRequestLine_eq (by simp) (by simp)]
    exact exists_congr fun query => and_congr_right fun _ => callbackCode_eq_ok
  · rw [parseRequestLine_eq (by simp) (by simp)]
    exact exists_congr fun query => and_congr_right fun _ => callbackCode_eq_denied
  · rw [parseRequestLine_eq (by simp) (by simp)]
    exact exists_congr fun query => and_congr_right fun _ => callbackCode_eq_missingCode
  · rw [parseRequestLine_eq (by simp) (by simp)]
    exact exists_congr fun query => and_congr_right fun _ => callbackCode_eq_stateMismatch
  · intro query line' query' hline hline' hstate hstate'
    rw [parseRequestLine_of_requestsCallback hline, parseRequestLine_of_requestsCallback hline',
      callbackCode_eq_stateMismatch.mpr hstate, callbackCode_eq_stateMismatch.mpr hstate']

/-- The request line of a redirect to the callback path. -/
def callbackLine (query : String) : List Char :=
  "GET".toList ++ ' ' :: (callbackPath ++ '?' :: query.toList) ++ ' ' :: "HTTP/1.1".toList

theorem requestsCallback_callbackLine {query : String} (hquery : ' ' ∉ query.toList) :
    RequestsCallback (callbackLine query) query.toList := by
  have hpath : ∀ c ∈ callbackPath, (c != '?') = true := List.all_eq_true.mp rfl
  refine ⟨callbackPath ++ '?' :: query.toList, "HTTP/1.1".toList, ?_, ?_, by decide, by decide,
    ?_, ?_⟩
  · rw [callbackLine, List.append_assoc, List.cons_append]
  · rw [List.mem_append, List.mem_cons, not_or, not_or]
    exact ⟨by decide, by decide, hquery⟩
  · rw [List.takeWhile_append_of_pos hpath]
    exact List.append_nil _
  · rw [List.dropWhile_append_of_pos hpath]
    rfl

theorem parseRequestLine_callbackLine {query : String} (hquery : ' ' ∉ query.toList)
    (expectedState : String) : parseRequestLine (callbackLine query) expectedState =
      callbackCode (FormUrlEncoded.parse (Utf8.encode query)) expectedState := by
  rw [parseRequestLine_of_requestsCallback (requestsCallback_callbackLine hquery), queryParams,
    String.ofList_toList]

/-- The callback carries the code and the state. -/
theorem parseRequestLine_code {code state : String} (hcode : code ≠ "") :
    parseRequestLine (callbackLine (FormUrlEncoded.serialize [("code", code), ("state", state)]))
      state = .ok code := by
  have hspace : ' ' ∉ (FormUrlEncoded.serialize [("code", code), ("state", state)]).toList :=
    fun h => absurd (FormUrlEncoded.le_toNat_of_mem_serialize h) (by decide)
  rw [parseRequestLine_callbackLine hspace, FormUrlEncoded.parse_serialize]
  have hstate : param [("code", code), ("state", state)] "state" = some state := rfl
  have herror : param [("code", code), ("state", state)] "error" = none := rfl
  have hparam : param [("code", code), ("state", state)] "code" = some code := rfl
  rw [callbackCode, hstate, if_neg (not_not.mpr rfl), herror, hparam]
  exact if_neg hcode

end Rsc.Auth

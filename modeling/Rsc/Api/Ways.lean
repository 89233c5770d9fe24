import Rsc.Api.Client
import Rsc.Auth.Ways

/-!
The ways through a fetch: everything that it asks for and gets, from its first effect to its
outcome, and what is seen of it from outside.
-/

namespace Rsc.Api

open Rsc.Library Rsc.Auth

/-- What an effect of a fetch got. -/
abbrev Entry (U : Type) : Type := Sigma (ApiAns (U := U))

variable {U α : Type}

/-- What a call of the manager got, as a part of a fetch. -/
def own (tr : List (Sigma Ans)) : List (Entry U) := Prog.embedTrace ApiOp.auth tr

/-! ## What is seen of a fetch -/

/-- The request that goes out. -/
def Entry.request? : Entry U → Option (Request U)
  | ⟨.get request, _⟩ => some request
  | _ => none

/-- The status that comes back, or no response. -/
def Entry.status? : Entry U → Option (Except String UInt16)
  | ⟨.response, status⟩ => some status
  | _ => none

/-- The request to the token endpoint. -/
def Entry.refresh? : Entry U → Option TokenRequest
  | ⟨.auth (.post request), _⟩ => some request
  | _ => none

/-- The requests to the API. -/
def requests (log : List (Entry U)) : List (Request U) := log.filterMap Entry.request?

/-- The answers of the API. -/
def statuses (log : List (Entry U)) : List (Except String UInt16) := log.filterMap Entry.status?

/-- The requests to the token endpoint. -/
def refreshes (log : List (Entry U)) : List TokenRequest := log.filterMap Entry.refresh?

/-- A refresh was answered `invalid_grant`. -/
def InvalidGrant (log : List (Entry U)) : Prop :=
  ∃ request, ⟨.auth (.answer request), .error .invalidGrant⟩ ∈ log

@[simp] theorem requests_append (log log' : List (Entry U)) :
    requests (log ++ log') = requests log ++ requests log' := List.filterMap_append

@[simp] theorem statuses_append (log log' : List (Entry U)) :
    statuses (log ++ log') = statuses log ++ statuses log' := List.filterMap_append

@[simp] theorem refreshes_append (log log' : List (Entry U)) :
    refreshes (log ++ log') = refreshes log ++ refreshes log' := List.filterMap_append

@[simp] theorem requests_own (tr : List (Sigma Ans)) : requests (own tr : List (Entry U)) = [] := by
  simp only [requests, own, Prog.embedTrace, List.filterMap_map, List.filterMap_eq_nil_iff]
  exact fun _ _ => rfl

@[simp] theorem statuses_own (tr : List (Sigma Ans)) : statuses (own tr : List (Entry U)) = [] := by
  simp only [statuses, own, Prog.embedTrace, List.filterMap_map, List.filterMap_eq_nil_iff]
  exact fun _ _ => rfl

@[simp] theorem invalidGrant_append (log log' : List (Entry U)) :
    InvalidGrant (log ++ log') ↔ InvalidGrant log ∨ InvalidGrant log' := by
  simp only [InvalidGrant, List.mem_append, exists_or]

@[simp] theorem invalidGrant_nil : ¬ InvalidGrant ([] : List (Entry U)) := by
  simp [InvalidGrant]

@[simp] theorem invalidGrant_cons (entry : Entry U) (log : List (Entry U)) :
    InvalidGrant (entry :: log) ↔
      (∃ request, entry = ⟨.auth (.answer request), .error .invalidGrant⟩) ∨ InvalidGrant log := by
  simp only [InvalidGrant, List.mem_cons, exists_or, eq_comm]

theorem invalidGrant_own {tr : List (Sigma Ans)} : InvalidGrant (own tr : List (Entry U)) ↔
    ∃ request, ⟨.answer request, .error .invalidGrant⟩ ∈ tr := by
  constructor
  · rintro ⟨request, h⟩
    obtain ⟨⟨op, ans⟩, hmem, heq⟩ := List.mem_map.mp h
    cases heq
    exact ⟨request, hmem⟩
  · rintro ⟨request, h⟩
    exact ⟨request, List.mem_map.mpr ⟨_, h, rfl⟩⟩

/-! ## What the calls of the manager add -/

variable {overflowChecks : Bool} {tr : List (Sigma Ans)}

/-- Storing the tokens sends nothing, and is not refused. -/
theorem storeWay_own {response : TokenResponse} {out : Outcome Tokens}
    (h : StoreWay overflowChecks response tr out) :
    refreshes (own tr : List (Entry U)) = [] ∧ ¬ InvalidGrant (own tr : List (Entry U)) ∧
      out ≠ .err .sessionExpired := by
  rw [invalidGrant_own]
  cases h <;> refine ⟨rfl, ?_, by simp⟩ <;> rintro ⟨request, h⟩ <;> simp at h

@[simp] theorem own_cons (op : Op) (ans : Ans op) (tr : List (Sigma Ans)) :
    (own (⟨op, ans⟩ :: tr) : List (Entry U)) = ⟨.auth op, ans⟩ :: own tr := rfl

@[simp] theorem own_nil : (own [] : List (Entry U)) = [] := rfl

@[simp] theorem own_append (tr tr' : List (Sigma Ans)) :
    (own (tr ++ tr') : List (Entry U)) = own tr ++ own tr' := List.map_append

/-- A refresh sends at most one request, and ends with `SessionExpired` exactly when it is
answered `invalid_grant`. -/
theorem lockedWay_own {needs : Tokens → UInt64 → Bool} {out : Outcome String}
    (h : LockedWay overflowChecks needs tr out) :
    (refreshes (own tr : List (Entry U))).length ≤ 1 ∧
      (out = .err .sessionExpired ↔ InvalidGrant (own tr : List (Entry U))) := by
  rw [invalidGrant_own]
  cases h with
  | missing => exact ⟨Nat.zero_le _, by simp⟩
  | unreadable => exact ⟨Nat.zero_le _, by simp⟩
  | fine => exact ⟨Nat.zero_le _, by simp⟩
  | @refused tokens t err hneeds =>
    refine ⟨le_refl 1, ?_⟩
    cases err <;> simp [refusal]
  | @answered tokens t response tr out hneeds hstore =>
    obtain ⟨hrefreshes, hgrant, hout⟩ := storeWay_own (U := U) hstore
    constructor
    · have hlength : (refreshes (own tr : List (Entry U))).length + 1 ≤ 1 := by simp [hrefreshes]
      exact hlength
    · rw [invalidGrant_own] at hgrant
      refine iff_of_false ?_ ?_
      · cases out with
        | ok | panicked => simp [Outcome.map]
        | err e => exact fun h => hout (by cases h; rfl)
      · rintro ⟨request, h⟩
        exact hgrant ⟨request, by simpa using h⟩

theorem refreshWay_own {needs : Tokens → UInt64 → Bool} {out : Outcome String}
    (h : RefreshWay overflowChecks needs tr out) :
    (refreshes (own tr : List (Entry U))).length ≤ 1 ∧
      (out = .err .sessionExpired ↔ InvalidGrant (own tr : List (Entry U))) := by
  cases h with
  | @locked tr out hlocked =>
    obtain ⟨hlength, hexpired⟩ := lockedWay_own (U := U) hlocked
    constructor
    · rw [List.cons_append, own_cons, own_append]
      have hends : (refreshes (own tr ++ own [⟨.unlock, ()⟩] : List (Entry U))).length ≤ 1 := by
        rw [refreshes_append, List.length_append]
        exact hlength
      exact hends
    · rw [hexpired]
      simp

theorem validWay_own {out : Outcome String} (h : ValidWay overflowChecks tr out) :
    (refreshes (own tr : List (Entry U))).length ≤ 1 ∧
      (out = .err .sessionExpired ↔ InvalidGrant (own tr : List (Entry U))) := by
  cases h with
  | missing => exact lockedWay_own (.missing : LockedWay overflowChecks Tokens.isExpired _ _)
  | unreadable => exact lockedWay_own (.unreadable : LockedWay overflowChecks Tokens.isExpired _ _)
  | valid hvalid => exact lockedWay_own (.fine hvalid : LockedWay overflowChecks Tokens.isExpired _ _)
  | expired hexpired hrefresh =>
    obtain ⟨hlength, hexpired⟩ := refreshWay_own (U := U) hrefresh
    exact ⟨hlength, hexpired.trans (by simp)⟩

/-! ## The ways through a fetch -/

/-- A run of a call of the manager. -/
def Ran (call : Call String) (tr : List (Sigma Ans)) (out : Outcome String) : Prop :=
  Prog.Exec Prog.anyAnswer call tr out

/-- A call of the manager ends the fetch. -/
inductive Stops : Outcome String → Fetched α → Prop
  | err (e : AuthError) : Stops (.err e) (.err (.auth e))
  | panicked : Stops .panicked .panicked

/-- The ways through `send`. -/
inductive SendWay (web : Web U) (request : Request U) : List (Entry U) → Fetched UInt16 → Prop
  | unsent {err : String} (h : web.build request = .error err) :
      SendWay web request [] (.err (.transport err))
  | lost {err : String} (h : web.build request = .ok ()) :
      SendWay web request [⟨.get request, ()⟩, ⟨.response, .error err⟩] (.err (.transport err))
  | answered {status : UInt16} (h : web.build request = .ok ()) :
      SendWay web request [⟨.get request, ()⟩, ⟨.response, .ok status⟩] (.ok status)

/-- The ways through the end of `get_json`. -/
inductive BodyWay (fromStr : String → Except String α) (status : UInt16) :
    List (Entry U) → Fetched α → Prop
  | lost {err : String} : BodyWay fromStr status [⟨.text, .error err⟩] (.err (.transport err))
  | failure {body : String} (h : isSuccess status = false) :
      BodyWay fromStr status [⟨.text, .ok body⟩] (.err (.status status body))
  | decoded {body : String} {a : α} (h : isSuccess status = true) (hdecode : fromStr body = .ok a) :
      BodyWay fromStr status [⟨.text, .ok body⟩] (.ok a)
  | undecoded {body err : String} (h : isSuccess status = true)
      (hdecode : fromStr body = .error err) :
      BodyWay fromStr status [⟨.text, .ok body⟩] (.err (.decode err))

section

variable (web : Web U) (overflowChecks : Bool) (fromStr : String → Except String α) (url : U)

/-- The ways through a request and what it needs: a call of the manager for the token, and what
is done `again` when the token is rejected. -/
inductive TurnWay (call : Call String) (again : String → List (Entry U) → Fetched α → Prop) :
    List (Entry U) → Fetched α → Prop
  | stopped {tr : List (Sigma Ans)} {stop : Outcome String} {out : Fetched α}
      (hran : Ran call tr stop) (hstop : Stops stop out) : TurnWay call again (own tr) out
  | unanswered {tr : List (Sigma Ans)} {token : String} {sent : List (Entry U)} {e : ApiError}
      (hran : Ran call tr (.ok token))
      (hsend : SendWay web (authorized url token) sent (.err e)) :
      TurnWay call again (own tr ++ sent) (.err e)
  | answered {tr : List (Sigma Ans)} {token : String} {sent body : List (Entry U)}
      {status : UInt16} {out : Fetched α} (hran : Ran call tr (.ok token))
      (hsend : SendWay web (authorized url token) sent (.ok status)) (h : status ≠ unauthorized)
      (hbody : BodyWay fromStr status body out) : TurnWay call again (own tr ++ sent ++ body) out
  | rejected {tr : List (Sigma Ans)} {token : String} {sent more : List (Entry U)}
      {out : Fetched α} (hran : Ran call tr (.ok token))
      (hsend : SendWay web (authorized url token) sent (.ok unauthorized))
      (hagain : again token more out) : TurnWay call again (own tr ++ sent ++ more) out

/-- After a second 401 the session is over. -/
def Over (_token : String) (log : List (Entry U)) (out : Fetched α) : Prop :=
  log = [] ∧ out = .err (.auth .sessionExpired)

/-- The ways through `get_json` after the first 401. -/
def RetryWay (rejected : String) : List (Entry U) → Fetched α → Prop :=
  TurnWay web fromStr url (refreshAfterUnauthorized overflowChecks rejected) Over

/-- The ways through `get_json` once the path is a URL. -/
def FetchWay : List (Entry U) → Fetched α → Prop :=
  TurnWay web fromStr url (getValidToken overflowChecks)
    (RetryWay web overflowChecks fromStr url)

end

variable {web : Web U} {fromStr : String → Except String α} {url : U} {log : List (Entry U)}

/-- A run of a call of the manager and then of the rest of the fetch. -/
theorem ofAuth_inv {call : Call String} {rest : String → Fetch U α} {out : Fetched α}
    (h : Prog.Exec Prog.anyAnswer (Fetch.bind (.ofAuth call) rest) log out) :
    (∃ tr stop, log = own tr ∧ Ran call tr stop ∧ Stops stop out) ∨
      ∃ tr token log', log = own tr ++ log' ∧ Ran call tr (.ok token) ∧
        Prog.Exec Prog.anyAnswer (rest token) log' out := by
  obtain ⟨_, fetched, log₂, rfl, hcall, hrest⟩ := h.bind_inv
  obtain ⟨_, stop, log₃, rfl, hembed, hret⟩ := hcall.bind_inv
  obtain ⟨tr, rfl, hran⟩ := hembed.embed_inv
  cases stop with
  | ok token =>
    obtain ⟨rfl, rfl⟩ := hret.ret_inv
    exact .inr ⟨tr, token, log₂, by rw [List.append_nil]; rfl, hran, hrest⟩
  | err e =>
    obtain ⟨rfl, rfl⟩ := hret.ret_inv
    obtain ⟨rfl, rfl⟩ := hrest.ret_inv
    exact .inl ⟨tr, _, by simp [own], hran, .err e⟩
  | panicked =>
    obtain ⟨rfl, rfl⟩ := hret.ret_inv
    obtain ⟨rfl, rfl⟩ := hrest.ret_inv
    exact .inl ⟨tr, _, by simp [own], hran, .panicked⟩

/-- A run of `send` and then of the rest of the fetch. -/
theorem send_inv {token : String} {rest : UInt16 → Fetch U α} {out : Fetched α}
    (h : Prog.Exec Prog.anyAnswer (Fetch.bind (send web url token) rest) log out) :
    (∃ e, SendWay web (authorized url token) log (.err e) ∧ out = .err e) ∨
      ∃ status sent log', log = sent ++ log' ∧
        SendWay web (authorized url token) sent (.ok status) ∧
        Prog.Exec Prog.anyAnswer (rest status) log' out := by
  obtain ⟨_, fetched, log₂, rfl, hsend, hrest⟩ := h.bind_inv
  rw [send] at hsend
  split at hsend
  · next err hbuild =>
    obtain ⟨rfl, rfl⟩ := hsend.ret_inv
    obtain ⟨rfl, rfl⟩ := hrest.ret_inv
    exact .inl ⟨_, .unsent hbuild, rfl⟩
  · next hbuild =>
    obtain ⟨_, _, rfl, hget⟩ := hsend.perform_inv
    obtain ⟨response, _, rfl, hresponse⟩ := hget.perform_inv
    cases response with
    | error err =>
      obtain ⟨rfl, rfl⟩ := hresponse.ret_inv
      obtain ⟨rfl, rfl⟩ := hrest.ret_inv
      exact .inl ⟨_, .lost hbuild, rfl⟩
    | ok status =>
      obtain ⟨rfl, rfl⟩ := hresponse.ret_inv
      exact .inr ⟨status, _, log₂, rfl, .answered hbuild, hrest⟩

theorem bodyWay_of_exec {status : UInt16} {out : Fetched α}
    (h : Prog.Exec Prog.anyAnswer (readBody fromStr status : Fetch U α) log out) :
    BodyWay fromStr status log out := by
  obtain ⟨body, _, rfl, hbody⟩ := h.perform_inv
  cases body with
  | error err =>
    obtain ⟨rfl, rfl⟩ := hbody.ret_inv
    exact .lost
  | ok body =>
    cases hsuccess : isSuccess status with
    | false =>
      simp only [Prog.ret_bind, hsuccess, Bool.not_false, if_true] at hbody
      obtain ⟨rfl, rfl⟩ := hbody.ret_inv
      exact .failure hsuccess
    | true =>
      simp only [Prog.ret_bind, hsuccess, Bool.not_true, Bool.false_eq_true, if_false] at hbody
      cases hdecode : fromStr body with
      | ok a =>
        rw [hdecode] at hbody
        obtain ⟨rfl, rfl⟩ := hbody.ret_inv
        exact .decoded hsuccess hdecode
      | error err =>
        rw [hdecode] at hbody
        obtain ⟨rfl, rfl⟩ := hbody.ret_inv
        exact .undecoded hsuccess hdecode

/-- A run of a call of the manager, of a request, and of what follows it. -/
theorem turnWay_of_exec {call : Call String}
    {again : String → List (Entry U) → Fetched α → Prop} {rest : String → Fetch U α}
    {out : Fetched α}
    (h : Prog.Exec Prog.anyAnswer (Fetch.bind (.ofAuth call) fun token =>
      Fetch.bind (send web url token) fun status =>
        if status = unauthorized then rest token else readBody fromStr status) log out)
    (hrest : ∀ token log, Prog.Exec Prog.anyAnswer (rest token) log out → again token log out) :
    TurnWay web fromStr url call again log out := by
  rcases ofAuth_inv h with ⟨tr, stop, rfl, hran, hstop⟩ | ⟨tr, token, log', rfl, hran, hsent⟩
  · exact .stopped hran hstop
  rcases send_inv hsent with ⟨e, hsend, rfl⟩ | ⟨status, sent, log', rfl, hsend, hanswered⟩
  · exact .unanswered hran hsend
  rw [← List.append_assoc]
  split at hanswered
  · next hstatus =>
    subst hstatus
    exact .rejected hran hsend (hrest token log' hanswered)
  · next hstatus => exact .answered hran hsend hstatus (bodyWay_of_exec hanswered)

theorem fetchWay_of_exec {base : U} {pathAndQuery : String} {out : Fetched α}
    (hjoin : web.join base pathAndQuery = some url)
    (h : Prog.Exec Prog.anyAnswer (getJson web overflowChecks fromStr base pathAndQuery) log out) :
    FetchWay web overflowChecks fromStr url log out := by
  rw [getJson, hjoin] at h
  refine turnWay_of_exec h fun rejected log hretry => ?_
  exact turnWay_of_exec hretry fun token log hover => hover.ret_inv

end Rsc.Api

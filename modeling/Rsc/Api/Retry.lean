import Rsc.Api.Ways
import Rsc.Auth.Protocol
import Rsc.Library.Pool

/-!
A fetch is bounded, and retries only after a 401. The manager may refresh before the first
request, because of the clock, and after it, because of the status; other calls go on in
between. A fetch that has returned is one of its ways, and one that has not is the beginning
of one.
-/

namespace Rsc.Api

open Rsc.Library Rsc.Auth

variable {U α : Type} {overflowChecks : Bool} {tr : List (Sigma Ans)} {web : Web U}
  {fromStr : String → Except String α} {url : U} {log : List (Entry U)}

/-! ## Counting along the ways -/

theorem SendWay.counts {request : Request U} {out : Fetched UInt16}
    (h : SendWay web request log out) :
    (requests log).length ≤ 1 ∧ refreshes log = [] ∧ ¬ InvalidGrant log := by
  cases h with
  | unsent => exact ⟨Nat.zero_le _, rfl, by simp⟩
  | lost => exact ⟨le_refl 1, rfl, by simp⟩
  | answered => exact ⟨le_refl 1, rfl, by simp⟩

theorem SendWay.statuses_ok {request : Request U} {status : UInt16}
    (h : SendWay web request log (.ok status)) : statuses log = [.ok status] := by
  cases h
  rfl

/-- Without a response the error is one of the transport. -/
theorem SendWay.statuses_err {request : Request U} {e : ApiError}
    (h : SendWay web request log (.err e)) :
    (∀ status, .ok status ∉ statuses log) ∧ e ≠ .auth .sessionExpired := by
  cases h with
  | unsent => exact ⟨fun _ => List.not_mem_nil, by simp⟩
  | @lost err _ =>
    have hstatuses : statuses [⟨.get request, ()⟩, ⟨.response, .error err⟩] = [.error err] := rfl
    simp [hstatuses]

theorem BodyWay.counts {status : UInt16} {out : Fetched α} (h : BodyWay fromStr status log out) :
    requests log = [] ∧ statuses log = [] ∧ refreshes log = [] ∧ ¬ InvalidGrant log ∧
      out ≠ .err (.auth .sessionExpired) := by
  cases h <;> exact ⟨rfl, rfl, rfl, by simp, by simp⟩

theorem Stops.sessionExpired {stop : Outcome String} {out : Fetched α} (h : Stops stop out) :
    out = .err (.auth .sessionExpired) ↔ stop = .err .sessionExpired := by
  cases h <;> simp

/-- A call of the manager sends at most one request to the token endpoint, and ends with
`SessionExpired` exactly when that is answered `invalid_grant`. -/
theorem Ran.own {call : Call String} {stop : Outcome String} (hcall : TokenCall overflowChecks call)
    (h : Ran call tr stop) :
    (refreshes (own tr : List (Entry U))).length ≤ 1 ∧
      (stop = .err .sessionExpired ↔ InvalidGrant (own tr : List (Entry U))) := by
  obtain rfl | ⟨rejected, rfl⟩ := hcall
  · exact validWay_own (validWay_of_exec h)
  · exact refreshWay_own (refreshWay_of_exec h)

section

variable {call : Call String} {again : String → List (Entry U) → Fetched α → Prop}
  {out : Fetched α}

/-- One request and one refresh more than after it. -/
theorem TurnWay.counts {n : Nat} (hcall : TokenCall overflowChecks call)
    (h : TurnWay web fromStr url call again log out)
    (hagain : ∀ token more, again token more out →
      (requests more).length ≤ n ∧ (refreshes more).length ≤ n) :
    (requests log).length ≤ n + 1 ∧ (refreshes log).length ≤ n + 1 := by
  cases h with
  | stopped hran =>
    have hown := (hran.own (U := U) hcall).1
    simp only [requests_own, List.length_nil]
    omega
  | unanswered hran hsend =>
    have hown := (hran.own (U := U) hcall).1
    have hcounts := hsend.counts
    simp only [requests_append, requests_own, refreshes_append, hcounts.2.1, List.nil_append,
      List.append_nil]
    omega
  | answered hran hsend _ hbody =>
    have hown := (hran.own (U := U) hcall).1
    have hcounts := hsend.counts
    simp only [requests_append, requests_own, refreshes_append, hcounts.2.1, hbody.counts.1,
      hbody.counts.2.2.1, List.nil_append, List.append_nil]
    omega
  | rejected hran hsend hmore =>
    have hown := (hran.own (U := U) hcall).1
    have hcounts := hsend.counts
    have hlengths := hagain _ _ hmore
    simp only [requests_append, requests_own, refreshes_append, hcounts.2.1, List.nil_append,
      List.append_nil, List.length_append]
    omega

end

theorem FetchWay.counts {out : Fetched α}
    (h : FetchWay web overflowChecks fromStr url log out) :
    (requests log).length ≤ 2 ∧ (refreshes log).length ≤ 2 := by
  refine TurnWay.counts (.inl rfl) h fun rejected more hretry => ?_
  refine TurnWay.counts (.inr ⟨rejected, rfl⟩) hretry fun token last hover => ?_
  rw [hover.1]
  exact ⟨le_rfl, le_rfl⟩

/-! ## What goes out -/

/-- A request that goes out is the one that was built. -/
theorem SendWay.built {request request' : Request U} {out : Fetched UInt16}
    (h : SendWay web request log out) (hmem : request' ∈ requests log) :
    request' = request ∧ web.build request = .ok () := by
  cases h with
  | unsent => cases hmem
  | lost hbuild => exact ⟨List.mem_singleton.mp hmem, hbuild⟩
  | answered hbuild => exact ⟨List.mem_singleton.mp hmem, hbuild⟩

theorem SendWay.sent {token : String} {request : Request U} {out : Fetched UInt16}
    (h : SendWay web (authorized url token) log out) (hmem : request ∈ requests log) :
    request.url = url ∧ web.build request = .ok () := by
  obtain ⟨rfl, hbuild⟩ := h.built hmem
  exact ⟨rfl, hbuild⟩

theorem TurnWay.sent {call : Call String} {again : String → List (Entry U) → Fetched α → Prop}
    {request : Request U} {out : Fetched α} (h : TurnWay web fromStr url call again log out)
    (hagain : ∀ token more, again token more out → request ∈ requests more →
      request.url = url ∧ web.build request = .ok ())
    (hmem : request ∈ requests log) : request.url = url ∧ web.build request = .ok () := by
  cases h with
  | stopped => simp at hmem
  | unanswered _ hsend => exact hsend.sent (by simpa using hmem)
  | answered _ hsend _ hbody => exact hsend.sent (by simpa [hbody.counts.1] using hmem)
  | rejected _ hsend hmore =>
    simp only [requests_append, requests_own, List.nil_append, List.mem_append] at hmem
    rcases hmem with hfirst | hlater
    · exact hsend.sent hfirst
    · exact hagain _ _ hmore hlater

/-- Every request of a fetch is for its URL, and was built. -/
theorem FetchWay.sent {request : Request U} {out : Fetched α}
    (h : FetchWay web overflowChecks fromStr url log out)
    (hmem : request ∈ requests log) : request.url = url ∧ web.build request = .ok () := by
  refine TurnWay.sent h (fun rejected more hretry hmore => ?_) hmem
  refine TurnWay.sent hretry (fun token last hover hlast => ?_) hmore
  rw [hover.1] at hlast
  cases hlast

/-! ## The outcome -/

/-- The session is over for a 401 and what follows it, or for an `invalid_grant`. -/
theorem TurnWay.sessionExpired {call : Call String}
    {again : String → List (Entry U) → Fetched α → Prop} {out : Fetched α}
    {later : List (Except String UInt16)} (hcall : TokenCall overflowChecks call)
    (h : TurnWay web fromStr url call again log out)
    (hagain : ∀ token more, again token more out →
      (out = .err (.auth .sessionExpired) ↔ statuses more = later ∨ InvalidGrant more)) :
    out = .err (.auth .sessionExpired) ↔
      statuses log = .ok unauthorized :: later ∨ InvalidGrant log := by
  cases h with
  | stopped hran hstop =>
    rw [hstop.sessionExpired, (hran.own (U := U) hcall).2]
    simp
  | unanswered hran hsend =>
    obtain ⟨hnone, hne⟩ := hsend.statuses_err
    have hgrant := (hran.own (U := U) hcall).2
    refine iff_of_false (by simpa using hne) ?_
    rw [statuses_append, statuses_own, List.nil_append, invalidGrant_append, ← hgrant]
    rintro (hstatuses | hown | hsent)
    · exact hnone unauthorized (by simp [hstatuses])
    · cases hown
    · exact hsend.counts.2.2 hsent
  | answered hran hsend hstatus hbody =>
    obtain ⟨-, hnone, -, hquiet, hne⟩ := hbody.counts
    have hgrant := (hran.own (U := U) hcall).2
    refine iff_of_false hne ?_
    rw [statuses_append, statuses_append, statuses_own, hsend.statuses_ok, hnone,
      invalidGrant_append, invalidGrant_append, ← hgrant]
    rintro (hstatuses | (hown | hsent) | hread)
    · exact hstatus (Except.ok.inj (List.cons.inj hstatuses).1)
    · cases hown
    · exact hsend.counts.2.2 hsent
    · exact hquiet hread
  | rejected hran hsend hmore =>
    have hgrant := (hran.own (U := U) hcall).2
    rw [hagain _ _ hmore]
    simp [hsend.statuses_ok, ← hgrant, hsend.counts.2.2]

theorem FetchWay.sessionExpired {out : Fetched α}
    (h : FetchWay web overflowChecks fromStr url log out) :
    out = .err (.auth .sessionExpired) ↔
      statuses log = [.ok unauthorized, .ok unauthorized] ∨ InvalidGrant log := by
  refine TurnWay.sessionExpired (.inl rfl) h fun rejected more hretry => ?_
  refine TurnWay.sessionExpired (.inr ⟨rejected, rfl⟩) hretry fun token last hover => ?_
  rw [hover.1]
  exact iff_of_true hover.2 (.inl rfl)

/-- The log ends with a success and its body, which decodes to the value. -/
def Decoded (fromStr : String → Except String α) (log : List (Entry U)) (a : α) : Prop :=
  ∃ before status body, log = before ++ [⟨.response, .ok status⟩, ⟨.text, .ok body⟩] ∧
    isSuccess status = true ∧ fromStr body = .ok a

theorem Decoded.append {a : α} (h : Decoded fromStr log a) (before : List (Entry U)) :
    Decoded fromStr (before ++ log) a := by
  obtain ⟨before', status, body, rfl, hsuccess, hdecode⟩ := h
  exact ⟨before ++ before', status, body, by rw [List.append_assoc], hsuccess, hdecode⟩

theorem decoded_of_body {request : Request U} {sent body : List (Entry U)} {status : UInt16} {a : α}
    (hsend : SendWay web request sent (.ok status))
    (hbody : BodyWay fromStr status body (.ok a)) : Decoded fromStr (sent ++ body) a := by
  cases hsend
  cases hbody with
  | decoded hsuccess hdecode => exact ⟨[_], status, _, rfl, hsuccess, hdecode⟩

theorem TurnWay.decoded {call : Call String}
    {again : String → List (Entry U) → Fetched α → Prop} {a : α}
    (h : TurnWay web fromStr url call again log (.ok a))
    (hagain : ∀ token more, again token more (.ok a) → Decoded fromStr more a) :
    Decoded fromStr log a := by
  cases h with
  | stopped hran hstop => cases hstop
  | answered hran hsend hstatus hbody =>
    rw [List.append_assoc]
    exact (decoded_of_body hsend hbody).append _
  | rejected hran hsend hmore => exact (hagain _ _ hmore).append _

theorem FetchWay.decoded {a : α} (h : FetchWay web overflowChecks fromStr url log (.ok a)) :
    Decoded fromStr log a := by
  refine TurnWay.decoded h fun rejected more hretry => ?_
  refine TurnWay.decoded hretry fun token last hover => ?_
  cases hover.2

/-! ## Where the requests stand -/

/-- Two ways to read a log at a request or a status: at the first one, or further on. -/
theorem seen_at {γ : Type} {f : Entry U → Option γ} {l rest before after : List (Entry U)}
    {a b : Entry U} (hl : l.filterMap f = []) (hb : f b ≠ none)
    (h : l ++ a :: rest = before ++ b :: after) :
    (before = l ∧ b = a ∧ after = rest) ∨
      ∃ before', before = l ++ a :: before' ∧ rest = before' ++ b :: after := by
  induction l generalizing before with
  | nil =>
    cases before with
    | nil =>
      obtain ⟨rfl, rfl⟩ := List.cons.inj h
      exact .inl ⟨rfl, rfl, rfl⟩
    | cons y before =>
      obtain ⟨rfl, rfl⟩ := List.cons.inj h
      exact .inr ⟨before, rfl, rfl⟩
  | cons x l ih =>
    rw [List.filterMap_eq_nil_iff, List.forall_mem_cons] at hl
    cases before with
    | nil =>
      obtain ⟨rfl, -⟩ := List.cons.inj h
      exact absurd hl.1 hb
    | cons y before =>
      obtain ⟨rfl, htail⟩ := List.cons.inj h
      rcases ih (List.filterMap_eq_nil_iff.mpr hl.2) htail with ⟨rfl, hrest⟩ | ⟨before', rfl, hrest⟩
      · exact .inl ⟨rfl, hrest⟩
      · exact .inr ⟨before', rfl, hrest⟩

/-- Without requests there is none to find. -/
theorem no_request {before after : List (Entry U)} {request : Request U} (hlog : requests log = [])
    (h : log = before ++ ⟨.get request, ()⟩ :: after) : False := by
  subst h
  rw [requests_append, List.append_eq_nil_iff] at hlog
  cases hlog.2

theorem no_status {before after : List (Entry U)} {status : Except String UInt16}
    (hlog : statuses log = []) (h : log = before ++ ⟨.response, status⟩ :: after) : False := by
  subst h
  rw [statuses_append, List.append_eq_nil_iff] at hlog
  cases hlog.2

theorem request_at {l rest before after : List (Entry U)} {request request' : Request U}
    (hl : requests l = [])
    (h : l ++ ⟨.get request, ()⟩ :: rest = before ++ ⟨.get request', ()⟩ :: after) :
    (before = l ∧ request' = request) ∨
      ∃ before', before = l ++ ⟨.get request, ()⟩ :: before' ∧
        rest = before' ++ ⟨.get request', ()⟩ :: after := by
  rcases seen_at hl (by simp [Entry.request?]) h with ⟨hbefore, heq, -⟩ | hmore
  · cases heq
    exact .inl ⟨hbefore, rfl⟩
  · exact .inr hmore

theorem status_at {l rest before after : List (Entry U)} {status status' : Except String UInt16}
    (hl : statuses l = [])
    (h : l ++ ⟨.response, status⟩ :: rest = before ++ ⟨.response, status'⟩ :: after) :
    (status' = status ∧ after = rest) ∨
      ∃ before', rest = before' ++ ⟨.response, status'⟩ :: after := by
  rcases seen_at hl (by simp [Entry.status?]) h with ⟨-, heq, hafter⟩ | ⟨before', -, hmore⟩
  · cases heq
    exact .inl ⟨rfl, hafter⟩
  · exact .inr ⟨before', hmore⟩

/-- The only request of `send` among what sends nothing. -/
theorem SendWay.request_eq {request request' : Request U} {out : Fetched UInt16}
    {l sent rest before after : List (Entry U)} (h : SendWay web request sent out)
    (hl : requests l = []) (hrest : requests rest = [])
    (heq : l ++ sent ++ rest = before ++ ⟨.get request', ()⟩ :: after) :
    before = l ∧ request' = request := by
  rw [List.append_assoc] at heq
  cases h with
  | unsent =>
    refine (no_request ?_ heq).elim
    simp [hl, hrest]
  | @lost err =>
    have hafter : requests (⟨.response, .error err⟩ :: rest) = [] := hrest
    rcases request_at hl heq with hfirst | ⟨before', -, hmore⟩
    · exact hfirst
    · exact (no_request hafter hmore).elim
  | @answered status =>
    have hafter : requests (⟨.response, .ok status⟩ :: rest) = [] := hrest
    rcases request_at hl heq with hfirst | ⟨before', -, hmore⟩
    · exact hfirst
    · exact (no_request hafter hmore).elim

/-- The request goes out with the token that the call returned, and after nothing else. -/
def Asked (call : Call String) (url : U) (before : List (Entry U)) (request : Request U) : Prop :=
  ∃ tr token, before = own tr ∧ Ran call tr (.ok token) ∧ request = authorized url token

/-- The second request. The first was answered 401, and `refresh_after_unauthorized` returned
the token of the second for the token of the first. -/
def SecondRequest (overflowChecks : Bool) (url : U) (before : List (Entry U))
    (request : Request U) : Prop :=
  ∃ first rejected more,
    before = first ++ ⟨.get (authorized url rejected), ()⟩ :: ⟨.response, .ok unauthorized⟩ ::
      more ∧
    Asked (getValidToken overflowChecks) url first (authorized url rejected) ∧
    Asked (refreshAfterUnauthorized overflowChecks rejected) url more request

theorem TurnWay.asked {call : Call String} {again : String → List (Entry U) → Fetched α → Prop}
    {out : Fetched α} {request : Request U} {before after : List (Entry U)}
    (h : TurnWay web fromStr url call again log out)
    (heq : log = before ++ ⟨.get request, ()⟩ :: after) :
    Asked call url before request ∨ ∃ first token more,
      before = first ++ ⟨.get (authorized url token), ()⟩ :: ⟨.response, .ok unauthorized⟩ ::
        more ∧
      Asked call url first (authorized url token) ∧
      again token (more ++ ⟨.get request, ()⟩ :: after) out := by
  cases h with
  | stopped => exact (no_request (requests_own _) heq).elim
  | @unanswered tr token _ _ hran hsend =>
    rw [← List.append_nil (own tr ++ _)] at heq
    obtain ⟨rfl, rfl⟩ := hsend.request_eq (requests_own _) rfl heq
    exact .inl ⟨tr, token, rfl, hran, rfl⟩
  | @answered tr token _ _ _ _ hran hsend _ hbody =>
    obtain ⟨rfl, rfl⟩ := hsend.request_eq (requests_own _) hbody.counts.1 heq
    exact .inl ⟨tr, token, rfl, hran, rfl⟩
  | @rejected tr token _ more _ hran hsend hagain =>
    cases hsend
    rw [List.append_assoc] at heq
    rcases request_at (requests_own _) heq with ⟨rfl, rfl⟩ | ⟨before', rfl, hmore⟩
    · exact .inl ⟨tr, token, rfl, hran, rfl⟩
    cases before' with
    | nil => cases hmore
    | cons entry before' =>
      obtain ⟨rfl, hlater⟩ := List.cons.inj hmore
      obtain rfl : more = before' ++ ⟨.get request, ()⟩ :: after := hlater
      exact .inr ⟨_, token, before', rfl, ⟨tr, token, rfl, hran, rfl⟩, hagain⟩

theorem FetchWay.first_or_second {out : Fetched α} {request : Request U}
    {before after : List (Entry U)} (h : FetchWay web overflowChecks fromStr url log out)
    (heq : log = before ++ ⟨.get request, ()⟩ :: after) :
    Asked (getValidToken overflowChecks) url before request ∨
      SecondRequest overflowChecks url before request := by
  rcases TurnWay.asked h heq with hfirst | ⟨first, rejected, more, rfl, hfirst, hretry⟩
  · exact .inl hfirst
  rcases TurnWay.asked hretry rfl with hsecond | ⟨_, _, last, -, -, hover, -⟩
  · exact .inr ⟨first, rejected, more, rfl, hfirst, hsecond⟩
  · exact (no_request rfl hover.symm).elim

/-- The only status of `send` among what gets none. -/
theorem SendWay.status_eq {request : Request U} {out : Fetched UInt16} {status : UInt16}
    {l sent rest before after : List (Entry U)} (h : SendWay web request sent out)
    (hl : statuses l = []) (hrest : statuses rest = [])
    (heq : l ++ sent ++ rest = before ++ ⟨.response, .ok status⟩ :: after) :
    after = rest ∧ out = .ok status := by
  have hget : statuses (l ++ [⟨.get request, ()⟩]) = [] := by
    rw [statuses_append, hl]
    rfl
  rw [List.append_assoc] at heq
  cases h with
  | unsent =>
    refine (no_status ?_ heq).elim
    simp [hl, hrest]
  | lost =>
    rw [List.cons_append, List.append_cons] at heq
    rcases status_at hget heq with ⟨hstatus, -⟩ | ⟨before', hmore⟩
    · cases hstatus
    · exact (no_status hrest hmore).elim
  | answered =>
    rw [List.cons_append, List.append_cons] at heq
    rcases status_at hget heq with ⟨hstatus, hafter⟩ | ⟨before', hmore⟩
    · cases hstatus
      exact ⟨hafter, rfl⟩
    · exact (no_status hrest hmore).elim

/-- Nothing is sent any more. -/
def Quiet (log : List (Entry U)) : Prop := requests log = [] ∧ refreshes log = []

theorem TurnWay.quiet {call : Call String} {again : String → List (Entry U) → Fetched α → Prop}
    {out : Fetched α} {status : UInt16} {before after : List (Entry U)}
    (h : TurnWay web fromStr url call again log out) (hstatus : status ≠ unauthorized)
    (hagain : ∀ token more before', again token more out →
      more = before' ++ ⟨.response, .ok status⟩ :: after → Quiet after)
    (heq : log = before ++ ⟨.response, .ok status⟩ :: after) : Quiet after := by
  cases h with
  | stopped => exact (no_status (statuses_own _) heq).elim
  | unanswered hran hsend =>
    rw [← List.append_nil (own _ ++ _)] at heq
    obtain ⟨rfl, -⟩ := hsend.status_eq (statuses_own _) rfl heq
    exact ⟨rfl, rfl⟩
  | answered hran hsend _ hbody =>
    obtain ⟨rfl, -⟩ := hsend.status_eq (statuses_own _) hbody.counts.2.1 heq
    exact ⟨hbody.counts.1, hbody.counts.2.2.1⟩
  | rejected hran hsend hmore =>
    cases hsend
    rw [List.append_assoc, List.cons_append, List.append_cons] at heq
    rcases status_at (by rw [statuses_append, statuses_own]; rfl) heq with ⟨heq', -⟩ | ⟨_, hlater⟩
    · exact absurd (Except.ok.inj heq') hstatus
    · exact hagain _ _ _ hmore hlater

/-- After a status other than 401 nothing more is sent. -/
theorem FetchWay.quiet {out : Fetched α} {status : UInt16} {before after : List (Entry U)}
    (h : FetchWay web overflowChecks fromStr url log out) (hstatus : status ≠ unauthorized)
    (heq : log = before ++ ⟨.response, .ok status⟩ :: after) : Quiet after := by
  refine TurnWay.quiet h hstatus (fun rejected more before' hretry hmore => ?_) heq
  refine TurnWay.quiet hretry hstatus (fun token last before'' hover hlast => ?_) hmore
  rw [hover.1] at hlast
  exact (no_status rfl hlast).elim

/-! ## Among the other calls -/

theorem answers_nonempty : ∀ op : ApiOp U, Nonempty (ApiAns op)
  | .auth .load | .response | .text => ⟨.error ""⟩
  | .auth (.save _) => ⟨.ok ()⟩
  | .auth .now => ⟨(0 : UInt64)⟩
  | .auth (.answer _) => ⟨.error .invalidGrant⟩
  | .auth .lock | .auth .unlock | .auth (.post _) | .auth .overflow | .get _ => ⟨()⟩

/-- What a fetch has asked for so far, whatever the others do. -/
structure Bounded (web : Web U) (overflowChecks : Bool) (base : U) (pathAndQuery : String)
    (log : List (Entry U)) : Prop where
  requests : (requests log).length ≤ 2
  refreshes : (refreshes log).length ≤ 2
  request : ∀ before request after, log = before ++ ⟨.get request, ()⟩ :: after →
    ∃ url, web.join base pathAndQuery = some url ∧
      (Asked (getValidToken overflowChecks) url before request ∨
        SecondRequest overflowChecks url before request)
  quiet : ∀ before status after, log = before ++ ⟨.response, .ok status⟩ :: after →
    status ≠ unauthorized → Quiet after

/-- What a fetch that has returned `out` has seen. -/
structure Concluded (fromStr : String → Except String α) (log : List (Entry U))
    (out : Fetched α) : Prop where
  sessionExpired : out = .err (.auth .sessionExpired) ↔
    statuses log = [.ok unauthorized, .ok unauthorized] ∨ InvalidGrant log
  decoded : ∀ a, out = .ok a → Decoded fromStr log a

/-- A fetch that is not at its end yet has asked for less. -/
theorem Bounded.of_append {base : U} {pathAndQuery : String} {rest : List (Entry U)}
    (h : Bounded web overflowChecks base pathAndQuery (log ++ rest)) :
    Bounded web overflowChecks base pathAndQuery log := by
  obtain ⟨hrequests, hrefreshes, hrequest, hquiet⟩ := h
  rw [requests_append, List.length_append] at hrequests
  rw [refreshes_append, List.length_append] at hrefreshes
  refine ⟨by omega, by omega, ?_, ?_⟩
  · rintro before request after rfl
    exact hrequest before request (after ++ rest) (by simp)
  · rintro before status after rfl hstatus
    have h := hquiet before status (after ++ rest) (by simp) hstatus
    rw [Quiet, requests_append, refreshes_append, List.append_eq_nil_iff,
      List.append_eq_nil_iff] at h
    exact ⟨h.1.1, h.2.1⟩

theorem getJson_exec {base : U} {pathAndQuery : String} {out : Fetched α}
    (h : Prog.Exec Prog.anyAnswer (getJson web overflowChecks fromStr base pathAndQuery) log out) :
    Bounded web overflowChecks base pathAndQuery log ∧ Concluded fromStr log out := by
  cases hjoin : web.join base pathAndQuery with
  | none =>
    rw [getJson, hjoin] at h
    obtain ⟨rfl, rfl⟩ := h.ret_inv
    refine ⟨⟨Nat.zero_le _, Nat.zero_le _, ?_, ?_⟩, ⟨?_, ?_⟩⟩
    · intro before request after heq
      exact (no_request rfl heq).elim
    · intro before status after heq
      exact (no_status rfl heq).elim
    · simp [statuses]
    · simp
  | some url =>
    have hway := fetchWay_of_exec hjoin h
    refine ⟨⟨hway.counts.1, hway.counts.2, ?_, ?_⟩, ⟨hway.sessionExpired, ?_⟩⟩
    · intro before request after heq
      exact ⟨url, hjoin, hway.first_or_second heq⟩
    · intro before status after heq hstatus
      exact hway.quiet hstatus heq
    · rintro a rfl
      exact hway.decoded

/-- A fetch sends at most two requests and causes at most two refreshes, in every run of any
tasks over any effects. The second request follows a 401 only, with the token of the refresh for
the rejected one; after another status nothing is sent. It returns `SessionExpired` for two 401
or for an `invalid_grant`, and a value only for a success that decodes. -/
theorem getJson_bounded {σ ι : Type} [DecidableEq ι] {E : Effects σ ι (ApiAns (U := U))}
    {env : σ → σ → Prop} {p₀ p : Pool σ ι (ApiAns (U := U)) (Fetched α)}
    {logs : ι → List (Entry U)} (hrun : Pool.LoggedRun E env p₀ logs p) {i : ι} {base : U}
    {pathAndQuery : String}
    (hi : p₀.tasks i = getJson web overflowChecks fromStr base pathAndQuery) :
    Bounded web overflowChecks base pathAndQuery (logs i) ∧
      ∀ out, p.tasks i = .ret out → Concluded fromStr (logs i) out := by
  constructor
  · obtain ⟨rest, out, h⟩ := hrun.exec_append answers_nonempty i
    rw [hi] at h
    exact (getJson_exec h).1.of_append
  · intro out hout
    have h := hrun.exec hout
    rw [hi] at h
    exact (getJson_exec h).2

/-- The task that fetches, and another call of the same manager. -/
def pair : Pool Unit Bool (ApiAns (U := String)) (Fetched String) where
  shared := ()
  tasks
    | true => getJson plainWeb true .ok "https://api.soundcloud.com" "/me"
    | false => Fetch.ofAuth (getValidToken true)

/-- A token that looks valid is rejected, refreshed, and accepted. -/
def retriedLog : List (Entry String) :=
  own [⟨.load, .ok (some ⟨"old", "r1", 1000⟩)⟩, ⟨.now, (0 : UInt64)⟩] ++
    ⟨.get (authorized "https://api.soundcloud.com/me" "old"), ()⟩ :: ⟨.response, .ok 401⟩ ::
    own [⟨.lock, ()⟩, ⟨.load, .ok (some ⟨"old", "r1", 1000⟩)⟩, ⟨.now, (0 : UInt64)⟩,
      ⟨.post (.refreshToken "r1"), ()⟩, ⟨.answer (.refreshToken "r1"), .ok ⟨"new", "r2", 3600, ""⟩⟩,
      ⟨.now, (0 : UInt64)⟩, ⟨.save ⟨"new", "r2", 3540⟩, .ok ()⟩, ⟨.unlock, ()⟩] ++
    [⟨.get (authorized "https://api.soundcloud.com/me" "new"), ()⟩, ⟨.response, .ok 200⟩,
      ⟨.text, .ok "maxime"⟩]

theorem retriedLog_steps : Prog.Steps (pair.tasks true) retriedLog (.ret (.ok "maxime")) :=
  .cons (.cons (.cons (.cons (.cons (.cons (.cons (.cons (.cons (.cons (.cons (.cons (.cons (.cons
    (.cons (.nil _)))))))))))))))

theorem getJson_bounded_retried :
    ∃ logs p, Pool.LoggedRun (fun _ _ _ _ _ => True) (fun _ _ => False) pair logs p ∧
      logs true = retriedLog ∧ p.tasks true = .ret (.ok "maxime") ∧
      Bounded plainWeb true "https://api.soundcloud.com" "/me" (logs true) ∧
      Concluded .ok (logs true) (.ok "maxime") := by
  have hrun : Pool.LoggedRun (fun _ _ _ _ _ => True) (fun _ _ => False) pair
      (Function.update (fun _ => []) true retriedLog)
      ⟨(), Function.update pair.tasks true (.ret (.ok "maxime"))⟩ :=
    Pool.LoggedRun.start.steps_alone retriedLog_steps fun _ _ _ => trivial
  have hpair : pair.tasks true = getJson plainWeb true .ok "https://api.soundcloud.com" "/me" := rfl
  obtain ⟨hbounded, hconcluded⟩ := getJson_bounded hrun hpair
  exact ⟨_, _, hrun, rfl, rfl, hbounded, hconcluded _ rfl⟩

end Rsc.Api

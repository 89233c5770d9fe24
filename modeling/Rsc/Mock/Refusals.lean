import Rsc.Mock.Token

/-!
A refused token request changes nothing, except that a client replaying its own code
revokes the family of the code.
-/

namespace Rsc.Mock.Token

open Rsc.Library Rsc.Library.Http Rsc.Mock.Store Rsc.Mock.ClientAuth

variable {D : Deps} {config : MockConfig} {st st' : Guarded} {request : Request}
  {client : Authenticated} {params : Params} {draws : List Draw} {e : ApiError}

/-- The parameters present a code of the client that is already redeemed. -/
structure Presents (st : Guarded) (client : Authenticated) (params : Params) (entry : AuthCode) :
    Prop where
  grantType : params.value "grant_type" = some "authorization_code"
  redirectUri : ∃ redirectUri, params.value "redirect_uri" = some redirectUri
  codeVerifier : ∃ codeVerifier, params.value "code_verifier" = some codeVerifier
  code : ∃ code, params.value "code" = some code ∧ st.store.codes.lookup code = some entry
  clientId : entry.clientId = client.client.clientId
  redeemed : entry.redeemed = true

/-- An authenticated `authorization_code` request, complete and without repetition, that
replays a redeemed code of its own client. -/
def Replays (D : Deps) (config : MockConfig) (st : Guarded) (request : Request)
    (entry : AuthCode) : Prop :=
  ∃ client params, Admitted D config request client params ∧ Presents st client params entry

/-- What is left of the state when the answer is an error. -/
structure Refused (st : Guarded) (client : Authenticated) (params : Params) (st' : Guarded) :
    Prop where
  replay : ∀ entry, Presents st client params entry →
    st' = { st with store := st.store.revoke entry.family }
  other : (∀ entry, ¬ Presents st client params entry) → st' = st

theorem Refused.unchanged (hnot : ∀ entry, ¬ Presents st client params entry) :
    Refused st client params st :=
  ⟨fun entry h => absurd h (hnot entry), fun _ => rfl⟩

theorem authorizationCode_refused (hgrant : params.value "grant_type" = some "authorization_code")
    (h : authorizationCode D config st client params draws = some (.error e, st')) :
    Refused st client params st' := by
  unfold authorizationCode at h
  split at h
  · rename_i code redirectUri codeVerifier hcode hredirectUri hcodeVerifier
    obtain ⟨⟨result, s, rest⟩, hredeem, hanswer⟩ := Option.map_eq_some_iff.mp h
    have hpresents : ∀ entry, Presents st client params entry ↔
        st.store.Replay ⟨client.client.clientId, code, redirectUri, codeVerifier⟩ entry := by
      intro entry
      constructor
      · rintro ⟨-, -, -, ⟨code', hcode', hentry⟩, hclient, hredeemed⟩
        obtain rfl : code' = code := Option.some.inj (hcode'.symm.trans hcode)
        exact ⟨hentry, hclient, hredeemed⟩
      · rintro ⟨hentry, hclient, hredeemed⟩
        exact ⟨hgrant, ⟨_, hredirectUri⟩, ⟨_, hcodeVerifier⟩, ⟨_, hcode, hentry⟩, hclient, hredeemed⟩
    cases redeemCode_effect hredeem with
    | redeemRefused _ hfirst =>
      cases hanswer
      exact .unchanged fun entry hentry => hfirst entry ((hpresents entry).mp hentry)
    | @replayed _ _ code hreplay =>
      cases hanswer
      refine ⟨fun entry hentry => ?_, fun hnot => absurd ((hpresents code).mpr hreplay) (hnot code)⟩
      obtain rfl : entry = code :=
        Option.some.inj (((hpresents entry).mp hentry).1.symm.trans hreplay.1)
      rfl
    | redeemed => cases hanswer
  · rename_i hmissing
    cases h
    refine .unchanged fun entry hentry => ?_
    obtain ⟨redirectUri, hredirectUri⟩ := hentry.redirectUri
    obtain ⟨codeVerifier, hcodeVerifier⟩ := hentry.codeVerifier
    obtain ⟨code, hcode, -⟩ := hentry.code
    exact hmissing code redirectUri codeVerifier hcode hredirectUri hcodeVerifier

theorem refreshToken_refused
    (h : refreshToken D config st client params draws = some (.error e, st')) : st' = st := by
  unfold refreshToken at h
  split at h
  · obtain ⟨⟨result, s, rest⟩, hrefresh, hanswer⟩ := Option.map_eq_some_iff.mp h
    have heffect : Effect D.toHashing st.store _ s := refresh_effect hrefresh
    cases heffect with
    | refreshRefused _ =>
      cases hanswer
      rfl
    | refreshed => cases hanswer
  · cases h
    rfl

theorem clientCredentials_refused
    (h : clientCredentials D config st client draws = some (.error e, st')) : st' = st := by
  unfold clientCredentials at h
  split at h
  · cases h
    rfl
  · obtain ⟨⟨issued, s, rest⟩, -, hanswer⟩ := Option.map_eq_some_iff.mp h
    cases hanswer

theorem grant_refused (h : grant D config st client params draws = some (.error e, st')) :
    Refused st client params st' := by
  unfold grant at h
  split at h
  · rename_i hnone
    cases h
    exact .unchanged fun entry hentry => by simp [hentry.grantType] at hnone
  · rename_i grantType hgrant
    by_cases hcode : grantType = "authorization_code"
    · subst hcode
      rw [if_pos rfl] at h
      exact authorizationCode_refused hgrant h
    · have hnot : ∀ entry, ¬ Presents st client params entry := fun entry hentry =>
        hcode (Option.some.inj (hgrant.symm.trans hentry.grantType))
      rw [if_neg hcode] at h
      split_ifs at h
      · rw [refreshToken_refused h]
        exact .unchanged hnot
      · rw [clientCredentials_refused h]
        exact .unchanged hnot
      · cases h
        exact .unchanged hnot

theorem answer_ok {x : Except InvalidGrant Issued × Store × List String} {response : Response}
    (h : answer D config st x = (.ok response, st')) :
    ∃ issued, response = tokenResponse D issued config.accessTokenLifetime := by
  obtain ⟨result, s, rest⟩ := x
  cases result with
  | error e => cases h
  | ok issued =>
    cases h
    exact ⟨issued, rfl⟩

theorem grant_ok {response : Response}
    (h : grant D config st client params draws = some (.ok response, st')) :
    ∃ issued, response = tokenResponse D issued config.accessTokenLifetime := by
  unfold grant at h
  split at h
  · cases h
  split_ifs at h
  · unfold authorizationCode at h
    split at h
    · obtain ⟨x, -, hanswer⟩ := Option.map_eq_some_iff.mp h
      exact answer_ok hanswer
    · cases h
  · unfold refreshToken at h
    split at h
    · obtain ⟨x, -, hanswer⟩ := Option.map_eq_some_iff.mp h
      exact answer_ok hanswer
    · cases h
  · unfold clientCredentials at h
    split_ifs at h
    · cases h
    · obtain ⟨x, -, hanswer⟩ := Option.map_eq_some_iff.mp h
      exact answer_ok hanswer
  · cases h

theorem tokenEndpoint_refused
    (h : tokenEndpoint D config st request draws = some (.error e, st')) :
    (∀ entry, Replays D config st request entry →
      st' = { st with store := st.store.revoke entry.family }) ∧
    ((∀ entry, ¬ Replays D config st request entry) → st' = st) := by
  unfold tokenEndpoint at h
  split at h
  · rename_i hadmit
    cases h
    refine ⟨?_, fun _ => rfl⟩
    rintro entry ⟨client, params, hadmitted, -⟩
    rw [checkRequest_eq_ok.mpr hadmitted] at hadmit
    cases hadmit
  · rename_i client params hadmit
    have hrefused := grant_refused h
    constructor
    · rintro entry ⟨client', params', hadmitted, hpresents⟩
      rw [checkRequest_eq_ok.mpr hadmitted] at hadmit
      cases hadmit
      exact hrefused.replay entry hpresents
    · intro hnot
      apply hrefused.other
      intro entry hpresents
      exact hnot entry ⟨client, params, checkRequest_eq_ok.mp hadmit, hpresents⟩

/-- **A refused request changes nothing.** When the answer is not 200 the state is what it
was; only the replay of its own redeemed code by a client revokes the family of the code. -/
theorem refused_changes_nothing (hjson : ∀ doc, (D.toVec doc).isSome) {response : Response}
    (h : handler D config st request draws = some (response, st'))
    (hrefused : response.status ≠ .ok) :
    (∀ entry, Replays D config st request entry →
      st' = { st with store := st.store.revoke entry.family }) ∧
    ((∀ entry, ¬ Replays D config st request entry) → st' = st) := by
  obtain ⟨⟨result, st''⟩, hresult, hunwrap⟩ := Option.map_eq_some_iff.mp h
  cases hunwrap
  cases result with
  | error e => exact tokenEndpoint_refused hresult
  | ok response =>
    exfalso
    apply hrefused
    unfold tokenEndpoint at hresult
    split at hresult
    · cases hresult
    · obtain ⟨issued, rfl⟩ := grant_ok hresult
      exact tokenResponse_status hjson issued _

/-- The code of the login is exchanged a second time. -/
theorem refused_changes_nothing_replay :
    ∃ response st', handler loginDeps webConfig loggedIn (formPost exchangeForm) [] =
      some (response, st') ∧ response.status = .badRequest ∧
      st' = { loggedIn with store := loginStore.revoke ⟨0⟩ } := by
  have hreplay : loginStore.Replay loginRequest { loginCode with redeemed := true } :=
    ⟨rfl, rfl, rfl⟩
  have hredeem : loginStore.redeemCode loginDeps.toHashing loginRequest minute [] =
      some (.error .invalidGrant, loginStore.revoke ⟨0⟩, []) := redeemCode_of_replay hreplay
  have hhandler : handler loginDeps webConfig loggedIn (formPost exchangeForm) [] =
      some (ApiError.invalidGrant.intoResponse loginDeps.toVec,
        { loggedIn with store := loginStore.revoke ⟨0⟩ }) := by
    rw [handler, tokenEndpoint, checkRequest_eq_ok.mpr admitted_exchangeForm]
    show Option.map _ (Option.map _ (loginStore.redeemCode loginDeps.toHashing loginRequest minute []))
      = _
    rw [hredeem]
    rfl
  refine ⟨_, _, hhandler, rfl, ?_⟩
  exact (refused_changes_nothing (fun _ => rfl) hhandler (by rintro ⟨⟩)).1 _
    ⟨_, _, admitted_exchangeForm, rfl, ⟨_, rfl⟩, ⟨_, rfl⟩, ⟨_, rfl, rfl⟩, rfl, rfl⟩

end Rsc.Mock.Token

import Rsc.Mock.Reachable

/-!
What a request to the token endpoint asks of the store: one operation, with the parameters of the
request, at the time of the clock and for the client that authenticated.
-/

namespace Rsc.Mock

open Rsc.Library Rsc.Library.Http Rsc.Mock.Store

/-- The tokens that an operation of the store returned. -/
def Event.issued : Event → Option Issued
  | .redeemCode _ _ (.ok issued) => some issued
  | .refresh _ _ _ (.ok issued) => some issued
  | .issueAppToken _ _ issued => some issued
  | _ => none

namespace Token

/-- The operation that an admitted request asks for. -/
inductive Asks (client : ClientAuth.Authenticated) (params : Params) (now : Duration) :
    Event → Prop
  | authorizationCode {code redirectUri codeVerifier : String} {result : Except InvalidGrant Issued}
      (hgrant : params.value "grant_type" = some "authorization_code")
      (hcode : params.value "code" = some code)
      (huri : params.value "redirect_uri" = some redirectUri)
      (hverifier : params.value "code_verifier" = some codeVerifier) :
      Asks client params now
        (.redeemCode ⟨client.client.clientId, code, redirectUri, codeVerifier⟩ now result)
  | refreshToken {token : String} {result : Except InvalidGrant Issued}
      (hgrant : params.value "grant_type" = some "refresh_token")
      (htoken : params.value "refresh_token" = some token) :
      Asks client params now (.refresh client.client.clientId token now result)
  | clientCredentials {issued : Issued} (hbasic : client.method = .basic)
      (hgrant : params.value "grant_type" = some "client_credentials") :
      Asks client params now (.issueAppToken client.client.clientId now issued)

/-- How the endpoint serves a request: it does nothing, or one operation of the store. -/
inductive Outcome (D : Deps) (config : MockConfig) (st : Guarded) (request : Request) :
    Response → Guarded → Prop
  | refused {response : Response} : Outcome D config st request response st
  | asked {client : ClientAuth.Authenticated} {params : Params} {e : Event} {s : Store}
      {response : Response} (hadmitted : Admitted D config request client params)
      (hasks : Asks client params st.clock.now e) (heffect : Effect D.toHashing st.store e s)
      (hissued : ∀ issued, e.issued = some issued →
        response = tokenResponse D issued config.accessTokenLifetime) :
      Outcome D config st request response { st with store := s }

variable {D : Deps} {config : MockConfig} {st st' : Guarded} {request : Request}
  {client : ClientAuth.Authenticated} {params : Params} {draws : List Draw}
  {result : Except ApiError Response}

/-- The response to the tokens of an operation, or to its refusal. -/
theorem outcome_of_answer {outcome : Except InvalidGrant Issued} {e : Event} {s : Store}
    {rest : List String} (hadmitted : Admitted D config request client params)
    (hasks : Asks client params st.clock.now e) (heffect : Effect D.toHashing st.store e s)
    (houtcome : ∀ issued, e.issued = some issued → outcome = .ok issued)
    (hanswer : answer D config st (outcome, s, rest) = (result, st')) :
    Outcome D config st request (unwrapOrElse D.toVec result) st' := by
  cases outcome with
  | ok issued =>
    cases hanswer
    refine .asked hadmitted hasks heffect fun issued' hissued => ?_
    cases houtcome issued' hissued
    rfl
  | error err =>
    cases hanswer
    exact .asked hadmitted hasks heffect fun issued hissued => nomatch houtcome issued hissued

theorem grant_outcome (hadmitted : Admitted D config request client params)
    (h : grant D config st client params draws = some (result, st')) :
    Outcome D config st request (unwrapOrElse D.toVec result) st' := by
  unfold grant at h
  split at h
  · cases h
    exact .refused
  next grantType hgrant =>
  split_ifs at h with hcode hrefresh hcredentials
  · unfold authorizationCode at h
    split at h
    · next code redirectUri codeVerifier hcode' huri hverifier =>
      obtain ⟨⟨outcome, s, rest⟩, hredeem, hanswer⟩ := Option.map_eq_some_iff.mp h
      refine outcome_of_answer hadmitted (.authorizationCode (hcode ▸ hgrant) hcode' huri hverifier)
        (redeemCode_effect hredeem) (fun issued hissued => ?_) hanswer
      cases outcome <;> cases hissued
      rfl
    · cases h
      exact .refused
  · unfold refreshToken at h
    split at h
    · next token htoken =>
      obtain ⟨⟨outcome, s, rest⟩, hrefresh', hanswer⟩ := Option.map_eq_some_iff.mp h
      refine outcome_of_answer hadmitted (.refreshToken (hrefresh ▸ hgrant) htoken)
        (refresh_effect hrefresh') (fun issued hissued => ?_) hanswer
      cases outcome <;> cases hissued
      rfl
    · cases h
      exact .refused
  · unfold clientCredentials at h
    split at h
    · cases h
      exact .refused
    next hbasic =>
    obtain ⟨⟨issued, s, rest⟩, hissue, hanswer⟩ := Option.map_eq_some_iff.mp h
    refine outcome_of_answer hadmitted (.clientCredentials (not_not.mp hbasic)
      (hcredentials ▸ hgrant)) (issueAppToken_effect hissue) (fun issued' hissued => ?_) hanswer
    cases hissued
    rfl
  · cases h
    exact .refused

/-- **One operation a request.** -/
theorem handler_outcome {response : Response}
    (h : handler D config st request draws = some (response, st')) :
    Outcome D config st request response st' := by
  obtain ⟨⟨result, st''⟩, htoken, hunwrap⟩ := Option.map_eq_some_iff.mp h
  cases hunwrap
  unfold tokenEndpoint at htoken
  split at htoken
  · cases htoken
    exact .refused
  next client params hcheck =>
  exact grant_outcome (checkRequest_eq_ok.mp hcheck) htoken

end Token

end Rsc.Mock

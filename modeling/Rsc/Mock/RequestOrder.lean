import Rsc.Mock.Token

/-!
The order of the parameters of a token request, how they are encoded and what unknown
parameters come with them do not matter.
-/

namespace Rsc.Mock.Token

open Rsc.Library Rsc.Library.Http Rsc.Mock.Store Rsc.Mock.ClientAuth

variable {D : Deps} {config : MockConfig} {st : Guarded} {request request' : Request}
  {client : Authenticated} {params params' : Params} {draws : List Draw}

/-- The known parameters are the same, none of them repeated. -/
def Agree (params params' : Params) : Prop :=
  ∀ name ∈ knownParameters, params.occurrences name = params'.occurrences name

theorem Agree.first (h : Agree params params') {name : String} (hname : name ∈ knownParameters) :
    params.first name = params'.first name := by
  rw [Params.first, Params.first, h name hname]

theorem Agree.value (h : Agree params params') (name : String) (hname : name ∈ knownParameters) :
    params.value name = params'.value name := by
  rw [Params.value, Params.value, h.first hname]

theorem Agree.contains (h : Agree params params') (name : String)
    (hname : name ∈ knownParameters) : params.contains name = params'.contains name := by
  rw [Params.contains, Params.contains, h name hname]

theorem Agree.noneRepeated (h : Agree params params') (hnone : NoneRepeated params) :
    NoneRepeated params' := fun name hname => h name hname ▸ hnone name hname

/-- Parameters that are the same up to their order agree, or have the same one repeated. -/
theorem agree_of_sameNamed (h : Params.SameNamed knownParameters params params')
    (hnone : NoneRepeated params) : Agree params params' :=
  fun name hname => h.occurrences_eq hname (hnone name hname)

/-! ## What the endpoint reads -/

theorem requireFormContentType_congr
    (h : request.headers.getAll .contentType = request'.headers.getAll .contentType) :
    requireFormContentType request.headers = requireFormContentType request'.headers := by
  have hmedia : mediaType request.headers = mediaType request'.headers := by
    rw [mediaType, mediaType, HeaderMap.get, HeaderMap.get, h]
  rw [requireFormContentType, requireFormContentType, hmedia]

theorem presented_congr (h : Agree params params')
    (hauth : request.headers.getAll .authorization = request'.headers.getAll .authorization) :
    presented D.base64Decode request.headers params =
      presented D.base64Decode request'.headers params' := by
  unfold presented basicCredentials HeaderMap.containsKey HeaderMap.get
  rw [hauth, h.value "client_id" (by decide), h.value "client_secret" (by decide),
    h.contains "client_secret" (by decide)]

theorem authenticate_congr (h : Agree params params')
    (hauth : request.headers.getAll .authorization = request'.headers.getAll .authorization) :
    authenticate D config.clients request.headers params =
      authenticate D config.clients request'.headers params' := by
  rw [authenticate, authenticate, presented_congr h hauth]

theorem grant_congr (h : Agree params params') :
    grant D config st client params draws = grant D config st client params' draws := by
  unfold grant authorizationCode refreshToken
  rw [h.value "grant_type" (by decide), h.value "code" (by decide),
    h.value "redirect_uri" (by decide), h.value "code_verifier" (by decide),
    h.value "refresh_token" (by decide)]

theorem checkRequest_of_carries {body : List UInt8} (hmethod : request.method = .post)
    (hbody : Carries request body) : checkRequest D config request = (do
      requireFormContentType request.headers
      forM knownParameters (refuseRepeated (Params.parse body))
      let client ← authenticate D config.clients request.headers (Params.parse body)
      return (client, Params.parse body)) := by
  rw [checkRequest, if_neg (not_not.mpr hmethod), readBody_eq_ok.mpr hbody]
  rfl

theorem refuseRepeated_of_repeated (hnone : ¬ NoneRepeated params) :
    forM knownParameters (refuseRepeated params) = .error .invalidRequest := by
  rcases Except.forM_ok_or (fun name _ => refuseRepeated_ok_or params name) with h | h
  · exact absurd (fun name hname => refuseRepeated_eq_ok.mp (Except.forM_eq_ok.mp h name hname)) hnone
  · exact h

theorem refuseRepeated_of_noneRepeated (hnone : NoneRepeated params) :
    forM knownParameters (refuseRepeated params) = .ok () :=
  Except.forM_eq_ok.mpr fun name hname => refuseRepeated_eq_ok.mpr (hnone name hname)

/-- **Order and noise do not matter.** Two requests whose bodies decode to the same known
parameters, in any order, get the same answer and leave the same state. -/
theorem order_and_noise {body body' : List UInt8} (hmethod : request.method = .post)
    (hmethod' : request'.method = .post)
    (hcontent : request.headers.getAll .contentType = request'.headers.getAll .contentType)
    (hauth : request.headers.getAll .authorization = request'.headers.getAll .authorization)
    (hbody : Carries request body) (hbody' : Carries request' body')
    (hsame : Params.SameNamed knownParameters (Params.parse body) (Params.parse body')) :
    handler D config st request draws = handler D config st request' draws := by
  unfold handler tokenEndpoint
  rw [checkRequest_of_carries hmethod hbody, checkRequest_of_carries hmethod' hbody',
    requireFormContentType_congr hcontent]
  cases hform : requireFormContentType request'.headers with
  | error e => rfl
  | ok u =>
    by_cases hnone : NoneRepeated (Params.parse body)
    · have hagree := agree_of_sameNamed hsame hnone
      have hnone' := hagree.noneRepeated hnone
      rw [refuseRepeated_of_noneRepeated hnone, refuseRepeated_of_noneRepeated hnone',
        authenticate_congr hagree hauth]
      cases authenticate D config.clients request'.headers (Params.parse body') with
      | error e => rfl
      | ok client => exact congrArg _ (grant_congr hagree)
    · have hnone' : ¬ NoneRepeated (Params.parse body') := fun h =>
        hnone ((agree_of_sameNamed hsame.symm h).noneRepeated h)
      rw [refuseRepeated_of_repeated hnone, refuseRepeated_of_repeated hnone']
      rfl

/-- The exchange of the login in another order, encoded another way and with noise. -/
def noisyBody : List UInt8 :=
  Utf8.encode <| "&scope=&c%6Fde=code&client_secret=secret&client%5fid=web&&scope=all&" ++
    "redirect_uri=http://127.0.0.1/callback&grant_type=authorization%5Fcode&" ++
    "code_verifier=dBjftJeZ4CVP-mB92K27uhbUJU1p1r_wW1gFWFOEjXk"

def noisyRequest : Request where
  method := .post
  query := some (Utf8.encode "code=other")
  headers := [(.contentType, formUrlEncoded)]
  body := [.data (noisyBody.take 100), .trailers, .data (noisyBody.drop 100)]

theorem order_and_noise_exchange :
    handler loginDeps webConfig loggedIn (formPost exchangeForm) [] =
      handler loginDeps webConfig loggedIn noisyRequest [] := by
  have hcarries : Carries noisyRequest noisyBody :=
    ⟨by simp [noisyRequest], by decide +kernel, by decide +kernel, nofun⟩
  have hsame : Params.SameNamed knownParameters
      (Params.parse (FormUrlEncoded.serializeBytes exchangeForm)) (Params.parse noisyBody) := by
    unfold Params.SameNamed
    decide +kernel
  exact order_and_noise rfl rfl rfl rfl
    (carries_of_postsForm (postsForm_formPost exchangeForm) (by decide +kernel)) hcarries hsame

end Rsc.Mock.Token

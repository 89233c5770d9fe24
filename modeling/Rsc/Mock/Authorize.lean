import Rsc.Mock.Token

/-!
`rsc-mock/src/oauth/authorize.rs`: the authorization endpoint. Only a request with a
registered redirect URI of a known client is answered by a redirect, and only an approved
valid one issues a code.
-/

namespace Rsc.Mock

open Rsc.Library Rsc.Library.Http Rsc.Mock.Store Rsc.Mock.Pkce

namespace Authorize

/-- `Redirect`: the registered URI, and the `state` of the request when it had one. -/
structure Redirect where
  base : String
  state : Option String

/-- What stands between the registered URI and the parameters that are appended. -/
def separator (base : String) : String :=
  if '?' ∉ base.toList then "?"
  else if base.toList.getLast? = some '?' ∨ base.toList.getLast? = some '&' then ""
  else "&"

/-- `Redirect::to`. -/
def Redirect.to (redirect : Redirect) (name value : String) : Except ApiError Response :=
  let query := FormUrlEncoded.serialize
    ((name, value) :: (redirect.state.map fun state => ("state", state)).toList)
  match HeaderValue.tryFrom (redirect.base ++ separator redirect.base ++ query) with
  | some location => .ok ⟨.found, [(.location, location), (.cacheControl, noStore)], []⟩
  | none => .error .internal

/-- `known_client`. -/
def knownClient (config : MockConfig) (params : Params) : Except ApiError RegisteredClient := do
  let clientId ← (params.unique "client_id").mapError fun _ => .invalidRequest
  okOr (clientId.bind config.client) (.badRequest "invalid_client")

/-- `registered_redirect_uri`. -/
def registeredRedirectUri (client : RegisteredClient) (params : Params) :
    Except ApiError String := do
  let requested ← (params.unique "redirect_uri").mapError fun _ => .invalidRequest
  let requested ← okOr requested .invalidRequest
  okOr (client.redirectUris.find? (· == requested)) .invalidRequest

/-- The client and the URI that the request may be redirected to. -/
def trusted (config : MockConfig) (params : Params) :
    Except ApiError (RegisteredClient × String) := do
  let client ← knownClient config params
  let base ← registeredRedirectUri client params
  return (client, base)

def invalidRequest : String := "invalid_request"

/-- `Params::unique` with the `error=` code of `validate`. -/
def uniqueParam (params : Params) (name : String) : Except String (Option String) :=
  (params.unique name).mapError fun _ => invalidRequest

/-- `validate`: the code challenge, or the `error=` code. -/
def validate (params : Params) : Except String String := do
  let responseType ← uniqueParam params "response_type"
  if responseType = none then throw invalidRequest
  else if responseType ≠ some "code" then throw "unsupported_response_type"
  else do
    let codeChallenge ← uniqueParam params "code_challenge"
    let codeChallenge ← okOr (codeChallenge.filter isValidChallenge) invalidRequest
    let method ← uniqueParam params "code_challenge_method"
    if method ≠ some "S256" then throw invalidRequest
    else do
      -- A repeated `state` would make it ambiguous what to echo.
      let _ ← uniqueParam params "state"
      return codeChallenge

/-- The decoded query. -/
def queryParams (request : Request) : Params := Params.parse (request.query.getD [])

/-- `authorize`. -/
def authorize (config : MockConfig) (st : Guarded) (request : Request) (draws : List Draw) :
    Option (Except ApiError Response × Guarded) :=
  if request.method ≠ .get ∧ request.method ≠ .head then
    some (.error (.methodNotAllowed (.fromStatic "GET")), st)
  else
    match trusted config (queryParams request) with
    | .error e => some (.error e, st)
    | .ok (client, base) =>
        let redirect : Redirect := ⟨base, (queryParams request).first "state"⟩
        match validate (queryParams request) with
        | .error e => some (redirect.to "error" e, st)
        | .ok codeChallenge =>
            -- Only an otherwise valid request reaches the user.
            if st.userDecision = .deny then some (redirect.to "error" "access_denied", st)
            else
              (st.store.issueCode client.clientId redirect.base codeChallenge st.clock.now
                (draws.map randomCredential)).map fun issued =>
                  (redirect.to "code" issued.1, { st with store := issued.2.1 })

/-- `handler`. -/
def handler (D : Deps) (config : MockConfig) (st : Guarded) (request : Request)
    (draws : List Draw) : Option (Response × Guarded) :=
  (authorize config st request draws).map fun (result, st) => (unwrapOrElse D.toVec result, st)

/-! ## Which requests are trusted and valid -/

/-- The query names a registered client once, and once a URI registered for it. -/
structure Trusted (config : MockConfig) (params : Params) (client : RegisteredClient)
    (uri : String) : Prop where
  clientId : params.occurrences "client_id" = [client.clientId]
  nonempty : client.clientId ≠ ""
  known : client ∈ config.clients
  redirectUri : params.occurrences "redirect_uri" = [uri]
  registered : uri ∈ client.redirectUris

/-- The rest of the query is in order. -/
structure ValidRequest (params : Params) (codeChallenge : String) : Prop where
  responseType : params.occurrences "response_type" = ["code"]
  challenged : params.occurrences "code_challenge" = [codeChallenge]
  isValid : isValidChallenge codeChallenge = true
  method : params.occurrences "code_challenge_method" = ["S256"]
  state : (params.occurrences "state").length ≤ 1

variable {config : MockConfig} {params : Params}

theorem knownClient_eq_ok {urlParses : String → Bool} (hconfig : config.Valid urlParses)
    {client : RegisteredClient} : knownClient config params = .ok client ↔
      params.occurrences "client_id" = [client.clientId] ∧ client.clientId ≠ "" ∧
        client ∈ config.clients := by
  rw [knownClient, Except.bind_eq_ok]
  constructor
  · rintro ⟨clientId, hunique, hclient⟩
    obtain ⟨id, rfl, hfind⟩ := Option.bind_eq_some_iff.mp (okOr_eq_ok.mp hclient)
    obtain ⟨hmem, rfl⟩ := (MockConfig.client_eq_some hconfig).mp hfind
    obtain ⟨honce, hne⟩ := Params.unique_eq_some.mp (Except.mapError_eq_ok.mp hunique)
    exact ⟨honce, hne, hmem⟩
  · rintro ⟨honce, hne, hmem⟩
    have hunique := Params.unique_eq_some.mpr ⟨honce, hne⟩
    have hfind := (MockConfig.client_eq_some hconfig).mpr ⟨hmem, rfl⟩
    exact ⟨some client.clientId, Except.mapError_eq_ok.mpr hunique, okOr_eq_ok.mpr hfind⟩

theorem find?_beq_of_mem {uris : List String} {uri : String} (h : uri ∈ uris) :
    uris.find? (· == uri) = some uri := by
  cases hfind : uris.find? (· == uri) with
  | none => exact absurd (beq_self_eq_true uri) (List.find?_eq_none.mp hfind uri h)
  | some found =>
    have hfound := List.find?_some hfind
    rw [beq_iff_eq.mp hfound]

theorem registeredRedirectUri_eq_ok {client : RegisteredClient} {uri : String} :
    registeredRedirectUri client params = .ok uri ↔
      params.occurrences "redirect_uri" = [uri] ∧ uri ≠ "" ∧ uri ∈ client.redirectUris := by
  rw [registeredRedirectUri, Except.bind_eq_ok]
  constructor
  · rintro ⟨requested, hunique, h⟩
    obtain ⟨requested, hrequested, h⟩ := Except.bind_eq_ok.mp h
    obtain rfl := okOr_eq_ok.mp hrequested
    have hfind := okOr_eq_ok.mp h
    obtain rfl : uri = requested := by simpa using List.find?_some hfind
    obtain ⟨honce, hne⟩ := Params.unique_eq_some.mp (Except.mapError_eq_ok.mp hunique)
    exact ⟨honce, hne, List.mem_of_find?_eq_some hfind⟩
  · rintro ⟨honce, hne, hmem⟩
    refine ⟨some uri, Except.mapError_eq_ok.mpr (Params.unique_eq_some.mpr ⟨honce, hne⟩), ?_⟩
    refine Except.bind_eq_ok.mpr ⟨uri, rfl, okOr_eq_ok.mpr ?_⟩
    exact find?_beq_of_mem hmem

/-- The registered URI is never empty, as `Url::parse` rejects an empty text. -/
theorem trusted_eq_ok {urlParses : String → Bool} (hurl : urlParses "" = false)
    (hconfig : config.Valid urlParses) {client : RegisteredClient} {uri : String} :
    trusted config params = .ok (client, uri) ↔ Trusted config params client uri := by
  rw [trusted, Except.bind_eq_ok]
  constructor
  · rintro ⟨client', hclient, h⟩
    obtain ⟨uri', huri, h⟩ := Except.bind_eq_ok.mp h
    cases h
    obtain ⟨honce, hne, hmem⟩ := (knownClient_eq_ok hconfig).mp hclient
    obtain ⟨huri, -, hregistered⟩ := registeredRedirectUri_eq_ok.mp huri
    exact ⟨honce, hne, hmem, huri, hregistered⟩
  · rintro ⟨honce, hne, hmem, huri, hregistered⟩
    have hnonempty : uri ≠ "" := by
      rintro rfl
      have hparses := (hconfig.redirectUris client hmem _ hregistered).1
      rw [hurl] at hparses
      cases hparses
    exact ⟨client, (knownClient_eq_ok hconfig).mpr ⟨honce, hne, hmem⟩, Except.bind_eq_ok.mpr
      ⟨uri, registeredRedirectUri_eq_ok.mpr ⟨huri, hnonempty, hregistered⟩, rfl⟩⟩

theorem uniqueParam_eq_ok {name : String} {result : Option String} :
    uniqueParam params name = .ok result ↔ params.unique name = .ok result :=
  Except.mapError_eq_ok

theorem validate_eq_ok {codeChallenge : String} :
    validate params = .ok codeChallenge ↔ ValidRequest params codeChallenge := by
  rw [validate, Except.bind_eq_ok]
  constructor
  · rintro ⟨responseType, htype, h⟩
    obtain ⟨-, h⟩ := Except.unless_eq_ok.mp h
    obtain ⟨hcode, h⟩ := Except.unless_eq_ok.mp h
    obtain ⟨challenge, hchallenge, h⟩ := Except.bind_eq_ok.mp h
    obtain ⟨challenge', hvalid, h⟩ := Except.bind_eq_ok.mp h
    obtain ⟨method, hmethod, h⟩ := Except.bind_eq_ok.mp h
    obtain ⟨hs256, h⟩ := Except.unless_eq_ok.mp h
    obtain ⟨state, hstate, h⟩ := Except.bind_eq_ok.mp h
    cases h
    obtain rfl := not_not.mp hcode
    obtain rfl := not_not.mp hs256
    obtain ⟨rfl, hgood⟩ := Option.filter_eq_some_iff.mp (okOr_eq_ok.mp hvalid)
    exact ⟨(Params.unique_eq_some.mp (uniqueParam_eq_ok.mp htype)).1,
      (Params.unique_eq_some.mp (uniqueParam_eq_ok.mp hchallenge)).1, hgood,
      (Params.unique_eq_some.mp (uniqueParam_eq_ok.mp hmethod)).1,
      (Params.unique_eq_ok.mp (uniqueParam_eq_ok.mp hstate)).1⟩
  · rintro ⟨htype, hchallenge, hvalid, hmethod, hstate⟩
    have hne : codeChallenge ≠ "" := by
      rintro rfl
      revert hvalid
      decide
    refine ⟨some "code", uniqueParam_eq_ok.mpr (Params.unique_eq_some.mpr ⟨htype, by decide⟩), ?_⟩
    refine Except.unless_eq_ok.mpr ⟨nofun, Except.unless_eq_ok.mpr ⟨by simp, ?_⟩⟩
    refine Except.bind_eq_ok.mpr ⟨some codeChallenge,
      uniqueParam_eq_ok.mpr (Params.unique_eq_some.mpr ⟨hchallenge, hne⟩), ?_⟩
    refine Except.bind_eq_ok.mpr ⟨codeChallenge,
      okOr_eq_ok.mpr (Option.filter_eq_some_iff.mpr ⟨rfl, hvalid⟩), ?_⟩
    refine Except.bind_eq_ok.mpr ⟨some "S256",
      uniqueParam_eq_ok.mpr (Params.unique_eq_some.mpr ⟨hmethod, by decide⟩), ?_⟩
    refine Except.unless_eq_ok.mpr ⟨by simp, ?_⟩
    exact Except.bind_eq_ok.mpr
      ⟨_, uniqueParam_eq_ok.mpr (Params.unique_eq_ok.mpr ⟨hstate, rfl⟩), rfl⟩

/-- A trusted and valid request that is approved issues a code. -/
theorem authorize_of_valid {st : Guarded} {request : Request} {draws : List Draw}
    {urlParses : String → Bool} (hurl : urlParses "" = false)
    (hconfig : config.Valid urlParses) (hmethod : request.method = .get)
    {registered : RegisteredClient} {uri challenge : String}
    (htrusted : Trusted config (queryParams request) registered uri)
    (hvalid : ValidRequest (queryParams request) challenge)
    (happrove : st.userDecision = .approve) :
    authorize config st request draws =
      (st.store.issueCode registered.clientId uri challenge st.clock.now
        (draws.map randomCredential)).map fun out =>
          (Redirect.to ⟨uri, (queryParams request).first "state"⟩ "code" out.1,
            { st with store := out.2.1 }) := by
  have hget : ¬ (request.method ≠ .get ∧ request.method ≠ .head) := fun h => h.1 hmethod
  have hdeny : ¬ st.userDecision = .deny := by
    rw [happrove]
    decide
  rw [authorize, if_neg hget, (trusted_eq_ok hurl hconfig).mpr htrusted]
  dsimp only
  rw [validate_eq_ok.mpr hvalid]
  exact if_neg hdeny

theorem uniqueParam_eq_error {name e : String} (h : uniqueParam params name = .error e) :
    e = invalidRequest := by
  unfold uniqueParam at h
  cases hunique : params.unique name with
  | ok result => rw [hunique] at h; cases h
  | error r => rw [hunique] at h; cases h; rfl

/-- The errors of `validate`. -/
theorem validate_eq_error {e : String} (h : validate params = .error e) :
    e = invalidRequest ∨ e = "unsupported_response_type" := by
  rw [validate, Except.bind_eq_error] at h
  rcases h with h | ⟨responseType, -, h⟩
  · exact .inl (uniqueParam_eq_error h)
  split_ifs at h
  · cases h; exact .inl rfl
  · cases h; exact .inr rfl
  left
  rcases Except.bind_eq_error.mp h with h | ⟨challenge, -, h⟩
  · exact uniqueParam_eq_error h
  rcases Except.bind_eq_error.mp h with h | ⟨codeChallenge, -, h⟩
  · cases hvalid : challenge.filter isValidChallenge with
    | some c => rw [hvalid] at h; cases h
    | none => rw [hvalid] at h; cases h; rfl
  rcases Except.bind_eq_error.mp h with h | ⟨method, -, h⟩
  · exact uniqueParam_eq_error h
  split_ifs at h
  · cases h; rfl
  · rcases Except.bind_eq_error.mp h with h | ⟨state, -, h⟩
    · exact uniqueParam_eq_error h
    · cases h

end Authorize

end Rsc.Mock

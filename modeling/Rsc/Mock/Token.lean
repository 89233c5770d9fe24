import Rsc.Library.Base64
import Rsc.Mock.ClientAuth
import Rsc.Mock.Server

/-!
`rsc-mock/src/oauth/token.rs`: the token endpoint. The checks come first, in order,
and touch no state; then one operation of the store runs under the lock.
-/

namespace Rsc.Mock

open Rsc.Library Rsc.Library.Http Rsc.Mock.Store Rsc.Mock.ClientAuth

/-- The mutable part of the server, behind one lock. -/
structure Guarded extends State where
  userDecision : UserDecision

/-- 32 bytes of the random generator. -/
abbrev Draw := { bytes : List UInt8 // bytes.length = 32 }

/-- One byte over and over. -/
def repeated (b : UInt8) : Draw := ⟨List.replicate 32 b, List.length_replicate⟩

/-- `random_credential`. -/
def randomCredential (draw : Draw) : String := Base64.urlSafe draw.1

namespace Token

/-- `MAX_BODY_BYTES`. -/
def maxBodyBytes : Nat := 64 * 1024

/-- `FORM_MEDIA_TYPE`. -/
def formMediaType : String := "application/x-www-form-urlencoded"

/-- `KNOWN_PARAMETERS`. -/
def knownParameters : List String :=
  ["grant_type", "client_id", "client_secret", "code", "redirect_uri", "code_verifier",
    "refresh_token"]

/-- The media type of the content, without its parameters. -/
def mediaType (headers : HeaderMap) : Option (List Char) := do
  let value ← headers.get .contentType
  let text ← value.toStr
  return ((Text.splitOnce ';' text).map Prod.fst).getD text

def unsupportedMediaType : ApiError := .oauth .unsupportedMediaType "unsupported_media_type"

/-- `require_form_content_type`. -/
def requireFormContentType (headers : HeaderMap) : Except ApiError Unit :=
  if (mediaType headers).any fun mediaType =>
      Text.eqIgnoreAsciiCase (Text.trim mediaType) formMediaType.toList then
    pure ()
  else throw unsupportedMediaType

def payloadTooLarge : ApiError := .oauth .payloadTooLarge "payload_too_large"

/-- The length that the headers announce. -/
def announced (headers : HeaderMap) : Option Nat := do
  let value ← headers.get .contentLength
  let text ← value.toStr
  Text.parseU64 text

/-- `Limited::new(body, remaining).collect()`: a body longer than what remains is refused,
a body that fails is malformed. -/
def collect (remaining : Nat) : List Frame → Except ApiError (List UInt8)
  | [] => pure []
  | .trailers :: frames => collect remaining frames
  | .error :: _ => throw .invalidRequest
  | .data bytes :: frames =>
      if remaining < bytes.length then throw payloadTooLarge
      else do
        let rest ← collect (remaining - bytes.length) frames
        return bytes ++ rest

/-- `read_body`. -/
def readBody (headers : HeaderMap) (body : List Frame) : Except ApiError (List UInt8) :=
  if (announced headers).any (maxBodyBytes < ·) then throw payloadTooLarge
  else collect maxBodyBytes body

/-- One turn of the loop over the known parameters. -/
def refuseRepeated (params : Params) (name : String) : Except ApiError Unit := do
  let _ ← (params.unique name).mapError fun _ => .invalidRequest

/-- What the endpoint checks before it looks at the grant: the client, and the parameters. -/
def checkRequest (D : Deps) (config : MockConfig) (request : Request) :
    Except ApiError (Authenticated × Params) :=
  if request.method ≠ .post then throw (.methodNotAllowed (.fromStatic "POST"))
  else do
    requireFormContentType request.headers
    let body ← readBody request.headers request.body
    let params := Params.parse body
    -- Which of two copies would count?
    forM knownParameters (refuseRepeated params)
    let client ← authenticate D config.clients request.headers params
    return (client, params)

/-- `token_response`. -/
def tokenResponse (D : Deps) (issued : Issued) (accessTokenLifetime : Duration) : Response :=
  let refreshToken : Json.Document :=
    (issued.refreshToken.map fun token => ("refresh_token", .str token)).toList
  let response := json D.toVec .ok <|
    [("access_token", .str issued.accessToken)] ++ refreshToken ++
      [("expires_in", .num accessTokenLifetime.asSecs), ("scope", .str ""),
        ("token_type", .str "bearer")]
  { response with headers := response.headers.insert .pragma (.fromStatic "no-cache") }

/-- The answer to the issue of tokens, and the state with the new store. -/
def answer (D : Deps) (config : MockConfig) (st : Guarded) :
    Except InvalidGrant Issued × Store × List String → Except ApiError Response × Guarded
  | (.ok issued, s, _) =>
      (.ok (tokenResponse D issued config.accessTokenLifetime), { st with store := s })
  | (.error _, s, _) => (.error .invalidGrant, { st with store := s })

/-- `authorization_code`. -/
def authorizationCode (D : Deps) (config : MockConfig) (st : Guarded) (client : Authenticated)
    (params : Params) (draws : List Draw) : Option (Except ApiError Response × Guarded) :=
  match params.value "code", params.value "redirect_uri", params.value "code_verifier" with
  | some code, some redirectUri, some codeVerifier =>
      (st.store.redeemCode D.toHashing ⟨client.client.clientId, code, redirectUri, codeVerifier⟩
        st.clock.now (draws.map randomCredential)).map (answer D config st)
  | _, _, _ => some (.error .invalidRequest, st)

/-- `refresh_token`. -/
def refreshToken (D : Deps) (config : MockConfig) (st : Guarded) (client : Authenticated)
    (params : Params) (draws : List Draw) : Option (Except ApiError Response × Guarded) :=
  match params.value "refresh_token" with
  | some token =>
      (st.store.refresh client.client.clientId token st.clock.now
        (draws.map randomCredential)).map (answer D config st)
  | none => some (.error .invalidRequest, st)

/-- `client_credentials`. -/
def clientCredentials (D : Deps) (config : MockConfig) (st : Guarded) (client : Authenticated)
    (draws : List Draw) : Option (Except ApiError Response × Guarded) :=
  if client.method ≠ .basic then some (.error .invalidClientCredentials, st)
  else
    (st.store.issueAppToken client.client.clientId st.clock.now
      (draws.map randomCredential)).map fun (issued, s, rest) =>
        answer D config st (.ok issued, s, rest)

/-- The grant that an admitted request asks for. -/
def grant (D : Deps) (config : MockConfig) (st : Guarded) (client : Authenticated)
    (params : Params) (draws : List Draw) : Option (Except ApiError Response × Guarded) :=
  match params.value "grant_type" with
  | none => some (.error .invalidRequest, st)
  | some grantType =>
      if grantType = "authorization_code" then authorizationCode D config st client params draws
      else if grantType = "refresh_token" then refreshToken D config st client params draws
      else if grantType = "client_credentials" then clientCredentials D config st client draws
      else some (.error (.badRequest "unsupported_grant"), st)

/-- `token_endpoint`. -/
def tokenEndpoint (D : Deps) (config : MockConfig) (st : Guarded) (request : Request)
    (draws : List Draw) : Option (Except ApiError Response × Guarded) :=
  match checkRequest D config request with
  | .error e => some (.error e, st)
  | .ok (client, params) => grant D config st client params draws

/-- `handler`. -/
def handler (D : Deps) (config : MockConfig) (st : Guarded) (request : Request)
    (draws : List Draw) : Option (Response × Guarded) :=
  (tokenEndpoint D config st request draws).map fun (result, st) =>
    (unwrapOrElse D.toVec result, st)

/-! ## What is admitted -/

/-- The body of the request, whole and within the limit. -/
structure Carries (request : Request) (body : List UInt8) : Prop where
  complete : Frame.error ∉ request.body
  bytes : request.body.flatMap Frame.bytes = body
  length : body.length ≤ maxBodyBytes
  announced : ∀ n, announced request.headers = some n → n ≤ maxBodyBytes

theorem collect_eq_ok {remaining : Nat} {frames : List Frame} {body : List UInt8} :
    collect remaining frames = .ok body ↔
      Frame.error ∉ frames ∧ frames.flatMap Frame.bytes = body ∧ body.length ≤ remaining := by
  induction frames generalizing remaining body with
  | nil =>
    constructor
    · intro h
      cases h
      exact ⟨nofun, rfl, Nat.zero_le _⟩
    · rintro ⟨-, rfl, -⟩
      rfl
  | cons frame frames ih =>
    cases frame with
    | trailers =>
      rw [collect, ih, List.mem_cons, not_or]
      exact and_congr_left' (and_iff_right nofun).symm
    | error => exact iff_of_false nofun fun h => h.1 List.mem_cons_self
    | data bytes =>
      rw [collect, Except.unless_eq_ok, Except.bind_eq_ok, List.mem_cons, not_or]
      constructor
      · rintro ⟨hle, rest, hrest, h⟩
        cases h
        obtain ⟨hcomplete, rfl, hlength⟩ := ih.mp hrest
        refine ⟨⟨nofun, hcomplete⟩, rfl, ?_⟩
        rw [List.length_append]
        omega
      · rintro ⟨⟨-, hcomplete⟩, rfl, hlength⟩
        rw [List.flatMap_cons, List.length_append] at hlength
        rw [show Frame.bytes (.data bytes) = bytes from rfl] at hlength
        exact ⟨by omega, _, ih.mpr ⟨hcomplete, rfl, by omega⟩, rfl⟩

theorem readBody_eq_ok {request : Request} {body : List UInt8} :
    readBody request.headers request.body = .ok body ↔ Carries request body := by
  rw [readBody, Except.unless_eq_ok, collect_eq_ok, Option.any_eq_true]
  constructor
  · rintro ⟨hannounced, hcomplete, hbytes, hlength⟩
    refine ⟨hcomplete, hbytes, hlength, fun n hn => ?_⟩
    by_contra h
    exact hannounced ⟨n, hn, by simpa using h⟩
  · rintro ⟨hcomplete, hbytes, hlength, hannounced⟩
    refine ⟨?_, hcomplete, hbytes, hlength⟩
    rintro ⟨n, hn, h⟩
    have hle := hannounced n hn
    rw [decide_eq_true_eq] at h
    omega

/-- No known parameter is repeated. -/
def NoneRepeated (params : Params) : Prop :=
  ∀ name ∈ knownParameters, (params.occurrences name).length ≤ 1

instance (params : Params) : Decidable (NoneRepeated params) :=
  inferInstanceAs (Decidable (∀ name ∈ knownParameters, _))

theorem refuseRepeated_eq_ok {params : Params} {name : String} :
    refuseRepeated params name = .ok () ↔ (params.occurrences name).length ≤ 1 := by
  rw [refuseRepeated, Except.bind_eq_ok]
  constructor
  · rintro ⟨result, h, -⟩
    exact (Params.unique_eq_ok.mp (Except.mapError_eq_ok.mp h)).1
  · intro h
    exact ⟨_, Except.mapError_eq_ok.mpr (Params.unique_eq_ok.mpr ⟨h, rfl⟩), rfl⟩

theorem refuseRepeated_ok_or (params : Params) (name : String) :
    refuseRepeated params name = .ok () ∨
      refuseRepeated params name = .error .invalidRequest := by
  unfold refuseRepeated
  cases params.unique name with
  | ok result => exact .inl rfl
  | error e => exact .inr rfl

/-- What an admitted request is. -/
structure Admitted (D : Deps) (config : MockConfig) (request : Request) (client : Authenticated)
    (params : Params) : Prop where
  method : request.method = .post
  contentType : requireFormContentType request.headers = .ok ()
  body : ∃ body, Carries request body ∧ Params.parse body = params
  noneRepeated : NoneRepeated params
  authenticated : authenticate D config.clients request.headers params = .ok client

theorem checkRequest_eq_ok {D : Deps} {config : MockConfig} {request : Request}
    {client : Authenticated} {params : Params} : checkRequest D config request = .ok (client, params) ↔
      Admitted D config request client params := by
  rw [checkRequest, Except.unless_eq_ok, not_not, Except.check_eq_ok, Except.bind_eq_ok]
  constructor
  · rintro ⟨hmethod, hcontent, body, hbody, h⟩
    obtain ⟨hrepeated, h⟩ := Except.check_eq_ok.mp h
    obtain ⟨client', hclient, h⟩ := Except.bind_eq_ok.mp h
    cases h
    exact ⟨hmethod, hcontent, ⟨body, readBody_eq_ok.mp hbody, rfl⟩,
      fun name hname => refuseRepeated_eq_ok.mp (Except.forM_eq_ok.mp hrepeated name hname),
      hclient⟩
  · rintro ⟨hmethod, hcontent, ⟨body, hbody, rfl⟩, hrepeated, hclient⟩
    refine ⟨hmethod, hcontent, body, readBody_eq_ok.mpr hbody, Except.check_eq_ok.mpr ⟨?_, ?_⟩⟩
    · exact Except.forM_eq_ok.mpr fun name hname => refuseRepeated_eq_ok.mpr (hrepeated name hname)
    · exact Except.bind_eq_ok.mpr ⟨client, hclient, rfl⟩

theorem handler_of_admitted {D : Deps} {config : MockConfig} {st : Guarded} {request : Request}
    {draws : List Draw} {client : Authenticated} {params : Params}
    (h : Admitted D config request client params) :
    handler D config st request draws =
      (grant D config st client params draws).map fun out =>
        (unwrapOrElse D.toVec out.1, out.2) := by
  rw [handler, tokenEndpoint, checkRequest_eq_ok.mpr h]

/-! ## Forms that are posted -/

section

variable {D : Deps} {config : MockConfig} {request : Request} {form : List (String × String)}

/-- The headers announce the length of the form. -/
theorem carries_of_form (hcomplete : Frame.error ∉ request.body)
    (hbytes : request.body.flatMap Frame.bytes = FormUrlEncoded.serializeBytes form)
    (hcontentLength : request.headers.get .contentLength =
      some (.ofNat (FormUrlEncoded.serializeBytes form).length))
    (hlength : (FormUrlEncoded.serializeBytes form).length ≤ maxBodyBytes) :
    Carries request (FormUrlEncoded.serializeBytes form) where
  complete := hcomplete
  bytes := hbytes
  length := hlength
  announced n hn := by
    have hsize : (FormUrlEncoded.serializeBytes form).length < UInt64.size :=
      Nat.lt_of_le_of_lt hlength (by decide)
    rw [announced, hcontentLength] at hn
    change ((HeaderValue.ofNat _).toStr.bind Text.parseU64) = some n at hn
    rw [HeaderValue.toStr_ofNat] at hn
    change Text.parseU64 _ = some n at hn
    rw [Text.parseU64_toDigits hsize] at hn
    cases hn
    exact hlength

theorem requireFormContentType_of_get {headers : HeaderMap}
    (hget : headers.get .contentType = some formUrlEncoded) :
    requireFormContentType headers = .ok () := by
  have hmedia : mediaType headers = some formMediaType.toList := by
    rw [mediaType, hget]
    decide +kernel
  rw [requireFormContentType, hmedia, if_pos (by decide +kernel)]
  rfl

theorem carries_of_postsForm (h : PostsForm request form)
    (hlength : (FormUrlEncoded.serializeBytes form).length ≤ maxBodyBytes) :
    Carries request (FormUrlEncoded.serializeBytes form) := by
  apply carries_of_form h.complete h.bytes _ hlength
  rw [HeaderMap.get, h.contentLength]
  rfl

theorem requireFormContentType_of_postsForm (h : PostsForm request form) :
    requireFormContentType request.headers = .ok () := by
  apply requireFormContentType_of_get
  rw [HeaderMap.get, h.contentType]
  rfl

/-- A posted form with the credentials of a client is admitted. -/
theorem admitted_of_postsForm (h : PostsForm request form)
    (hlength : (FormUrlEncoded.serializeBytes form).length ≤ maxBodyBytes)
    (hnone : NoneRepeated ⟨form⟩) {client : RegisteredClient}
    (hid : (Params.mk form).value "client_id" = some client.clientId)
    (hsecret : (Params.mk form).value "client_secret" = some client.clientSecret)
    (hclient : config.client client.clientId = some client) :
    Admitted D config request ⟨client, .body⟩ ⟨form⟩ where
  method := h.method
  contentType := requireFormContentType_of_postsForm h
  body := ⟨_, carries_of_postsForm h hlength,
    congrArg Params.mk (FormUrlEncoded.parse_serializeBytes form)⟩
  noneRepeated := hnone
  authenticated := by
    apply authenticate_body _ hid hsecret hclient
    rw [HeaderMap.get, h.authorization]
    rfl

end

/-- The mock with its one client logged in: the hash functions at the secret of the client
and at the verifier of the appendix. -/
def loginDeps : Deps where
  sha256 bytes :=
    if bytes = Pkce.asBytes "secret" then
      [43, 184, 13, 83, 123, 29, 163, 227, 139, 211, 3, 97, 170, 133, 86, 134, 189, 224, 234, 205,
        113, 98, 254, 246, 162, 95, 233, 123, 245, 39, 162, 91]
    else [19, 211, 30, 150, 26, 26, 216, 236, 47, 22, 177, 12, 76, 152, 46, 8, 118, 168, 120, 173,
      109, 241, 68, 86, 110, 225, 137, 74, 203, 112, 249, 195]
  base64url := Base64.urlSafe
  base64Decode _ := none
  urlParses uri := uri == "http://127.0.0.1/callback"
  toVec doc := some (Json.toVec doc)

def webClient : RegisteredClient where
  clientId := "web"
  clientSecret := "secret"
  redirectUris := ["http://127.0.0.1/callback"]

def webConfig : MockConfig where
  clients := [webClient]
  accessTokenLifetime := hour
  authorizationCodeLifetime := hour
  userDecision := .approve

def loggedIn : Guarded := ⟨⟨⟨minute⟩, loginStore⟩, .approve⟩

/-- The exchange of the code of the login. -/
def exchangeForm : List (String × String) :=
  [("grant_type", "authorization_code"), ("client_id", "web"), ("client_secret", "secret"),
    ("redirect_uri", "http://127.0.0.1/callback"),
    ("code_verifier", "dBjftJeZ4CVP-mB92K27uhbUJU1p1r_wW1gFWFOEjXk"), ("code", "code")]

theorem admitted_exchangeForm :
    Admitted loginDeps webConfig (formPost exchangeForm) ⟨webClient, .body⟩ ⟨exchangeForm⟩ :=
  admitted_of_postsForm (postsForm_formPost exchangeForm) (by decide +kernel) (by decide) rfl rfl rfl

/-- Every answer to the issue of tokens is a success. -/
theorem tokenResponse_status {D : Deps} (hjson : ∀ doc, (D.toVec doc).isSome) (issued : Issued)
    (lifetime : Duration) : (tokenResponse D issued lifetime).status = .ok :=
  json_status hjson .ok _

end Token

end Rsc.Mock

import Rsc.Auth.Manager
import Rsc.Library.Base64
import Rsc.Library.Checks
import Rsc.Library.FormUrlEncoded
import Rsc.Library.Json

/-!
`rsc/src/auth/client.rs` and `rsc/src/auth/pkce.rs`: what the client sends to the two
OAuth endpoints, and how it reads the answer of the token endpoint.
-/

namespace Rsc.Auth

open Rsc.Library

/-! ## Proof Key for Code Exchange -/

/-- `random_token`, of the 32 bytes drawn. -/
def randomToken (draw : { bytes : List UInt8 // bytes.length = 32 }) : String :=
  Base64.urlSafe draw.1

/-- `challenge_for`. -/
def challengeFor (sha256 : List UInt8 → List UInt8) (verifier : String) : String :=
  Base64.urlSafe (sha256 (Utf8.encode verifier))

structure Pkce where
  verifier : String
  challenge : String

/-- `generate`. -/
def generate (sha256 : List UInt8 → List UInt8)
    (draw : { bytes : List UInt8 // bytes.length = 32 }) : Pkce :=
  let verifier := randomToken draw
  ⟨verifier, challengeFor sha256 verifier⟩

/-- `random_state`. -/
def randomState (draw : { bytes : List UInt8 // bytes.length = 32 }) : String := randomToken draw

/-! ## Requests -/

/-- `TokenClient`; the path of `auth_base` ends with a slash. -/
structure TokenClient where
  authBase : String
  clientId : String
  clientSecret : String

/-- A URL, apart from its query. -/
structure Url where
  base : String
  query : Option String

namespace TokenClient

/-- `TokenClient::endpoint`. -/
def endpoint (client : TokenClient) (path : String) : Url := ⟨client.authBase ++ path, none⟩

/-- `TokenClient::authorize_url`. -/
def authorizeUrl (client : TokenClient) (redirectUri codeChallenge state : String) : Url :=
  { client.endpoint "authorize" with
    query := some <| FormUrlEncoded.serialize
      [("client_id", client.clientId), ("redirect_uri", redirectUri), ("response_type", "code"),
        ("code_challenge", codeChallenge), ("code_challenge_method", "S256"), ("state", state)] }

/-- The form of a token request: `TokenClient::exchange_code` and `TokenClient::refresh`. -/
def form (client : TokenClient) : TokenRequest → List (String × String)
  | .authorizationCode code codeVerifier redirectUri =>
      [("grant_type", "authorization_code"), ("client_id", client.clientId),
        ("client_secret", client.clientSecret), ("redirect_uri", redirectUri),
        ("code_verifier", codeVerifier), ("code", code)]
  | .refreshToken refreshToken =>
      [("grant_type", "refresh_token"), ("client_id", client.clientId),
        ("client_secret", client.clientSecret), ("refresh_token", refreshToken)]

end TokenClient

/-! ## Responses -/

/-- The values of the members of a name. -/
def members (doc : Json.Document) (name : String) : List Json.Scalar :=
  (doc.filter (·.1 == name)).map (·.2)

/-- A text that must be there once. -/
def textMember (doc : Json.Document) (name : String) : Option String :=
  match members doc name with
  | [.str text] => some text
  | _ => none

/-- A number that must be there once. -/
def numberMember (doc : Json.Document) (name : String) : Option UInt64 :=
  match members doc name with
  | [.num n] => some n
  | _ => none

/-- `Deserialize` of `TokenResponse`: other members are ignored, `scope` may be missing. -/
def TokenResponse.deserialize (doc : Json.Document) : Option TokenResponse := do
  let accessToken ← textMember doc "access_token"
  let refreshToken ← textMember doc "refresh_token"
  let expiresIn ← numberMember doc "expires_in"
  let scope ← if members doc "scope" = [] then some "" else textMember doc "scope"
  return ⟨accessToken, refreshToken, expiresIn, scope⟩

/-! ## The answer of the token endpoint -/

/-- What comes of a request: no answer, or one with its status and text. -/
inductive Reply
  | transport (message : String)
  | http (status : UInt16) (body : String)

/-- `StatusCode::is_success`. -/
def isSuccess (status : UInt16) : Bool := 200 ≤ status && status < 300

/-- `serde_json::from_str` at the two types it is used at. -/
structure Decoder where
  tokenResponse : String → Except String TokenResponse
  value : String → Option (Json.Value String)

/-- `classify_failure`. -/
def classifyFailure (decoder : Decoder) (status : UInt16) (body : String) : TokenError :=
  let code := ((decoder.value body).bind (·.get "error")).bind Json.Value.asStr
  if code = some "invalid_grant" then .invalidGrant
  else if code = some "invalid_client" then .invalidClient
  else .status status

/-- `TokenClient::token_request`, from what comes of the request. -/
def Reply.receive (decoder : Decoder) : Reply → Except TokenError TokenResponse
  | .transport message => .error (.transport message)
  | .http status body =>
      if isSuccess status then (decoder.tokenResponse body).mapError .badResponse
      else .error (classifyFailure decoder status body)

/-- The body is an object whose text `error` is `invalid_grant`. -/
def SaysInvalidGrant (decoder : Decoder) (body : String) : Prop :=
  ∃ members, decoder.value body = some (.object members) ∧
    (members.find? (·.1 == "error")).map (·.2) = some (.string "invalid_grant")

theorem classifyFailure_eq_invalidGrant {decoder : Decoder} {status : UInt16} {body : String} :
    classifyFailure decoder status body = .invalidGrant ↔ SaysInvalidGrant decoder body := by
  have hcode : ((decoder.value body).bind (·.get "error")).bind Json.Value.asStr =
      some "invalid_grant" ↔ SaysInvalidGrant decoder body := by
    constructor
    · intro h
      obtain ⟨value, hvalue, htext⟩ := Option.bind_eq_some_iff.mp h
      obtain ⟨doc, hdoc, hget⟩ := Option.bind_eq_some_iff.mp hvalue
      cases value with
      | string text =>
        obtain rfl := Option.some.inj htext
        cases doc with
        | object members => exact ⟨members, hdoc, hget⟩
        | null | bool | number | string | array => cases hget
      | null | bool | number | array | object => cases htext
    · rintro ⟨members, hdoc, hget⟩
      rw [hdoc, Option.bind_some, Json.Value.get, hget]
      rfl
  rw [← hcode, classifyFailure]
  split
  · next h => exact iff_of_true rfl h
  · next h =>
    refine iff_of_false ?_ h
    split <;> exact nofun

theorem receive_eq_ok {decoder : Decoder} {reply : Reply} {response : TokenResponse} :
    reply.receive decoder = .ok response ↔ ∃ status body, reply = .http status body ∧
      isSuccess status = true ∧ decoder.tokenResponse body = .ok response := by
  cases reply with
  | transport message => exact iff_of_false nofun fun ⟨_, _, h, _⟩ => nomatch h
  | http status body =>
    rw [Reply.receive]
    constructor
    · intro h
      split at h
      · next hsuccess => exact ⟨status, body, rfl, hsuccess, Except.mapError_eq_ok.mp h⟩
      · cases h
    · rintro ⟨_, _, h, hsuccess, hdecode⟩
      cases h
      rw [if_pos hsuccess, hdecode]
      rfl

theorem receive_eq_invalidGrant {decoder : Decoder} {reply : Reply} :
    reply.receive decoder = .error .invalidGrant ↔ ∃ status body, reply = .http status body ∧
      isSuccess status = false ∧ SaysInvalidGrant decoder body := by
  cases reply with
  | transport message => exact iff_of_false nofun fun ⟨_, _, h, _⟩ => nomatch h
  | http status body =>
    rw [Reply.receive]
    split
    · next hsuccess =>
      refine iff_of_false ?_ ?_
      · cases decoder.tokenResponse body <;> exact nofun
      · rintro ⟨_, _, h, hfailure, -⟩
        cases h
        rw [hsuccess] at hfailure
        cases hfailure
    · next hsuccess =>
      rw [Except.error.injEq, classifyFailure_eq_invalidGrant]
      constructor
      · intro h
        exact ⟨status, body, rfl, by simpa using hsuccess, h⟩
      · rintro ⟨_, _, h, -, hsays⟩
        cases h
        exact hsays

end Rsc.Auth

import Rsc.Library.Http
import Rsc.Library.Json

/-!
`rsc-mock/src/response.rs` and `rsc-mock/src/error.rs`: what the mock answers.
-/

namespace Rsc.Mock

open Rsc.Library Rsc.Library.Http

/-- The statuses the mock answers. -/
inductive StatusCode
  | ok
  | found
  | badRequest
  | unauthorized
  | notFound
  | methodNotAllowed
  | payloadTooLarge
  | unsupportedMediaType
  | internalServerError
  deriving DecidableEq, Repr

/-- `StatusCode::as_u16`. -/
def StatusCode.asU16 : StatusCode → UInt64
  | ok => 200
  | found => 302
  | badRequest => 400
  | unauthorized => 401
  | notFound => 404
  | methodNotAllowed => 405
  | payloadTooLarge => 413
  | unsupportedMediaType => 415
  | internalServerError => 500

/-- `StatusCode::is_client_error` or `is_server_error`. -/
def StatusCode.isError : StatusCode → Bool
  | ok | found => false
  | _ => true

/-- `serde_json::to_vec`, `none` when it fails. -/
abbrev ToVec := Json.Document → Option (List UInt8)

structure Response where
  status : StatusCode
  headers : HeaderMap
  body : List UInt8
  deriving DecidableEq

/-- `NO_STORE`. -/
def noStore : HeaderValue := .fromStatic "no-store"

/-- `JSON_UTF8`. -/
def jsonUtf8 : HeaderValue := .fromStatic "application/json; charset=utf-8"

/-- `json`. -/
def json (toVec : ToVec) (status : StatusCode) (body : Json.Document) : Response :=
  match toVec body with
  | some bytes => ⟨status, [(.contentType, jsonUtf8), (.cacheControl, noStore)], bytes⟩
  | none => ⟨.internalServerError, [], []⟩

/-- `OAUTH_LINK`. -/
def oauthLink : String := "https://developers.soundcloud.com/docs/api/guide#authentication"

/-- `API_LINK`. -/
def apiLink : String := "https://developers.soundcloud.com/docs/api/explorer/open-api"

/-- The status is an error and the header does not redirect. -/
structure ApiError where
  status : StatusCode
  message : String
  link : String
  header : Option (HeaderName × HeaderValue)
  isError : status.isError = true
  noLocation : ∀ value, header ≠ some (.location, value)
  deriving DecidableEq

namespace ApiError

/-- `ApiError::oauth`. -/
def oauth (status : StatusCode) (message : String)
    (h : status.isError = true := by rfl) : ApiError :=
  ⟨status, message, oauthLink, none, h, nofun⟩

/-- `ApiError::oauth` with `StatusCode::BAD_REQUEST`. -/
def badRequest (message : String) : ApiError := oauth .badRequest message

/-- `ApiError::invalid_request`. -/
def invalidRequest : ApiError := badRequest "invalid_request"

/-- `ApiError::invalid_grant`. -/
def invalidGrant : ApiError := badRequest "invalid_grant"

/-- `ApiError::invalid_client_credentials`. -/
def invalidClientCredentials : ApiError :=
  { oauth .unauthorized "invalid_client" with
    header := some (.wwwAuthenticate, .fromStatic "Basic realm=\"oauth\"")
    noLocation := nofun }

/-- `ApiError::method_not_allowed`. -/
def methodNotAllowed (allowed : HeaderValue) : ApiError :=
  { oauth .methodNotAllowed "method_not_allowed" with
    header := some (.allow, allowed)
    noLocation := nofun }

/-- `ApiError::internal`. -/
def internal : ApiError := ⟨.internalServerError, "internal_error", apiLink, none, rfl, nofun⟩

/-- `ApiError::into_response`. -/
def intoResponse (toVec : ToVec) (e : ApiError) : Response :=
  let response := json toVec e.status
    [("code", .num e.status.asU16), ("message", .str e.message), ("link", .str e.link)]
  match e.header with
  | some (name, value) => { response with headers := response.headers.insert name value }
  | none => response

end ApiError

/-- `Result::unwrap_or_else(ApiError::into_response)`. -/
def unwrapOrElse (toVec : ToVec) : Except ApiError Response → Response
  | .ok response => response
  | .error e => e.intoResponse toVec

variable {toVec : ToVec}

theorem json_status (hjson : ∀ doc, (toVec doc).isSome) (status : StatusCode) (body : Json.Document) :
    (json toVec status body).status = status := by
  obtain ⟨bytes, hbytes⟩ := Option.isSome_iff_exists.mp (hjson body)
  rw [json, hbytes]

theorem json_body {bytes : List UInt8} {body : Json.Document} (status : StatusCode)
    (h : toVec body = some bytes) : (json toVec status body).body = bytes := by
  rw [json, h]

theorem json_location (status : StatusCode) (body : Json.Document) (value : HeaderValue) :
    (.location, value) ∉ (json toVec status body).headers := by
  unfold json
  split <;> simp

/-- No error redirects. -/
theorem ApiError.intoResponse_location (e : ApiError) :
    (e.intoResponse toVec).headers.get .location = none := by
  apply HeaderMap.get_eq_none
  intro value hmem
  have hnot := e.noLocation
  unfold intoResponse at hmem
  cases hheader : e.header with
  | none =>
    rw [hheader] at hmem
    exact json_location _ _ value hmem
  | some header =>
    rw [hheader] at hmem hnot
    rcases List.mem_append.mp hmem with hmem | hmem
    · exact json_location _ _ value (List.mem_filter.mp hmem).1
    · exact hnot value (congrArg some (List.mem_singleton.mp hmem).symm)

/-- No error is a success. -/
theorem ApiError.intoResponse_isError (e : ApiError) :
    (e.intoResponse toVec).status.isError = true := by
  have hjson : ∀ body, (json toVec e.status body).status.isError = true := by
    intro body
    unfold json
    split
    · exact e.isError
    · rfl
  unfold intoResponse
  cases e.header with
  | none => exact hjson _
  | some header => exact hjson _

end Rsc.Mock

import Rsc.Mock.Config
import Rsc.Mock.Form
import Rsc.Mock.Response
import Rsc.Mock.Pkce

/-!
`rsc-mock/src/oauth/client_auth.rs`: client authentication at the token endpoint.
-/

namespace Rsc.Mock

open Rsc.Library Rsc.Library.Http Rsc.Mock.Pkce

/-- What the mock takes from its dependencies: the hash functions, the base64 of
`BASIC_BASE64`, `Url::parse(..).is_ok()` and `serde_json::to_vec`. -/
structure Deps extends Hashing where
  base64Decode : String → Option (List UInt8)
  urlParses : String → Bool
  toVec : ToVec

namespace ClientAuth

/-- `Method`: how the client presented its credentials. -/
inductive Method
  | basic
  | body
  deriving DecidableEq, Repr

structure Authenticated where
  client : RegisteredClient
  method : Method
  deriving DecidableEq

/-- `secrets_equal`: the digests are compared. -/
def secretsEqual (H : Hashing) (expected presented : String) : Bool :=
  H.sha256 (asBytes expected) == H.sha256 (asBytes presented)

/-- `basic_credentials`: the id and the secret of a single well-formed Basic header. -/
def basicCredentials (base64Decode : String → Option (List UInt8)) (headers : HeaderMap) :
    Option (String × String) :=
  match headers.getAll .authorization with
  | [value] => do
      let text ← value.toStr
      let (scheme, encoded) ← Text.splitOnce ' ' text
      guard (Text.eqIgnoreAsciiCase scheme "basic".toList)
      let decoded ← base64Decode (.ofList (Text.trim encoded))
      let decoded ← String.fromUTF8? ⟨decoded.toArray⟩
      let (clientId, clientSecret) ← Text.splitOnce ':' decoded.toList
      guard (clientId ≠ [] ∧ clientSecret ≠ [])
      return (.ofList clientId, .ofList clientSecret)
  | _ => none

/-- The credentials that `authenticate` goes by: a present `Authorization` header is the
attempt, whatever the body holds. -/
def presented (base64Decode : String → Option (List UInt8)) (headers : HeaderMap)
    (params : Params) : Except ApiError (Method × String × String) :=
  if headers.containsKey .authorization then
    match basicCredentials base64Decode headers with
    | none => throw .invalidClientCredentials
    | some (clientId, clientSecret) =>
        if params.contains "client_secret" then throw .invalidRequest
        -- An id in the body may only repeat the header's.
        else if (params.value "client_id").any (· != clientId) then throw .invalidClientCredentials
        else pure (.basic, clientId, clientSecret)
  else
    match params.value "client_id", params.value "client_secret" with
    | some clientId, some clientSecret => pure (.body, clientId, clientSecret)
    | _, _ => throw .invalidClientCredentials

/-- The client with this id, if the secret is its own. -/
def confirm (H : Hashing) (clients : List RegisteredClient) (method : Method)
    (clientId clientSecret : String) : Except ApiError Authenticated :=
  let client := clients.find? (·.clientId == clientId)
  -- The secret is compared even for an unknown client.
  let expected := client.elim "" (·.clientSecret)
  let secretMatches := secretsEqual H expected clientSecret
  match client with
  | some client => if secretMatches then pure ⟨client, method⟩ else throw .invalidClientCredentials
  | none => throw .invalidClientCredentials

/-- `authenticate`. -/
def authenticate (D : Deps) (clients : List RegisteredClient) (headers : HeaderMap)
    (params : Params) : Except ApiError Authenticated := do
  let (method, clientId, clientSecret) ← presented D.base64Decode headers params
  confirm D.toHashing clients method clientId clientSecret

/-- The body credentials of a client, without an `Authorization` header. -/
theorem authenticate_body {D : Deps} {clients : List RegisteredClient} {headers : HeaderMap}
    {params : Params} {client : RegisteredClient} (hheaders : headers.get .authorization = none)
    (hid : params.value "client_id" = some client.clientId)
    (hsecret : params.value "client_secret" = some client.clientSecret)
    (hclient : clients.find? (·.clientId == client.clientId) = some client) :
    authenticate D clients headers params = .ok ⟨client, .body⟩ := by
  have hpresented : presented D.base64Decode headers params =
      .ok (.body, client.clientId, client.clientSecret) := by
    rw [presented, HeaderMap.containsKey, hheaders, if_neg (by simp), hid, hsecret]
    rfl
  have hmatch : secretsEqual D.toHashing client.clientSecret client.clientSecret = true :=
    beq_self_eq_true _
  rw [authenticate, hpresented]
  show confirm D.toHashing clients .body client.clientId client.clientSecret = _
  simp [confirm, hclient, hmatch]
  rfl

end ClientAuth

end Rsc.Mock

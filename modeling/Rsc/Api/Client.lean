import Rsc.Auth.Client

/-!
`rsc/src/api/mod.rs`: the authenticated calls to the API, over the effects of an
`AuthManager` and of the HTTP client.
-/

namespace Rsc.Api

open Rsc.Library Rsc.Auth

/-- `ApiError`. -/
inductive ApiError
  | auth (err : AuthError)
  | status (status : UInt16) (body : String)
  | decode (message : String)
  | invalidPath (path : String)
  | transport (message : String)

/-- How a fetch ends: with a value, with an error, or by a panic. -/
inductive Fetched (α : Type)
  | ok (a : α)
  | err (e : ApiError)
  | panicked

/-- A `GET` request. -/
structure Request (U : Type) where
  url : U
  headers : List (String × String)

/-- What `url` and `reqwest` do before a request goes out: the URL of a reference, and the
error of a request that cannot be built. -/
structure Web (U : Type) where
  join : U → String → Option U
  build : Request U → Except String Unit

/-- URLs as texts, joined by writing them one after the other. -/
def plainWeb : Web String := ⟨fun base path => some (base ++ path), fun _ => .ok ()⟩

/-- The effects of a fetch: those of the manager, a request that goes out, the status that
comes back and the body that follows it. -/
inductive ApiOp (U : Type)
  | auth (op : Op)
  | get (request : Request U)
  | response
  | text

/-- The answers to the effects. -/
abbrev ApiAns {U : Type} : ApiOp U → Type
  | .auth op => Ans op
  | .get _ => Unit
  | .response => Except String UInt16
  | .text => Except String String

/-- An `async fn` of the client. -/
def Fetch (U α : Type) : Type := Prog (ApiAns (U := U)) (Fetched α)

namespace Fetch

variable {U α β : Type}

/-- `m.await?` followed by the rest of the function. -/
def bind (m : Fetch U α) (f : α → Fetch U β) : Fetch U β :=
  Prog.bind m fun
    | .ok a => f a
    | .err e => Prog.ret (.err e)
    | .panicked => Prog.ret .panicked

instance : Monad (Fetch U) where
  pure a := Prog.ret (.ok a)
  bind := bind

def fail (e : ApiError) : Fetch U α := Prog.ret (.err e)

/-- Await one effect and go on with its answer. -/
def await (op : ApiOp U) : Fetch U (ApiAns op) := Prog.perform op fun ans => Prog.ret (.ok ans)

/-- A call of the manager, with its error as an error of the API. -/
def ofAuth (call : Call α) : Fetch U α :=
  Prog.bind (Prog.embed ApiOp.auth call) fun
    | .ok a => Prog.ret (.ok a)
    | .err e => Prog.ret (.err (.auth e))
    | .panicked => Prog.ret .panicked

end Fetch

open Fetch

/-- `StatusCode::UNAUTHORIZED`. -/
def unauthorized : UInt16 := 401

variable {U α : Type}

/-- The request that `send` builds. -/
def authorized (url : U) (token : String) : Request U where
  url := url
  headers := [("authorization", "OAuth " ++ token), ("accept", "application/json; charset=utf-8")]

/-- `ApiClient::send`. -/
def send (web : Web U) (url : U) (token : String) : Fetch U UInt16 :=
  match web.build (authorized url token) with
  | .error err => fail (.transport err)
  | .ok () => do
      await (.get (authorized url token))
      match ← await .response with
      | .ok status => return status
      | .error err => fail (.transport err)

/-- The end of `get_json`: the body of the last response. -/
def readBody (fromStr : String → Except String α) (status : UInt16) : Fetch U α := do
  match ← await .text with
  | .error err => fail (.transport err)
  | .ok body =>
      if !isSuccess status then
        fail (.status status body)
      else
        match fromStr body with
        | .ok a => return a
        | .error err => fail (.decode err)

/-- `ApiClient::get_json`; `serde_json::from_str` at its type is a parameter. -/
def getJson (web : Web U) (overflowChecks : Bool) (fromStr : String → Except String α) (base : U)
    (pathAndQuery : String) : Fetch U α :=
  match web.join base pathAndQuery with
  | none => fail (.invalidPath pathAndQuery)
  | some url => do
      let token ← ofAuth (getValidToken overflowChecks)
      let status ← send web url token
      if status = unauthorized then
        let token ← ofAuth (refreshAfterUnauthorized overflowChecks token)
        let status ← send web url token
        if status = unauthorized then
          fail (.auth .sessionExpired)
        else
          readBody fromStr status
      else
        readBody fromStr status

end Rsc.Api

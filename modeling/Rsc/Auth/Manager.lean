import Rsc.Auth.Tokens
import Rsc.Library.Prog

/-!
`rsc/src/auth/manager.rs` and the requests of `rsc/src/auth/client.rs`: the calls of an
`AuthManager`, as programs over the effects they await. What the effects do (the token
file, the lock, the clock, the server) is left to the systems built on these programs.
-/

namespace Rsc.Auth

open Rsc.Library

/-- `TokenError`. -/
inductive TokenError
  | invalidGrant
  | invalidClient
  | status (code : UInt16)
  | badResponse (message : String)
  | transport (message : String)
  deriving DecidableEq

/-- `AuthError`. -/
inductive AuthError
  | notLoggedIn
  | sessionExpired
  | storage (message : String)
  | token (err : TokenError)
  deriving DecidableEq

/-- How a call ends: with a value, with an error, or by a panic. -/
inductive Outcome (α : Type)
  | ok (a : α)
  | err (e : AuthError)
  | panicked

/-- The two requests to the token endpoint, without the credentials of the client. -/
inductive TokenRequest
  | authorizationCode (code codeVerifier redirectUri : String)
  | refreshToken (refreshToken : String)
  deriving DecidableEq

/-- The effects of a call. A request is sent (`post`) and answered (`answer`) in two
steps; `overflow` is the panic of an addition over 64 bits. -/
inductive Op
  | load
  | save (tokens : Tokens)
  | now
  | lock
  | unlock
  | post (request : TokenRequest)
  | answer (request : TokenRequest)
  | overflow

/-- The answers to the effects. -/
abbrev Ans : Op → Type
  | .load => Except String (Option Tokens)
  | .save _ => Except String Unit
  | .now => UInt64
  | .answer _ => Except TokenError TokenResponse
  | .lock | .unlock | .post _ | .overflow => Unit

/-- An `async fn` of the manager. -/
def Call (α : Type) : Type := Prog Ans (Outcome α)

namespace Call

variable {α β : Type}

/-- `m.await?` followed by the rest of the function. -/
def bind (m : Call α) (f : α → Call β) : Call β :=
  Prog.bind m fun
    | .ok a => f a
    | .err e => Prog.ret (.err e)
    | .panicked => Prog.ret .panicked

instance : Monad Call where
  pure a := Prog.ret (.ok a)
  bind := bind

def fail (e : AuthError) : Call α := Prog.ret (.err e)

/-- Await one effect and go on with its answer. -/
def await (op : Op) : Call (Ans op) := Prog.perform op fun ans => Prog.ret (.ok ans)

/-- The addition that overflows. -/
def overflow : Call α := Prog.perform .overflow fun _ => Prog.ret .panicked

/-- Run `body` with the lock held. The guard is dropped on every way out. -/
def withLock (body : Call α) : Call α :=
  Prog.perform .lock fun _ =>
    Prog.bind body fun out => Prog.perform .unlock fun _ => Prog.ret out

end Call

open Call

/-- `AuthManager::load`. -/
def load : Call Tokens := do
  match ← await .load with
  | .ok (some tokens) => return tokens
  | .ok none => fail .notLoggedIn
  | .error err => fail (.storage err)

/-- `self.store.save(..).await.map_err(AuthError::Storage)`. -/
def save (tokens : Tokens) : Call Unit := do
  match ← await (.save tokens) with
  | .ok () => return ()
  | .error err => fail (.storage err)

/-- `TokenClient::token_request`. -/
def tokenRequest (request : TokenRequest) : Call (Except TokenError TokenResponse) := do
  await (.post request)
  await (.answer request)

section

variable (overflowChecks : Bool)

/-- `Tokens::from_response(response, self.clock.now())`. -/
def tokensFromResponse (response : TokenResponse) : Call Tokens := do
  match Tokens.fromResponse overflowChecks response (← await .now) with
  | some tokens => return tokens
  | none => overflow

/-- `AuthManager::refresh_if`. -/
def refreshIf (needsRefresh : Tokens → UInt64 → Bool) : Call String :=
  withLock do
    let stored ← load
    if !needsRefresh stored (← await .now) then
      return stored.accessToken
    match ← tokenRequest (.refreshToken stored.refreshToken) with
    | .error .invalidGrant => fail .sessionExpired
    | .error other => fail (.token other)
    | .ok response =>
        let fresh ← tokensFromResponse overflowChecks response
        save fresh
        return fresh.accessToken

/-- `AuthManager::get_valid_token`. -/
def getValidToken : Call String := do
  let tokens ← load
  if !tokens.isExpired (← await .now) then
    return tokens.accessToken
  refreshIf overflowChecks fun stored now => stored.isExpired now

/-- `AuthManager::refresh_after_unauthorized`. -/
def refreshAfterUnauthorized (rejected : String) : Call String :=
  refreshIf overflowChecks fun stored _ => stored.accessToken == rejected

/-- `AuthManager::complete_login`. -/
def completeLogin (code codeVerifier redirectUri : String) : Call Unit := do
  match ← tokenRequest (.authorizationCode code codeVerifier redirectUri) with
  | .error err => fail (.token err)
  | .ok response =>
      let tokens ← tokensFromResponse overflowChecks response
      save tokens

end

end Rsc.Auth

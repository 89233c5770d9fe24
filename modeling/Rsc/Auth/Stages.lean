import Rsc.Auth.Manager

/-!
The calls of an `AuthManager`, with what they have in hand. A `Stage` says how far a call
is, which tokens it works with and which token it will return; `Go` is what it may ask for,
and `Gives` and `Ends` are how it may end.
-/

namespace Rsc.Auth

open Rsc.Library

/-- How far a call is. A call for a token begins in `begins`, or in `waits` when its token
was rejected; a login begins in `exchanges`. -/
inductive Stage
  | begins
  | glanced (tokens : Tokens)
  | waits (needs : Tokens → UInt64 → Bool)
  | holds (needs : Tokens → UInt64 → Bool)
  | loaded (needs : Tokens → UInt64 → Bool) (tokens : Tokens)
  | keeps (tokens : Tokens)
  | posts (tokens : Tokens)
  | awaits (tokens : Tokens)
  | answered (tokens : Tokens) (response : TokenResponse)
  | overflows (tokens : Tokens) (response : TokenResponse)
  | stamped (tokens : Tokens) (response : TokenResponse) (fresh : Tokens)
  | saved (fresh : Tokens)
  | leaves
  | done (token : String)
  | failed
  | exchanges
  | exchanged (response : TokenResponse)
  | loginOverflows (response : TokenResponse)
  | loginStamped (response : TokenResponse) (fresh : Tokens)
  | loggedIn
  | abandoned

namespace Stage

/-- What a call may ask for, and where the answer takes it. -/
inductive Go : Prog.Protocol Ans Stage
  | glance {tokens : Tokens} : Go .begins .load (.ok (some tokens)) (.glanced tokens)
  | glanceMissing : Go .begins .load (.ok none) .failed
  | glanceError {err : String} : Go .begins .load (.error err) .failed
  | valid {tokens : Tokens} {t : UInt64} (h : tokens.isExpired t = false) :
      Go (.glanced tokens) .now t (.done tokens.accessToken)
  | expired {tokens : Tokens} {t : UInt64} (h : tokens.isExpired t = true) :
      Go (.glanced tokens) .now t (.waits fun stored now => stored.isExpired now)
  | lock {needs : Tokens → UInt64 → Bool} : Go (.waits needs) .lock () (.holds needs)
  | load {needs : Tokens → UInt64 → Bool} {tokens : Tokens} :
      Go (.holds needs) .load (.ok (some tokens)) (.loaded needs tokens)
  | loadMissing {needs : Tokens → UInt64 → Bool} : Go (.holds needs) .load (.ok none) .leaves
  | loadError {needs : Tokens → UInt64 → Bool} {err : String} :
      Go (.holds needs) .load (.error err) .leaves
  | fine {needs : Tokens → UInt64 → Bool} {tokens : Tokens} {t : UInt64}
      (h : needs tokens t = false) : Go (.loaded needs tokens) .now t (.keeps tokens)
  | needed {needs : Tokens → UInt64 → Bool} {tokens : Tokens} {t : UInt64}
      (h : needs tokens t = true) : Go (.loaded needs tokens) .now t (.posts tokens)
  | keep {tokens : Tokens} : Go (.keeps tokens) .unlock () (.done tokens.accessToken)
  | post {tokens : Tokens} :
      Go (.posts tokens) (.post (.refreshToken tokens.refreshToken)) () (.awaits tokens)
  | answer {tokens : Tokens} {response : TokenResponse} :
      Go (.awaits tokens) (.answer (.refreshToken tokens.refreshToken)) (.ok response)
        (.answered tokens response)
  | refused {tokens : Tokens} {err : TokenError} :
      Go (.awaits tokens) (.answer (.refreshToken tokens.refreshToken)) (.error err) .leaves
  | stamp {tokens fresh : Tokens} {response : TokenResponse} {t : UInt64}
      (h : fresh.accessToken = response.accessToken ∧ fresh.refreshToken = response.refreshToken) :
      Go (.answered tokens response) .now t (.stamped tokens response fresh)
  | overflow {tokens : Tokens} {response : TokenResponse} {t : UInt64} :
      Go (.answered tokens response) .now t (.overflows tokens response)
  | panic {tokens : Tokens} {response : TokenResponse} :
      Go (.overflows tokens response) .overflow () .leaves
  | save {tokens fresh : Tokens} {response : TokenResponse}
      (h : fresh.accessToken = response.accessToken ∧ fresh.refreshToken = response.refreshToken) :
      Go (.stamped tokens response fresh) (.save fresh) (.ok ()) (.saved fresh)
  | saveError {tokens fresh : Tokens} {response : TokenResponse} {err : String}
      (h : fresh.accessToken = response.accessToken ∧ fresh.refreshToken = response.refreshToken) :
      Go (.stamped tokens response fresh) (.save fresh) (.error err) .leaves
  | unlock {fresh : Tokens} : Go (.saved fresh) .unlock () (.done fresh.accessToken)
  | leave : Go .leaves .unlock () .failed
  | postCode {code codeVerifier redirectUri : String} :
      Go .exchanges (.post (.authorizationCode code codeVerifier redirectUri)) () .exchanges
  | exchange {code codeVerifier redirectUri : String} {response : TokenResponse} :
      Go .exchanges (.answer (.authorizationCode code codeVerifier redirectUri)) (.ok response)
        (.exchanged response)
  | refusedCode {code codeVerifier redirectUri : String} {err : TokenError} :
      Go .exchanges (.answer (.authorizationCode code codeVerifier redirectUri)) (.error err)
        .abandoned
  | stampLogin {response : TokenResponse} {t : UInt64} {fresh : Tokens}
      (h : fresh.accessToken = response.accessToken ∧ fresh.refreshToken = response.refreshToken) :
      Go (.exchanged response) .now t (.loginStamped response fresh)
  | overflowLogin {response : TokenResponse} {t : UInt64} :
      Go (.exchanged response) .now t (.loginOverflows response)
  | panicLogin {response : TokenResponse} : Go (.loginOverflows response) .overflow () .abandoned
  | saveLogin {response : TokenResponse} {fresh : Tokens}
      (h : fresh.accessToken = response.accessToken ∧ fresh.refreshToken = response.refreshToken) :
      Go (.loginStamped response fresh) (.save fresh) (.ok ()) .loggedIn
  | saveLoginError {response : TokenResponse} {fresh : Tokens} {err : String}
      (h : fresh.accessToken = response.accessToken ∧ fresh.refreshToken = response.refreshToken) :
      Go (.loginStamped response fresh) (.save fresh) (.error err) .abandoned

/-- A call for a token returns the token of its stage, or what failed. -/
def Gives : Stage → Outcome String → Prop
  | .done token, out => out = .ok token
  | .failed, .err _ | .failed, .panicked => True
  | _, _ => False

/-- A login returns nothing but that it succeeded, or what failed. -/
def Ends : Stage → Outcome Unit → Prop
  | .loggedIn, out => out = .ok ()
  | .abandoned, .err _ | .abandoned, .panicked => True
  | _, _ => False

end Stage

open Stage

theorem refreshIf_goes (overflowChecks : Bool) (needsRefresh : Tokens → UInt64 → Bool) :
    Prog.Follows Go Gives (.waits needsRefresh) (refreshIf overflowChecks needsRefresh) := by
  refine fun _ => ⟨_, .lock, fun stored => ?_⟩
  match stored with
  | .error _ => exact ⟨_, .loadError, fun _ => ⟨_, .leave, trivial⟩⟩
  | .ok none => exact ⟨_, .loadMissing, fun _ => ⟨_, .leave, trivial⟩⟩
  | .ok (some tokens) =>
    refine ⟨_, .load, fun now => ?_⟩
    cases hneeds : needsRefresh tokens now with
    | false =>
      refine ⟨_, .fine hneeds, ?_⟩
      simp only [Prog.ret_bind, hneeds, Bool.not_false, if_true]
      exact fun _ => ⟨_, .keep, rfl⟩
    | true =>
      refine ⟨_, .needed hneeds, ?_⟩
      simp only [Prog.ret_bind, hneeds, Bool.not_true, Bool.false_eq_true, if_false]
      refine fun _ => ⟨_, .post, fun answer => ?_⟩
      match answer with
      | .error err =>
        refine ⟨_, .refused, ?_⟩
        cases err <;> exact fun _ => ⟨_, .leave, trivial⟩
      | .ok response =>
        refine ⟨_, .answer, fun now => ?_⟩
        cases hfresh : Tokens.fromResponse overflowChecks response now with
        | none =>
          refine ⟨_, .overflow, ?_⟩
          simp only [Prog.ret_bind, hfresh]
          exact fun _ => ⟨_, .panic, fun _ => ⟨_, .leave, trivial⟩⟩
        | some fresh =>
          have hcarries := Tokens.fromResponse_eq_some hfresh
          refine ⟨_, .stamp hcarries, ?_⟩
          simp only [Prog.ret_bind, hfresh]
          intro saved
          match saved with
          | .error _ => exact ⟨_, .saveError hcarries, fun _ => ⟨_, .leave, trivial⟩⟩
          | .ok () => exact ⟨_, .save hcarries, fun _ => ⟨_, .unlock, rfl⟩⟩

theorem getValidToken_goes (overflowChecks : Bool) :
    Prog.Follows Go Gives .begins (getValidToken overflowChecks) := by
  intro stored
  match stored with
  | .error _ => exact ⟨_, .glanceError, trivial⟩
  | .ok none => exact ⟨_, .glanceMissing, trivial⟩
  | .ok (some tokens) =>
    refine ⟨_, .glance, fun now => ?_⟩
    cases hexpired : tokens.isExpired now with
    | false =>
      refine ⟨_, .valid hexpired, ?_⟩
      simp only [Prog.ret_bind, hexpired, Bool.not_false, if_true]
      exact rfl
    | true =>
      refine ⟨_, .expired hexpired, ?_⟩
      simp only [Prog.ret_bind, hexpired, Bool.not_true, Bool.false_eq_true, if_false]
      exact refreshIf_goes overflowChecks _

theorem refreshAfterUnauthorized_goes (overflowChecks : Bool) (rejected : String) :
    Prog.Follows Go Gives (.waits fun stored _ => stored.accessToken == rejected)
      (refreshAfterUnauthorized overflowChecks rejected) :=
  refreshIf_goes overflowChecks _

theorem completeLogin_goes (overflowChecks : Bool) (code codeVerifier redirectUri : String) :
    Prog.Follows Go Ends .exchanges
      (completeLogin overflowChecks code codeVerifier redirectUri) := by
  refine fun _ => ⟨_, .postCode, fun answer => ?_⟩
  match answer with
  | .error _ => exact ⟨_, .refusedCode, trivial⟩
  | .ok response =>
    refine ⟨_, .exchange, fun now => ?_⟩
    cases hfresh : Tokens.fromResponse overflowChecks response now with
    | none =>
      refine ⟨_, .overflowLogin, ?_⟩
      simp only [Prog.ret_bind, hfresh]
      exact fun _ => ⟨_, .panicLogin, trivial⟩
    | some fresh =>
      have hcarries := Tokens.fromResponse_eq_some hfresh
      refine ⟨_, .stampLogin hcarries, ?_⟩
      simp only [Prog.ret_bind, hfresh]
      intro saved
      match saved with
      | .error _ => exact ⟨_, .saveLoginError hcarries, trivial⟩
      | .ok () => exact ⟨_, .saveLogin hcarries, rfl⟩

end Rsc.Auth

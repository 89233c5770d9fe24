import Rsc.Auth.Stages

/-!
The protocol of the calls of an `AuthManager`. `Phase` is how far a call is, `Move` what
it may ask for, and `Returns` how it may end; `getValidToken`, `refreshAfterUnauthorized`
and `completeLogin` follow it whatever answers they get. A phase is what is left of a
`Stage` when the token that the call returns does not matter.
-/

namespace Rsc.Auth

open Rsc.Library

/-- How far a call is. A refresh goes from `outside` to `settled`, or to `leaving` when
something fails under the lock; a login starts in `exchanging`. -/
inductive Phase
  | outside
  | locked
  | loaded (tokens : Tokens)
  | sent (tokens : Tokens)
  | rotated (tokens : Tokens) (response : TokenResponse)
  | settled
  | leaving
  | failed
  | exchanging
  | exchanged (response : TokenResponse)
  | loggedIn
  | abandoned

namespace Phase

/-- The tokens carry the pair of the response. -/
def Carries (tokens : Tokens) (response : TokenResponse) : Prop :=
  tokens.accessToken = response.accessToken ∧ tokens.refreshToken = response.refreshToken

instance (tokens : Tokens) (response : TokenResponse) : Decidable (Carries tokens response) :=
  inferInstanceAs (Decidable (_ ∧ _))

/-- What a call may ask for, and where the answer takes it. -/
inductive Move : Prog.Protocol Ans Phase
  | glance {tokens : Tokens} : Move .outside .load (.ok (some tokens)) .outside
  | glanceMissing : Move .outside .load (.ok none) .failed
  | glanceError {err : String} : Move .outside .load (.error err) .failed
  | glanceNow {t : UInt64} : Move .outside .now t .outside
  | lock : Move .outside .lock () .locked
  | load {tokens : Tokens} : Move .locked .load (.ok (some tokens)) (.loaded tokens)
  | loadMissing : Move .locked .load (.ok none) .leaving
  | loadError {err : String} : Move .locked .load (.error err) .leaving
  | check {tokens : Tokens} {t : UInt64} : Move (.loaded tokens) .now t (.loaded tokens)
  | keep {tokens : Tokens} : Move (.loaded tokens) .unlock () .outside
  | post {tokens : Tokens} :
      Move (.loaded tokens) (.post (.refreshToken tokens.refreshToken)) () (.sent tokens)
  | rotate {tokens : Tokens} {response : TokenResponse} :
      Move (.sent tokens) (.answer (.refreshToken tokens.refreshToken)) (.ok response)
        (.rotated tokens response)
  | refused {tokens : Tokens} {err : TokenError} :
      Move (.sent tokens) (.answer (.refreshToken tokens.refreshToken)) (.error err) .leaving
  | stamp {tokens : Tokens} {response : TokenResponse} {t : UInt64} :
      Move (.rotated tokens response) .now t (.rotated tokens response)
  | overflow {tokens : Tokens} {response : TokenResponse} :
      Move (.rotated tokens response) .overflow () .leaving
  | save {tokens fresh : Tokens} {response : TokenResponse} (h : Carries fresh response) :
      Move (.rotated tokens response) (.save fresh) (.ok ()) .settled
  | saveError {tokens fresh : Tokens} {response : TokenResponse} {err : String}
      (h : Carries fresh response) :
      Move (.rotated tokens response) (.save fresh) (.error err) .leaving
  | unlock : Move .settled .unlock () .outside
  | leave : Move .leaving .unlock () .failed
  | postCode {code codeVerifier redirectUri : String} :
      Move .exchanging (.post (.authorizationCode code codeVerifier redirectUri)) () .exchanging
  | exchange {code codeVerifier redirectUri : String} {response : TokenResponse} :
      Move .exchanging (.answer (.authorizationCode code codeVerifier redirectUri)) (.ok response)
        (.exchanged response)
  | refusedCode {code codeVerifier redirectUri : String} {err : TokenError} :
      Move .exchanging (.answer (.authorizationCode code codeVerifier redirectUri)) (.error err)
        .abandoned
  | stampLogin {response : TokenResponse} {t : UInt64} :
      Move (.exchanged response) .now t (.exchanged response)
  | overflowLogin {response : TokenResponse} : Move (.exchanged response) .overflow () .abandoned
  | saveLogin {tokens : Tokens} {response : TokenResponse} (h : Carries tokens response) :
      Move (.exchanged response) (.save tokens) (.ok ()) .loggedIn
  | saveLoginError {tokens : Tokens} {response : TokenResponse} {err : String}
      (h : Carries tokens response) : Move (.exchanged response) (.save tokens) (.error err) .abandoned

/-- A call ends without the lock, with a value when nothing failed. -/
def Returns {α : Type} : Phase → Outcome α → Prop
  | .outside, .ok _ => True
  | .loggedIn, .ok _ => True
  | .failed, .err _ => True
  | .failed, .panicked => True
  | .abandoned, .err _ => True
  | .abandoned, .panicked => True
  | _, _ => False

/-- A call leaves its refresh only by dropping the lock. -/
theorem Move.ne_outside {p p' : Phase} {op : Op} {ans : Ans op} (h : Move p op ans p')
    (hp : p ≠ .outside) (hop : op ≠ .unlock) : p' ≠ .outside := by
  cases h <;> first | contradiction | nofun

end Phase

open Phase

/-- The phase of a stage. -/
def phase : Stage → Phase
  | .begins | .glanced _ | .waits _ | .done _ => .outside
  | .holds _ => .locked
  | .loaded _ tokens | .keeps tokens | .posts tokens => .loaded tokens
  | .awaits tokens => .sent tokens
  | .answered tokens response | .overflows tokens response | .stamped tokens response _ =>
      .rotated tokens response
  | .saved _ => .settled
  | .leaves => .leaving
  | .failed => .failed
  | .exchanges => .exchanging
  | .exchanged response | .loginOverflows response | .loginStamped response _ => .exchanged response
  | .loggedIn => .loggedIn
  | .abandoned => .abandoned

theorem phase_move {s s' : Stage} {op : Op} {ans : Ans op} (h : Stage.Go s op ans s') :
    Move (phase s) op ans (phase s') := by
  cases h with
  | save hcarries => exact .save hcarries
  | saveError hcarries => exact .saveError hcarries
  | saveLogin hcarries => exact .saveLogin hcarries
  | saveLoginError hcarries => exact .saveLoginError hcarries
  | _ => constructor

theorem phase_gives {s : Stage} {out : Outcome String} (h : Stage.Gives s out) :
    Returns (phase s) out := by
  cases s with
  | done token =>
    obtain rfl : out = .ok token := h
    trivial
  | failed => cases out <;> exact h
  | _ => exact h.elim

theorem phase_ends {s : Stage} {out : Outcome Unit} (h : Stage.Ends s out) :
    Returns (phase s) out := by
  cases s with
  | loggedIn =>
    obtain rfl : out = .ok () := h
    trivial
  | abandoned => cases out <;> exact h
  | _ => exact h.elim

theorem refreshIf_follows (overflowChecks : Bool) (needsRefresh : Tokens → UInt64 → Bool) :
    Prog.Follows Move Returns .outside (refreshIf overflowChecks needsRefresh) :=
  (refreshIf_goes overflowChecks needsRefresh).map phase phase_move phase_gives

theorem getValidToken_follows (overflowChecks : Bool) :
    Prog.Follows Move Returns .outside (getValidToken overflowChecks) :=
  (getValidToken_goes overflowChecks).map phase phase_move phase_gives

theorem completeLogin_follows (overflowChecks : Bool) (code codeVerifier redirectUri : String) :
    Prog.Follows Move Returns .exchanging
      (completeLogin overflowChecks code codeVerifier redirectUri) :=
  (completeLogin_goes overflowChecks code codeVerifier redirectUri).map phase phase_move phase_ends

/-- The calls that need a valid token. -/
def TokenCall (overflowChecks : Bool) (call : Call String) : Prop :=
  call = getValidToken overflowChecks ∨
    ∃ rejected, call = refreshAfterUnauthorized overflowChecks rejected

theorem TokenCall.follows {overflowChecks : Bool} {call : Call String}
    (h : TokenCall overflowChecks call) : Prog.Follows Move Returns .outside call := by
  obtain rfl | ⟨rejected, rfl⟩ := h
  · exact getValidToken_follows overflowChecks
  · exact refreshIf_follows overflowChecks _

/-! ## The length of a call -/

theorem refreshIf_within (overflowChecks : Bool) (needsRefresh : Tokens → UInt64 → Bool) :
    Prog.Within (refreshIf overflowChecks needsRefresh) 8 := by
  intro _ stored
  match stored with
  | .error _ => exact fun _ => trivial
  | .ok none => exact fun _ => trivial
  | .ok (some tokens) =>
    intro now
    cases hneeds : needsRefresh tokens now with
    | false =>
      simp only [Prog.ret_bind, hneeds, Bool.not_false, if_true]
      exact fun _ => trivial
    | true =>
      simp only [Prog.ret_bind, hneeds, Bool.not_true, Bool.false_eq_true, if_false]
      intro _ answer
      match answer with
      | .error e => cases e <;> exact fun _ => trivial
      | .ok response =>
        intro now
        cases hfresh : Tokens.fromResponse overflowChecks response now with
        | none =>
          simp only [Prog.ret_bind, hfresh]
          exact fun _ _ => trivial
        | some fresh =>
          simp only [Prog.ret_bind, hfresh]
          intro saved
          match saved with
          | .error _ => exact fun _ => trivial
          | .ok () => exact fun _ => trivial

theorem getValidToken_within (overflowChecks : Bool) :
    Prog.Within (getValidToken overflowChecks) 10 := by
  intro stored
  match stored with
  | .error _ => exact trivial
  | .ok none => exact trivial
  | .ok (some tokens) =>
    intro now
    cases hexpired : tokens.isExpired now with
    | false =>
      simp only [Prog.ret_bind, hexpired, Bool.not_false, if_true]
      exact trivial
    | true =>
      simp only [Prog.ret_bind, hexpired, Bool.not_true, Bool.false_eq_true, if_false]
      exact refreshIf_within overflowChecks _

theorem TokenCall.within {overflowChecks : Bool} {call : Call String}
    (h : TokenCall overflowChecks call) : Prog.Within call 10 := by
  obtain rfl | ⟨rejected, rfl⟩ := h
  · exact getValidToken_within overflowChecks
  · exact (refreshIf_within overflowChecks _).mono (by decide)

/-- Two calls: the access token was rejected, or may have expired. -/
def twoCalls : Bool → Call String
  | true => refreshAfterUnauthorized true "access"
  | false => getValidToken true

end Rsc.Auth

import Rsc.Auth.Manager

/-!
The ways through the calls of an `AuthManager`: everything that a call asks for and gets, from
its first effect to its outcome. A run of a call is one of its ways.
-/

namespace Rsc.Auth

open Rsc.Library

/-- The outcome with another value. -/
def Outcome.map {α β : Type} (f : α → β) : Outcome α → Outcome β
  | .ok a => .ok (f a)
  | .err e => .err e
  | .panicked => .panicked

/-- The error of a refused refresh. -/
def refusal : TokenError → AuthError
  | .invalidGrant => .sessionExpired
  | other => .token other

/-- From the response of the server to the stored tokens. -/
inductive StoreWay (overflowChecks : Bool) (response : TokenResponse) :
    List (Sigma Ans) → Outcome Tokens → Prop
  | overflowed {t : UInt64} (h : Tokens.fromResponse overflowChecks response t = none) :
      StoreWay overflowChecks response [⟨.now, t⟩, ⟨.overflow, ()⟩] .panicked
  | unsaved {t : UInt64} {fresh : Tokens} {err : String}
      (h : Tokens.fromResponse overflowChecks response t = some fresh) :
      StoreWay overflowChecks response [⟨.now, t⟩, ⟨.save fresh, .error err⟩] (.err (.storage err))
  | saved {t : UInt64} {fresh : Tokens}
      (h : Tokens.fromResponse overflowChecks response t = some fresh) :
      StoreWay overflowChecks response [⟨.now, t⟩, ⟨.save fresh, .ok ()⟩] (.ok fresh)

/-- The ways through `refresh_if` under the lock. -/
inductive LockedWay (overflowChecks : Bool) (needs : Tokens → UInt64 → Bool) :
    List (Sigma Ans) → Outcome String → Prop
  | missing : LockedWay overflowChecks needs [⟨.load, .ok none⟩] (.err .notLoggedIn)
  | unreadable {err : String} :
      LockedWay overflowChecks needs [⟨.load, .error err⟩] (.err (.storage err))
  | fine {tokens : Tokens} {t : UInt64} (h : needs tokens t = false) :
      LockedWay overflowChecks needs [⟨.load, .ok (some tokens)⟩, ⟨.now, t⟩]
        (.ok tokens.accessToken)
  | refused {tokens : Tokens} {t : UInt64} {err : TokenError} (h : needs tokens t = true) :
      LockedWay overflowChecks needs
        [⟨.load, .ok (some tokens)⟩, ⟨.now, t⟩, ⟨.post (.refreshToken tokens.refreshToken), ()⟩,
          ⟨.answer (.refreshToken tokens.refreshToken), .error err⟩] (.err (refusal err))
  | answered {tokens : Tokens} {t : UInt64} {response : TokenResponse} {tr : List (Sigma Ans)}
      {out : Outcome Tokens} (h : needs tokens t = true)
      (hstore : StoreWay overflowChecks response tr out) :
      LockedWay overflowChecks needs
        (⟨.load, .ok (some tokens)⟩ :: ⟨.now, t⟩ ::
          ⟨.post (.refreshToken tokens.refreshToken), ()⟩ ::
          ⟨.answer (.refreshToken tokens.refreshToken), .ok response⟩ :: tr)
        (out.map (·.accessToken))

/-- The ways through `refresh_if`. -/
inductive RefreshWay (overflowChecks : Bool) (needs : Tokens → UInt64 → Bool) :
    List (Sigma Ans) → Outcome String → Prop
  | locked {tr : List (Sigma Ans)} {out : Outcome String}
      (h : LockedWay overflowChecks needs tr out) :
      RefreshWay overflowChecks needs (⟨.lock, ()⟩ :: tr ++ [⟨.unlock, ()⟩]) out

/-- The ways through `get_valid_token`. -/
inductive ValidWay (overflowChecks : Bool) : List (Sigma Ans) → Outcome String → Prop
  | missing : ValidWay overflowChecks [⟨.load, .ok none⟩] (.err .notLoggedIn)
  | unreadable {err : String} :
      ValidWay overflowChecks [⟨.load, .error err⟩] (.err (.storage err))
  | valid {tokens : Tokens} {t : UInt64} (h : tokens.isExpired t = false) :
      ValidWay overflowChecks [⟨.load, .ok (some tokens)⟩, ⟨.now, t⟩] (.ok tokens.accessToken)
  | expired {tokens : Tokens} {t : UInt64} {tr : List (Sigma Ans)} {out : Outcome String}
      (h : tokens.isExpired t = true)
      (hrefresh : RefreshWay overflowChecks (fun stored now => stored.isExpired now) tr out) :
      ValidWay overflowChecks (⟨.load, .ok (some tokens)⟩ :: ⟨.now, t⟩ :: tr) out

/-- The ways through `complete_login`. -/
inductive LoginWay (overflowChecks : Bool) (request : TokenRequest) :
    List (Sigma Ans) → Outcome Unit → Prop
  | refused {err : TokenError} :
      LoginWay overflowChecks request [⟨.post request, ()⟩, ⟨.answer request, .error err⟩]
        (.err (.token err))
  | answered {response : TokenResponse} {tr : List (Sigma Ans)} {out : Outcome Tokens}
      (hstore : StoreWay overflowChecks response tr out) :
      LoginWay overflowChecks request
        (⟨.post request, ()⟩ :: ⟨.answer request, .ok response⟩ :: tr) (out.map fun _ => ())

variable {ok : (op : Op) → Ans op → Prop} {overflowChecks : Bool} {tr : List (Sigma Ans)}

/-- The save with which a call ends. -/
theorem saved_of_exec {α : Type} {fresh : Tokens} {a : α} {out : Outcome α}
    {k : Except String Unit → Prog Ans (Outcome α)}
    (herror : ∀ err, k (.error err) = .ret (.err (.storage err))) (hok : k (.ok ()) = .ret (.ok a))
    (h : Prog.Exec ok (.perform (.save fresh) k) tr out) :
    (∃ err, tr = [⟨.save fresh, .error err⟩] ∧ out = .err (.storage err)) ∨
      tr = [⟨.save fresh, .ok ()⟩] ∧ out = .ok a := by
  obtain ⟨saved, _, rfl, hend⟩ := h.perform_inv
  cases saved with
  | error err =>
    rw [herror] at hend
    obtain ⟨rfl, rfl⟩ := hend.ret_inv
    exact .inl ⟨err, rfl, rfl⟩
  | ok _ =>
    rw [hok] at hend
    obtain ⟨rfl, rfl⟩ := hend.ret_inv
    exact .inr ⟨rfl, rfl⟩

/-- The end of a refresh and of a login: the tokens are saved, and then the call returns. -/
theorem storeWay_of_exec {α : Type} {response : TokenResponse} {finish : Tokens → Call α}
    {f : Tokens → α} {out : Outcome α}
    (hfinish : ∀ fresh tr out, Prog.Exec ok (finish fresh) tr out →
      (∃ err, tr = [⟨.save fresh, .error err⟩] ∧ out = .err (.storage err)) ∨
        tr = [⟨.save fresh, .ok ()⟩] ∧ out = .ok (f fresh))
    (h : Prog.Exec ok (do
      let fresh ← tokensFromResponse overflowChecks response
      finish fresh : Call α) tr out) :
    ∃ stored, StoreWay overflowChecks response tr stored ∧ out = stored.map f := by
  obtain ⟨t, _, rfl, hstamp⟩ := h.perform_inv
  cases hfresh : Tokens.fromResponse overflowChecks response t with
  | none =>
    simp only [Prog.ret_bind, hfresh] at hstamp
    obtain ⟨_, _, rfl, hpanic⟩ := hstamp.perform_inv
    obtain ⟨rfl, rfl⟩ := hpanic.ret_inv
    exact ⟨_, .overflowed hfresh, rfl⟩
  | some fresh =>
    simp only [Prog.ret_bind, hfresh] at hstamp
    rcases hfinish fresh _ _ hstamp with ⟨err, rfl, rfl⟩ | ⟨rfl, rfl⟩
    · exact ⟨_, .unsaved hfresh, rfl⟩
    · exact ⟨_, .saved hfresh, rfl⟩

theorem refreshWay_of_exec {needs : Tokens → UInt64 → Bool} {out : Outcome String}
    (h : Prog.Exec ok (refreshIf overflowChecks needs) tr out) :
    RefreshWay overflowChecks needs tr out := by
  obtain ⟨_, _, rfl, hlocked⟩ := h.perform_inv
  obtain ⟨tr, inner, after, rfl, hinner, hafter⟩ := hlocked.bind_inv
  obtain ⟨_, _, rfl, hunlock⟩ := hafter.perform_inv
  obtain ⟨rfl, rfl⟩ := hunlock.ret_inv
  refine .locked ?_
  obtain ⟨stored, _, rfl, hload⟩ := hinner.perform_inv
  match stored with
  | .error err =>
    obtain ⟨rfl, rfl⟩ := hload.ret_inv
    exact .unreadable
  | .ok none =>
    obtain ⟨rfl, rfl⟩ := hload.ret_inv
    exact .missing
  | .ok (some tokens) =>
    obtain ⟨t, _, rfl, hnow⟩ := hload.perform_inv
    cases hneeds : needs tokens t with
    | false =>
      simp only [Prog.ret_bind, hneeds, Bool.not_false, if_true] at hnow
      obtain ⟨rfl, rfl⟩ := hnow.ret_inv
      exact .fine hneeds
    | true =>
      simp only [Prog.ret_bind, hneeds, Bool.not_true, Bool.false_eq_true, if_false] at hnow
      obtain ⟨_, _, rfl, hpost⟩ := hnow.perform_inv
      obtain ⟨answer, _, rfl, hanswer⟩ := hpost.perform_inv
      cases answer with
      | error err =>
        cases err <;>
        · obtain ⟨rfl, rfl⟩ := hanswer.ret_inv
          exact .refused hneeds
      | ok response =>
        obtain ⟨stored, hstore, rfl⟩ :=
          storeWay_of_exec (fun _ _ _ => saved_of_exec (fun _ => rfl) rfl) hanswer
        exact .answered hneeds hstore

theorem validWay_of_exec {out : Outcome String}
    (h : Prog.Exec ok (getValidToken overflowChecks) tr out) : ValidWay overflowChecks tr out := by
  obtain ⟨stored, _, rfl, hload⟩ := h.perform_inv
  match stored with
  | .error err =>
    obtain ⟨rfl, rfl⟩ := hload.ret_inv
    exact .unreadable
  | .ok none =>
    obtain ⟨rfl, rfl⟩ := hload.ret_inv
    exact .missing
  | .ok (some tokens) =>
    obtain ⟨t, _, rfl, hnow⟩ := hload.perform_inv
    cases hexpired : tokens.isExpired t with
    | false =>
      simp only [Prog.ret_bind, hexpired, Bool.not_false, if_true] at hnow
      obtain ⟨rfl, rfl⟩ := hnow.ret_inv
      exact .valid hexpired
    | true =>
      simp only [Prog.ret_bind, hexpired, Bool.not_true, Bool.false_eq_true, if_false] at hnow
      exact .expired hexpired (refreshWay_of_exec hnow)

theorem loginWay_of_exec {code codeVerifier redirectUri : String} {out : Outcome Unit}
    (h : Prog.Exec ok (completeLogin overflowChecks code codeVerifier redirectUri) tr out) :
    LoginWay overflowChecks (.authorizationCode code codeVerifier redirectUri) tr out := by
  obtain ⟨_, _, rfl, hpost⟩ := h.perform_inv
  obtain ⟨answer, _, rfl, hanswer⟩ := hpost.perform_inv
  cases answer with
  | error err =>
    obtain ⟨rfl, rfl⟩ := hanswer.ret_inv
    exact .refused
  | ok response =>
    obtain ⟨stored, hstore, rfl⟩ :=
      storeWay_of_exec (fun _ _ _ => saved_of_exec (fun _ => rfl) rfl) hanswer
    exact .answered hstore

end Rsc.Auth

import Rsc.Auth.Ways

/-!
The expiry of fresh tokens. The lifetime is any number of 64 bits that the server sends; only
the subtraction of the margin is guarded, the addition of the clock is not.
-/

namespace Rsc.Auth

open Rsc.Library

variable {overflowChecks : Bool} {response : TokenResponse} {now : UInt64} {tokens : Tokens}

/-- The clock and the lifetime without the margin fit 64 bits together. -/
def ExpiryFits (response : TokenResponse) (now : UInt64) : Prop :=
  now.toNat + (response.expiresIn.toNat - 60) < UInt64.size

instance (response : TokenResponse) (now : UInt64) : Decidable (ExpiryFits response now) :=
  inferInstanceAs (Decidable (_ < _))

/-- The expiry is the exact sum, and a response that lives longer than the margin is not expired
when it comes. -/
def StampsExactly (overflowChecks : Bool) (response : TokenResponse) (now : UInt64) : Prop :=
  ∃ tokens, Tokens.fromResponse overflowChecks response now = some tokens ∧
    tokens.expiresAt.toNat = now.toNat + (response.expiresIn.toNat - 60) ∧
    (60 < response.expiresIn.toNat → tokens.isExpired now = false)

/-- The answer of the server came, and the clock was read for its expiry. -/
def Receives (tr : List (Sigma Ans)) (response : TokenResponse) (now : UInt64) : Prop :=
  ∃ request, [⟨.answer request, .ok response⟩, ⟨.now, now⟩] <:+: tr

/-- The call did not panic, and the tokens it saved expire no earlier than now. -/
def SavesAlive (now : UInt64) (tr : List (Sigma Ans)) {α : Type} (out : Outcome α) : Prop :=
  out ≠ .panicked ∧ ∀ tokens saved, ⟨.save tokens, saved⟩ ∈ tr → now ≤ tokens.expiresAt

/-! ## The sum -/

theorem toNat_lifetime (response : TokenResponse) :
    (saturatingSub response.expiresIn expiryMarginSecs).toNat = response.expiresIn.toNat - 60 :=
  toNat_saturatingSub _ _

theorem fromResponse_eq_none : Tokens.fromResponse overflowChecks response now = none ↔
    overflowChecks = true ∧ ¬ ExpiryFits response now := by
  rw [Tokens.fromResponse, ExpiryFits, Nat.not_lt, ← toNat_lifetime]
  split
  · next h => exact iff_of_true rfl h
  · next h => exact iff_of_false (Option.some_ne_none _) h

/-- Without overflow the expiry is the sum. -/
theorem expiresAt_of_fits (hfits : ExpiryFits response now)
    (h : Tokens.fromResponse overflowChecks response now = some tokens) :
    tokens.expiresAt.toNat = now.toNat + (response.expiresIn.toNat - 60) := by
  apply Tokens.toNat_expiresAt _ h
  rw [toNat_lifetime]
  exact hfits

/-- A sum that wraps around is in the past. -/
theorem expiresAt_lt_now (hfits : ¬ ExpiryFits response now)
    (h : Tokens.fromResponse overflowChecks response now = some tokens) :
    tokens.expiresAt < now := by
  rw [ExpiryFits, ← toNat_lifetime] at hfits
  rw [Tokens.fromResponse] at h
  split at h
  · cases h
  · cases h
    have hnow := now.toNat_lt_size
    have hlifetime := (saturatingSub response.expiresIn expiryMarginSecs).toNat_lt_size
    have hsize : UInt64.size = 2 ^ 64 := rfl
    rw [UInt64.lt_iff_toNat_lt, UInt64.toNat_add]
    omega

theorem now_le_expiresAt_iff (h : Tokens.fromResponse overflowChecks response now = some tokens) :
    now ≤ tokens.expiresAt ↔ ExpiryFits response now := by
  rw [UInt64.le_iff_toNat_le]
  constructor
  · intro hle
    by_contra hfits
    exact absurd (expiresAt_lt_now hfits h) (by rw [UInt64.lt_iff_toNat_lt]; omega)
  · intro hfits
    rw [expiresAt_of_fits hfits h]
    omega

theorem stampsExactly_iff : StampsExactly overflowChecks response now ↔ ExpiryFits response now := by
  constructor
  · rintro ⟨tokens, -, hexpires, -⟩
    rw [ExpiryFits, ← hexpires]
    exact tokens.expiresAt.toNat_lt_size
  · intro hfits
    unfold StampsExactly
    cases h : Tokens.fromResponse overflowChecks response now with
    | none => exact absurd hfits (fromResponse_eq_none.mp h).2
    | some tokens =>
      have hexpires := expiresAt_of_fits hfits h
      refine ⟨tokens, rfl, hexpires, fun hlong => ?_⟩
      rw [Tokens.isExpired, decide_eq_false_iff_not, UInt64.le_iff_toNat_le]
      omega

/-! ## The refresh -/

/-- From the response on, a call goes well exactly when the sum fits. -/
theorem StoreWay.savesAlive {α : Type} {f : Tokens → α} {tr : List (Sigma Ans)}
    {out : Outcome Tokens} (h : StoreWay overflowChecks response (⟨.now, now⟩ :: tr) out) :
    SavesAlive now (⟨.now, now⟩ :: tr) (out.map f) ↔ ExpiryFits response now := by
  cases h with
  | overflowed h => exact iff_of_false (fun halive => halive.1 rfl) (fromResponse_eq_none.mp h).2
  | unsaved h | saved h =>
    rw [← now_le_expiresAt_iff h]
    simp [SavesAlive, Outcome.map]

/-- The part of a refresh after its answer saves all that the refresh saves. -/
theorem RefreshWay.stored {needs : Tokens → UInt64 → Bool} {tr : List (Sigma Ans)}
    {out : Outcome String} (h : RefreshWay overflowChecks needs tr out)
    (hreceives : Receives tr response now) :
    ∃ rest stored, StoreWay overflowChecks response (⟨.now, now⟩ :: rest) stored ∧
      out = stored.map (·.accessToken) ∧
      ∀ tokens saved, (⟨.save tokens, saved⟩ : Sigma Ans) ∈ tr ↔
        ⟨.save tokens, saved⟩ ∈ (⟨.now, now⟩ :: rest : List (Sigma Ans)) := by
  obtain ⟨request, hinfix⟩ := hreceives
  cases h with
  | locked h =>
    cases h with
    | missing | unreadable | fine | refused => simp [List.infix_cons_iff] at hinfix
    | @answered _ _ response' _ _ _ hstore =>
      -- the answer of the run is the only one in it
      cases hstore with
      | @overflowed t h =>
        obtain ⟨⟨-, rfl⟩, rfl⟩ : (_ ∧ response = response') ∧ now = t := by
          simpa [List.infix_cons_iff] using hinfix
        exact ⟨_, _, .overflowed h, rfl, by simp⟩
      | @unsaved t _ _ h =>
        obtain ⟨⟨-, rfl⟩, rfl⟩ : (_ ∧ response = response') ∧ now = t := by
          simpa [List.infix_cons_iff] using hinfix
        exact ⟨_, _, .unsaved h, rfl, by simp⟩
      | @saved t _ h =>
        obtain ⟨⟨-, rfl⟩, rfl⟩ : (_ ∧ response = response') ∧ now = t := by
          simpa [List.infix_cons_iff] using hinfix
        exact ⟨_, _, .saved h, rfl, by simp⟩

theorem refreshIf_savesAlive {ok : (op : Op) → Ans op → Prop} {needs : Tokens → UInt64 → Bool}
    {tr : List (Sigma Ans)} {out : Outcome String}
    (hexec : Prog.Exec ok (refreshIf overflowChecks needs) tr out)
    (hreceives : Receives tr response now) :
    SavesAlive now tr out ↔ ExpiryFits response now := by
  obtain ⟨rest, stored, hstore, rfl, hsaves⟩ := (refreshWay_of_exec hexec).stored hreceives
  rw [← hstore.savesAlive]
  exact and_congr_right' (forall₂_congr fun tokens saved => imp_congr_left (hsaves tokens saved))

/-- The expiry is exact, and the refresh that needs it neither panics nor saves tokens that have
expired already, if and only if the sum fits 64 bits. -/
theorem expiry_exact (overflowChecks : Bool) (response : TokenResponse) (now : UInt64) :
    (StampsExactly overflowChecks response now ↔ ExpiryFits response now) ∧
    ∀ needs ok tr out, Prog.Exec ok (refreshIf overflowChecks needs) tr out →
      Receives tr response now → (SavesAlive now tr out ↔ ExpiryFits response now) :=
  ⟨stampsExactly_iff, fun _ _ _ _ hexec hreceives => refreshIf_savesAlive hexec hreceives⟩

/-- A response of an hour that comes in time. -/
theorem expiry_exact_hour : StampsExactly true ⟨"new", "r2", 3600, ""⟩ 1000 :=
  (expiry_exact true ⟨"new", "r2", 3600, ""⟩ 1000).1.mpr (by decide)

/-- A refresh with its answer, and then the way to the stored tokens. -/
def refreshed (stored : Tokens) (response : TokenResponse) (now : UInt64)
    (rest : List (Sigma Ans)) : List (Sigma Ans) :=
  [⟨.lock, ()⟩, ⟨.load, .ok (some stored)⟩, ⟨.now, now⟩,
    ⟨.post (.refreshToken stored.refreshToken), ()⟩,
    ⟨.answer (.refreshToken stored.refreshToken), .ok response⟩] ++ rest ++ [⟨.unlock, ()⟩]

/-- Every way to the stored tokens ends a refresh. -/
theorem StoreWay.refreshed {needs : Tokens → UInt64 → Bool} {stored : Tokens}
    {rest : List (Sigma Ans)} {out : Outcome Tokens} (hneeds : needs stored now = true)
    (h : StoreWay overflowChecks response rest out) :
    Prog.Exec Prog.anyAnswer (refreshIf overflowChecks needs)
      (refreshed stored response now rest) (out.map (·.accessToken)) := by
  refine .perform trivial (.perform trivial (.perform trivial ?_))
  simp only [Prog.ret_bind, hneeds]
  refine .perform trivial (.perform trivial ?_)
  cases h with
  | overflowed h | unsaved h | saved h =>
    refine .perform trivial ?_
    simp only [Prog.ret_bind, h]
    exact .perform trivial (.perform trivial (.ret _))

/-- The longest lifetime that a server can send. -/
def longestResponse : TokenResponse := ⟨"new", "r2", 18446744073709551615, ""⟩

/-- With overflow checks the refresh panics after its token was spent; without them it saves
tokens that expired long ago. -/
theorem expiry_overflows :
    (∀ overflowChecks, ¬ StampsExactly overflowChecks longestResponse 1000) ∧
    Prog.Exec Prog.anyAnswer (refreshIf true fun stored now => stored.isExpired now)
      (refreshed ⟨"old", "r1", 0⟩ longestResponse 1000 [⟨.now, 1000⟩, ⟨.overflow, ()⟩])
      .panicked ∧
    Prog.Exec Prog.anyAnswer (refreshIf false fun stored now => stored.isExpired now)
      (refreshed ⟨"old", "r1", 0⟩ longestResponse 1000
        [⟨.now, 1000⟩, ⟨.save ⟨"new", "r2", 939⟩, .ok ()⟩]) (.ok "new") := by
  have hfits : ¬ ExpiryFits longestResponse 1000 := by decide
  refine ⟨fun overflowChecks h => hfits (stampsExactly_iff.mp h), ?_, ?_⟩
  · exact StoreWay.refreshed rfl (.overflowed (fromResponse_eq_none.mpr ⟨rfl, hfits⟩))
  · have hwraps : Tokens.fromResponse false longestResponse 1000 = some ⟨"new", "r2", 939⟩ := by
      decide
    exact StoreWay.refreshed rfl (.saved hwraps)

end Rsc.Auth

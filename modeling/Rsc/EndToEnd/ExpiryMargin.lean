import Rsc.Auth.Stages
import Rsc.Mock.AccessTokens
import Mathlib.Algebra.Order.Floor.Ring
import Mathlib.Algebra.Order.Archimedean.Real.Basic

/-!
The expiry margin of the client against the expiry of the server. The server issues a token at
`t₀`, the client stamps it at `t₁` with a clock of whole seconds; as long as the answer took no
longer than the margin, a token that the client takes for valid is valid at the server.
-/

namespace Rsc.EndToEnd

open Rsc.Library Rsc.Auth Rsc.Mock Rsc.Mock.Store

/-- The client's clock counts the whole seconds of the time, from any origin. -/
def ShowsSecs (offset t : ℝ) (now : UInt64) : Prop := (now.toNat : ℤ) = ⌊t + offset⌋

/-- The clock of the server counts the whole nanoseconds since its start. -/
def ShowsNanos (start t : ℝ) (now : Duration) : Prop := (now.nanos : ℤ) = ⌊(t - start) * 10 ^ 9⌋

/-- The tokens were stamped at `t₁` from a response that was issued at `t₀` with the lifetime
and took no longer than the margin; the sum fits 64 bits. -/
structure Delivered (offset t₀ t₁ : ℝ) (overflowChecks : Bool) (lifetime : UInt64)
    (tokens : Tokens) : Prop where
  issued : t₀ ≤ t₁
  inTime : t₁ ≤ t₀ + 60
  stamped : ∃ response received, response.expiresIn = lifetime ∧ ShowsSecs offset t₁ received ∧
    received.toNat + (saturatingSub lifetime expiryMarginSecs).toNat < UInt64.size ∧
    Tokens.fromResponse overflowChecks response received = some tokens

/-- The server issued the token when its clock was at `t₀`. -/
def IssuedAt (start t₀ : ℝ) (lifetime : UInt64) (entry : AccessToken) : Prop :=
  ∃ now : Duration, (now.nanos : ℝ) = (t₀ - start) * 10 ^ 9 ∧ now.Fits (.fromSecs lifetime) ∧
    entry.expiresAt = now.saturatingAdd (.fromSecs lifetime)

variable {offset start t₀ t₁ t : ℝ} {overflowChecks : Bool} {lifetime now : UInt64}
  {tokens : Tokens}

/-- What the client takes for valid is within the lifetime at the server. -/
theorem Delivered.valid (h : Delivered offset t₀ t₁ overflowChecks lifetime tokens)
    (ht : t₁ ≤ t) (hnow : ShowsSecs offset t now) (hexpired : tokens.isExpired now = false) :
    t < t₀ + lifetime.toNat := by
  obtain ⟨hissued, hinTime, response, received, rfl, hreceived, hfits, htokens⟩ := h
  have hlt : now.toNat < received.toNat + (response.expiresIn.toNat - 60) := by
    rw [← Tokens.toNat_expiresAt hfits htokens, ← UInt64.lt_iff_toNat_lt]
    simpa [Tokens.isExpired] using hexpired
  rcases Nat.le_total response.expiresIn.toNat 60 with hshort | hlong
  · -- no later reading is below the stamp
    have hmono : ⌊t₁ + offset⌋ ≤ ⌊t + offset⌋ := Int.floor_mono (by linarith)
    rw [← hnow, ← hreceived] at hmono
    omega
  · have hfloor : ⌊t + offset⌋ < ⌊t₁ + offset⌋ + (response.expiresIn.toNat - 60) := by
      rw [← hnow, ← hreceived]
      omega
    have hreal := Int.floor_lt.mp hfloor
    have hreceived' := Int.floor_le (t₁ + offset)
    push_cast at hreal
    linarith

/-- The server finds the token that the client takes for valid. -/
theorem Delivered.accessTokenInfo {s : Store} {entry : AccessToken} {reading : Duration}
    (h : t < t₀ + lifetime.toNat) (hissued : IssuedAt start t₀ lifetime entry)
    (hreading : ShowsNanos start t reading)
    (hentry : s.accessTokens.lookup tokens.accessToken = some entry)
    (hlive : ∀ f, entry.family = some f → f ∉ s.revokedFamilies) :
    (s.accessTokenInfo tokens.accessToken reading).isSome := by
  obtain ⟨issued, hnanos, hfits, hexpires⟩ := hissued
  have hlt : reading < entry.expiresAt := by
    rw [Duration.lt_def, hexpires, Duration.nanos_saturatingAdd hfits]
    have hfloor := Int.floor_le ((t - start) * 10 ^ 9)
    rw [← hreading] at hfloor
    have hcast : (reading.nanos : ℝ) < issued.nanos + lifetime.toNat * 1000000000 := by
      push_cast at hfloor
      linarith
    exact_mod_cast hcast
  rw [Option.isSome_iff_exists]
  exact ⟨⟨entry.kind, entry.clientId, ⟨_, (Nat.sub_le _ _).trans entry.expiresAt.le_max⟩⟩,
    accessTokenInfo_eq_some.mpr ⟨entry, hentry, hlive, hlt, rfl, rfl, rfl⟩⟩

/-- A call that returns without the lock returns the stored token, which it took for valid. -/
theorem getValidToken_unlocked {ok : (op : Op) → Ans op → Prop} {tr : List (Sigma Ans)}
    {token : String} (h : Prog.Exec ok (getValidToken overflowChecks) tr (.ok token))
    (hlock : ∀ step ∈ tr, step.1 ≠ .lock) :
    ∃ tokens now, tr = [⟨.load, .ok (some tokens)⟩, ⟨.now, now⟩] ∧
      tokens.isExpired now = false ∧ token = tokens.accessToken := by
  obtain ⟨stage, hpath, hgives⟩ := (getValidToken_goes overflowChecks).exec h
  cases hpath with
  | nil => exact hgives.elim
  | cons hmove hpath =>
    cases hmove with
    | glanceMissing | glanceError =>
      cases hpath with
      | nil => exact hgives.elim
      | cons hmove _ => cases hmove
    | @glance tokens =>
      cases hpath with
      | nil => exact hgives.elim
      | cons hmove hpath =>
        cases hmove with
        | @valid _ now hvalid =>
          cases hpath with
          | nil => exact ⟨tokens, now, rfl, hvalid, Outcome.ok.inj hgives⟩
          | cons hmove _ => cases hmove
        | expired =>
          cases hpath with
          | nil => exact hgives.elim
          | cons hmove _ =>
            cases hmove
            exact absurd rfl (hlock ⟨.lock, ()⟩ (by simp))

/-- The margin covers the delivery: a token that was delivered within it is valid at the server
whenever the client takes it for valid, and so is what `get_valid_token` returns without a
refresh. -/
theorem margin_covers_delivery (h : Delivered offset t₀ t₁ overflowChecks lifetime tokens) :
    (∀ t now, t₁ ≤ t → ShowsSecs offset t now → tokens.isExpired now = false →
      t < t₀ + lifetime.toNat) ∧
    (∀ (s : Store) entry start t now reading, t₁ ≤ t → ShowsSecs offset t now →
      tokens.isExpired now = false → IssuedAt start t₀ lifetime entry →
      ShowsNanos start t reading → s.accessTokens.lookup tokens.accessToken = some entry →
      (∀ f, entry.family = some f → f ∉ s.revokedFamilies) →
        (s.accessTokenInfo tokens.accessToken reading).isSome) ∧
    ∀ ok tr token t now, Prog.Exec ok (getValidToken overflowChecks) tr (.ok token) →
      (∀ step ∈ tr, step.1 ≠ .lock) → ⟨.load, .ok (some tokens)⟩ ∈ tr → ⟨.now, now⟩ ∈ tr →
      t₁ ≤ t → ShowsSecs offset t now → token = tokens.accessToken ∧ t < t₀ + lifetime.toNat := by
  refine ⟨fun t now ht hnow hexpired => h.valid ht hnow hexpired, ?_, ?_⟩
  · intro s entry start t now reading ht hnow hexpired hissued hreading hentry hlive
    exact Delivered.accessTokenInfo (h.valid ht hnow hexpired) hissued hreading hentry hlive
  · intro ok tr token t now hexec hlock hload hread ht hnow
    obtain ⟨stored, reading, rfl, hexpired, rfl⟩ := getValidToken_unlocked hexec hlock
    obtain rfl : tokens = stored := by simpa using hload
    obtain rfl : now = reading := by simpa using hread
    exact ⟨rfl, h.valid ht hnow hexpired⟩

/-- The answer takes the whole margin, and the token is used in the last second. -/
theorem margin_covers_late_delivery : ∃ tokens, Delivered 0 1000 1060 true 3599 tokens ∧
    tokens.isExpired 4598 = false ∧ (4598.5 : ℝ) < 1000 + (3599 : UInt64).toNat := by
  have hsecs : (3599 : UInt64).toNat = 3599 := rfl
  have hreceived : ShowsSecs 0 1060 1060 := by
    show (1060 : ℤ) = ⌊(1060 : ℝ) + 0⌋
    norm_num
  have hnow : ShowsSecs 0 4598.5 4598 := by
    show (4598 : ℤ) = ⌊(4598.5 : ℝ) + 0⌋
    rw [eq_comm, Int.floor_eq_iff]
    norm_num
  have h : Delivered 0 1000 1060 true 3599 ⟨"access", "refresh", 4599⟩ :=
    ⟨by norm_num, by norm_num, ⟨"access", "refresh", 3599, ""⟩, 1060, rfl, hreceived, by decide,
      rfl⟩
  exact ⟨_, h, rfl, (margin_covers_delivery h).1 4598.5 4598 (by norm_num) hnow rfl⟩

end Rsc.EndToEnd

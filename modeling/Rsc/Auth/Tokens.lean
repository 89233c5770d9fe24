import Mathlib.Data.Nat.Notation

/-!
`rsc/src/auth/tokens.rs`: the body of a token response and what is stored of it.
-/

namespace Rsc.Auth

/-- `EXPIRY_MARGIN_SECS`. -/
def expiryMarginSecs : UInt64 := 60

/-- `TokenResponse`: body of a successful `POST /oauth/token`. -/
structure TokenResponse where
  accessToken : String
  refreshToken : String
  expiresIn : UInt64
  scope : String
  deriving DecidableEq

/-- `Tokens`: what is persisted. Times are unix seconds. -/
structure Tokens where
  accessToken : String
  refreshToken : String
  expiresAt : UInt64
  deriving DecidableEq

/-- `u64::saturating_sub`. -/
def saturatingSub (a b : UInt64) : UInt64 := if b ≤ a then a - b else 0

theorem toNat_saturatingSub (a b : UInt64) : (saturatingSub a b).toNat = a.toNat - b.toNat := by
  rw [saturatingSub]
  split
  · next h => exact UInt64.toNat_sub_of_le _ _ h
  · next h =>
    rw [UInt64.le_iff_toNat_le] at h
    have hzero : (0 : UInt64).toNat = 0 := rfl
    omega

namespace Tokens

/-- `Tokens::from_response`. A sum over 64 bits panics (`none`) in a build with overflow
checks, and wraps around in one without. -/
def fromResponse (overflowChecks : Bool) (response : TokenResponse) (now : UInt64) :
    Option Tokens :=
  let lifetime := saturatingSub response.expiresIn expiryMarginSecs
  if overflowChecks = true ∧ UInt64.size ≤ now.toNat + lifetime.toNat then none
  else some ⟨response.accessToken, response.refreshToken, now + lifetime⟩

/-- `Tokens::is_expired`. -/
def isExpired (tokens : Tokens) (now : UInt64) : Bool := tokens.expiresAt ≤ now

theorem fromResponse_eq_some {overflowChecks : Bool} {response : TokenResponse} {now : UInt64}
    {tokens : Tokens} (h : fromResponse overflowChecks response now = some tokens) :
    tokens.accessToken = response.accessToken ∧ tokens.refreshToken = response.refreshToken := by
  simp only [fromResponse] at h
  split at h
  · cases h
  · cases h
    exact ⟨rfl, rfl⟩

theorem toNat_expiresAt {overflowChecks : Bool} {response : TokenResponse} {received : UInt64}
    {tokens : Tokens}
    (hfits : received.toNat + (saturatingSub response.expiresIn expiryMarginSecs).toNat <
      UInt64.size)
    (h : fromResponse overflowChecks response received = some tokens) :
    tokens.expiresAt.toNat = received.toNat + (response.expiresIn.toNat - 60) := by
  have hmargin : expiryMarginSecs.toNat = 60 := rfl
  rw [fromResponse, if_neg (fun hover => absurd hfits (Nat.not_lt.mpr hover.2))] at h
  cases h
  rw [toNat_saturatingSub, hmargin] at hfits
  rw [UInt64.toNat_add, toNat_saturatingSub, hmargin]
  exact Nat.mod_eq_of_lt hfits

end Tokens

end Rsc.Auth

import Rsc.Library.Duration
import Rsc.Mock.Pkce
import Mathlib.Data.Finmap

/-!
`rsc-mock/src/oauth/store.rs`: the codes, access tokens, refresh tokens and token
families of the authorization server. Every operation is one critical section.

The random generator is a list of candidates, the values that `random_credential`
returns one after the other. An operation gives `none` when it does not return: the
candidates run out before `fresh_credential` meets an unused one, or the 64-bit
family counter overflows.
-/

namespace Rsc.Mock.Store

open Rsc.Library Rsc.Mock.Pkce

/-- `FamilyId`: the tokens descended from one authorization code. -/
structure FamilyId where
  id : Nat
  deriving DecidableEq, Repr

structure AuthCode where
  clientId : String
  redirectUri : String
  codeChallenge : String
  issuedAt : Duration
  family : FamilyId
  redeemed : Bool
  deriving DecidableEq

inductive TokenKind
  | user
  | app
  deriving DecidableEq, Repr

structure AccessToken where
  kind : TokenKind
  clientId : String
  expiresAt : Duration
  family : Option FamilyId
  deriving DecidableEq

structure RefreshToken where
  clientId : String
  family : FamilyId
  spent : Bool
  deriving DecidableEq

/-- `Issued`: the tokens of a successful grant. -/
structure Issued where
  accessToken : String
  refreshToken : Option String
  deriving DecidableEq, Repr

/-- `InvalidGrant`: the reason is deliberately not reported. -/
inductive InvalidGrant
  | invalidGrant
  deriving DecidableEq, Repr

structure CodeRedemption where
  clientId : String
  code : String
  redirectUri : String
  codeVerifier : String
  deriving DecidableEq, Repr

structure TokenInfo where
  kind : TokenKind
  clientId : String
  remaining : Duration
  deriving DecidableEq

end Store

open Rsc.Library Rsc.Mock.Pkce Store

structure Store where
  accessTokenLifetime : Duration
  authorizationCodeLifetime : Duration
  codes : Finmap (fun _ : String => AuthCode)
  accessTokens : Finmap (fun _ : String => AccessToken)
  refreshTokens : Finmap (fun _ : String => RefreshToken)
  revokedFamilies : Finset FamilyId
  nextFamily : Nat

namespace Store

/-- `Store::new`. -/
def new (accessTokenLifetime authorizationCodeLifetime : Duration) : Store where
  accessTokenLifetime := accessTokenLifetime
  authorizationCodeLifetime := authorizationCodeLifetime
  codes := ∅
  accessTokens := ∅
  refreshTokens := ∅
  revokedFamilies := ∅
  nextFamily := 0

/-- No code, access token or refresh token of the store is `credential`. -/
def Unused (s : Store) (credential : String) : Prop :=
  credential ∉ s.codes ∧ credential ∉ s.accessTokens ∧ credential ∉ s.refreshTokens

instance (s : Store) (credential : String) : Decidable (s.Unused credential) :=
  inferInstanceAs (Decidable (_ ∧ _ ∧ _))

/-- `fresh_credential`: the first unused candidate, and the candidates left after it. -/
def freshCredential (s : Store) : List String → Option (String × List String)
  | [] => none
  | candidate :: draws =>
      if s.Unused candidate then some (candidate, draws) else s.freshCredential draws

/-- `issue_code`. -/
def issueCode (s : Store) (clientId redirectUri codeChallenge : String) (now : Duration)
    (draws : List String) : Option (String × Store × List String) := do
  let family : FamilyId := ⟨s.nextFamily⟩
  guard (s.nextFamily + 1 < 2 ^ 64)
  let s := { s with nextFamily := s.nextFamily + 1 }
  let (code, draws) ← s.freshCredential draws
  let entry : AuthCode := ⟨clientId, redirectUri, codeChallenge, now, family, false⟩
  return (code, { s with codes := s.codes.insert code entry }, draws)

/-- `insert_access_token`. -/
def insertAccessToken (s : Store) (kind : TokenKind) (clientId : String)
    (family : Option FamilyId) (now : Duration) (draws : List String) :
    Option (String × Store × List String) := do
  let (token, draws) ← s.freshCredential draws
  let entry : AccessToken := ⟨kind, clientId, now.saturatingAdd s.accessTokenLifetime, family⟩
  return (token, { s with accessTokens := s.accessTokens.insert token entry }, draws)

/-- `issue_user_tokens`. -/
def issueUserTokens (s : Store) (clientId : String) (family : FamilyId) (now : Duration)
    (draws : List String) : Option (Issued × Store × List String) := do
  let (accessToken, s, draws) ← s.insertAccessToken .user clientId (some family) now draws
  let (refreshToken, draws) ← s.freshCredential draws
  let entry : RefreshToken := ⟨clientId, family, false⟩
  return (⟨accessToken, some refreshToken⟩,
    { s with refreshTokens := s.refreshTokens.insert refreshToken entry }, draws)

/-- `redeem_code`. -/
def redeemCode (H : Hashing) (s : Store) (request : CodeRedemption) (now : Duration)
    (draws : List String) : Option (Except InvalidGrant Issued × Store × List String) :=
  match s.codes.lookup request.code with
  | none => some (.error .invalidGrant, s, draws)
  | some code =>
      -- Another client presenting the code is refused without touching anything.
      if code.clientId ≠ request.clientId then some (.error .invalidGrant, s, draws)
      -- A replay revokes the family; checked before expiry, so a late one counts too.
      else if code.redeemed then
        some (.error .invalidGrant,
          { s with revokedFamilies := insert code.family s.revokedFamilies }, draws)
      else if code.issuedAt.saturatingAdd s.authorizationCodeLifetime ≤ now then
        some (.error .invalidGrant, s, draws)
      else if code.redirectUri ≠ request.redirectUri ∨
          verifyS256 H request.codeVerifier code.codeChallenge = false then
        some (.error .invalidGrant, s, draws)
      else do
        let s := { s with codes := s.codes.insert request.code { code with redeemed := true } }
        let (issued, s, draws) ← s.issueUserTokens request.clientId code.family now draws
        return (.ok issued, s, draws)

/-- `refresh`. -/
def refresh (s : Store) (clientId refreshToken : String) (now : Duration)
    (draws : List String) : Option (Except InvalidGrant Issued × Store × List String) :=
  match s.refreshTokens.lookup refreshToken with
  | none => some (.error .invalidGrant, s, draws)
  | some entry =>
      if entry.clientId ≠ clientId ∨ entry.spent = true ∨ entry.family ∈ s.revokedFamilies then
        some (.error .invalidGrant, s, draws)
      else do
        let spent := { entry with spent := true }
        let s := { s with refreshTokens := s.refreshTokens.insert refreshToken spent }
        let (issued, s, draws) ← s.issueUserTokens clientId entry.family now draws
        return (.ok issued, s, draws)

/-- `issue_app_token`. -/
def issueAppToken (s : Store) (clientId : String) (now : Duration) (draws : List String) :
    Option (Issued × Store × List String) := do
  let (accessToken, s, draws) ← s.insertAccessToken .app clientId none now draws
  return (⟨accessToken, none⟩, s, draws)

/-- `access_token_info`. -/
def accessTokenInfo (s : Store) (token : String) (now : Duration) : Option TokenInfo := do
  let accessToken ← s.accessTokens.lookup token
  if accessToken.family.any (· ∈ s.revokedFamilies) then none
  else
    let remaining ← (accessToken.expiresAt.checkedSub now).filter (fun d => !d.isZero)
    return ⟨accessToken.kind, accessToken.clientId, remaining⟩

end Store

end Rsc.Mock

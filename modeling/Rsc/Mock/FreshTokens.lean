import Rsc.Mock.AccessTokens
import Rsc.Mock.Authentication
import Rsc.Mock.Reachable

/-!
What a token is worth when it is granted, and a code when it is issued. The clock and the expiry
stop at the longest duration, so near it a lifetime is cut short.
-/

namespace Rsc.Mock

open Rsc.Library Rsc.Library.Http Rsc.Mock.Pkce

namespace Store

/-- The access token that an operation returns. -/
def grantedToken : Event → Option String
  | .redeemCode _ _ (.ok issued) => some issued.accessToken
  | .refresh _ _ _ (.ok issued) => some issued.accessToken
  | .issueAppToken _ _ issued => some issued.accessToken
  | _ => none

/-- The entry of a token that was granted now, for a family that is not revoked. -/
def FreshEntry (s : Store) (lifetime now : Duration) (token : String) : Prop :=
  ∃ entry, s.accessTokens.lookup token = some entry ∧
    entry.expiresAt = now.saturatingAdd lifetime ∧
    ∀ f, entry.family = some f → f ∉ s.revokedFamilies

variable {H : Hashing} {tokenLifetime codeLifetime : Duration} {h : List Event} {s s' : Store}

/-- The family of a code that can be redeemed is not revoked: only a replay revokes it. -/
theorem Redeemable.family_notMem {request : CodeRedemption} {now : Duration} {code : AuthCode}
    (hcode : s.Redeemable H request now code) (hw : s.WellFormed)
    (hr : Recorded tokenLifetime codeLifetime h s) : code.family ∉ s.revokedFamilies := by
  intro hmem
  obtain ⟨root, clientId, ⟨replayed, hlookup, hfamily, -⟩, hreplayed⟩ := hr.revoked.mp hmem
  obtain ⟨redeemed, hredeemed, htrue⟩ := hr.redeemed.mp hreplayed.redeemed
  obtain rfl := hw.family_inj hlookup hcode.1 hfamily
  have hsame := Option.some.inj (hredeemed.symm.trans hcode.1)
  rw [hsame, hcode.2.2.1] at htrue
  cases htrue

/-- Every grant makes a fresh entry. -/
theorem Effect.freshEntry {e : Event} {token : String} (he : Effect H s e s')
    (htoken : grantedToken e = some token) (hw : s.WellFormed)
    (hr : Recorded tokenLifetime codeLifetime h s) : s'.FreshEntry tokenLifetime e.now token := by
  rw [← hr.tokenLifetime_eq]
  cases he with
  | issued | redeemRefused | replayed | refreshRefused => cases htoken
  | redeemed hcode =>
    cases htoken
    refine ⟨_, Finmap.lookup_insert _, rfl, ?_⟩
    rintro f ⟨⟩
    exact hcode.family_notMem hw hr
  | refreshed hentry =>
    cases htoken
    refine ⟨_, Finmap.lookup_insert _, rfl, ?_⟩
    rintro f ⟨⟩
    exact hentry.2.2.2
  | appToken =>
    cases htoken
    refine ⟨_, Finmap.lookup_insert _, rfl, ?_⟩
    rintro f ⟨⟩

/-- A code that is new after an operation was issued by it. -/
theorem Effect.new_code {e : Event} {code : String} {entry : AuthCode} (he : Effect H s e s')
    (hnew : s.codes.lookup code = none) (hentry : s'.codes.lookup code = some entry) :
    entry.issuedAt = e.now ∧ entry.redeemed = false := by
  have hold : s.codes.lookup code ≠ some entry := by
    rw [hnew]
    exact (Option.some_ne_none entry).symm
  cases he with
  | issued =>
    rw [issue, lookup_insert_eq] at hentry
    split at hentry
    · cases hentry
      exact ⟨rfl, rfl⟩
    · exact absurd hentry hold
  | redeemed hcode =>
    simp only [grant, redeem, lookup_insert_eq] at hentry
    split at hentry
    · next heq =>
      rw [heq, hcode.1] at hnew
      cases hnew
    · exact absurd hentry hold
  | _ => exact absurd hentry hold

/-- The token is worth its lifetime now if and only if its expiry is representable. -/
theorem FreshEntry.full_iff {lifetime now : Duration} {token : String}
    (hfresh : s.FreshEntry lifetime now token) (hlifetime : lifetime.isZero = false) :
    (∃ info, s.accessTokenInfo token now = some info ∧ info.remaining = lifetime) ↔
      now.Fits lifetime := by
  obtain ⟨entry, hentry, hexpires, hlive⟩ := hfresh
  have hpos : lifetime.nanos ≠ 0 := by simpa [Duration.isZero] using hlifetime
  constructor
  · rintro ⟨info, hinfo, rfl⟩
    obtain ⟨entry', hentry', -, hlt, -, -, hremaining⟩ := accessTokenInfo_eq_some.mp hinfo
    obtain rfl := Option.some.inj (hentry.symm.trans hentry')
    have hle := entry.expiresAt.le_max
    rw [Duration.lt_def] at hlt
    rw [Duration.Fits]
    omega
  · intro hfits
    have hnanos := Duration.nanos_saturatingAdd hfits
    refine ⟨⟨entry.kind, entry.clientId, lifetime⟩, accessTokenInfo_eq_some.mpr
      ⟨entry, hentry, hlive, ?_, rfl, rfl, ?_⟩, rfl⟩
    · rw [Duration.lt_def, hexpires, hnanos]
      omega
    · rw [hexpires, hnanos]
      exact (Nat.add_sub_cancel_left now.nanos lifetime.nanos).symm

/-- A code that was issued now is redeemable if and only if the clock is not at its end. -/
theorem redeemable_now_iff (request : CodeRedemption) {now : Duration} {code : AuthCode}
    (hlookup : s.codes.lookup request.code = some code) (hclient : code.clientId = request.clientId)
    (hredeemed : code.redeemed = false) (hissued : code.issuedAt = now)
    (huri : code.redirectUri = request.redirectUri)
    (hverifier : verifyS256 H request.codeVerifier code.codeChallenge = true)
    (hlifetime : s.authorizationCodeLifetime.isZero = false) :
    (∃ code, s.Redeemable H request now code) ↔ now.nanos < Duration.maxNanos := by
  have hpos : s.authorizationCodeLifetime.nanos ≠ 0 := by simpa [Duration.isZero] using hlifetime
  have hlive : now < now.saturatingAdd s.authorizationCodeLifetime ↔
      now.nanos < Duration.maxNanos := by
    show now.nanos < min _ Duration.maxNanos ↔ _
    omega
  rw [← hlive]
  constructor
  · rintro ⟨code', hcode'⟩
    obtain rfl := Option.some.inj (hlookup.symm.trans hcode'.1)
    exact hissued ▸ hcode'.2.2.2.1
  · intro hlt
    exact ⟨code, hlookup, hclient, hredeemed, hissued.symm ▸ hlt, huri, hverifier⟩

end Store

open Store

variable {D : Deps} {config : MockConfig} {st st' : Guarded} {request : Request}
  {draws : List Draw} {response : Response}

/-! ## The endpoints -/

/-- A success of the token endpoint is one grant, at the time of the clock, and tells its token
and the lifetime. -/
theorem Token.tokenEndpoint_grants
    (h : Token.tokenEndpoint D config st request draws = some (.ok response, st')) :
    ∃ issued e s', response = Token.tokenResponse D issued config.accessTokenLifetime ∧
      Step D.toHashing st.store e s' ∧ e.now = st.clock.now ∧
      grantedToken e = some issued.accessToken ∧ st' = { st with store := s' } := by
  have hanswer : ∀ {x : Except InvalidGrant Issued × Store × List String},
      Token.answer D config st x = (.ok response, st') → ∃ issued, x.1 = .ok issued ∧
        response = Token.tokenResponse D issued config.accessTokenLifetime ∧
        st' = { st with store := x.2.1 } := by
    rintro ⟨outcome, s, rest⟩ h
    cases outcome with
    | ok issued =>
      cases h
      exact ⟨issued, rfl, rfl, rfl⟩
    | error e => cases h
  unfold Token.tokenEndpoint at h
  split at h
  · cases h
  unfold Token.grant at h
  split at h
  · cases h
  split_ifs at h
  · unfold Token.authorizationCode at h
    split at h
    · obtain ⟨⟨outcome, s, rest⟩, hredeem, h⟩ := Option.map_eq_some_iff.mp h
      obtain ⟨issued, rfl, hresponse, hst'⟩ := hanswer h
      exact ⟨issued, _, s, hresponse, .redeemCode hredeem, rfl, rfl, hst'⟩
    · cases h
  · unfold Token.refreshToken at h
    split at h
    · obtain ⟨⟨outcome, s, rest⟩, hrefresh, h⟩ := Option.map_eq_some_iff.mp h
      obtain ⟨issued, rfl, hresponse, hst'⟩ := hanswer h
      exact ⟨issued, _, s, hresponse, .refresh hrefresh, rfl, rfl, hst'⟩
    · cases h
  · unfold Token.clientCredentials at h
    split at h
    · cases h
    · obtain ⟨⟨issued, s, rest⟩, hissue, h⟩ := Option.map_eq_some_iff.mp h
      obtain ⟨issued', hissued, hresponse, hst'⟩ := hanswer h
      cases hissued
      exact ⟨issued, _, s, hresponse, .issueAppToken hissue, rfl, rfl, hst'⟩
  · cases h

/-- A new code of the authorization endpoint was issued at the time of the clock. -/
theorem Authorize.handler_issues {code : String} {entry : AuthCode}
    (h : Authorize.handler D config st request draws = some (response, st'))
    (hnew : st.store.codes.lookup code = none) (hentry : st'.store.codes.lookup code = some entry) :
    entry.issuedAt = st.clock.now ∧ entry.redeemed = false ∧ st'.clock = st.clock := by
  rcases Authorize.handler_moves h with rfl | ⟨e, s', hnow, hstep, rfl⟩
  · rw [hnew] at hentry
    cases hentry
  · obtain ⟨hissued, hredeemed⟩ := hstep.effect.new_code hnew hentry
    exact ⟨hissued.trans hnow, hredeemed, rfl⟩

/-- The response tells the token and its lifetime, which is a whole number of seconds. -/
structure TellsLifetime (D : Deps) (lifetime : Duration) (response : Response) (token : String) :
    Prop where
  document : ∃ doc : Json.Document, doc.lookup "access_token" = some (.str token) ∧
    doc.lookup "expires_in" = some (.num lifetime.asSecs) ∧
    ∀ bytes, D.toVec doc = some bytes → response.body = bytes
  seconds : Duration.fromSecs lifetime.asSecs = lifetime

/-- `MockServer::token_info` gives the token the whole lifetime. -/
def LivesFully (st : Guarded) (lifetime : Duration) (token : String) : Prop :=
  ∃ info, Server.tokenInfo st.toState token = some info ∧ info.remaining = lifetime

/-- The code is redeemed by the verifier of its challenge, whatever the draws. -/
def RedeemsNow (D : Deps) (st : Guarded) (code : String) (entry : AuthCode) (verifier : String) :
    Prop :=
  ∀ draws, st.store.Supplies draws → ∃ issued s rest,
    st.store.redeemCode D.toHashing ⟨entry.clientId, code, entry.redirectUri, verifier⟩
      st.clock.now draws = some (.ok issued, s, rest)

theorem tellsLifetime_tokenResponse {lifetime : Duration} (hlifetime : lifetime.subsecNanos = 0)
    (issued : Issued) :
    TellsLifetime D lifetime (Token.tokenResponse D issued lifetime) issued.accessToken := by
  refine ⟨⟨_, rfl, ?_, fun bytes hbytes => json_body .ok hbytes⟩,
    Duration.fromSecs_asSecs hlifetime⟩
  obtain ⟨access, refresh⟩ := issued
  cases refresh <;> rfl

theorem redeemsNow_iff {code verifier : String} {entry : AuthCode}
    (hentry : st.store.codes.lookup code = some entry) (hredeemed : entry.redeemed = false)
    (hissued : entry.issuedAt = st.clock.now)
    (hverifier : verifyS256 D.toHashing verifier entry.codeChallenge = true)
    (hlifetime : st.store.authorizationCodeLifetime.isZero = false) :
    RedeemsNow D st code entry verifier ↔ st.clock.now.nanos < Duration.maxNanos := by
  rw [← redeemable_now_iff ⟨entry.clientId, code, entry.redirectUri, verifier⟩ hentry
    rfl hredeemed hissued rfl hverifier hlifetime]
  constructor
  · intro hnow
    obtain ⟨a, ha, -⟩ := exists_unused st.store ∅
    obtain ⟨b, hb, hne⟩ := exists_unused st.store {a}
    have hsupplies : st.store.Supplies [a, b] :=
      ⟨a, by simp, b, by simp, fun h => hne (by simp [h]), ha, hb⟩
    obtain ⟨issued, s, rest, hredeem⟩ := hnow [a, b] hsupplies
    exact (redeemCode_ok_iff_redeemable hredeem).mp ⟨issued, rfl⟩
  · rintro ⟨entry', hredeem⟩ draws hsupplies
    obtain ⟨⟨issued, s, rest⟩, hissue⟩ := (hsupplies.redeem hredeem.1).issueUserTokens entry.clientId
      entry'.family st.clock.now
    exact ⟨issued, s, rest, by rw [redeemCode_of_redeemable hredeem, hissue]; rfl⟩

/-- A token that was just granted has the whole lifetime of its response if and only if its
expiry is no longer than the longest duration, and a code that was just issued can be redeemed
if and only if the clock is below that. -/
theorem fresh_full_lifetime (hconfig : config.validate D.urlParses = .ok ())
    (hreachable : Reachable D config st) :
    (∀ request draws response st',
      Token.tokenEndpoint D config st request draws = some (.ok response, st') →
      ∃ token, TellsLifetime D config.accessTokenLifetime response token ∧ st'.clock = st.clock ∧
        (LivesFully st' config.accessTokenLifetime token ↔
          st.clock.now.Fits config.accessTokenLifetime)) ∧
    ∀ request draws response st' code entry verifier,
      Authorize.handler D config st request draws = some (response, st') →
      st.store.codes.lookup code = none → st'.store.codes.lookup code = some entry →
      verifyS256 D.toHashing verifier entry.codeChallenge = true →
      st'.clock = st.clock ∧
        (RedeemsNow D st' code entry verifier ↔ st.clock.now.nanos < Duration.maxNanos) := by
  have hvalid := MockConfig.validate_eq_ok.mp hconfig
  constructor
  · intro request draws response st' h
    obtain ⟨issued, e, s', rfl, hstep, hnow, htoken, rfl⟩ := Token.tokenEndpoint_grants h
    refine ⟨issued.accessToken, tellsLifetime_tokenResponse hvalid.accessTokenLifetime.2 issued,
      rfl, ?_⟩
    obtain ⟨events, hrun⟩ := hreachable.storeRun
    have hfresh := hstep.effect.freshEntry htoken hrun.wellFormed hrun.recorded
    rw [hnow] at hfresh
    exact hfresh.full_iff hvalid.accessTokenLifetime.1
  · intro request draws response st' code entry verifier h hnew hentry hverifier
    obtain ⟨hissued, hredeemed, hclock⟩ := Authorize.handler_issues h hnew hentry
    have hlifetime : st'.store.authorizationCodeLifetime.isZero = false := by
      rw [(hreachable.authorize h).lifetimes.2]
      exact hvalid.authorizationCodeLifetime.1
    rw [← hclock] at hissued ⊢
    exact ⟨rfl, redeemsNow_iff hentry hredeemed hissued hverifier hlifetime⟩

/-! ## An app token -/

def appForm : List (String × String) := [("grant_type", "client_credentials")]

/-- The client asks for a token for the app alone. -/
def appRequest : Request :=
  { formPost appForm with headers := ClientAuth.basicHeaders ++ (formPost appForm).headers }

def appDraw : Draw := repeated 7

/-- The mock of the client was spawned, and its clock advanced. -/
def spawnedAt (now : Duration) : Guarded := ⟨⟨⟨now⟩, Store.new hour hour⟩, .approve⟩

theorem reachable_spawnedAt (now : Duration) :
    Reachable ClientAuth.basicDeps Token.webConfig (spawnedAt now) := by
  have hclock : Clock.advance ⟨.zero⟩ now = ⟨now⟩ := by
    apply congrArg Clock.mk
    ext
    show min (0 + now.nanos) Duration.maxNanos = now.nanos
    rw [Nat.zero_add, Nat.min_eq_left now.le_max]
  have h : Reachable ClientAuth.basicDeps Token.webConfig
      ⟨⟨Clock.advance ⟨.zero⟩ now, Store.new hour hour⟩, .approve⟩ :=
    .advanceClock now .spawn
  rwa [hclock] at h

theorem admitted_appRequest : Token.Admitted ClientAuth.basicDeps Token.webConfig appRequest
    ⟨Token.webClient, .basic⟩ ⟨appForm⟩ where
  method := rfl
  contentType := Token.requireFormContentType_of_get rfl
  body := ⟨FormUrlEncoded.serializeBytes appForm,
    Token.carries_of_form (by decide) (List.append_nil _) rfl (by decide +kernel),
    congrArg Params.mk (FormUrlEncoded.parse_serializeBytes appForm)⟩
  noneRepeated := by decide
  authenticated := by decide +kernel

theorem tokenEndpoint_app (now : Duration) :
    Token.tokenEndpoint ClientAuth.basicDeps Token.webConfig (spawnedAt now) appRequest [appDraw] =
      some (.ok (Token.tokenResponse ClientAuth.basicDeps ⟨randomCredential appDraw, none⟩ hour),
        { spawnedAt now with
          store := (Store.new hour hour).grantApp "web" now (randomCredential appDraw) }) := by
  rw [Token.tokenEndpoint, Token.checkRequest_eq_ok.mpr admitted_appRequest]
  rfl

/-- One minute after the start. -/
theorem fresh_full_lifetime_app : ∃ token response st',
    Token.tokenEndpoint ClientAuth.basicDeps Token.webConfig (spawnedAt minute) appRequest
      [appDraw] = some (.ok response, st') ∧ LivesFully st' hour token := by
  have hconfig : Token.webConfig.validate ClientAuth.basicDeps.urlParses = .ok () := rfl
  obtain ⟨token, -, -, hfull⟩ := (fresh_full_lifetime hconfig (reachable_spawnedAt minute)).1 _ _ _
    _ (tokenEndpoint_app minute)
  exact ⟨token, _, _, tokenEndpoint_app minute, hfull.mpr (by decide)⟩

/-- The longest duration. -/
def longest : Duration := ⟨Duration.maxNanos, Nat.le_refl _⟩

/-- At the end of the clock a token has expired when it is granted. -/
theorem fresh_expired : Reachable ClientAuth.basicDeps Token.webConfig (spawnedAt longest) ∧
    ∃ response st',
      Token.tokenEndpoint ClientAuth.basicDeps Token.webConfig (spawnedAt longest) appRequest
        [appDraw] = some (.ok response, st') ∧
      TellsLifetime ClientAuth.basicDeps hour response (randomCredential appDraw) ∧
      Server.tokenInfo st'.toState (randomCredential appDraw) = none := by
  refine ⟨reachable_spawnedAt longest, _, _, tokenEndpoint_app longest,
    tellsLifetime_tokenResponse (by decide) _, ?_⟩
  rw [Option.eq_none_iff_forall_ne_some]
  intro info hinfo
  obtain ⟨entry, -, -, hlt, -⟩ := accessTokenInfo_eq_some.mp hinfo
  exact absurd entry.expiresAt.le_max (Nat.not_le.mpr hlt)

end Rsc.Mock

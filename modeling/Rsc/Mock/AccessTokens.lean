import Rsc.Mock.Server

/-!
The validity of access tokens, told by the history: from their issue until they expire
or their code is replayed, and never again after that.
-/

namespace Rsc.Mock.Store

open Rsc.Library Rsc.Mock.Pkce

variable {H : Hashing} {tokenLifetime codeLifetime : Duration} {h : List Event} {s : Store}

/-- The event returned an access token. -/
def grants : Event → Bool
  | .redeemCode _ _ (.ok _) => true
  | .refresh _ _ _ (.ok _) => true
  | .issueAppToken _ _ _ => true
  | _ => false

/-- No issue time plus the lifetime of an access token exceeds the longest duration. -/
def TokenTimesFit (tokenLifetime : Duration) (h : List Event) : Prop :=
  ∀ e ∈ h, grants e = true → Duration.Fits e.now tokenLifetime

/-- The access token was returned by an earlier grant. -/
def WasIssued (h : List Event) (token : String) : Prop :=
  (∃ root t₀, AccessRoot root t₀ h token) ∨ ∃ clientId t₀, AppGrant h clientId t₀ token

/-- What a token issued at `t₀` to the client is worth at `now`. -/
def Lives (tokenLifetime : Duration) (kind : TokenKind) (clientId : String) (t₀ now : Duration)
    (info : TokenInfo) : Prop :=
  now.nanos < t₀.nanos + tokenLifetime.nanos ∧ info.kind = kind ∧ info.clientId = clientId ∧
    info.remaining.nanos = t₀.nanos + tokenLifetime.nanos - now.nanos

/-- The access token is valid at `now`: a user token whose code was not replayed, or an
app token. -/
def ValidToken (tokenLifetime : Duration) (h : List Event) (token : String) (now : Duration)
    (info : TokenInfo) : Prop :=
  (∃ root clientId t₀, AccessRoot root t₀ h token ∧ IssuedTo h clientId root ∧
    ¬ Replayed clientId root h ∧ Lives tokenLifetime .user clientId t₀ now info) ∨
  ∃ clientId t₀, AppGrant h clientId t₀ token ∧ Lives tokenLifetime .app clientId t₀ now info

theorem accessRoot_time {root token : String} {t₀ : Duration} (hroot : AccessRoot root t₀ h token) :
    ∃ e ∈ h, grants e = true ∧ e.now = t₀ := by
  have older : ∀ {e : Event} {h : List Event}, (∃ e ∈ h, grants e = true ∧ e.now = t₀) →
      ∃ e' ∈ e :: h, grants e' = true ∧ e'.now = t₀ := by
    rintro e h ⟨e', hmem, he⟩
    exact ⟨e', .tail _ hmem, he⟩
  induction h with
  | nil => cases hroot
  | cons e h ih =>
    cases e with
    | issueCode => exact older (ih hroot)
    | issueAppToken => exact older (ih hroot)
    | redeemCode _ _ answer =>
      cases answer with
      | error _ => exact older (ih hroot)
      | ok _ =>
        rcases hroot with hroot | ⟨_, ht, _⟩
        · exact older (ih hroot)
        · exact ⟨_, .head _, rfl, ht⟩
    | refresh _ _ _ answer =>
      cases answer with
      | error _ => exact older (ih hroot)
      | ok _ =>
        rcases hroot with hroot | ⟨_, ht, _⟩
        · exact older (ih hroot)
        · exact ⟨_, .head _, rfl, ht⟩

theorem appGrant_time {clientId token : String} {t₀ : Duration}
    (happ : AppGrant h clientId t₀ token) : ∃ e ∈ h, grants e = true ∧ e.now = t₀ := by
  obtain ⟨issued, hmem, _⟩ := happ
  exact ⟨_, hmem, rfl, rfl⟩

theorem accessTokenInfo_eq_some {token : String} {now : Duration} {info : TokenInfo} :
    s.accessTokenInfo token now = some info ↔
      ∃ entry, s.accessTokens.lookup token = some entry ∧
        (∀ f, entry.family = some f → f ∉ s.revokedFamilies) ∧ now < entry.expiresAt ∧
        info.kind = entry.kind ∧ info.clientId = entry.clientId ∧
        info.remaining.nanos = entry.expiresAt.nanos - now.nanos := by
  simp only [accessTokenInfo, Option.bind_eq_bind, Option.bind_eq_some_iff]
  refine exists_congr fun entry => and_congr_right fun _ => ?_
  have hany : entry.family.any (· ∈ s.revokedFamilies) = true ↔
      ¬ ∀ f, entry.family = some f → f ∉ s.revokedFamilies := by
    cases entry.family <;> simp
  by_cases hrevoked : ∀ f, entry.family = some f → f ∉ s.revokedFamilies
  · rw [if_neg (hany.not_left.mpr hrevoked)]
    simp only [Option.bind_eq_some_iff, Duration.checkedSub_filter_eq_some, Option.pure_def,
      Option.some.injEq]
    constructor
    · rintro ⟨remaining, ⟨hlt, hremaining⟩, rfl⟩
      exact ⟨hrevoked, hlt, rfl, rfl, hremaining⟩
    · rintro ⟨_, hlt, hkind, hclient, hremaining⟩
      exact ⟨info.remaining, ⟨hlt, hremaining⟩, by rw [← hkind, ← hclient]⟩
  · rw [if_pos (hany.mpr hrevoked)]
    simp only [reduceCtorEq, false_iff, not_and]
    exact fun h' => absurd h' hrevoked

/-! ## Step and run lemmas -/

/-- An issued access token keeps its entry. -/
theorem Effect.lookup_accessTokens {s' : Store} {e : Event} {token : String} {entry : AccessToken}
    (he : Effect H s e s') (hentry : s.accessTokens.lookup token = some entry) :
    s'.accessTokens.lookup token = some entry := by
  have hne : ∀ access, s.Unused access → token ≠ access := by
    rintro access haccess rfl
    exact haccess.2.1 (Finmap.mem_of_lookup_eq_some hentry)
  cases he with
  | redeemed _ haccess => simp only [grant, lookup_insert_eq, if_neg (hne _ haccess), redeem, hentry]
  | refreshed _ haccess => simp only [grant, lookup_insert_eq, if_neg (hne _ haccess), spend, hentry]
  | appToken haccess => simp only [grantApp, lookup_insert_eq, if_neg (hne _ haccess), hentry]
  | _ => exact hentry

/-- Revocations are for good. -/
theorem Effect.revokedFamilies_subset {s' : Store} {e : Event} (he : Effect H s e s') :
    s.revokedFamilies ⊆ s'.revokedFamilies := by
  cases he with
  | replayed => exact Finset.subset_insert _ _
  | _ => exact Finset.Subset.refl _

/-- A token that is invalid stays so: the entry is kept, revocations are for good and
time goes on. -/
theorem accessTokenInfo_none_mono {s' : Store} {token : String} {now now' : Duration}
    {entry : AccessToken} (hentry : s.accessTokens.lookup token = some entry)
    (hentry' : s'.accessTokens.lookup token = some entry)
    (hrevoked : s.revokedFamilies ⊆ s'.revokedFamilies) (hnow : now ≤ now')
    (hnone : s.accessTokenInfo token now = none) : s'.accessTokenInfo token now' = none := by
  by_contra hsome
  obtain ⟨info, hinfo⟩ := Option.ne_none_iff_exists'.mp hsome
  obtain ⟨entry', hlookup, hlive, hlt, _⟩ := accessTokenInfo_eq_some.mp hinfo
  obtain rfl := Option.some.inj (hentry'.symm.trans hlookup)
  have hlt' : now < entry.expiresAt := Nat.lt_of_le_of_lt hnow hlt
  have hvalid : s.accessTokenInfo token now = some ⟨entry.kind, entry.clientId,
      ⟨entry.expiresAt.nanos - now.nanos, (Nat.sub_le _ _).trans entry.expiresAt.le_max⟩⟩ :=
    accessTokenInfo_eq_some.mpr
      ⟨entry, hentry, fun f hf hmem => hlive f hf (hrevoked hmem), hlt', rfl, rfl, rfl⟩
  rw [hnone] at hvalid
  cases hvalid

theorem Server.Run.kept {st st' : State} {h' : List Event} {token : String} {entry : AccessToken}
    (hrun : Server.Run H st h' st') (hentry : st.store.accessTokens.lookup token = some entry) :
    st'.store.accessTokens.lookup token = some entry ∧
      st.store.revokedFamilies ⊆ st'.store.revokedFamilies := by
  induction hrun with
  | start => exact ⟨hentry, Finset.Subset.refl _⟩
  | advance _ _ ih => exact ih
  | operate _ _ hstep ih =>
    exact ⟨hstep.effect.lookup_accessTokens ih.1,
      ih.2.trans hstep.effect.revokedFamilies_subset⟩

theorem Recorded.wasIssued_iff {token : String} (hr : Recorded tokenLifetime codeLifetime h s) :
    WasIssued h token ↔ ∃ entry, s.accessTokens.lookup token = some entry := by
  constructor
  · rintro (⟨root, t₀, hroot⟩ | ⟨clientId, t₀, happ⟩)
    · obtain ⟨_, _, _, hlookup⟩ := hr.accessRoot hroot
      exact ⟨_, hlookup⟩
    · exact ⟨_, hr.appGrant happ⟩
  · rintro ⟨entry, hentry⟩
    exact hr.accessTokens hentry

theorem accessTokenInfo_iff {token : String} {now : Duration} {info : TokenInfo}
    (hw : s.WellFormed) (hr : Recorded tokenLifetime codeLifetime h s)
    (hfits : TokenTimesFit tokenLifetime h) :
    s.accessTokenInfo token now = some info ↔ ValidToken tokenLifetime h token now info := by
  rw [accessTokenInfo_eq_some]
  -- what a live entry says, once its expiry is known to be exact
  have hlives : ∀ {kind clientId t₀ family}, (∃ e ∈ h, grants e = true ∧ e.now = t₀) →
      s.accessTokens.lookup token =
        some ⟨kind, clientId, t₀.saturatingAdd tokenLifetime, family⟩ →
      ((∃ entry, s.accessTokens.lookup token = some entry ∧
        (∀ f, entry.family = some f → f ∉ s.revokedFamilies) ∧ now < entry.expiresAt ∧
        info.kind = entry.kind ∧ info.clientId = entry.clientId ∧
        info.remaining.nanos = entry.expiresAt.nanos - now.nanos) ↔
      (∀ f, family = some f → f ∉ s.revokedFamilies) ∧
        Lives tokenLifetime kind clientId t₀ now info) := by
    rintro kind clientId t₀ family ⟨e, hmem, hgrant, rfl⟩ hlookup
    rw [Lives, ← Duration.nanos_saturatingAdd (hfits e hmem hgrant)]
    constructor
    · rintro ⟨entry, hlookup', hentry⟩
      obtain rfl := Option.some.inj (hlookup.symm.trans hlookup')
      exact hentry
    · exact fun hentry => ⟨_, hlookup, hentry⟩
  constructor
  · intro hinfo
    obtain ⟨entry, hentry, _⟩ := id hinfo
    rcases hr.accessTokens hentry with ⟨root, t₀, hroot⟩ | ⟨clientId, t₀, happ⟩
    · obtain ⟨f, clientId, hcode, hlookup⟩ := hr.accessRoot hroot
      obtain ⟨hlive, hvalue⟩ := (hlives (accessRoot_time hroot) hlookup).mp hinfo
      refine .inl ⟨root, clientId, t₀, hroot, hr.codeOf_issuedTo hcode, fun h' => ?_, hvalue⟩
      exact hlive f rfl (hr.revoked.mpr ⟨root, clientId, hcode, h'⟩)
    · exact .inr ⟨clientId, t₀, happ, ((hlives (appGrant_time happ) (hr.appGrant happ)).mp hinfo).2⟩
  · rintro (⟨root, clientId, t₀, hroot, hissued, hreplayed, hvalue⟩ | ⟨clientId, t₀, happ, hvalue⟩)
    · obtain ⟨f, client, hcode, hlookup⟩ := hr.accessRoot hroot
      obtain ⟨f', hcode'⟩ := hr.issuedTo_codeOf hissued
      obtain ⟨rfl, rfl⟩ := hcode.unique hcode'
      refine (hlives (accessRoot_time hroot) hlookup).mpr ⟨?_, hvalue⟩
      rintro _ ⟨⟩ hmem
      obtain ⟨root', client', hcode'', h'⟩ := hr.revoked.mp hmem
      obtain ⟨rfl, rfl⟩ := hw.root_unique hcode hcode''
      exact hreplayed h'
    · refine (hlives (appGrant_time happ) (hr.appGrant happ)).mpr ⟨?_, hvalue⟩
      rintro _ ⟨⟩

/-- **Access tokens, by history.** A token is valid from its issue for its lifetime, as
long as its code is not replayed; the information is exact and never shows zero time left;
an invalid token never becomes valid again; refresh tokens, accepted or refused, change
nothing about the access tokens issued before. -/
theorem accessTokenInfo_exact {st : State}
    (hrun : Server.Run H (Server.new tokenLifetime codeLifetime) h st)
    (hfits : TokenTimesFit tokenLifetime h) :
    (∀ token now info, st.store.accessTokenInfo token now = some info ↔
      ValidToken tokenLifetime h token now info) ∧
    (∀ token now info, st.store.accessTokenInfo token now = some info →
      info.remaining ≠ .zero) ∧
    (∀ token, WasIssued h token → Server.tokenInfo st token = none →
      ∀ h' st', Server.Run H st h' st' → Server.tokenInfo st' token = none) ∧
    ∀ token, WasIssued h token → ∀ clientId refreshToken result s',
      Step H st.store (.refresh clientId refreshToken st.clock.now result) s' →
        ∀ now, s'.accessTokenInfo token now = st.store.accessTokenInfo token now := by
  have hstore := hrun.store .new
  rw [List.append_nil] at hstore
  have hr := hstore.recorded
  refine ⟨fun token now info => accessTokenInfo_iff hstore.wellFormed hr hfits, ?_, ?_, ?_⟩
  · intro token now info hinfo hzero
    obtain ⟨entry, _, _, hlt, _, _, hremaining⟩ := accessTokenInfo_eq_some.mp hinfo
    rw [hzero] at hremaining
    exact absurd hlt (Nat.not_lt.mpr (Nat.sub_eq_zero_iff_le.mp hremaining.symm))
  · intro token hissued hnone h' st' hlater
    obtain ⟨entry, hentry⟩ := hr.wasIssued_iff.mp hissued
    obtain ⟨hentry', hrevoked⟩ := Server.Run.kept hlater hentry
    exact accessTokenInfo_none_mono hentry hentry' hrevoked hlater.clock_le hnone
  · intro token hissued clientId refreshToken result s' hstep now
    obtain ⟨entry, hentry⟩ := hr.wasIssued_iff.mp hissued
    have hentry' := hstep.effect.lookup_accessTokens hentry
    have hrevoked : s'.revokedFamilies = st.store.revokedFamilies := by
      cases hstep.effect <;> rfl
    simp only [accessTokenInfo, hentry, hentry', hrevoked]

/-- The access token of a login one minute after the code was issued. -/
theorem accessTokenInfo_exact_login :
    loginStore.accessTokenInfo "access" minute = some ⟨.user, "web", hour⟩ := by
  have hcode : Server.Run appendixB (Server.new hour hour) [loginIssued] ⟨⟨.zero⟩, codeStore⟩ :=
    .operate .start rfl (.issueCode (show (Store.new hour hour).issueCode "web" _ _ .zero ["code"] =
      some ("code", codeStore, []) from rfl))
  have hlogin : Server.Run appendixB (Server.new hour hour) loginHistory ⟨⟨minute⟩, loginStore⟩ :=
    .operate (.advance minute hcode) rfl (.redeemCode (show codeStore.redeemCode appendixB
      loginRequest minute ["access", "refresh"] =
        some (.ok ⟨"access", some "refresh"⟩, loginStore, []) from rfl))
  have hfits : TokenTimesFit hour loginHistory := by
    intro e hmem hgrant
    simp only [loginHistory, List.mem_cons, List.not_mem_nil, or_false] at hmem
    rcases hmem with rfl | rfl
    · decide
    · cases hgrant
  refine ((accessTokenInfo_exact hlogin hfits).1 "access" minute _).mpr (.inl ?_)
  refine ⟨"code", "web", minute, .inr ⟨rfl, rfl, rfl⟩, ⟨_, _, _, .tail _ (.head _)⟩, ?_, ?_⟩
  · simp [Replayed, Redeemed, loginHistory, loginIssued]
  · exact ⟨by decide, rfl, rfl, by decide⟩

end Rsc.Mock.Store

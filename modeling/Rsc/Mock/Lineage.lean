import Rsc.Mock.Invariant

/-!
What the maps of the store mean, read off the history alone: which codes were issued
and redeemed, from which code a token descends, which refresh tokens were spent and
which codes were replayed. `Recorded` ties each map to its predicate, and every run
keeps it.
-/

namespace Rsc.Mock.Store

open Rsc.Library Rsc.Mock.Pkce

/-! ## Predicates on histories -/

def IssuedTo (h : List Event) (clientId code : String) : Prop :=
  ∃ redirectUri codeChallenge now, .issueCode clientId redirectUri codeChallenge now code ∈ h

/-- An earlier `redeem_code` succeeded on the code. -/
def Redeemed (h : List Event) (code : String) : Prop :=
  ∃ request now issued, .redeemCode request now (.ok issued) ∈ h ∧ request.code = code

/-- An earlier `refresh` succeeded with the token. -/
def Spent (h : List Event) (token : String) : Prop :=
  ∃ clientId now issued, .refresh clientId token now (.ok issued) ∈ h

/-- The client presented the code to `redeem_code` after its redemption. -/
def Replayed (clientId code : String) : List Event → Prop
  | [] => False
  | .redeemCode request _ _ :: h =>
      Replayed clientId code h ∨
        (request.clientId = clientId ∧ request.code = code ∧ Redeemed h code)
  | _ :: h => Replayed clientId code h

/-- The refresh token was returned for the code, or for a refresh token of the code. -/
def RefreshRoot (root : String) : List Event → String → Prop
  | [], _ => False
  | .redeemCode request _ (.ok issued) :: h, token =>
      RefreshRoot root h token ∨ (request.code = root ∧ issued.refreshToken = some token)
  | .refresh _ old _ (.ok issued) :: h, token =>
      RefreshRoot root h token ∨ (RefreshRoot root h old ∧ issued.refreshToken = some token)
  | _ :: h, token => RefreshRoot root h token

/-- The access token was returned at `t₀` for the code, or for a refresh token of the code. -/
def AccessRoot (root : String) (t₀ : Duration) : List Event → String → Prop
  | [], _ => False
  | .redeemCode request now (.ok issued) :: h, token =>
      AccessRoot root t₀ h token ∨ (request.code = root ∧ now = t₀ ∧ issued.accessToken = token)
  | .refresh _ old now (.ok issued) :: h, token =>
      AccessRoot root t₀ h token ∨
        (RefreshRoot root h old ∧ now = t₀ ∧ issued.accessToken = token)
  | _ :: h, token => AccessRoot root t₀ h token

/-- The access token was returned at `t₀` by the client credentials grant. -/
def AppGrant (h : List Event) (clientId : String) (t₀ : Duration) (token : String) : Prop :=
  ∃ issued, .issueAppToken clientId t₀ issued ∈ h ∧ issued.accessToken = token

theorem redeemed_cons {e : Event} {h : List Event} {code : String} : Redeemed (e :: h) code ↔
    Redeemed h code ∨
      ∃ request now issued, e = .redeemCode request now (.ok issued) ∧ request.code = code := by
  simp only [Redeemed, List.mem_cons]
  grind

theorem spent_cons {e : Event} {h : List Event} {token : String} : Spent (e :: h) token ↔
    Spent h token ∨ ∃ clientId now issued, e = .refresh clientId token now (.ok issued) := by
  simp only [Spent, List.mem_cons]
  grind

theorem appGrant_cons {e : Event} {h : List Event} {clientId token : String} {t₀ : Duration} :
    AppGrant (e :: h) clientId t₀ token ↔ AppGrant h clientId t₀ token ∨
      ∃ issued, e = .issueAppToken clientId t₀ issued ∧ issued.accessToken = token := by
  simp only [AppGrant, List.mem_cons]
  grind

theorem Replayed.redeemed {clientId code : String} {h : List Event}
    (hr : Replayed clientId code h) : Redeemed h code := by
  induction h with
  | nil => cases hr
  | cons e h ih =>
    cases e with
    | redeemCode request now result =>
      rcases hr with hr | ⟨_, _, hr⟩
      · exact redeemed_cons.mpr (.inl (ih hr))
      · exact redeemed_cons.mpr (.inl hr)
    | _ => exact redeemed_cons.mpr (.inl (ih hr))

/-! ## The maps and the history -/

/-- The code opened this family for this client. -/
def CodeOf (s : Store) (root : String) (family : FamilyId) (clientId : String) : Prop :=
  ∃ code, s.codes.lookup root = some code ∧ code.family = family ∧ code.clientId = clientId

/-- The refresh token belongs to this family of this client. -/
def RefreshOf (s : Store) (token : String) (family : FamilyId) (clientId : String) : Prop :=
  ∃ entry, s.refreshTokens.lookup token = some entry ∧ entry.family = family ∧
    entry.clientId = clientId

theorem codeOf_redeem {s : Store} {request : CodeRedemption} {code : AuthCode} {root : String}
    {f : FamilyId} {clientId : String} (hcode : s.codes.lookup request.code = some code) :
    (s.redeem request code).CodeOf root f clientId ↔ s.CodeOf root f clientId := by
  simp only [CodeOf, redeem, lookup_insert_eq]
  by_cases h : root = request.code
  · subst h
    simp [hcode]
  · simp [h]

theorem codeOf_issue {s : Store} {c : String} {code : AuthCode} {root : String}
    {f : FamilyId} {clientId : String} (hc : s.Unused c) :
    (s.issue c code).CodeOf root f clientId ↔ s.CodeOf root f clientId ∨
      (root = c ∧ f = code.family ∧ clientId = code.clientId) := by
  have hnone := (lookup_eq_none_of_unused hc).1
  simp only [CodeOf, issue, lookup_insert_eq]
  by_cases h : root = c
  · subst h
    simp [hnone, @eq_comm _ f, @eq_comm _ clientId]
  · simp [h]

theorem refreshOf_spend {s : Store} {old token : String} {entry : RefreshToken} {f : FamilyId}
    {clientId : String} (hold : s.refreshTokens.lookup old = some entry) :
    (s.spend old entry).RefreshOf token f clientId ↔ s.RefreshOf token f clientId := by
  simp only [RefreshOf, spend, lookup_insert_eq]
  by_cases h : token = old
  · subst h
    simp [hold]
  · simp [h]

theorem refreshOf_grant {s : Store} {clientId client access refresh token : String}
    {f g : FamilyId} {now : Duration} (hrefresh : refresh ∉ s.refreshTokens) :
    (s.grant clientId f now access refresh).RefreshOf token g client ↔
      s.RefreshOf token g client ∨ (token = refresh ∧ g = f ∧ client = clientId) := by
  have hnone : s.refreshTokens.lookup refresh = none := Finmap.lookup_eq_none.mpr hrefresh
  simp only [RefreshOf, grant, lookup_insert_eq]
  by_cases h : token = refresh
  · subst h
    simp [hnone, @eq_comm _ f, @eq_comm _ clientId]
  · simp [h]

theorem Linked.root_unique {s : Store} {root₁ root₂ c₁ c₂ : String} {f : FamilyId}
    (hs : s.Linked) (h₁ : s.CodeOf root₁ f c₁) (h₂ : s.CodeOf root₂ f c₂) :
    root₁ = root₂ ∧ c₁ = c₂ := by
  obtain ⟨code₁, hroot₁, rfl, rfl⟩ := h₁
  obtain ⟨code₂, hroot₂, hf, rfl⟩ := h₂
  obtain rfl := hs.family_inj hroot₁ hroot₂ hf.symm
  rw [Option.some.inj (hroot₁.symm.trans hroot₂)]
  exact ⟨rfl, rfl⟩

/-- Each map holds exactly what the history says. -/
structure Recorded (tokenLifetime codeLifetime : Duration) (h : List Event) (s : Store) :
    Prop where
  tokenLifetime_eq : s.accessTokenLifetime = tokenLifetime
  codeLifetime_eq : s.authorizationCodeLifetime = codeLifetime
  codes : ∀ {clientId redirectUri codeChallenge now c},
    .issueCode clientId redirectUri codeChallenge now c ∈ h ↔
      ∃ family redeemed, s.codes.lookup c =
        some ⟨clientId, redirectUri, codeChallenge, now, family, redeemed⟩
  redeemed : ∀ {c}, Redeemed h c ↔ ∃ code, s.codes.lookup c = some code ∧ code.redeemed = true
  refreshTokens : ∀ {root token}, RefreshRoot root h token ↔
    ∃ family clientId, s.RefreshOf token family clientId ∧ s.CodeOf root family clientId
  spent : ∀ {token}, Spent h token ↔
    ∃ entry, s.refreshTokens.lookup token = some entry ∧ entry.spent = true
  accessRoot : ∀ {root t₀ token}, AccessRoot root t₀ h token →
    ∃ family clientId, s.CodeOf root family clientId ∧ s.accessTokens.lookup token =
      some ⟨.user, clientId, t₀.saturatingAdd tokenLifetime, some family⟩
  appGrant : ∀ {clientId t₀ token}, AppGrant h clientId t₀ token →
    s.accessTokens.lookup token = some ⟨.app, clientId, t₀.saturatingAdd tokenLifetime, none⟩
  accessTokens : ∀ {token entry}, s.accessTokens.lookup token = some entry →
    (∃ root t₀, AccessRoot root t₀ h token) ∨ ∃ clientId t₀, AppGrant h clientId t₀ token
  revoked : ∀ {f}, f ∈ s.revokedFamilies ↔
    ∃ c clientId, s.CodeOf c f clientId ∧ Replayed clientId c h

variable {tokenLifetime codeLifetime : Duration}

theorem Recorded.new :
    Recorded tokenLifetime codeLifetime [] (Store.new tokenLifetime codeLifetime) := by
  constructor <;> simp [Store.new, Redeemed, RefreshRoot, RefreshOf, Spent, AccessRoot,
    AppGrant, Replayed]

/-! ## Preservation, one operation at a time -/

theorem Recorded.not_redeemed_of_unused {h : List Event} {s : Store} {c : String}
    (hr : Recorded tokenLifetime codeLifetime h s) (hc : s.Unused c) : ¬ Redeemed h c := by
  intro h'
  obtain ⟨code, hcode, _⟩ := hr.redeemed.mp h'
  simp [(lookup_eq_none_of_unused hc).1] at hcode

theorem Recorded.not_accessRoot_of_unused {h : List Event} {s : Store} {c root : String}
    {t₀ : Duration} (hr : Recorded tokenLifetime codeLifetime h s) (hc : s.Unused c) :
    ¬ AccessRoot root t₀ h c := by
  intro h'
  obtain ⟨_, _, _, hlookup⟩ := hr.accessRoot h'
  simp [(lookup_eq_none_of_unused hc).2.1] at hlookup

theorem Recorded.not_appGrant_of_unused {h : List Event} {s : Store} {c clientId : String}
    {t₀ : Duration} (hr : Recorded tokenLifetime codeLifetime h s) (hc : s.Unused c) :
    ¬ AppGrant h clientId t₀ c := by
  intro h'
  have hlookup := hr.appGrant h'
  simp [(lookup_eq_none_of_unused hc).2.1] at hlookup

theorem Recorded.issued {h : List Event} {s : Store} {clientId redirectUri codeChallenge c : String}
    {now : Duration} (hw : s.WellFormed) (hr : Recorded tokenLifetime codeLifetime h s)
    (hc : s.Unused c) :
    Recorded tokenLifetime codeLifetime
      (.issueCode clientId redirectUri codeChallenge now c :: h)
      (s.issue c ⟨clientId, redirectUri, codeChallenge, now, ⟨s.nextFamily⟩, false⟩) := by
  have hnone := (lookup_eq_none_of_unused hc).1
  constructor
  · exact hr.tokenLifetime_eq
  · exact hr.codeLifetime_eq
  · intro clientId' redirectUri' codeChallenge' now' c'
    simp only [List.mem_cons, hr.codes, issue, lookup_insert_eq]
    by_cases h : c' = c
    · subst h
      simp [hnone, @eq_comm _ clientId, @eq_comm _ redirectUri, @eq_comm _ codeChallenge,
        @eq_comm _ now]
    · simp [h]
  · intro c'
    simp only [redeemed_cons, hr.redeemed, issue, lookup_insert_eq]
    by_cases h : c' = c
    · subst h
      simp [hnone]
    · simp [h]
  · intro root token
    simp only [RefreshRoot, hr.refreshTokens]
    refine exists_congr fun f => exists_congr fun client => and_congr_right fun hentry => ?_
    rw [codeOf_issue hc]
    -- no token can carry the family that the code opens
    obtain ⟨entry, hentry, rfl, _⟩ := hentry
    obtain ⟨root', code', hroot', hf, _⟩ := hw.refresh_code hentry
    have hne : entry.family ≠ ⟨s.nextFamily⟩ := by
      rw [← hf]
      intro h
      exact absurd (hw.family_lt hroot') (by simp [h])
    simp [hne]
  · intro token
    simp [spent_cons, hr.spent, issue]
  · intro root t₀ token htoken
    obtain ⟨family, client, hcode, haccess⟩ := hr.accessRoot htoken
    exact ⟨family, client, (codeOf_issue hc).mpr (.inl hcode), haccess⟩
  · intro client t₀ token htoken
    simp only [appGrant_cons, reduceCtorEq, false_and, exists_false, or_false] at htoken
    exact hr.appGrant htoken
  · intro token entry hentry
    simp only [AccessRoot, appGrant_cons, reduceCtorEq, false_and, exists_false, or_false]
    exact hr.accessTokens hentry
  · intro f
    refine hr.revoked.trans ?_
    simp only [Replayed, codeOf_issue hc]
    refine exists_congr fun c' => exists_congr fun client => ?_
    have := hr.not_redeemed_of_unused hc
    constructor
    · rintro ⟨h₁, h₂⟩
      exact ⟨.inl h₁, h₂⟩
    · rintro ⟨h₁ | ⟨rfl, _⟩, h₂⟩
      · exact ⟨h₁, h₂⟩
      · exact absurd h₂.redeemed this

/-- A redemption, refused or a replay, that gives no tokens. -/
theorem Recorded.refusedRedemption {h : List Event} {s : Store} {request : CodeRedemption}
    {now : Duration} {families : Finset FamilyId}
    (hr : Recorded tokenLifetime codeLifetime h s)
    (hfamilies : ∀ f, f ∈ families ↔ f ∈ s.revokedFamilies ∨
      (s.CodeOf request.code f request.clientId ∧ Redeemed h request.code)) :
    Recorded tokenLifetime codeLifetime (.redeemCode request now (.error .invalidGrant) :: h)
      { s with revokedFamilies := families } where
  tokenLifetime_eq := hr.tokenLifetime_eq
  codeLifetime_eq := hr.codeLifetime_eq
  codes := by simp [hr.codes]
  redeemed := by simp [redeemed_cons, hr.redeemed]
  refreshTokens := hr.refreshTokens
  spent := by simp [spent_cons, hr.spent]
  accessRoot := hr.accessRoot
  appGrant htoken := hr.appGrant (by simpa [appGrant_cons] using htoken)
  accessTokens hentry := by simpa [AccessRoot, appGrant_cons] using hr.accessTokens hentry
  revoked := by
    intro f
    rw [hfamilies, hr.revoked]
    constructor
    · rintro (⟨c, client, hcode, hreplayed⟩ | ⟨hcode, hredeemed⟩)
      · exact ⟨c, client, hcode, .inl hreplayed⟩
      · exact ⟨request.code, request.clientId, hcode, .inr ⟨rfl, rfl, hredeemed⟩⟩
    · rintro ⟨c, client, hcode, hreplayed | ⟨rfl, rfl, hredeemed⟩⟩
      · exact .inl ⟨c, client, hcode, hreplayed⟩
      · exact .inr ⟨hcode, hredeemed⟩

theorem Recorded.refusedRefresh {h : List Event} {s : Store} {clientId token : String}
    {now : Duration} (hr : Recorded tokenLifetime codeLifetime h s) :
    Recorded tokenLifetime codeLifetime (.refresh clientId token now (.error .invalidGrant) :: h)
      s where
  tokenLifetime_eq := hr.tokenLifetime_eq
  codeLifetime_eq := hr.codeLifetime_eq
  codes := by simp [hr.codes]
  redeemed := by simp [redeemed_cons, hr.redeemed]
  refreshTokens := hr.refreshTokens
  spent := by simp [spent_cons, hr.spent]
  accessRoot := hr.accessRoot
  appGrant htoken := hr.appGrant (by simpa [appGrant_cons] using htoken)
  accessTokens hentry := by simpa [AccessRoot, appGrant_cons] using hr.accessTokens hentry
  revoked := hr.revoked

theorem Recorded.appToken {h : List Event} {s : Store} {clientId access : String}
    {now : Duration} (hr : Recorded tokenLifetime codeLifetime h s) (haccess : s.Unused access) :
    Recorded tokenLifetime codeLifetime (.issueAppToken clientId now ⟨access, none⟩ :: h)
      (s.grantApp clientId now access) where
  tokenLifetime_eq := hr.tokenLifetime_eq
  codeLifetime_eq := hr.codeLifetime_eq
  codes := by simp [hr.codes, grantApp]
  redeemed := by simp [redeemed_cons, hr.redeemed, grantApp]
  refreshTokens := hr.refreshTokens
  spent := by simp [spent_cons, hr.spent, grantApp]
  accessRoot := by
    intro root t₀ token htoken
    obtain ⟨family, client, hcode, hlookup⟩ := hr.accessRoot htoken
    refine ⟨family, client, hcode, ?_⟩
    rw [grantApp, lookup_insert_eq, if_neg, hlookup]
    rintro rfl
    exact hr.not_accessRoot_of_unused haccess htoken
  appGrant := by
    intro client t₀ token htoken
    rw [grantApp, lookup_insert_eq]
    rcases appGrant_cons.mp htoken with hold | ⟨_, heq, hnew⟩
    · rw [if_neg, hr.appGrant hold]
      rintro rfl
      exact hr.not_appGrant_of_unused haccess hold
    · cases heq
      rw [if_pos hnew.symm, hr.tokenLifetime_eq]
  accessTokens := by
    intro token entry hentry
    simp only [grantApp, lookup_insert_eq] at hentry
    split at hentry
    · rename_i heq
      exact .inr ⟨clientId, now, appGrant_cons.mpr (.inr ⟨_, rfl, heq.symm⟩)⟩
    · apply (hr.accessTokens hentry).imp_right
      rintro ⟨client, t₀, h'⟩
      exact ⟨client, t₀, appGrant_cons.mpr (.inl h')⟩
  revoked := hr.revoked

/-- The pair of user tokens of a successful `redeem_code` or `refresh`. Before it, the
operation may have marked the code as redeemed or the presented token as spent. -/
theorem Recorded.granted {h : List Event} {e : Event} {s s₁ : Store}
    {clientId access refresh : String} {f : FamilyId} {now : Duration}
    (hr : Recorded tokenLifetime codeLifetime h s) (haccess : s.Unused access)
    (hrefresh : refresh ∉ s₁.refreshTokens)
    (hsame : s₁ = { s with codes := s₁.codes, refreshTokens := s₁.refreshTokens })
    (hcodeOf : ∀ {root g c}, s₁.CodeOf root g c ↔ s.CodeOf root g c)
    (hrefreshOf : ∀ {token g c}, s₁.RefreshOf token g c ↔ s.RefreshOf token g c)
    (hcodes : ∀ {clientId redirectUri codeChallenge now c},
      .issueCode clientId redirectUri codeChallenge now c ∈ e :: h ↔
        ∃ family redeemed, s₁.codes.lookup c =
          some ⟨clientId, redirectUri, codeChallenge, now, family, redeemed⟩)
    (hredeemed : ∀ {c}, Redeemed (e :: h) c ↔
      ∃ code, s₁.codes.lookup c = some code ∧ code.redeemed = true)
    (hspent : ∀ {token}, Spent (e :: h) token ↔
      ∃ entry, s₁.refreshTokens.lookup token = some entry ∧ entry.spent = true)
    (hreplayed : ∀ {root c}, Replayed c root (e :: h) ↔ Replayed c root h)
    (hroot : ∀ {root token}, RefreshRoot root (e :: h) token ↔ RefreshRoot root h token ∨
      (s.CodeOf root f clientId ∧ token = refresh))
    (haccessRoot : ∀ {root t₀ token}, AccessRoot root t₀ (e :: h) token ↔
      AccessRoot root t₀ h token ∨ (s.CodeOf root f clientId ∧ t₀ = now ∧ token = access))
    (happ : ∀ {client t₀ token}, AppGrant (e :: h) client t₀ token ↔ AppGrant h client t₀ token)
    (hf : ∃ root, s.CodeOf root f clientId) :
    Recorded tokenLifetime codeLifetime (e :: h) (s₁.grant clientId f now access refresh) where
  tokenLifetime_eq := by rw [hsame]; exact hr.tokenLifetime_eq
  codeLifetime_eq := by rw [hsame]; exact hr.codeLifetime_eq
  codes := hcodes
  redeemed := hredeemed
  refreshTokens := by
    intro root token
    simp only [hroot, hr.refreshTokens, refreshOf_grant hrefresh, hrefreshOf]
    constructor
    · rintro (⟨g, client, htoken, hcode⟩ | ⟨hcode, rfl⟩)
      · exact ⟨g, client, .inl htoken, hcodeOf.mpr hcode⟩
      · exact ⟨f, clientId, .inr ⟨rfl, rfl, rfl⟩, hcodeOf.mpr hcode⟩
    · rintro ⟨g, client, htoken | ⟨rfl, rfl, rfl⟩, hcode⟩
      · exact .inl ⟨g, client, htoken, hcodeOf.mp hcode⟩
      · exact .inr ⟨hcodeOf.mp hcode, rfl⟩
  spent := by
    intro token
    rw [hspent]
    apply exists_congr
    intro entry
    simp only [grant, lookup_insert_eq]
    by_cases htoken : token = refresh
    · subst htoken
      simp only [Finmap.lookup_eq_none.mpr hrefresh, reduceCtorEq, false_and, if_true,
        Option.some.injEq, false_iff, not_and]
      rintro rfl
      simp
    · simp [htoken]
  accessRoot := by
    intro root t₀ token htoken
    have hlifetime : s₁.accessTokenLifetime = tokenLifetime := by
      rw [hsame]
      exact hr.tokenLifetime_eq
    simp only [grant, lookup_insert_eq]
    rcases haccessRoot.mp htoken with htoken | ⟨hcode, rfl, rfl⟩
    · obtain ⟨g, client, hcode, hlookup⟩ := hr.accessRoot htoken
      refine ⟨g, client, hcodeOf.mpr hcode, ?_⟩
      rw [if_neg, hsame, hlookup]
      rintro rfl
      exact hr.not_accessRoot_of_unused haccess htoken
    · exact ⟨f, clientId, hcodeOf.mpr hcode, by rw [if_pos rfl, hlifetime]⟩
  appGrant := by
    intro client t₀ token htoken
    have htoken := happ.mp htoken
    simp only [grant, lookup_insert_eq]
    rw [if_neg, hsame, hr.appGrant htoken]
    rintro rfl
    exact hr.not_appGrant_of_unused haccess htoken
  accessTokens := by
    intro token entry hentry
    simp only [grant, lookup_insert_eq] at hentry
    simp only [haccessRoot, happ]
    split at hentry
    · rename_i heq
      obtain ⟨root, hroot⟩ := hf
      exact .inl ⟨root, now, .inr ⟨hroot, rfl, heq⟩⟩
    · rw [hsame] at hentry
      apply (hr.accessTokens hentry).imp_left
      rintro ⟨root, t₀, h'⟩
      exact ⟨root, t₀, .inl h'⟩
  revoked := by
    intro g
    have : (s₁.grant clientId f now access refresh).revokedFamilies = s.revokedFamilies := by
      rw [hsame]
      rfl
    rw [this, hr.revoked]
    refine exists_congr fun c => exists_congr fun client => ?_
    rw [hreplayed]
    exact and_congr_left fun _ => hcodeOf.symm

theorem Recorded.redeemOk {h : List Event} {s : Store} {request : CodeRedemption}
    {now : Duration} {code : AuthCode} {access refresh : String} (hw : s.WellFormed)
    (hr : Recorded tokenLifetime codeLifetime h s)
    (hlookup : s.codes.lookup request.code = some code)
    (hclient : code.clientId = request.clientId) (hredeemed : code.redeemed = false)
    (haccess : s.Unused access) (hrefresh : s.Unused refresh) :
    Recorded tokenLifetime codeLifetime
      (.redeemCode request now (.ok ⟨access, some refresh⟩) :: h)
      ((s.redeem request code).grant request.clientId code.family now access refresh) := by
  have hroot : ∀ root, s.CodeOf root code.family request.clientId ↔ request.code = root := by
    intro root
    have hcode : s.CodeOf request.code code.family request.clientId := ⟨code, hlookup, rfl, hclient⟩
    constructor
    · exact fun h' => (hw.root_unique hcode h').1
    · rintro rfl
      exact hcode
  have hfirst : ¬ Redeemed h request.code := by
    intro h'
    obtain ⟨code', hcode', h'⟩ := hr.redeemed.mp h'
    rw [Option.some.inj (hlookup.symm.trans hcode'), h'] at hredeemed
    cases hredeemed
  refine hr.granted haccess hrefresh.2.2 rfl (codeOf_redeem hlookup) Iff.rfl ?_ ?_ ?_ ?_ ?_ ?_ ?_
    ⟨_, (hroot _).mpr rfl⟩
  · intro clientId redirectUri codeChallenge now' c
    simp only [List.mem_cons, reduceCtorEq, false_or, hr.codes, redeem, lookup_insert_eq]
    by_cases h' : c = request.code
    · subst h'
      cases code
      simp [hlookup]
    · simp [h']
  · intro c
    simp only [redeemed_cons, hr.redeemed, redeem, lookup_insert_eq]
    by_cases h' : c = request.code
    · subst h'
      simp
    · simp [h', @eq_comm _ request.code]
  · intro token
    simp [spent_cons, hr.spent, redeem]
  · intro root c
    simp only [Replayed, or_iff_left_iff_imp, and_imp]
    rintro rfl rfl h'
    exact absurd h' hfirst
  · intro root token
    simp only [RefreshRoot, hroot, Option.some.injEq, @eq_comm _ refresh]
  · intro root t₀ token
    simp only [AccessRoot, hroot, @eq_comm _ now, @eq_comm _ access]
  · intro client t₀ token
    simp [appGrant_cons]

theorem Recorded.refreshOk {h : List Event} {s : Store} {clientId token access refresh : String}
    {now : Duration} {entry : RefreshToken} (hw : s.WellFormed)
    (hr : Recorded tokenLifetime codeLifetime h s)
    (hlookup : s.refreshTokens.lookup token = some entry) (hclient : entry.clientId = clientId)
    (haccess : s.Unused access) (hrefresh : s.Unused refresh) :
    Recorded tokenLifetime codeLifetime
      (.refresh clientId token now (.ok ⟨access, some refresh⟩) :: h)
      ((s.spend token entry).grant clientId entry.family now access refresh) := by
  have hroot : ∀ root, RefreshRoot root h token ↔ s.CodeOf root entry.family clientId := by
    intro root
    rw [hr.refreshTokens]
    constructor
    · rintro ⟨f, client, ⟨entry', hentry', rfl, rfl⟩, hcode⟩
      rw [← Option.some.inj (hlookup.symm.trans hentry'), hclient] at hcode
      exact hcode
    · exact fun hcode => ⟨_, _, ⟨entry, hlookup, rfl, hclient⟩, hcode⟩
  have hnew : refresh ∉ (s.spend token entry).refreshTokens := (hrefresh.spend hlookup).2.2
  have hf : ∃ root, s.CodeOf root entry.family clientId := by
    obtain ⟨root, code, hcode, hf, hc, _⟩ := hw.refresh_code hlookup
    exact ⟨root, code, hcode, hf, hc.trans hclient⟩
  refine hr.granted haccess hnew rfl Iff.rfl (refreshOf_spend hlookup) ?_ ?_ ?_ ?_ ?_ ?_ ?_ hf
  · simp [hr.codes, spend]
  · simp [redeemed_cons, hr.redeemed, spend]
  · intro token'
    simp only [spent_cons, hr.spent, spend, lookup_insert_eq]
    by_cases h' : token' = token
    · subst h'
      simp
    · simp [h', @eq_comm _ token]
  · intro root c
    rfl
  · intro root token'
    simp only [RefreshRoot, hroot, Option.some.injEq, @eq_comm _ refresh]
  · intro root t₀ token'
    simp only [AccessRoot, hroot, @eq_comm _ now, @eq_comm _ access]
  · intro client t₀ token'
    simp [appGrant_cons]

/-- **Preservation.** Every operation keeps the maps in step with the history. -/
theorem Recorded.effect {H : Hashing} {h : List Event} {s s' : Store} {e : Event}
    (hw : s.WellFormed) (hr : Recorded tokenLifetime codeLifetime h s) (he : Effect H s e s') :
    Recorded tokenLifetime codeLifetime (e :: h) s' := by
  cases he with
  | issued hcode => exact hr.issued hw hcode
  | redeemRefused _ hfirst =>
    refine hr.refusedRedemption fun f => ?_
    rw [or_iff_left]
    rintro ⟨⟨code, hlookup, _, hclient⟩, hredeemed⟩
    obtain ⟨code', hlookup', h'⟩ := hr.redeemed.mp hredeemed
    rw [← Option.some.inj (hlookup.symm.trans hlookup')] at h'
    exact hfirst code ⟨hlookup, hclient, h'⟩
  | @replayed request now code hreplay =>
    obtain ⟨hlookup, hclient, hredeemed⟩ := hreplay
    refine hr.refusedRedemption fun f => ?_
    rw [Finset.mem_insert, or_comm]
    refine or_congr_right ⟨?_, ?_⟩
    · rintro rfl
      exact ⟨⟨code, hlookup, rfl, hclient⟩, hr.redeemed.mpr ⟨code, hlookup, hredeemed⟩⟩
    · rintro ⟨⟨code', hlookup', rfl, _⟩, _⟩
      rw [Option.some.inj (hlookup.symm.trans hlookup')]
  | redeemed hcode haccess hrefresh _ =>
    exact hr.redeemOk hw hcode.1 hcode.2.1 hcode.2.2.1 haccess hrefresh
  | refreshRefused => exact hr.refusedRefresh
  | refreshed hentry haccess hrefresh _ =>
    exact hr.refreshOk hw hentry.1 hentry.2.1 haccess hrefresh
  | appToken haccess => exact hr.appToken haccess

/-- **Recorded runs.** In every reachable store each map holds what the history says. -/
theorem Run.recorded {H : Hashing} {h : List Event} {s : Store}
    (hrun : Run H tokenLifetime codeLifetime h s) : Recorded tokenLifetime codeLifetime h s := by
  induction hrun with
  | new => exact .new
  | step hprev hstep ih => exact ih.effect hprev.wellFormed hstep.effect

end Rsc.Mock.Store

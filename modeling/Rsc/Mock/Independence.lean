import Rsc.Mock.Credentials

/-!
Sessions do not interfere. A run of the server is compared with the run that is left when
every call that does not concern one authorization is deleted. The stores of the two runs
hold different families: the relation `Part` renames the one of the authorization.
-/

namespace Rsc.Mock.Store

open Rsc.Library Rsc.Mock.Pkce

/-! ## Calls and their candidates -/

/-- One operation of the code on the candidates of the list. -/
inductive Call (H : Hashing) (s : Store) : Event → List String → Store → Prop
  | issueCode {clientId redirectUri codeChallenge code : String} {now : Duration}
      {draws rest : List String} {s' : Store}
      (h : s.issueCode clientId redirectUri codeChallenge now draws = some (code, s', rest)) :
      Call H s (.issueCode clientId redirectUri codeChallenge now code) draws s'
  | redeemCode {request : CodeRedemption} {now : Duration}
      {result : Except InvalidGrant Issued} {draws rest : List String} {s' : Store}
      (h : s.redeemCode H request now draws = some (result, s', rest)) :
      Call H s (.redeemCode request now result) draws s'
  | refresh {clientId refreshToken : String} {now : Duration}
      {result : Except InvalidGrant Issued} {draws rest : List String} {s' : Store}
      (h : s.refresh clientId refreshToken now draws = some (result, s', rest)) :
      Call H s (.refresh clientId refreshToken now result) draws s'
  | issueAppToken {clientId : String} {now : Duration} {issued : Issued}
      {draws rest : List String} {s' : Store}
      (h : s.issueAppToken clientId now draws = some (issued, s', rest)) :
      Call H s (.issueAppToken clientId now issued) draws s'

variable {H : Hashing} {s s' t : Store} {e : Event} {draws rest : List String}

theorem Call.step (h : Call H s e draws s') : Step H s e s' := by
  cases h with
  | issueCode h => exact .issueCode h
  | redeemCode h => exact .redeemCode h
  | refresh h => exact .refresh h
  | issueAppToken h => exact .issueAppToken h

/-- Nothing was ever issued under one of the candidates, and they are all different. -/
structure Fresh (s : Store) (draws : List String) : Prop where
  unused : ∀ c ∈ draws, s.Unused c
  nodup : draws.Nodup

theorem Fresh.freshCredential {c : String} (h : Fresh s draws)
    (hc : s.freshCredential draws = some (c, rest)) : draws = c :: rest := by
  cases draws with
  | nil => cases hc
  | cons candidate draws =>
    rw [freshCredential_cons _ (h.unused _ (.head _))] at hc
    cases hc
    rfl

theorem Fresh.two {access refresh : String} (h : Fresh s (access :: refresh :: rest)) :
    s.Unused access ∧ s.Unused refresh ∧ refresh ≠ access := by
  refine ⟨h.unused _ (.head _), h.unused _ (.tail _ (.head _)), ?_⟩
  rintro rfl
  exact (List.nodup_cons.mp h.nodup).1 (.head _)

/-- On fresh candidates the pair of tokens is the first two of them. -/
theorem Fresh.issueUserTokens {clientId : String} {family : FamilyId} {now : Duration}
    {issued : Issued} (h : Fresh s draws)
    (hissued : s.issueUserTokens clientId family now draws = some (issued, s', rest)) :
    ∃ access refresh, draws = access :: refresh :: rest ∧ issued = ⟨access, some refresh⟩ ∧
      s' = s.grant clientId family now access refresh := by
  cases draws with
  | nil => cases hissued
  | cons access draws =>
    cases draws with
    | nil =>
      simp only [Store.issueUserTokens, insertAccessToken,
        freshCredential_cons _ (h.unused _ (.head _)), Option.bind_eq_bind, Option.bind_some,
        Option.pure_def] at hissued
      cases hissued
    | cons refresh draws =>
      obtain ⟨haccess, hrefresh, hne⟩ := h.two
      rw [issueUserTokens_returns clientId family now draws haccess hrefresh hne] at hissued
      cases hissued
      exact ⟨access, refresh, rfl, rfl, rfl⟩

/-! ## One authorization of a store -/

/-- `t` is what `s` holds of one authorization. Its family is `f` in `s`, and the first one
in `t`. -/
structure Part (root : String) (f : FamilyId) (s t : Store) : Prop where
  tokenLifetime : t.accessTokenLifetime = s.accessTokenLifetime
  codeLifetime : t.authorizationCodeLifetime = s.authorizationCodeLifetime
  codes : ∀ c, t.codes.lookup c =
    if c = root then (s.codes.lookup c).map fun code => { code with family := ⟨0⟩ } else none
  accessTokens : ∀ c, t.accessTokens.lookup c =
    ((s.accessTokens.lookup c).filter fun entry => entry.family = some f).map
      fun entry => { entry with family := some ⟨0⟩ }
  refreshTokens : ∀ c, t.refreshTokens.lookup c =
    ((s.refreshTokens.lookup c).filter fun entry => entry.family = f).map
      fun entry => { entry with family := ⟨0⟩ }
  revoked : ⟨0⟩ ∈ t.revokedFamilies ↔ f ∈ s.revokedFamilies
  nextFamily_le : t.nextFamily ≤ s.nextFamily
  first : root ∉ s.codes → t.nextFamily = 0

variable {root : String} {f : FamilyId}

theorem Part.new {tokenLifetime codeLifetime : Duration} :
    Part root f (Store.new tokenLifetime codeLifetime) (Store.new tokenLifetime codeLifetime) := by
  constructor <;> simp [Store.new]

theorem Part.unused {c : String} (h : Part root f s t) (hc : s.Unused c) : t.Unused c := by
  obtain ⟨hcodes, haccess, hrefresh⟩ := lookup_eq_none_of_unused hc
  refine ⟨?_, ?_, ?_⟩ <;> refine Finmap.lookup_eq_none.mp ?_
  · rw [h.codes, hcodes]
    simp
  · rw [h.accessTokens, haccess]
    rfl
  · rw [h.refreshTokens, hrefresh]
    rfl

theorem Part.fresh (h : Part root f s t) (hdraws : Fresh s draws) : Fresh t draws :=
  ⟨fun c hc => h.unused (hdraws.unused c hc), hdraws.nodup⟩

/-! ### Updates of the authorization -/

theorem Part.issue {code : AuthCode} (h : Part root f s t) :
    Part root f (s.issue root code) (t.issue root { code with family := ⟨0⟩ }) := by
  refine ⟨h.tokenLifetime, h.codeLifetime, fun c => ?_, h.accessTokens, h.refreshTokens, h.revoked,
    Nat.succ_le_succ h.nextFamily_le, fun hroot => ?_⟩
  · simp only [Store.issue, lookup_insert_eq, h.codes]
    by_cases hc : c = root
    · simp [hc]
    · simp [hc]
  · exact absurd (Finmap.mem_insert.mpr (.inl rfl)) hroot

theorem Part.revoke (h : Part root f s t) : Part root f (s.revoke f) (t.revoke ⟨0⟩) := by
  refine ⟨h.tokenLifetime, h.codeLifetime, h.codes, h.accessTokens, h.refreshTokens, ?_,
    h.nextFamily_le, h.first⟩
  simp [Store.revoke]

theorem Part.redeem {request : CodeRedemption} {code : AuthCode} (h : Part root f s t)
    (hrequest : request.code = root) (hcode : s.codes.lookup root = some code) :
    Part root f (s.redeem request code) (t.redeem request { code with family := ⟨0⟩ }) := by
  subst hrequest
  refine ⟨h.tokenLifetime, h.codeLifetime, fun c => ?_, h.accessTokens, h.refreshTokens, h.revoked,
    h.nextFamily_le, fun hroot => ?_⟩
  · simp only [Store.redeem, lookup_insert_eq, h.codes]
    by_cases hc : c = request.code
    · simp [hc]
    · simp [hc]
  · exact absurd (Finmap.mem_insert.mpr (.inl rfl)) hroot

theorem Part.spend {token : String} {entry : RefreshToken} (h : Part root f s t)
    (hfamily : entry.family = f) :
    Part root f (s.spend token entry) (t.spend token { entry with family := ⟨0⟩ }) := by
  refine ⟨h.tokenLifetime, h.codeLifetime, h.codes, h.accessTokens, fun c => ?_, h.revoked,
    h.nextFamily_le, h.first⟩
  simp only [Store.spend, lookup_insert_eq, h.refreshTokens]
  by_cases hc : c = token
  · simp [hc, hfamily]
  · simp [hc]

theorem Part.grant {clientId access refresh : String} {now : Duration} (h : Part root f s t) :
    Part root f (s.grant clientId f now access refresh)
      (t.grant clientId ⟨0⟩ now access refresh) := by
  refine ⟨h.tokenLifetime, h.codeLifetime, h.codes, fun c => ?_, fun c => ?_, h.revoked,
    h.nextFamily_le, h.first⟩
  · simp only [Store.grant, lookup_insert_eq, h.accessTokens, h.tokenLifetime]
    by_cases hc : c = access
    · simp [hc]
    · simp [hc]
  · simp only [Store.grant, lookup_insert_eq, h.refreshTokens]
    by_cases hc : c = refresh
    · simp [hc]
    · simp [hc]

/-! ### Updates of another one -/

theorem Part.issue_other {code : AuthCode} {c : String} (h : Part root f s t) (hc : c ≠ root) :
    Part root f (s.issue c code) t := by
  refine ⟨h.tokenLifetime, h.codeLifetime, fun c' => ?_, h.accessTokens, h.refreshTokens, h.revoked,
    h.nextFamily_le.trans (Nat.le_succ _), fun hroot => h.first fun hmem => ?_⟩
  · simp only [Store.issue, lookup_insert_eq, h.codes]
    by_cases hc' : c' = root
    · simp [hc', hc.symm]
    · simp [hc']
  · exact hroot (Finmap.mem_insert.mpr (.inr hmem))

theorem Part.revoke_other {g : FamilyId} (h : Part root f s t) (hg : g ≠ f) :
    Part root f (s.revoke g) t := by
  refine ⟨h.tokenLifetime, h.codeLifetime, h.codes, h.accessTokens, h.refreshTokens, ?_,
    h.nextFamily_le, h.first⟩
  simp [Store.revoke, h.revoked, hg.symm]

theorem Part.redeem_other {request : CodeRedemption} {code : AuthCode} (h : Part root f s t)
    (hrequest : request.code ≠ root) : Part root f (s.redeem request code) t := by
  refine ⟨h.tokenLifetime, h.codeLifetime, fun c => ?_, h.accessTokens, h.refreshTokens, h.revoked,
    h.nextFamily_le, fun hroot => h.first fun hmem => ?_⟩
  · simp only [Store.redeem, lookup_insert_eq, h.codes]
    by_cases hc : c = root
    · simp [hc, hrequest.symm]
    · simp [hc]
  · exact hroot (Finmap.mem_insert.mpr (.inr hmem))

theorem Part.spend_other {token : String} {entry : RefreshToken} (h : Part root f s t)
    (hentry : s.refreshTokens.lookup token = some entry) (hfamily : entry.family ≠ f) :
    Part root f (s.spend token entry) t := by
  refine ⟨h.tokenLifetime, h.codeLifetime, h.codes, h.accessTokens, fun c => ?_, h.revoked,
    h.nextFamily_le, h.first⟩
  simp only [Store.spend, lookup_insert_eq, h.refreshTokens]
  by_cases hc : c = token
  · subst hc
    simp [hentry, hfamily, Option.filter_some]
  · simp [hc]

theorem Part.grant_other {clientId access refresh : String} {now : Duration} {g : FamilyId}
    (h : Part root f s t) (hg : g ≠ f) (haccess : s.Unused access) (hrefresh : s.Unused refresh) :
    Part root f (s.grant clientId g now access refresh) t := by
  refine ⟨h.tokenLifetime, h.codeLifetime, h.codes, fun c => ?_, fun c => ?_, h.revoked,
    h.nextFamily_le, h.first⟩
  · simp only [Store.grant, lookup_insert_eq, h.accessTokens]
    by_cases hc : c = access
    · subst hc
      simp [hg, (lookup_eq_none_of_unused haccess).2.1]
    · simp [hc]
  · simp only [Store.grant, lookup_insert_eq, h.refreshTokens]
    by_cases hc : c = refresh
    · subst hc
      simp [hg, (lookup_eq_none_of_unused hrefresh).2.2]
    · simp [hc]

theorem Part.grantApp {clientId access : String} {now : Duration} (h : Part root f s t)
    (haccess : s.Unused access) : Part root f (s.grantApp clientId now access) t := by
  refine ⟨h.tokenLifetime, h.codeLifetime, h.codes, fun c => ?_, h.refreshTokens, h.revoked,
    h.nextFamily_le, h.first⟩
  simp only [Store.grantApp, lookup_insert_eq, h.accessTokens]
  by_cases hc : c = access
  · subst hc
    simp [(lookup_eq_none_of_unused haccess).2.1]
  · simp [hc]

/-! ## Whose credentials -/

/-- The credential is the code, or a token that descends from it. -/
def Descends (root : String) (h : List Event) (c : String) : Prop :=
  c = root ∨ RefreshRoot root h c ∨ ∃ t₀, AccessRoot root t₀ h c

/-- The credentials of `mine` are those of the family of the code `root`. -/
structure Owns (root : String) (f : FamilyId) (mine : String → Prop) (s : Store) : Prop where
  code : ∀ {c code}, s.codes.lookup c = some code → (mine c → c = root) ∧ (c = root ↔ code.family = f)
  access : ∀ {c entry}, s.accessTokens.lookup c = some entry → mine c → entry.family = some f
  refresh : ∀ {c entry}, s.refreshTokens.lookup c = some entry → (mine c ↔ entry.family = f)

variable {tokenLifetime codeLifetime : Duration} {h : List Event}

theorem Run.owns {code : AuthCode} (hrun : Run H tokenLifetime codeLifetime h s)
    (hroot : s.codes.lookup root = some code) : Owns root code.family (Descends root h) s := by
  have hw := hrun.wellFormed
  have hr := hrun.recorded
  have hkind {kind other : Kind} {c : String} (h₁ : s.Holds kind c) (h₂ : s.Holds other c) :
      kind = other :=
    hrun.unique.kind_eq (hrun.unique.holds.mp h₁) (hrun.unique.holds.mp h₂)
  have hcode : s.Holds .code root := Finmap.mem_of_lookup_eq_some hroot
  -- the two kinds of tokens of the code, with what the maps say of them
  have hrefresh {c : String} (hc : RefreshRoot root h c) :
      ∃ entry, s.refreshTokens.lookup c = some entry ∧ entry.family = code.family := by
    obtain ⟨f, clientId, ⟨entry, hentry, rfl, _⟩, code', hcode', hf, _⟩ := hr.refreshTokens.mp hc
    rw [← Option.some.inj (hcode'.symm.trans hroot)]
    exact ⟨entry, hentry, hf.symm⟩
  have haccess {c : String} {t₀ : Duration} (hc : AccessRoot root t₀ h c) :
      ∃ entry, s.accessTokens.lookup c = some entry ∧ entry.family = some code.family := by
    obtain ⟨f, clientId, ⟨code', hcode', hf, _⟩, hentry⟩ := hr.accessRoot hc
    rw [← Option.some.inj (hcode'.symm.trans hroot)]
    exact ⟨_, hentry, congrArg some hf.symm⟩
  refine ⟨?_, ?_, ?_⟩
  · intro c code' hcode'
    have hc : s.Holds .code c := Finmap.mem_of_lookup_eq_some hcode'
    refine ⟨?_, ?_, hw.family_inj hcode' hroot⟩
    · rintro (rfl | hmine | ⟨t₀, hmine⟩)
      · rfl
      · obtain ⟨_, hentry, _⟩ := hrefresh hmine
        cases hkind hc (show s.Holds .refresh c from Finmap.mem_of_lookup_eq_some hentry)
      · obtain ⟨_, hentry, _⟩ := haccess hmine
        cases hkind hc (show s.Holds .access c from Finmap.mem_of_lookup_eq_some hentry)
    · rintro rfl
      rw [Option.some.inj (hcode'.symm.trans hroot)]
  · intro c entry hentry
    have hc : s.Holds .access c := Finmap.mem_of_lookup_eq_some hentry
    rintro (rfl | hmine | ⟨t₀, hmine⟩)
    · cases hkind hc hcode
    · obtain ⟨_, hentry', _⟩ := hrefresh hmine
      cases hkind hc (show s.Holds .refresh c from Finmap.mem_of_lookup_eq_some hentry')
    · obtain ⟨entry', hentry', hf⟩ := haccess hmine
      rw [Option.some.inj (hentry.symm.trans hentry'), hf]
  · intro c entry hentry
    have hc : s.Holds .refresh c := Finmap.mem_of_lookup_eq_some hentry
    constructor
    · rintro (rfl | hmine | ⟨t₀, hmine⟩)
      · cases hkind hc hcode
      · obtain ⟨entry', hentry', hf⟩ := hrefresh hmine
        rw [Option.some.inj (hentry.symm.trans hentry'), hf]
      · obtain ⟨_, hentry', _⟩ := haccess hmine
        cases hkind hc (show s.Holds .access c from Finmap.mem_of_lookup_eq_some hentry')
    · intro hf
      -- the family has one code, and the token carries the client of that code
      obtain ⟨root', code', hroot', hf', hclient, _⟩ := hw.refresh_code hentry
      obtain rfl := hw.family_inj hroot' hroot (hf'.trans hf)
      exact .inr (.inl (hr.refreshTokens.mpr
        ⟨_, _, ⟨entry, hentry, rfl, rfl⟩, code', hroot', hf', hclient⟩))

theorem Keeps.refl (s : Store) : Keeps s s :=
  ⟨fun hcode => ⟨_, hcode⟩, fun hentry => hentry, fun hentry => ⟨_, hentry⟩⟩

theorem Keeps.trans {s'' : Store} (h : Keeps s s') (h' : Keeps s' s'') : Keeps s s'' where
  codes hcode := by
    obtain ⟨_, hcode'⟩ := h.codes hcode
    have hcode'' := h'.codes hcode'
    exact hcode''
  accessTokens hentry := h'.accessTokens (h.accessTokens hentry)
  refreshTokens hentry := by
    obtain ⟨_, hentry'⟩ := h.refreshTokens hentry
    have hentry'' := h'.refreshTokens hentry'
    exact hentry''

/-- What a store holds at the end it held of the same family before. -/
theorem Owns.before {mine : String → Prop} (howns : Owns root f mine s') (hkeeps : Keeps s s') :
    Owns root f mine s where
  code hcode := by
    obtain ⟨_, hcode'⟩ := hkeeps.codes hcode
    have hcode'' := howns.code hcode'
    exact hcode''
  access hentry := howns.access (hkeeps.accessTokens hentry)
  refresh hentry := by
    obtain ⟨_, hentry'⟩ := hkeeps.refreshTokens hentry
    have hentry'' := howns.refresh hentry'
    exact hentry''

/-! ## One call in the two runs -/

/-- What one call on the store is about. -/
def Concerns (root : String) (mine : String → Prop) : Event → Prop
  | .issueCode _ _ _ _ code => code = root
  | .redeemCode request _ _ => mine request.code
  | .refresh _ token _ _ => mine token
  | .issueAppToken _ _ _ => False

variable {mine : String → Prop}

theorem Part.lookup_code (h : Part root f s t) (howns : Owns root f mine s) {c : String}
    (hc : mine c) :
    t.codes.lookup c = (s.codes.lookup c).map fun code => { code with family := ⟨0⟩ } := by
  rw [h.codes]
  by_cases hroot : c = root
  · rw [if_pos hroot]
  · rw [if_neg hroot]
    cases hcode : s.codes.lookup c with
    | none => rfl
    | some code => exact absurd ((howns.code hcode).1 hc) hroot

theorem Part.lookup_refresh (h : Part root f s t) (howns : Owns root f mine s) {c : String}
    (hc : mine c) : t.refreshTokens.lookup c =
      (s.refreshTokens.lookup c).map fun entry => { entry with family := ⟨0⟩ } := by
  rw [h.refreshTokens]
  cases hentry : s.refreshTokens.lookup c with
  | none => rfl
  | some entry => rw [Option.filter_some, if_pos (by simpa using (howns.refresh hentry).mp hc)]

theorem Part.lookup_access (h : Part root f s t) (howns : Owns root f mine s) {c : String}
    (hc : mine c) : t.accessTokens.lookup c =
      (s.accessTokens.lookup c).map fun entry => { entry with family := some ⟨0⟩ } := by
  rw [h.accessTokens]
  cases hentry : s.accessTokens.lookup c with
  | none => rfl
  | some entry => rw [Option.filter_some, if_pos (by simpa using howns.access hentry hc)]

theorem Part.redeemable (h : Part root f s t) (howns : Owns root f mine s)
    {request : CodeRedemption} {now : Duration} (hc : mine request.code) {code : AuthCode} :
    t.Redeemable H request now code ↔
      ∃ code', s.Redeemable H request now code' ∧ code = { code' with family := ⟨0⟩ } := by
  simp only [Redeemable, h.lookup_code howns hc, h.codeLifetime, Option.map_eq_some_iff]
  constructor
  · rintro ⟨⟨code', hcode', rfl⟩, hrest⟩
    exact ⟨code', ⟨hcode', hrest⟩, rfl⟩
  · rintro ⟨code', ⟨hcode', hrest⟩, rfl⟩
    exact ⟨⟨code', hcode', rfl⟩, hrest⟩

theorem Part.replay (h : Part root f s t) (howns : Owns root f mine s)
    {request : CodeRedemption} (hc : mine request.code) {code : AuthCode} :
    t.Replay request code ↔
      ∃ code', s.Replay request code' ∧ code = { code' with family := ⟨0⟩ } := by
  simp only [Replay, h.lookup_code howns hc, Option.map_eq_some_iff]
  constructor
  · rintro ⟨⟨code', hcode', rfl⟩, hrest⟩
    exact ⟨code', ⟨hcode', hrest⟩, rfl⟩
  · rintro ⟨code', ⟨hcode', hrest⟩, rfl⟩
    exact ⟨⟨code', hcode', rfl⟩, hrest⟩

theorem Part.refreshable (h : Part root f s t) (howns : Owns root f mine s)
    {clientId token : String} (hc : mine token) {entry : RefreshToken} :
    t.Refreshable clientId token entry ↔
      ∃ entry', s.Refreshable clientId token entry' ∧ entry = { entry' with family := ⟨0⟩ } := by
  simp only [Refreshable, h.lookup_refresh howns hc, Option.map_eq_some_iff]
  constructor
  · rintro ⟨⟨entry', hentry', rfl⟩, hclient, hspent, hrevoked⟩
    have hf := (howns.refresh hentry').mp hc
    exact ⟨entry', ⟨hentry', hclient, hspent, hf ▸ mt h.revoked.mpr hrevoked⟩, rfl⟩
  · rintro ⟨entry', ⟨hentry', hclient, hspent, hrevoked⟩, rfl⟩
    have hf := (howns.refresh hentry').mp hc
    exact ⟨⟨entry', hentry', rfl⟩, hclient, hspent, mt h.revoked.mp (hf ▸ hrevoked)⟩

theorem Fresh.issueCode {clientId redirectUri codeChallenge code : String} {now : Duration}
    (hdraws : Fresh s draws)
    (h : s.issueCode clientId redirectUri codeChallenge now draws = some (code, s', rest)) :
    s.nextFamily + 1 < 2 ^ 64 ∧ draws = code :: rest ∧
      s' = s.issue code ⟨clientId, redirectUri, codeChallenge, now, ⟨s.nextFamily⟩, false⟩ := by
  simp only [Store.issueCode, Option.bind_eq_bind, Option.bind_eq_some_iff, Option.pure_def,
    Option.some.injEq, Prod.mk.injEq, Prod.exists] at h
  obtain ⟨_, hguard, c, ds, hc, rfl, rfl, rfl⟩ := h
  have hfresh : Fresh { s with nextFamily := s.nextFamily + 1 } draws := ⟨hdraws.unused, hdraws.nodup⟩
  refine ⟨?_, hfresh.freshCredential hc, rfl⟩
  by_contra hnext
  simp only [guard, if_neg hnext] at hguard
  cases hguard

/-- A grant in the two runs: the same tokens, in the renamed family. -/
theorem Part.issueUserTokens {clientId : String} {now : Duration} {issued : Issued}
    (h : Part root f s t) (hdraws : Fresh s draws)
    (hissued : s.issueUserTokens clientId f now draws = some (issued, s', rest)) :
    ∃ t', t.issueUserTokens clientId ⟨0⟩ now draws = some (issued, t', rest) ∧ Part root f s' t' := by
  obtain ⟨access, refresh, rfl, rfl, rfl⟩ := hdraws.issueUserTokens hissued
  obtain ⟨haccess, hrefresh, hne⟩ := (h.fresh hdraws).two
  exact ⟨_, issueUserTokens_returns clientId ⟨0⟩ now rest haccess hrefresh hne, h.grant⟩

theorem Fresh.redeem {request : CodeRedemption} {code : AuthCode} (h : Fresh s draws)
    (hcode : s.codes.lookup request.code = some code) : Fresh (s.redeem request code) draws :=
  ⟨fun c hc => (h.unused c hc).redeem hcode, h.nodup⟩

theorem Fresh.spend {token : String} {entry : RefreshToken} (h : Fresh s draws)
    (hentry : s.refreshTokens.lookup token = some entry) : Fresh (s.spend token entry) draws :=
  ⟨fun c hc => (h.unused c hc).spend hentry, h.nodup⟩

/-- A redemption of a credential of the authorization has the same result in the two runs. -/
theorem Part.redeemCode {request : CodeRedemption} {now : Duration}
    {result : Except InvalidGrant Issued} (h : Part root f s t) (howns : Owns root f mine s)
    (hdraws : Fresh s draws) (hc : mine request.code)
    (hs : s.redeemCode H request now draws = some (result, s', rest)) :
    ∃ t', t.redeemCode H request now draws = some (result, t', rest) ∧ Part root f s' t' := by
  by_cases hredeemable : ∃ code, s.Redeemable H request now code
  · obtain ⟨code, hcode⟩ := hredeemable
    have hlookup := hcode.1
    have hroot := (howns.code hlookup).1 hc
    obtain rfl := (howns.code hlookup).2.mp hroot
    rw [redeemCode_of_redeemable hcode, Option.bind_eq_some_iff] at hs
    obtain ⟨⟨issued, s₁, ds⟩, hissued, heq⟩ := hs
    cases heq
    obtain ⟨t', ht, hpart⟩ := (h.redeem hroot (hroot ▸ hlookup)).issueUserTokens
      (hdraws.redeem hlookup) hissued
    refine ⟨t', ?_, hpart⟩
    rw [redeemCode_of_redeemable ((h.redeemable howns hc).mpr ⟨code, hcode, rfl⟩), ht]
    rfl
  · by_cases hreplay : ∃ code, s.Replay request code
    · obtain ⟨code, hcode⟩ := hreplay
      obtain rfl := (howns.code hcode.1).2.mp ((howns.code hcode.1).1 hc)
      rw [redeemCode_of_replay hcode] at hs
      cases hs
      exact ⟨_, redeemCode_of_replay ((h.replay howns hc).mpr ⟨code, hcode, rfl⟩), h.revoke⟩
    · have hnot := not_exists.mp hredeemable
      have hfirst := not_exists.mp hreplay
      rw [redeemCode_of_refused hnot hfirst] at hs
      cases hs
      refine ⟨t, redeemCode_of_refused (fun code hcode => ?_) (fun code hcode => ?_), h⟩
      · obtain ⟨code', hcode', _⟩ := (h.redeemable howns hc).mp hcode
        exact hnot code' hcode'
      · obtain ⟨code', hcode', _⟩ := (h.replay howns hc).mp hcode
        exact hfirst code' hcode'

/-- A refresh with a credential of the authorization has the same result in the two runs. -/
theorem Part.refresh {clientId token : String} {now : Duration}
    {result : Except InvalidGrant Issued} (h : Part root f s t) (howns : Owns root f mine s)
    (hdraws : Fresh s draws) (hc : mine token)
    (hs : s.refresh clientId token now draws = some (result, s', rest)) :
    ∃ t', t.refresh clientId token now draws = some (result, t', rest) ∧ Part root f s' t' := by
  by_cases hrefreshable : ∃ entry, s.Refreshable clientId token entry
  · obtain ⟨entry, hentry⟩ := hrefreshable
    obtain rfl := (howns.refresh hentry.1).mp hc
    rw [refresh_of_refreshable hentry, Option.bind_eq_some_iff] at hs
    obtain ⟨⟨issued, s₁, ds⟩, hissued, heq⟩ := hs
    cases heq
    obtain ⟨t', ht, hpart⟩ := (h.spend rfl).issueUserTokens (hdraws.spend hentry.1) hissued
    refine ⟨t', ?_, hpart⟩
    rw [refresh_of_refreshable ((h.refreshable howns hc).mpr ⟨entry, hentry, rfl⟩), ht]
    rfl
  · have hnot := not_exists.mp hrefreshable
    rw [refresh_of_refused hnot] at hs
    cases hs
    refine ⟨t, refresh_of_refused fun entry hentry => ?_, h⟩
    obtain ⟨entry', hentry', _⟩ := (h.refreshable howns hc).mp hentry
    exact hnot entry' hentry'

/-- An access token of the authorization has the same information in the two runs. -/
theorem Part.accessTokenInfo {token : String} {now : Duration} (h : Part root f s t)
    (howns : Owns root f mine s) (hc : mine token) :
    t.accessTokenInfo token now = s.accessTokenInfo token now := by
  simp only [Store.accessTokenInfo, h.lookup_access howns hc]
  cases hentry : s.accessTokens.lookup token with
  | none => rfl
  | some entry =>
    have hf := howns.access hentry hc
    simp only [Option.map_some, Option.bind_eq_bind, Option.bind_some, hf, Option.any_some,
      h.revoked]

/-- A call that concerns the authorization has the same result in the two runs. -/
theorem Part.call (h : Part root f s t) (howns : Owns root f mine s') (hdraws : Fresh s draws)
    (hcall : Call H s e draws s') (hconcerns : Concerns root mine e) :
    ∃ t', Call H t e draws t' ∧ Part root f s' t' := by
  have howns₀ := howns.before hcall.step.effect.keeps
  cases hcall with
  | @issueCode clientId redirectUri codeChallenge code now draws rest s' hs =>
    obtain rfl : code = root := hconcerns
    obtain ⟨hnext, rfl, rfl⟩ := hdraws.issueCode hs
    have hunused := hdraws.unused code (.head _)
    -- the first family of the second run
    have hfirst : t.nextFamily = 0 := h.first hunused.1
    have ht : t.issueCode clientId redirectUri codeChallenge now (code :: rest) = _ :=
      issueCode_cons (Nat.lt_of_le_of_lt (Nat.succ_le_succ h.nextFamily_le) hnext) (h.unused hunused)
    rw [hfirst] at ht
    exact ⟨_, .issueCode ht, h.issue⟩
  | redeemCode hs =>
    obtain ⟨t', ht, hpart⟩ := h.redeemCode howns₀ hdraws hconcerns hs
    exact ⟨t', .redeemCode ht, hpart⟩
  | refresh hs =>
    obtain ⟨t', ht, hpart⟩ := h.refresh howns₀ hdraws hconcerns hs
    exact ⟨t', .refresh ht, hpart⟩
  | issueAppToken _ => exact hconcerns.elim

/-- A call that does not concern the authorization changes nothing of it. -/
theorem Part.other_call (h : Part root f s t) (howns : Owns root f mine s')
    (hcall : Call H s e draws s') (hconcerns : ¬ Concerns root mine e) (hmine : mine root) :
    Part root f s' t := by
  have heffect := hcall.step.effect
  have howns₀ := howns.before heffect.keeps
  clear howns hcall
  cases heffect with
  | issued _ => exact h.issue_other hconcerns
  | redeemRefused _ _ => exact h
  | @replayed request now code hreplay =>
    have hne : request.code ≠ root := fun heq => hconcerns (heq ▸ hmine : mine request.code)
    exact h.revoke_other fun hf => hne ((howns₀.code hreplay.1).2.mpr hf)
  | @redeemed request now code access refresh hcode haccess hrefresh _ =>
    have hne : request.code ≠ root := fun heq => hconcerns (heq ▸ hmine : mine request.code)
    have hf : code.family ≠ f := fun hf => hne ((howns₀.code hcode.1).2.mpr hf)
    exact (h.redeem_other hne).grant_other hf (haccess.redeem hcode.1) (hrefresh.redeem hcode.1)
  | refreshRefused _ => exact h
  | @refreshed clientId token now entry access refresh hentry haccess hrefresh _ =>
    have hf : entry.family ≠ f := fun hf => hconcerns ((howns₀.refresh hentry.1).mpr hf)
    exact (h.spend_other hentry.1 hf).grant_other hf (haccess.spend hentry.1)
      (hrefresh.spend hentry.1)
  | appToken haccess => exact h.grantApp haccess

/-- What a call returns was one of its candidates. -/
theorem Call.credentials_mem (h : Call H s e draws s') (hdraws : Fresh s draws) :
    ∀ entry ∈ credentials e, entry.2 ∈ draws := by
  have htokens {clientId : String} {family : FamilyId} {now : Duration} {issued : Issued}
      {s₁ s₂ : Store} {rest : List String} (hfresh : Fresh s₁ draws)
      (hissued : s₁.issueUserTokens clientId family now draws = some (issued, s₂, rest)) :
      ∀ entry ∈ issued.credentials, entry.2 ∈ draws := by
    obtain ⟨access, refresh, rfl, rfl, _⟩ := hfresh.issueUserTokens hissued
    simp [Issued.credentials]
  cases h with
  | issueCode hs =>
    obtain ⟨_, rfl, _⟩ := hdraws.issueCode hs
    simp [credentials]
  | @redeemCode request now result _ _ _ hs =>
    cases result with
    | error _ => exact List.forall_mem_nil _
    | ok issued =>
      obtain ⟨code, hcode⟩ := (redeemCode_ok_iff_redeemable hs).mp ⟨issued, rfl⟩
      rw [redeemCode_of_redeemable hcode, Option.bind_eq_some_iff] at hs
      obtain ⟨⟨issued', s₁, ds⟩, hissued, heq⟩ := hs
      cases heq
      exact htokens (hdraws.redeem hcode.1) hissued
  | @refresh clientId token now result _ _ _ hs =>
    cases result with
    | error _ => exact List.forall_mem_nil _
    | ok issued =>
      obtain ⟨entry, hentry⟩ := (refresh_ok_iff_refreshable H hs).mp ⟨issued, rfl⟩
      rw [refresh_of_refreshable hentry, Option.bind_eq_some_iff] at hs
      obtain ⟨⟨issued', s₁, ds⟩, hissued, heq⟩ := hs
      cases heq
      exact htokens (hdraws.spend hentry.1) hissued
  | issueAppToken hs =>
    simp only [Store.issueAppToken, insertAccessToken, Option.bind_eq_bind, Option.bind_eq_some_iff,
      Option.pure_def, Option.some.injEq, Prod.mk.injEq, Prod.exists] at hs
    obtain ⟨access, _, _, ⟨_, _, hc, rfl, rfl, rfl⟩, rfl, _⟩ := hs
    rw [hdraws.freshCredential hc]
    simp [credentials, Issued.credentials]

/-- The candidates of the later calls stay fresh. -/
theorem Call.fresh {later : List String} (h : Call H s e draws s')
    (hdraws : Fresh s (draws ++ later)) : Fresh s draws ∧ Fresh s' later := by
  obtain ⟨hnodup, hlater, hdisjoint⟩ := List.nodup_append.mp hdraws.nodup
  have hfresh : Fresh s draws :=
    ⟨fun c hc => hdraws.unused c (List.mem_append_left _ hc), hnodup⟩
  refine ⟨hfresh, fun c hc => unused_iff.mpr fun kind hholds => ?_, hlater⟩
  rcases h.step.effect.holds.mp hholds with hnew | hold
  · exact hdisjoint c (h.credentials_mem hfresh _ hnew) c hc rfl
  · exact unused_iff.mp (hdraws.unused c (List.mem_append_right _ hc)) kind hold

end Rsc.Mock.Store

namespace Rsc.Mock.Server

open Rsc.Library Rsc.Mock.Pkce Store

/-! ## Two runs of the server -/

/-- A call on the server with what it returned; an operation of the store comes with the
candidates it was given. -/
inductive Entry
  | advance (duration : Duration)
  | operation (event : Event) (draws : List String)
  | info (token : String) (result : Option TokenInfo)

namespace Entry

def draws : Entry → List String
  | .operation _ draws => draws
  | .advance _ | .info _ _ => []

def event : Entry → Option Event
  | .operation event _ => some event
  | .advance _ | .info _ _ => none

/-- The call is about the authorization of the code `root`, whose credentials are `mine`. -/
def Concerns (root : String) (mine : String → Prop) : Entry → Prop
  | .advance _ => True
  | .operation event _ => Store.Concerns root mine event
  | .info token _ => mine token

end Entry

/-- The calls run one after the other, and return what is noted of them. -/
inductive Exec (H : Hashing) : State → List Entry → State → Prop
  | nil {st : State} : Exec H st [] st
  | advance {st st' : State} {duration : Duration} {entries : List Entry}
      (hrest : Exec H (advanceClock st duration) entries st') :
      Exec H st (.advance duration :: entries) st'
  | operation {st st' : State} {event : Event} {draws : List String} {s : Store}
      {entries : List Entry} (hnow : event.now = st.clock.now)
      (hcall : Call H st.store event draws s) (hrest : Exec H { st with store := s } entries st') :
      Exec H st (.operation event draws :: entries) st'
  | info {st st' : State} {token : String} {entries : List Entry}
      (hrest : Exec H st entries st') : Exec H st (.info token (tokenInfo st token) :: entries) st'

/-- The operations of the store, the latest first. -/
def history (entries : List Entry) : List Event := (entries.filterMap Entry.event).reverse

variable {H : Hashing} {tokenLifetime codeLifetime : Duration} {st st' : State}
  {entries : List Entry}

theorem Exec.store {h : List Event} (hexec : Exec H st entries st')
    (hrun : Store.Run H tokenLifetime codeLifetime h st.store) :
    Store.Run H tokenLifetime codeLifetime (history entries ++ h) st'.store := by
  induction hexec generalizing h with
  | nil => exact hrun
  | advance _ ih => exact ih hrun
  | @operation st st' event draws s entries _ hcall _ ih =>
    have hrest := ih (hrun.step hcall.step)
    simpa [history, Entry.event] using hrest
  | info _ ih => exact ih hrun

theorem Exec.keeps (hexec : Exec H st entries st') : Keeps st.store st'.store := by
  induction hexec with
  | nil => exact .refl _
  | advance _ ih => exact ih
  | operation _ hcall _ ih => exact hcall.step.effect.keeps.trans ih
  | info _ ih => exact ih

open Classical in
/-- The calls that are left when all those that do not concern an authorization are deleted. -/
noncomputable def session (root : String) (mine : String → Prop) (entries : List Entry) :
    List Entry :=
  entries.filter fun entry => entry.Concerns root mine

open Classical in
theorem session_cons {root : String} {mine : String → Prop} {entry : Entry}
    (h : entry.Concerns root mine) :
    session root mine (entry :: entries) = entry :: session root mine entries :=
  List.filter_cons_of_pos (decide_eq_true h)

open Classical in
theorem session_cons_of_not {root : String} {mine : String → Prop} {entry : Entry}
    (h : ¬ entry.Concerns root mine) :
    session root mine (entry :: entries) = session root mine entries :=
  List.filter_cons_of_neg (by simpa only [decide_eq_true_eq] using h)

/-- The second run, on the part of the store that it has. -/
theorem Exec.session {root : String} {f : FamilyId} {mine : String → Prop} {t : Store}
    (hexec : Exec H st entries st') (hpart : Part root f st.store t)
    (howns : Owns root f mine st'.store) (hmine : mine root)
    (hdraws : Fresh st.store (entries.flatMap Entry.draws)) :
    ∃ t', Exec H { st with store := t } (session root mine entries) { st' with store := t' } := by
  induction hexec generalizing t with
  | nil => exact ⟨t, .nil⟩
  | @advance st st' duration entries _ ih =>
    obtain ⟨t', ht⟩ := ih hpart howns hdraws
    refine ⟨t', ?_⟩
    rw [session_cons (show (Entry.advance duration).Concerns root mine from trivial)]
    exact .advance ht
  | @operation st st' event draws s entries hnow hcall hrest ih =>
    have howns₁ := howns.before hrest.keeps
    obtain ⟨hfresh, hlater⟩ := hcall.fresh hdraws
    by_cases hconcerns : (Entry.operation event draws).Concerns root mine
    · obtain ⟨t₁, hcall', hpart'⟩ := hpart.call howns₁ hfresh hcall hconcerns
      obtain ⟨t', ht⟩ := ih hpart' howns hlater
      refine ⟨t', ?_⟩
      rw [session_cons hconcerns]
      exact .operation hnow hcall' ht
    · obtain ⟨t', ht⟩ := ih (hpart.other_call howns₁ hcall hconcerns hmine) howns hlater
      refine ⟨t', ?_⟩
      rw [session_cons_of_not hconcerns]
      exact ht
  | @info st st' token entries hrest ih =>
    obtain ⟨t', ht⟩ := ih hpart howns hdraws
    by_cases hconcerns : (Entry.info token (tokenInfo st token)).Concerns root mine
    · have hinfo : t.accessTokenInfo token st.clock.now = tokenInfo st token :=
        hpart.accessTokenInfo (howns.before hrest.keeps) hconcerns
      refine ⟨t', ?_⟩
      rw [session_cons hconcerns, ← hinfo]
      exact .info ht
    · refine ⟨t', ?_⟩
      rw [session_cons_of_not hconcerns]
      exact ht

/-- **Independent sessions.** In a run of the server whose candidates never repeat, delete
every call that does not concern one authorization. What is left is a run, in which every
call is given the same candidates and returns the same. -/
theorem sessions_independent {root clientId redirectUri codeChallenge : String} {now : Duration}
    {draws : List String} (hexec : Exec H (new tokenLifetime codeLifetime) entries st)
    (hdraws : (entries.flatMap Entry.draws).Nodup)
    (hroot : .operation (.issueCode clientId redirectUri codeChallenge now root) draws ∈ entries) :
    ∃ t, Exec H (new tokenLifetime codeLifetime)
      (session root (Descends root (history entries)) entries) { st with store := t } := by
  have hrun := hexec.store .new
  rw [List.append_nil] at hrun
  have hmem : .issueCode clientId redirectUri codeChallenge now root ∈ history entries := by
    rw [history, List.mem_reverse, List.mem_filterMap]
    exact ⟨_, hroot, rfl⟩
  obtain ⟨family, redeemed, hcode⟩ := hrun.recorded.codes.mp hmem
  have hfresh : Fresh (new tokenLifetime codeLifetime).store (entries.flatMap Entry.draws) :=
    ⟨fun c _ => unused_iff.mpr fun kind hholds => by
      cases kind <;> exact Finmap.notMem_empty hholds, hdraws⟩
  exact hexec.session .new (hrun.owns hcode) (.inl rfl) hfresh

def codeIssued : Entry := .operation loginIssued ["code"]

def appIssued : Entry := .operation (.issueAppToken "cli" .zero ⟨"app", none⟩) ["app"]

def codeRedeemed : Entry :=
  .operation (.redeemCode loginRequest minute (.ok ⟨"access", some "refresh"⟩)) ["access", "refresh"]

/-- A login with a token of another app in between. -/
def loginCalls : List Entry := [codeIssued, appIssued, .advance minute, codeRedeemed]

theorem session_loginCalls {mine : String → Prop} (h : mine "code") :
    session "code" mine loginCalls = [codeIssued, .advance minute, codeRedeemed] := by
  have happ : ¬ appIssued.Concerns "code" mine := id
  rw [loginCalls, session_cons (show codeIssued.Concerns "code" mine from rfl),
    session_cons_of_not happ, session_cons (show (Entry.advance minute).Concerns _ _ from trivial),
    session_cons (show codeRedeemed.Concerns "code" mine from h)]
  rfl

/-- The login returns the same without the other app. -/
theorem sessions_independent_login : ∃ t, Exec appendixB (new hour hour)
    [codeIssued, .advance minute, codeRedeemed] ⟨⟨minute⟩, t⟩ := by
  have happ : codeStore.issueAppToken "cli" .zero ["app"] =
      some (⟨"app", none⟩, codeStore.grantApp "cli" .zero "app", []) := rfl
  have hlogin : (codeStore.grantApp "cli" .zero "app").redeemCode appendixB loginRequest minute
      ["access", "refresh"] = some (.ok ⟨"access", some "refresh"⟩,
        ((codeStore.grantApp "cli" .zero "app").redeem loginRequest loginCode).grant "web" ⟨0⟩
          minute "access" "refresh", []) := rfl
  have hexec : Exec appendixB (new hour hour) loginCalls ⟨⟨minute⟩, _⟩ :=
    .operation rfl (.issueCode (show (Store.new hour hour).issueCode "web" _ _ .zero ["code"] =
      some ("code", codeStore, []) from rfl))
      (.operation rfl (.issueAppToken happ) (.advance (.operation rfl (.redeemCode hlogin) .nil)))
  obtain ⟨t, ht⟩ := sessions_independent hexec (by decide) (.head _)
  rw [session_loginCalls (.inl rfl)] at ht
  exact ⟨t, ht⟩

end Rsc.Mock.Server

import Rsc.Mock.Store
import Mathlib.Data.Fintype.EquivFin

/-!
The runs of the store and their histories. A history lists the operations with
their arguments and results, the latest first.

`Step` runs the code; `Effect` says what a step can do once the random draws are
forgotten: seven cases, each with the whole state after it (`Step.effect`). The
predicates on histories below are what "earlier", "descends" and "replayed" mean;
none of them looks at a store.
-/

namespace Rsc.Mock

open Rsc.Library Rsc.Mock.Pkce Store

/-- One operation of the store: its arguments, its time and its result. -/
inductive Event
  | issueCode (clientId redirectUri codeChallenge : String) (now : Duration) (code : String)
  | redeemCode (request : CodeRedemption) (now : Duration) (result : Except InvalidGrant Issued)
  | refresh (clientId refreshToken : String) (now : Duration)
      (result : Except InvalidGrant Issued)
  | issueAppToken (clientId : String) (now : Duration) (issued : Issued)

def Event.now : Event → Duration
  | issueCode _ _ _ now _ => now
  | redeemCode _ now _ => now
  | refresh _ _ now _ => now
  | issueAppToken _ now _ => now

namespace Store

/-- One operation of the code, on any random draws on which it returns. -/
inductive Step (H : Hashing) (s : Store) : Event → Store → Prop
  | issueCode {clientId redirectUri codeChallenge code : String} {now : Duration}
      {draws rest : List String} {s' : Store} :
      s.issueCode clientId redirectUri codeChallenge now draws = some (code, s', rest) →
      Step H s (.issueCode clientId redirectUri codeChallenge now code) s'
  | redeemCode {request : CodeRedemption} {now : Duration}
      {result : Except InvalidGrant Issued} {draws rest : List String} {s' : Store} :
      s.redeemCode H request now draws = some (result, s', rest) →
      Step H s (.redeemCode request now result) s'
  | refresh {clientId refreshToken : String} {now : Duration}
      {result : Except InvalidGrant Issued} {draws rest : List String} {s' : Store} :
      s.refresh clientId refreshToken now draws = some (result, s', rest) →
      Step H s (.refresh clientId refreshToken now result) s'
  | issueAppToken {clientId : String} {now : Duration} {issued : Issued}
      {draws rest : List String} {s' : Store} :
      s.issueAppToken clientId now draws = some (issued, s', rest) →
      Step H s (.issueAppToken clientId now issued) s'

/-- The runs from a new store. The times are not even asked to be in order. -/
inductive Run (H : Hashing) (tokenLifetime codeLifetime : Duration) : List Event → Store → Prop
  | new : Run H tokenLifetime codeLifetime [] (Store.new tokenLifetime codeLifetime)
  | step {h : List Event} {s s' : Store} {e : Event} :
      Run H tokenLifetime codeLifetime h s → Step H s e s' →
      Run H tokenLifetime codeLifetime (e :: h) s'

/-! ## What a step can do -/

/-- The conditions under which `redeemCode` consumes the code. -/
def Redeemable (H : Hashing) (s : Store) (request : CodeRedemption) (now : Duration)
    (code : AuthCode) : Prop :=
  s.codes.lookup request.code = some code ∧ code.clientId = request.clientId ∧
    code.redeemed = false ∧ now < code.issuedAt.saturatingAdd s.authorizationCodeLifetime ∧
    code.redirectUri = request.redirectUri ∧
    verifyS256 H request.codeVerifier code.codeChallenge = true

/-- The conditions under which `refresh` consumes the token. -/
def Refreshable (s : Store) (clientId refreshToken : String) (entry : RefreshToken) : Prop :=
  s.refreshTokens.lookup refreshToken = some entry ∧ entry.clientId = clientId ∧
    entry.spent = false ∧ entry.family ∉ s.revokedFamilies

/-- The request presents a redeemed code of its own client. -/
def Replay (s : Store) (request : CodeRedemption) (code : AuthCode) : Prop :=
  s.codes.lookup request.code = some code ∧ code.clientId = request.clientId ∧
    code.redeemed = true

/-- The store after the code was issued. -/
def issue (s : Store) (c : String) (code : AuthCode) : Store :=
  { s with nextFamily := s.nextFamily + 1, codes := s.codes.insert c code }

/-- The store after the family was revoked. -/
def revoke (s : Store) (family : FamilyId) : Store :=
  { s with revokedFamilies := insert family s.revokedFamilies }

/-- The store after an app token was issued. -/
def grantApp (s : Store) (clientId : String) (now : Duration) (access : String) : Store :=
  { s with
    accessTokens := s.accessTokens.insert access
      ⟨.app, clientId, now.saturatingAdd s.accessTokenLifetime, none⟩ }

/-- The store after a pair of user tokens was issued. -/
def grant (s : Store) (clientId : String) (family : FamilyId) (now : Duration)
    (access refresh : String) : Store :=
  { s with
    accessTokens := s.accessTokens.insert access
      ⟨.user, clientId, now.saturatingAdd s.accessTokenLifetime, some family⟩
    refreshTokens := s.refreshTokens.insert refresh ⟨clientId, family, false⟩ }

/-- The store after the code was marked as redeemed. -/
def redeem (s : Store) (request : CodeRedemption) (code : AuthCode) : Store :=
  { s with codes := s.codes.insert request.code { code with redeemed := true } }

/-- The store after the refresh token was marked as spent. -/
def spend (s : Store) (refreshToken : String) (entry : RefreshToken) : Store :=
  { s with refreshTokens := s.refreshTokens.insert refreshToken { entry with spent := true } }

/-- What one operation can do, and the store after it. -/
inductive Effect (H : Hashing) (s : Store) : Event → Store → Prop
  | issued {clientId redirectUri codeChallenge code : String} {now : Duration}
      (hcode : s.Unused code) :
      Effect H s (.issueCode clientId redirectUri codeChallenge now code)
        (s.issue code ⟨clientId, redirectUri, codeChallenge, now, ⟨s.nextFamily⟩, false⟩)
  | redeemRefused {request : CodeRedemption} {now : Duration}
      (hnot : ∀ code, ¬ s.Redeemable H request now code) (hfirst : ∀ code, ¬ s.Replay request code) :
      Effect H s (.redeemCode request now (.error .invalidGrant)) s
  | replayed {request : CodeRedemption} {now : Duration} {code : AuthCode}
      (hreplay : s.Replay request code) :
      Effect H s (.redeemCode request now (.error .invalidGrant)) (s.revoke code.family)
  | redeemed {request : CodeRedemption} {now : Duration} {code : AuthCode}
      {access refresh : String} (hcode : s.Redeemable H request now code)
      (haccess : s.Unused access) (hrefresh : s.Unused refresh) (hne : refresh ≠ access) :
      Effect H s (.redeemCode request now (.ok ⟨access, some refresh⟩))
        ((s.redeem request code).grant request.clientId code.family now access refresh)
  | refreshRefused {clientId token : String} {now : Duration}
      (hnot : ∀ entry, ¬ s.Refreshable clientId token entry) :
      Effect H s (.refresh clientId token now (.error .invalidGrant)) s
  | refreshed {clientId token : String} {now : Duration} {entry : RefreshToken}
      {access refresh : String} (hentry : s.Refreshable clientId token entry)
      (haccess : s.Unused access) (hrefresh : s.Unused refresh) (hne : refresh ≠ access) :
      Effect H s (.refresh clientId token now (.ok ⟨access, some refresh⟩))
        ((s.spend token entry).grant clientId entry.family now access refresh)
  | appToken {clientId : String} {now : Duration} {access : String} (haccess : s.Unused access) :
      Effect H s (.issueAppToken clientId now ⟨access, none⟩) (s.grantApp clientId now access)

/-- The loop passes over the candidates that are in use, and takes the next one. -/
theorem freshCredential_inv {s : Store} {draws rest : List String} {c : String}
    (h : s.freshCredential draws = some (c, rest)) :
    ∃ used, draws = used ++ c :: rest ∧ (∀ a ∈ used, ¬ s.Unused a) ∧ s.Unused c := by
  induction draws with
  | nil => cases h
  | cons candidate draws ih =>
    rw [freshCredential] at h
    split at h
    · rename_i hunused
      cases h
      exact ⟨[], rfl, fun _ ha => absurd ha List.not_mem_nil, hunused⟩
    · rename_i hused
      obtain ⟨used, rfl, hall, hunused⟩ := ih h
      exact ⟨candidate :: used, rfl, List.forall_mem_cons.mpr ⟨hused, hall⟩, hunused⟩

theorem freshCredential_unused {s : Store} {draws rest : List String} {c : String}
    (h : s.freshCredential draws = some (c, rest)) : s.Unused c := by
  obtain ⟨_, _, _, hunused⟩ := freshCredential_inv h
  exact hunused

theorem freshCredential_mem {s : Store} {draws rest : List String} {c : String}
    (h : s.freshCredential draws = some (c, rest)) : c ∈ draws := by
  obtain ⟨_, rfl, _⟩ := freshCredential_inv h
  exact List.mem_append_right _ List.mem_cons_self

/-- The loop ends on every list that holds an unused candidate. -/
theorem freshCredential_isSome {s : Store} {draws : List String} {c : String}
    (hc : s.Unused c) (hmem : c ∈ draws) : (s.freshCredential draws).isSome := by
  induction draws with
  | nil => cases hmem
  | cons candidate draws ih =>
    rw [freshCredential]
    split
    · rfl
    · rcases List.mem_cons.mp hmem with rfl | hmem
      · contradiction
      · exact ih hmem

/-- The maps are finite, so there is always an unused credential left. -/
theorem exists_unused (s : Store) (avoid : Finset String) : ∃ c, s.Unused c ∧ c ∉ avoid := by
  obtain ⟨c, hc⟩ := Infinite.exists_notMem_finset
    (s.codes.keys ∪ s.accessTokens.keys ∪ s.refreshTokens.keys ∪ avoid)
  simp only [Finset.mem_union, Finmap.mem_keys, not_or] at hc
  exact ⟨c, ⟨hc.1.1.1, hc.1.1.2, hc.1.2⟩, hc.2⟩

theorem freshCredential_cons {s : Store} {c : String} (draws : List String) (hc : s.Unused c) :
    s.freshCredential (c :: draws) = some (c, draws) := by
  rw [freshCredential, if_pos hc]

theorem insertAccessToken_spec {s s' : Store} {kind : TokenKind} {clientId token : String}
    {family : Option FamilyId} {now : Duration} {draws rest : List String}
    (h : s.insertAccessToken kind clientId family now draws = some (token, s', rest)) :
    s.Unused token ∧ s' = { s with
      accessTokens := s.accessTokens.insert token
        ⟨kind, clientId, now.saturatingAdd s.accessTokenLifetime, family⟩ } := by
  simp only [insertAccessToken, Option.bind_eq_bind, Option.bind_eq_some_iff, Option.pure_def,
    Option.some.injEq, Prod.mk.injEq, Prod.exists] at h
  obtain ⟨c, ds, hc, rfl, rfl, _⟩ := h
  exact ⟨freshCredential_unused hc, rfl⟩

theorem issueUserTokens_spec {s s' : Store} {clientId : String} {family : FamilyId}
    {now : Duration} {issued : Issued} {draws rest : List String}
    (h : s.issueUserTokens clientId family now draws = some (issued, s', rest)) :
    ∃ access refresh, issued = ⟨access, some refresh⟩ ∧ s.Unused access ∧ s.Unused refresh ∧
      refresh ≠ access ∧ s' = s.grant clientId family now access refresh := by
  simp only [issueUserTokens, Option.bind_eq_bind, Option.bind_eq_some_iff, Option.pure_def,
    Option.some.injEq, Prod.mk.injEq, Prod.exists] at h
  obtain ⟨access, s₁, ds, haccess, refresh, ds', hrefresh, rfl, rfl, _⟩ := h
  obtain ⟨hunused, rfl⟩ := insertAccessToken_spec haccess
  obtain ⟨h₁, h₂, h₃⟩ := freshCredential_unused hrefresh
  simp only [Finmap.mem_insert, not_or] at h₂
  exact ⟨access, refresh, rfl, hunused, ⟨h₁, h₂.2, h₃⟩, h₂.1, rfl⟩

/-- Two unused candidates are enough for a pair of user tokens. -/
theorem issueUserTokens_returns {s : Store} {access refresh : String} (clientId : String)
    (family : FamilyId) (now : Duration) (rest : List String) (haccess : s.Unused access)
    (hrefresh : s.Unused refresh) (hne : refresh ≠ access) :
    s.issueUserTokens clientId family now (access :: refresh :: rest) =
      some (⟨access, some refresh⟩, s.grant clientId family now access refresh, rest) := by
  have hrefresh' : Unused { s with
      accessTokens := s.accessTokens.insert access
        ⟨.user, clientId, now.saturatingAdd s.accessTokenLifetime, some family⟩ } refresh :=
    ⟨hrefresh.1, by simp [Finmap.mem_insert, hne, hrefresh.2.1], hrefresh.2.2⟩
  simp only [issueUserTokens, insertAccessToken, freshCredential_cons _ haccess,
    freshCredential_cons _ hrefresh', Option.bind_eq_bind, Option.bind_some, Option.pure_def]
  rfl

/-- Marking what is already in a map takes no credential away. -/
theorem Unused.redeem {s : Store} {c : String} {request : CodeRedemption} {code : AuthCode}
    (hc : s.Unused c) (hcode : s.codes.lookup request.code = some code) :
    (s.redeem request code).Unused c := by
  refine ⟨?_, hc.2⟩
  rw [Store.redeem, Finmap.mem_insert, not_or]
  refine ⟨?_, hc.1⟩
  rintro rfl
  exact hc.1 (Finmap.mem_of_lookup_eq_some hcode)

theorem Unused.spend {s : Store} {c token : String} {entry : RefreshToken}
    (hc : s.Unused c) (hentry : s.refreshTokens.lookup token = some entry) :
    (s.spend token entry).Unused c := by
  refine ⟨hc.1, hc.2.1, ?_⟩
  rw [Store.spend, Finmap.mem_insert, not_or]
  refine ⟨?_, hc.2.2⟩
  rintro rfl
  exact hc.2.2 (Finmap.mem_of_lookup_eq_some hentry)

/-- `redeem_code` returns as soon as the draws hold two unused credentials. -/
theorem redeemCode_returns {H : Hashing} (s : Store) (request : CodeRedemption) (now : Duration) :
    ∃ draws, (s.redeemCode H request now draws).isSome := by
  obtain ⟨access, haccess, _⟩ := s.exists_unused ∅
  obtain ⟨refresh, hrefresh, hne⟩ := s.exists_unused {access}
  refine ⟨[access, refresh], ?_⟩
  rw [redeemCode]
  split
  · rfl
  · rename_i code hcode
    have hissue := issueUserTokens_returns request.clientId code.family now []
      (haccess.redeem hcode) (hrefresh.redeem hcode) (by simpa using hne)
    simp only [redeem] at hissue
    simp only [hissue]
    split_ifs <;> rfl

/-- `refresh` returns as soon as the draws hold two unused credentials. -/
theorem refresh_returns (s : Store) (clientId token : String) (now : Duration) :
    ∃ draws, (s.refresh clientId token now draws).isSome := by
  obtain ⟨access, haccess, _⟩ := s.exists_unused ∅
  obtain ⟨refresh, hrefresh, hne⟩ := s.exists_unused {access}
  refine ⟨[access, refresh], ?_⟩
  rw [Store.refresh]
  split
  · rfl
  · rename_i entry hentry
    have hissue := issueUserTokens_returns clientId entry.family now []
      (haccess.spend hentry) (hrefresh.spend hentry) (by simpa using hne)
    simp only [spend] at hissue
    simp only [hissue]
    split_ifs <;> rfl

theorem issueCode_effect {H : Hashing} {s s' : Store}
    {clientId redirectUri codeChallenge code : String} {now : Duration}
    {draws rest : List String}
    (h : s.issueCode clientId redirectUri codeChallenge now draws = some (code, s', rest)) :
    Effect H s (.issueCode clientId redirectUri codeChallenge now code) s' := by
  simp only [issueCode, Option.bind_eq_bind, Option.bind_eq_some_iff, Option.pure_def,
    Option.some.injEq, Prod.mk.injEq, Prod.exists] at h
  obtain ⟨_, _, c, ds, hc, rfl, rfl, _⟩ := h
  have hunused := freshCredential_unused hc
  exact .issued (s := s) hunused

theorem redeemCode_effect {H : Hashing} {s s' : Store} {request : CodeRedemption}
    {now : Duration} {result : Except InvalidGrant Issued} {draws rest : List String}
    (h : s.redeemCode H request now draws = some (result, s', rest)) :
    Effect H s (.redeemCode request now result) s' := by
  unfold redeemCode at h
  split at h
  · rename_i hnone
    cases h
    exact .redeemRefused (fun code hcode => by simp [hcode.1] at hnone)
      (fun code hcode => by simp [hcode.1] at hnone)
  · rename_i code hcode
    have hunique : ∀ code', s.codes.lookup request.code = some code' → code' = code :=
      fun code' h' => Option.some.inj (h'.symm.trans hcode)
    split at h
    · rename_i hclient
      cases h
      exact .redeemRefused (fun code' h' => hclient (hunique _ h'.1 ▸ h'.2.1))
        (fun code' h' => hclient (hunique _ h'.1 ▸ h'.2.1))
    rename_i hclient
    split at h
    · rename_i hredeemed
      cases h
      exact .replayed ⟨hcode, not_not.mp hclient, hredeemed⟩
    rename_i hredeemed
    have hfirst : ∀ code', ¬ s.Replay request code' :=
      fun code' h' => hredeemed (hunique _ h'.1 ▸ h'.2.2)
    split at h
    · rename_i hexpired
      cases h
      refine .redeemRefused (fun code' h' => ?_) hfirst
      obtain rfl := hunique _ h'.1
      exact absurd h'.2.2.2.1 (Nat.not_lt.mpr hexpired)
    rename_i hlive
    split at h
    · rename_i hwrong
      cases h
      refine .redeemRefused (fun code' h' => ?_) hfirst
      obtain rfl := hunique _ h'.1
      rcases hwrong with huri | hverifier
      · exact huri h'.2.2.2.2.1
      · simp [h'.2.2.2.2.2] at hverifier
    rename_i hright
    obtain ⟨huri, hverifier⟩ := not_or.mp hright
    simp only [Option.bind_eq_bind, Option.bind_eq_some_iff, Option.pure_def, Option.some.injEq,
      Prod.mk.injEq, Prod.exists] at h
    obtain ⟨issued, s₁, ds, hissued, rfl, rfl, _⟩ := h
    obtain ⟨access, refresh, rfl, haccess, hrefresh, hne, rfl⟩ := issueUserTokens_spec hissued
    refine .redeemed (s := s) ⟨hcode, not_not.mp hclient, by simpa using hredeemed,
      Nat.lt_of_not_le hlive, not_not.mp huri, by simpa using hverifier⟩ ?_ ?_ hne
    · exact ⟨fun hmem => haccess.1 (Finmap.mem_insert.mpr (.inr hmem)), haccess.2⟩
    · exact ⟨fun hmem => hrefresh.1 (Finmap.mem_insert.mpr (.inr hmem)), hrefresh.2⟩

theorem refresh_effect {H : Hashing} {s s' : Store} {clientId token : String}
    {now : Duration} {result : Except InvalidGrant Issued} {draws rest : List String}
    (h : s.refresh clientId token now draws = some (result, s', rest)) :
    Effect H s (.refresh clientId token now result) s' := by
  unfold Store.refresh at h
  split at h
  · rename_i hnone
    cases h
    exact .refreshRefused (fun entry hentry => by simp [hentry.1] at hnone)
  · rename_i entry hentry
    split at h
    · rename_i hrefused
      cases h
      refine .refreshRefused (fun entry' h' => ?_)
      obtain rfl : entry' = entry := Option.some.inj (h'.1.symm.trans hentry)
      rcases hrefused with hclient | hspent | hrevoked
      · exact hclient h'.2.1
      · simp [h'.2.2.1] at hspent
      · exact h'.2.2.2 hrevoked
    rename_i hgood
    obtain ⟨hclient, hspent, hrevoked⟩ : ¬ _ ∧ ¬ _ ∧ ¬ _ := by simpa only [not_or] using hgood
    simp only [Option.bind_eq_bind, Option.bind_eq_some_iff, Option.pure_def, Option.some.injEq,
      Prod.mk.injEq, Prod.exists] at h
    obtain ⟨issued, s₁, ds, hissued, rfl, rfl, _⟩ := h
    obtain ⟨access, refresh, rfl, haccess, hrefresh, hne, rfl⟩ := issueUserTokens_spec hissued
    refine .refreshed (s := s) ⟨hentry, not_not.mp hclient, by simpa using hspent, hrevoked⟩
      ?_ ?_ hne
    · exact ⟨haccess.1, haccess.2.1, fun hmem => haccess.2.2 (Finmap.mem_insert.mpr (.inr hmem))⟩
    · exact ⟨hrefresh.1, hrefresh.2.1,
        fun hmem => hrefresh.2.2 (Finmap.mem_insert.mpr (.inr hmem))⟩

theorem issueAppToken_effect {H : Hashing} {s s' : Store} {clientId : String} {now : Duration}
    {issued : Issued} {draws rest : List String}
    (h : s.issueAppToken clientId now draws = some (issued, s', rest)) :
    Effect H s (.issueAppToken clientId now issued) s' := by
  simp only [issueAppToken, Option.bind_eq_bind, Option.bind_eq_some_iff, Option.pure_def,
    Option.some.injEq, Prod.mk.injEq, Prod.exists] at h
  obtain ⟨access, s₁, ds, haccess, rfl, rfl, _⟩ := h
  obtain ⟨hunused, rfl⟩ := insertAccessToken_spec haccess
  exact .appToken hunused

/-- **Effect of a step.** Every operation of the code is one of the cases of `Effect`. -/
theorem Step.effect {H : Hashing} {s s' : Store} {e : Event} (h : Step H s e s') :
    Effect H s e s' := by
  cases h with
  | issueCode h => exact issueCode_effect h
  | redeemCode h => exact redeemCode_effect h
  | refresh h => exact refresh_effect h
  | issueAppToken h => exact issueAppToken_effect h

/-! ## What the operations compute -/

section

variable {H : Hashing} {s : Store} {draws rest : List String}

theorem issueCode_cons {clientId redirectUri codeChallenge c : String} {now : Duration}
    (hnext : s.nextFamily + 1 < 2 ^ 64) (hc : s.Unused c) :
    s.issueCode clientId redirectUri codeChallenge now (c :: rest) =
      some (c, s.issue c ⟨clientId, redirectUri, codeChallenge, now, ⟨s.nextFamily⟩, false⟩,
        rest) := by
  have hc : Unused { s with nextFamily := s.nextFamily + 1 } c := hc
  simp only [issueCode, hnext, guard, if_true, freshCredential_cons _ hc, Option.bind_eq_bind,
    Option.bind_some, Option.pure_def]
  rfl

/-- `issue_code` returns as soon as the draws hold an unused credential. -/
theorem issueCode_returns (clientId redirectUri codeChallenge : String) (now : Duration)
    {c : String} (hnext : s.nextFamily + 1 < 2 ^ 64) (hc : s.Unused c) (hmem : c ∈ draws) :
    ∃ out, s.issueCode clientId redirectUri codeChallenge now draws = some out := by
  have hc : Unused { s with nextFamily := s.nextFamily + 1 } c := hc
  obtain ⟨⟨code, rest⟩, hcode⟩ := Option.isSome_iff_exists.mp (freshCredential_isSome hc hmem)
  simp only [issueCode, hnext, guard, if_true, hcode, Option.bind_eq_bind, Option.bind_some,
    Option.pure_def]
  exact ⟨_, rfl⟩

theorem freshCredential_rest {c a : String} (h : s.freshCredential draws = some (c, rest))
    (ha : a ∈ draws) (hunused : s.Unused a) (hne : a ≠ c) : a ∈ rest := by
  obtain ⟨used, rfl, hused, -⟩ := freshCredential_inv h
  rcases List.mem_append.mp ha with ha | ha
  · exact absurd hunused (hused a ha)
  · exact (List.mem_cons.mp ha).resolve_left hne

theorem freshCredential_suffix {c : String} (h : s.freshCredential draws = some (c, rest)) :
    rest <:+ draws := by
  obtain ⟨used, rfl, -, -⟩ := freshCredential_inv h
  exact (List.suffix_cons c rest).trans (List.suffix_append used _)

theorem issueUserTokens_mem {s' : Store} {clientId : String} {family : FamilyId}
    {now : Duration} {access refresh : String}
    (h : s.issueUserTokens clientId family now draws = some (⟨access, some refresh⟩, s', rest)) :
    access ∈ draws ∧ refresh ∈ draws := by
  simp only [issueUserTokens, insertAccessToken, Option.bind_eq_bind, Option.bind_eq_some_iff,
    Option.pure_def, Option.some.injEq, Prod.mk.injEq, Prod.exists, Issued.mk.injEq] at h
  obtain ⟨_, _, ds, ⟨_, _, haccess, rfl, -, rfl⟩, _, _, hrefresh, ⟨rfl, rfl⟩, -⟩ := h
  exact ⟨freshCredential_mem haccess,
    (freshCredential_suffix haccess).subset (freshCredential_mem hrefresh)⟩

/-- The draws hold two unused credentials. -/
def Supplies (s : Store) (draws : List String) : Prop :=
  ∃ a ∈ draws, ∃ b ∈ draws, a ≠ b ∧ s.Unused a ∧ s.Unused b

theorem Supplies.redeem {request : CodeRedemption} {code : AuthCode} (h : s.Supplies draws)
    (hcode : s.codes.lookup request.code = some code) : (s.redeem request code).Supplies draws := by
  obtain ⟨a, ha, b, hb, hne, hua, hub⟩ := h
  exact ⟨a, ha, b, hb, hne, hua.redeem hcode, hub.redeem hcode⟩

theorem Supplies.spend {token : String} {entry : RefreshToken} (h : s.Supplies draws)
    (hentry : s.refreshTokens.lookup token = some entry) : (s.spend token entry).Supplies draws := by
  obtain ⟨a, ha, b, hb, hne, hua, hub⟩ := h
  exact ⟨a, ha, b, hb, hne, hua.spend hentry, hub.spend hentry⟩

/-- `issue_user_tokens` returns as soon as the draws hold two unused credentials. -/
theorem Supplies.issueUserTokens (h : s.Supplies draws) (clientId : String) (family : FamilyId)
    (now : Duration) : ∃ out, s.issueUserTokens clientId family now draws = some out := by
  obtain ⟨a, ha, b, hb, hne, hua, hub⟩ := h
  obtain ⟨⟨access, rest⟩, haccess⟩ := Option.isSome_iff_exists.mp (freshCredential_isSome hua ha)
  obtain ⟨c, hc, huc, hca⟩ : ∃ c ∈ rest, s.Unused c ∧ c ≠ access := by
    by_cases h : a = access
    · subst h
      exact ⟨b, freshCredential_rest haccess hb hub hne.symm, hub, hne.symm⟩
    · exact ⟨a, freshCredential_rest haccess ha hua h, hua, h⟩
  have huc' : Unused { s with
      accessTokens := s.accessTokens.insert access
        ⟨.user, clientId, now.saturatingAdd s.accessTokenLifetime, some family⟩ } c :=
    ⟨huc.1, by simp [Finmap.mem_insert, hca, huc.2.1], huc.2.2⟩
  obtain ⟨⟨refresh, rest'⟩, hrefresh⟩ :=
    Option.isSome_iff_exists.mp (freshCredential_isSome huc' hc)
  simp only [Store.issueUserTokens, insertAccessToken, haccess, hrefresh, Option.bind_eq_bind,
    Option.bind_some, Option.pure_def]
  exact ⟨_, rfl⟩

theorem redeemCode_of_redeemable {request : CodeRedemption} {now : Duration} {code : AuthCode}
    (h : s.Redeemable H request now code) :
    s.redeemCode H request now draws =
      ((s.redeem request code).issueUserTokens request.clientId code.family now draws).bind
        fun out => some (.ok out.1, out.2) := by
  obtain ⟨hlookup, hclient, hredeemed, hlive, huri, hverifier⟩ := h
  have hlive : ¬ code.issuedAt.saturatingAdd s.authorizationCodeLifetime ≤ now :=
    Nat.not_le.mpr hlive
  simp only [redeemCode, hlookup]
  rw [if_neg (by simpa using hclient), if_neg (by simp [hredeemed]), if_neg hlive,
    if_neg (by simp [huri, hverifier])]
  rfl

theorem redeemCode_of_replay {request : CodeRedemption} {now : Duration} {code : AuthCode}
    (h : s.Replay request code) :
    s.redeemCode H request now draws = some (.error .invalidGrant, s.revoke code.family, draws) := by
  obtain ⟨hlookup, hclient, hredeemed⟩ := h
  simp only [redeemCode, hlookup]
  rw [if_neg (by simpa using hclient), if_pos hredeemed]
  rfl

theorem redeemCode_of_refused {request : CodeRedemption} {now : Duration}
    (hnot : ∀ code, ¬ s.Redeemable H request now code) (hfirst : ∀ code, ¬ s.Replay request code) :
    s.redeemCode H request now draws = some (.error .invalidGrant, s, draws) := by
  unfold redeemCode
  split
  · rfl
  rename_i code hlookup
  split
  · rfl
  rename_i hclient
  split
  · rename_i hredeemed
    exact absurd ⟨hlookup, not_not.mp hclient, hredeemed⟩ (hfirst code)
  rename_i hredeemed
  split
  · rfl
  rename_i hlive
  split
  · rfl
  rename_i hright
  obtain ⟨huri, hverifier⟩ := not_or.mp hright
  exact absurd ⟨hlookup, not_not.mp hclient, by simpa using hredeemed, Nat.lt_of_not_le hlive,
    not_not.mp huri, by simpa using hverifier⟩ (hnot code)

theorem refresh_of_refreshable {clientId token : String} {now : Duration} {entry : RefreshToken}
    (h : s.Refreshable clientId token entry) :
    s.refresh clientId token now draws =
      ((s.spend token entry).issueUserTokens clientId entry.family now draws).bind
        fun out => some (.ok out.1, out.2) := by
  obtain ⟨hlookup, hclient, hspent, hrevoked⟩ := h
  simp only [Store.refresh, hlookup]
  rw [if_neg (by simp [hclient, hspent, hrevoked])]
  rfl

theorem refresh_of_refused {clientId token : String} {now : Duration}
    (hnot : ∀ entry, ¬ s.Refreshable clientId token entry) :
    s.refresh clientId token now draws = some (.error .invalidGrant, s, draws) := by
  unfold Store.refresh
  split
  · rfl
  rename_i entry hlookup
  split
  · rfl
  rename_i hright
  obtain ⟨hclient, hspent, hrevoked⟩ : ¬ _ ∧ ¬ _ ∧ ¬ _ := by simpa only [not_or] using hright
  exact absurd ⟨hlookup, not_not.mp hclient, by simpa using hspent, hrevoked⟩ (hnot entry)

theorem Supplies.redeemCode (h : s.Supplies draws) (request : CodeRedemption) (now : Duration) :
    ∃ out, s.redeemCode H request now draws = some out := by
  by_cases hredeem : ∃ code, s.Redeemable H request now code
  · obtain ⟨code, hcode⟩ := hredeem
    obtain ⟨out, hissued⟩ := (h.redeem hcode.1).issueUserTokens request.clientId code.family now
    exact ⟨_, by rw [redeemCode_of_redeemable hcode, hissued]; rfl⟩
  by_cases hreplay : ∃ code, s.Replay request code
  · obtain ⟨code, hcode⟩ := hreplay
    exact ⟨_, redeemCode_of_replay hcode⟩
  · exact ⟨_, redeemCode_of_refused (not_exists.mp hredeem) (not_exists.mp hreplay)⟩

theorem Supplies.refresh (h : s.Supplies draws) (clientId token : String) (now : Duration) :
    ∃ out, s.refresh clientId token now draws = some out := by
  by_cases hrefresh : ∃ entry, s.Refreshable clientId token entry
  · obtain ⟨entry, hentry⟩ := hrefresh
    obtain ⟨out, hissued⟩ := (h.spend hentry.1).issueUserTokens clientId entry.family now
    exact ⟨_, by rw [refresh_of_refreshable hentry, hissued]; rfl⟩
  · exact ⟨_, refresh_of_refused (not_exists.mp hrefresh)⟩

theorem Supplies.issueAppToken (h : s.Supplies draws) (clientId : String) (now : Duration) :
    ∃ out, s.issueAppToken clientId now draws = some out := by
  obtain ⟨a, ha, -, -, -, hunused, -⟩ := h
  obtain ⟨⟨access, rest⟩, haccess⟩ :=
    Option.isSome_iff_exists.mp (freshCredential_isSome hunused ha)
  exact ⟨_, by rw [Store.issueAppToken, insertAccessToken, haccess]; rfl⟩

end

end Store

end Rsc.Mock

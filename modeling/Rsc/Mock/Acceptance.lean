import Rsc.Mock.Lineage

/-!
Which requests the store accepts, told by the history: refresh tokens and
authorization codes.
-/

namespace Rsc.Mock.Store

open Rsc.Library Rsc.Mock.Pkce

variable {H : Hashing} {tokenLifetime codeLifetime : Duration} {h : List Event} {s : Store}

/-! ## The answer and the state before it -/

theorem redeemCode_ok_iff_redeemable {s' : Store} {request : CodeRedemption} {now : Duration}
    {result : Except InvalidGrant Issued} {draws rest : List String}
    (hredeem : s.redeemCode H request now draws = some (result, s', rest)) :
    (∃ issued, result = .ok issued) ↔ ∃ code, s.Redeemable H request now code := by
  cases redeemCode_effect hredeem with
  | redeemRefused hnot _ => simp [hnot]
  | @replayed _ _ code hreplay =>
    simp only [reduceCtorEq, exists_false, false_iff, not_exists]
    intro code' hcode
    have hsame := Option.some.inj (hreplay.1.symm.trans hcode.1)
    exact absurd (hsame ▸ hreplay.2.2) (by simp [hcode.2.2.1])
  | redeemed hcode => exact iff_of_true ⟨_, rfl⟩ ⟨_, hcode⟩

theorem refresh_ok_iff_refreshable (H : Hashing) {s' : Store} {clientId token : String}
    {now : Duration} {result : Except InvalidGrant Issued} {draws rest : List String}
    (hrefresh : s.refresh clientId token now draws = some (result, s', rest)) :
    (∃ issued, result = .ok issued) ↔ ∃ entry, s.Refreshable clientId token entry := by
  have heffect : Effect H s (.refresh clientId token now result) s' := refresh_effect hrefresh
  cases heffect with
  | refreshRefused hnot => simp [hnot]
  | refreshed hentry => exact iff_of_true ⟨_, rfl⟩ ⟨_, hentry⟩

/-! ## A login as a run

The verifier and the challenge are those of RFC 7636, appendix B. -/

/-- The hash functions at the verifier of the appendix. -/
def appendixB : Hashing where
  sha256 _ := [19, 211, 30, 150, 26, 26, 216, 236, 47, 22, 177, 12, 76, 152, 46, 8, 118, 168,
    120, 173, 109, 241, 68, 86, 110, 225, 137, 74, 203, 112, 249, 195]
  base64url _ := "E9Melhoa2OwvFrEMTJguCHaoeK1t8URWbuGJSstw-cM"

def hour : Duration := .fromSecs 3600

def minute : Duration := .fromSecs 60

def loginCode : AuthCode where
  clientId := "web"
  redirectUri := "http://127.0.0.1/callback"
  codeChallenge := "E9Melhoa2OwvFrEMTJguCHaoeK1t8URWbuGJSstw-cM"
  issuedAt := .zero
  family := ⟨0⟩
  redeemed := false

def loginRequest : CodeRedemption where
  clientId := "web"
  code := "code"
  redirectUri := "http://127.0.0.1/callback"
  codeVerifier := "dBjftJeZ4CVP-mB92K27uhbUJU1p1r_wW1gFWFOEjXk"

def loginIssued : Event :=
  .issueCode "web" "http://127.0.0.1/callback" "E9Melhoa2OwvFrEMTJguCHaoeK1t8URWbuGJSstw-cM" .zero
    "code"

def loginHistory : List Event :=
  [.redeemCode loginRequest minute (.ok ⟨"access", some "refresh"⟩), loginIssued]

def codeStore : Store := (Store.new hour hour).issue "code" loginCode

def loginStore : Store :=
  (codeStore.redeem loginRequest loginCode).grant "web" ⟨0⟩ minute "access" "refresh"

theorem codeRun : Run appendixB hour hour [loginIssued] codeStore :=
  .step .new (.issueCode (show (Store.new hour hour).issueCode "web" _ _ .zero ["code"] =
    some ("code", codeStore, []) from rfl))

theorem loginRun : Run appendixB hour hour loginHistory loginStore :=
  .step codeRun (.redeemCode (show codeStore.redeemCode appendixB loginRequest minute
    ["access", "refresh"] = some (.ok ⟨"access", some "refresh"⟩, loginStore, []) from rfl))

/-! ## Refresh tokens -/

theorem Recorded.codeOf_issuedTo {root clientId : String} {f : FamilyId}
    (hr : Recorded tokenLifetime codeLifetime h s) (hcode : s.CodeOf root f clientId) :
    IssuedTo h clientId root := by
  obtain ⟨code, hlookup, rfl, rfl⟩ := hcode
  exact ⟨_, _, _, hr.codes.mpr ⟨_, _, hlookup⟩⟩

theorem Recorded.issuedTo_codeOf {root clientId : String}
    (hr : Recorded tokenLifetime codeLifetime h s) (hissued : IssuedTo h clientId root) :
    ∃ f, s.CodeOf root f clientId := by
  obtain ⟨_, _, _, hmem⟩ := hissued
  obtain ⟨f, _, hlookup⟩ := hr.codes.mp hmem
  exact ⟨f, _, hlookup, rfl, rfl⟩

theorem CodeOf.unique {root c₁ c₂ : String} {f₁ f₂ : FamilyId} (h₁ : s.CodeOf root f₁ c₁)
    (h₂ : s.CodeOf root f₂ c₂) : f₁ = f₂ ∧ c₁ = c₂ := by
  obtain ⟨code₁, hroot₁, rfl, rfl⟩ := h₁
  obtain ⟨code₂, hroot₂, rfl, rfl⟩ := h₂
  rw [Option.some.inj (hroot₁.symm.trans hroot₂)]
  exact ⟨rfl, rfl⟩

theorem refreshable_iff {clientId token : String} (hw : s.WellFormed)
    (hr : Recorded tokenLifetime codeLifetime h s) :
    (∃ entry, s.Refreshable clientId token entry) ↔
      ∃ root, RefreshRoot root h token ∧ IssuedTo h clientId root ∧ ¬ Spent h token ∧
        ¬ Replayed clientId root h := by
  constructor
  · rintro ⟨entry, hlookup, rfl, hspent, hrevoked⟩
    obtain ⟨root, code, hcode, hf, hc, _⟩ := hw.refresh_code hlookup
    have hcodeOf : s.CodeOf root entry.family entry.clientId := ⟨code, hcode, hf, hc⟩
    refine ⟨root, hr.refreshTokens.mpr ⟨_, _, ⟨entry, hlookup, rfl, rfl⟩, hcodeOf⟩,
      hr.codeOf_issuedTo hcodeOf, ?_, ?_⟩
    · intro h'
      obtain ⟨entry', hlookup', h'⟩ := hr.spent.mp h'
      rw [← Option.some.inj (hlookup.symm.trans hlookup'), hspent] at h'
      cases h'
    · intro h'
      exact hrevoked (hr.revoked.mpr ⟨root, entry.clientId, hcodeOf, h'⟩)
  · rintro ⟨root, hroot, hissued, hspent, hreplayed⟩
    obtain ⟨f, client, ⟨entry, hlookup, rfl, rfl⟩, hcodeOf⟩ := hr.refreshTokens.mp hroot
    obtain ⟨_, hissued⟩ := hr.issuedTo_codeOf hissued
    obtain ⟨rfl, rfl⟩ := hissued.unique hcodeOf
    refine ⟨entry, hlookup, rfl, ?_, ?_⟩
    · by_contra h'
      exact hspent (hr.spent.mpr ⟨entry, hlookup, by simpa using h'⟩)
    · intro h'
      obtain ⟨root', client', hcodeOf', h'⟩ := hr.revoked.mp h'
      obtain ⟨rfl, rfl⟩ := hw.root_unique hcodeOf hcodeOf'
      exact hreplayed h'

/-- The refresh token would be accepted from this client. -/
def RefreshAccepted (h : List Event) (clientId token : String) : Prop :=
  ∃ root, RefreshRoot root h token ∧ IssuedTo h clientId root ∧ ¬ Spent h token ∧
    ¬ Replayed clientId root h

/-- A refused refresh leaves the store as it was. -/
theorem refresh_refused_eq {s' : Store} {clientId token : String} {now : Duration}
    {e : InvalidGrant} {draws rest : List String}
    (hrefresh : s.refresh clientId token now draws = some (.error e, s', rest)) : s' = s := by
  have heffect : Effect ⟨id, fun _ => ""⟩ s (.refresh clientId token now (.error e)) s' :=
    refresh_effect hrefresh
  cases heffect
  rfl

/-- **Refresh tokens, by history.** `refresh` accepts exactly the unspent tokens of a
code issued to the client and never replayed by it; a redeemed family has exactly one
unspent token, and a spent one changes nothing. -/
theorem refresh_exact (hrun : Run H tokenLifetime codeLifetime h s) :
    (∀ clientId token now, ∃ draws, (s.refresh clientId token now draws).isSome) ∧
    (∀ clientId token now draws result s' rest,
      s.refresh clientId token now draws = some (result, s', rest) →
        ((∃ issued, result = .ok issued) ↔ RefreshAccepted h clientId token) ∧
        (Spent h token → s' = s)) ∧
    ∀ root code, s.codes.lookup root = some code →
      (Redeemed h root → ∃! token, s.Unspent code.family token) ∧
      (¬ Redeemed h root → ∀ token, ¬ s.Unspent code.family token) ∧
      (∀ token entry, s.refreshTokens.lookup token = some entry → entry.family = code.family →
        entry.clientId = code.clientId) ∧
      (∀ token entry, s.accessTokens.lookup token = some entry →
        entry.family = some code.family → entry.clientId = code.clientId) := by
  have hw := hrun.wellFormed
  have hr := hrun.recorded
  refine ⟨s.refresh_returns, ?_, ?_⟩
  · intro clientId token now draws result s' rest hrefresh
    have hiff := (refresh_ok_iff_refreshable H hrefresh).trans (refreshable_iff hw hr)
    refine ⟨hiff, fun hspent => ?_⟩
    cases result with
    | error e => exact refresh_refused_eq hrefresh
    | ok issued =>
      obtain ⟨_, _, _, hnot, _⟩ := hiff.mp ⟨issued, rfl⟩
      exact absurd hspent hnot
  · intro root code hroot
    have hclient : ∀ client, s.RedeemedCode code.family client →
        client = code.clientId ∧ code.redeemed = true := by
      rintro client ⟨root', code', hroot', hf, rfl, hredeemed⟩
      obtain rfl := hw.family_inj hroot' hroot hf
      rw [← Option.some.inj (hroot'.symm.trans hroot)]
      exact ⟨rfl, hredeemed⟩
    refine ⟨fun hredeemed => ?_, fun hnot token hunspent => ?_, ?_, ?_⟩
    · obtain ⟨code', hroot', hredeemed⟩ := hr.redeemed.mp hredeemed
      obtain rfl := Option.some.inj (hroot.symm.trans hroot')
      obtain ⟨token, htoken⟩ := hw.unspent ⟨root, code, hroot, rfl, rfl, hredeemed⟩
      exact ⟨token, (htoken token).mpr rfl, fun token' => (htoken token').mp⟩
    · obtain ⟨client, hcode⟩ := hw.redeemed_of_unspent hunspent
      exact hnot (hr.redeemed.mpr ⟨code, hroot, (hclient _ hcode).2⟩)
    · rintro token entry hentry hf
      exact (hclient _ (hf ▸ hw.refresh_code hentry)).1
    · rintro token entry hentry hf
      exact (hclient _ (hw.access_code hentry hf)).1

/-- The refresh token of the login is accepted. -/
theorem refresh_exact_login : ∃ issued s' rest,
    loginStore.refresh "web" "refresh" hour ["access₂", "refresh₂"] =
      some (.ok issued, s', rest) := by
  obtain ⟨_, hexact, _⟩ := refresh_exact loginRun
  have hrefresh : ∃ result s' rest,
      loginStore.refresh "web" "refresh" hour ["access₂", "refresh₂"] = some (result, s', rest) :=
    ⟨_, _, _, rfl⟩
  obtain ⟨result, s', rest, hrefresh⟩ := hrefresh
  have haccepted : RefreshAccepted loginHistory "web" "refresh" := by
    refine ⟨"code", .inr ⟨rfl, rfl⟩, ⟨_, _, _, .tail _ (.head _)⟩, ?_, ?_⟩
    · simp [Spent, loginHistory, loginIssued]
    · simp [Replayed, Redeemed, loginHistory, loginIssued]
  obtain ⟨issued, rfl⟩ := (hexact _ _ _ _ _ _ _ hrefresh).1.mpr haccepted
  exact ⟨issued, s', rest, hrefresh⟩

/-! ## Authorization codes -/

/-- The code was issued to the client with these parameters, and is not expired. -/
def ValidRedemption (H : Hashing) (codeLifetime : Duration) (h : List Event)
    (request : CodeRedemption) (now : Duration) : Prop :=
  ∃ t₀, .issueCode request.clientId request.redirectUri (s256Challenge H request.codeVerifier) t₀
      request.code ∈ h ∧
    43 ≤ request.codeVerifier.length ∧ request.codeVerifier.length ≤ 128 ∧
    (∀ c ∈ request.codeVerifier.toList, Unreserved c) ∧
    now.nanos < t₀.nanos + codeLifetime.nanos

/-- No issue time plus the lifetime of a code exceeds the longest duration. -/
def CodeTimesFit (codeLifetime : Duration) (h : List Event) : Prop :=
  ∀ clientId redirectUri codeChallenge t₀ code,
    .issueCode clientId redirectUri codeChallenge t₀ code ∈ h → Duration.Fits t₀ codeLifetime

/-- A successful redemption of the code. -/
def redeems (code : String) : Event → Bool
  | .redeemCode request _ (.ok _) => request.code == code
  | _ => false

theorem redeemable_iff {request : CodeRedemption} {now : Duration}
    (hr : Recorded tokenLifetime codeLifetime h s) (hfits : CodeTimesFit codeLifetime h) :
    (∃ code, s.Redeemable H request now code) ↔
      ValidRedemption H codeLifetime h request now ∧ ¬ Redeemed h request.code := by
  constructor
  · rintro ⟨code, hlookup, hclient, hredeemed, hlive, huri, hverifier⟩
    have hissued := hr.codes.mpr ⟨code.family, code.redeemed, hlookup⟩
    obtain ⟨hvalid, hchallenge⟩ := (verifyS256_iff _ _ _).mp hverifier
    obtain ⟨hmin, hmax, hchars⟩ := (isValidVerifier_iff _).mp hvalid
    rw [hr.codeLifetime_eq, Duration.lt_def,
      Duration.nanos_saturatingAdd (hfits _ _ _ _ _ hissued)] at hlive
    rw [hclient, huri, hchallenge] at hissued
    refine ⟨⟨code.issuedAt, hissued, hmin, hmax, hchars, hlive⟩, fun h' => ?_⟩
    obtain ⟨code', hlookup', h'⟩ := hr.redeemed.mp h'
    rw [← Option.some.inj (hlookup.symm.trans hlookup'), hredeemed] at h'
    cases h'
  · rintro ⟨⟨t₀, hissued, hmin, hmax, hchars, hlive⟩, hfirst⟩
    obtain ⟨family, redeemed, hlookup⟩ := hr.codes.mp hissued
    refine ⟨_, hlookup, rfl, ?_, ?_, rfl, ?_⟩
    · by_contra h'
      exact hfirst (hr.redeemed.mpr ⟨_, hlookup, by simpa using h'⟩)
    · rw [hr.codeLifetime_eq, Duration.lt_def,
        Duration.nanos_saturatingAdd (hfits _ _ _ _ _ hissued)]
      exact hlive
    · exact (verifyS256_iff _ _ _).mpr ⟨(isValidVerifier_iff _).mpr ⟨hmin, hmax, hchars⟩, rfl⟩

theorem redeemed_iff_countP {code : String} : Redeemed h code ↔ 0 < h.countP (redeems code) := by
  rw [List.countP_pos_iff, Redeemed]
  constructor
  · rintro ⟨request, now, issued, hmem, rfl⟩
    exact ⟨_, hmem, beq_self_eq_true _⟩
  · rintro ⟨e, hmem, he⟩
    cases e with
    | redeemCode request now answer =>
      cases answer with
      | ok issued => exact ⟨request, now, issued, hmem, beq_iff_eq.mp he⟩
      | error _ => cases he
    | _ => cases he

/-- One step redeems a code at most when nothing before it did. -/
theorem Effect.redeems_first {s' : Store} {e : Event} {code : String}
    (hr : Recorded tokenLifetime codeLifetime h s) (he : Effect H s e s')
    (hcode : redeems code e = true) : ¬ Redeemed h code := by
  cases he with
  | redeemed hredeemable =>
    obtain rfl := beq_iff_eq.mp hcode
    intro h'
    obtain ⟨code', hlookup', h'⟩ := hr.redeemed.mp h'
    rw [← Option.some.inj (hredeemable.1.symm.trans hlookup'), hredeemable.2.2.1] at h'
    cases h'
  | _ => cases hcode

theorem Run.countP_redeems_le_one (hrun : Run H tokenLifetime codeLifetime h s) (code : String) :
    h.countP (redeems code) ≤ 1 := by
  induction hrun with
  | new => simp
  | @step h s s' e hprev hstep ih =>
    rw [List.countP_cons]
    split
    · rename_i hcode
      have := hstep.effect.redeems_first hprev.recorded hcode
      rw [redeemed_iff_countP] at this
      omega
    · exact ih

/-- The runs that led to an earlier point of the history. -/
theorem Run.of_append {h₂ h₁ : List Event} (hrun : Run H tokenLifetime codeLifetime (h₂ ++ h₁) s) :
    ∃ s₁, Run H tokenLifetime codeLifetime h₁ s₁ := by
  induction h₂ generalizing s with
  | nil => exact ⟨s, hrun⟩
  | cons e h₂ ih =>
    cases hrun with
    | step hprev _ => exact ih hprev

/-- A refused redemption leaves the codes as they were. -/
theorem redeemCode_refused_codes {s' : Store} {request : CodeRedemption} {now : Duration}
    {e : InvalidGrant} {draws rest : List String}
    (hredeem : s.redeemCode H request now draws = some (.error e, s', rest)) :
    s'.codes = s.codes := by
  cases redeemCode_effect hredeem <;> rfl

/-- **Authorization codes, by history.** `redeem_code` accepts exactly the valid
redemptions of a code not redeemed before; a refused one changes no code; a run redeems
each code at most once, and exactly once when it holds a valid attempt. -/
theorem redeemCode_exact (hrun : Run H tokenLifetime codeLifetime h s)
    (hfits : CodeTimesFit codeLifetime h) :
    (∀ request now, ∃ draws, (s.redeemCode H request now draws).isSome) ∧
    (∀ request now draws result s' rest,
      s.redeemCode H request now draws = some (result, s', rest) →
        ((∃ issued, result = .ok issued) ↔
          ValidRedemption H codeLifetime h request now ∧ ¬ Redeemed h request.code) ∧
        (result = .error .invalidGrant → s'.codes = s.codes)) ∧
    (∀ code, h.countP (redeems code) ≤ 1) ∧
    ∀ later request now result earlier, h = later ++ .redeemCode request now result :: earlier →
      ValidRedemption H codeLifetime earlier request now →
        h.countP (redeems request.code) = 1 := by
  have hr := hrun.recorded
  refine ⟨s.redeemCode_returns, ?_, hrun.countP_redeems_le_one, ?_⟩
  · intro request now draws result s' rest hredeem
    refine ⟨(redeemCode_ok_iff_redeemable hredeem).trans (redeemable_iff hr hfits), ?_⟩
    rintro rfl
    exact redeemCode_refused_codes hredeem
  · rintro later request now result earlier rfl hvalid
    refine Nat.le_antisymm (hrun.countP_redeems_le_one _) (redeemed_iff_countP.mp ?_)
    by_cases hfirst : Redeemed earlier request.code
    · obtain ⟨request', now', issued, hmem, heq⟩ := hfirst
      exact ⟨request', now', issued, List.mem_append_right _ (List.mem_cons_of_mem _ hmem), heq⟩
    · obtain ⟨_, hrun'⟩ := hrun.of_append
      cases hrun' with
      | step hprev hstep =>
        cases hstep with
        | redeemCode hredeem =>
          have hfits' : CodeTimesFit codeLifetime earlier := fun _ _ _ _ _ hmem =>
            hfits _ _ _ _ _ (List.mem_append_right _ (List.mem_cons_of_mem _ hmem))
          obtain ⟨issued, rfl⟩ := ((redeemCode_ok_iff_redeemable hredeem).trans
            (redeemable_iff hprev.recorded hfits')).mpr ⟨hvalid, hfirst⟩
          exact ⟨request, now, issued, List.mem_append_right _ (.head _), rfl⟩

/-- The code of the login is accepted. -/
theorem redeemCode_exact_login : ∃ issued s' rest,
    codeStore.redeemCode appendixB loginRequest minute ["access", "refresh"] =
      some (.ok issued, s', rest) := by
  have hfits : CodeTimesFit hour [loginIssued] := by
    intro clientId redirectUri codeChallenge t₀ code hmem
    cases List.mem_singleton.mp hmem
    decide
  obtain ⟨_, hexact, _⟩ := redeemCode_exact codeRun hfits
  have hredeem : ∃ result s' rest,
      codeStore.redeemCode appendixB loginRequest minute ["access", "refresh"] =
        some (result, s', rest) := ⟨_, _, _, rfl⟩
  obtain ⟨result, s', rest, hredeem⟩ := hredeem
  have hvalid : ValidRedemption appendixB hour [loginIssued] loginRequest minute := by
    obtain ⟨hmin, hmax, hchars⟩ := (isValidVerifier_iff loginRequest.codeVerifier).mp
      (by decide +kernel)
    exact ⟨.zero, .head _, hmin, hmax, hchars, by decide⟩
  obtain ⟨issued, rfl⟩ := (hexact _ _ _ _ _ _ hredeem).1.mpr
    ⟨hvalid, by simp [Redeemed, loginIssued]⟩
  exact ⟨issued, s', rest, hredeem⟩

end Rsc.Mock.Store

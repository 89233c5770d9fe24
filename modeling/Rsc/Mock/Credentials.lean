import Rsc.Mock.AccessTokens

/-!
Credentials are unique and typed forever. Whatever the random generator produces, what the
store returns is new, the keys of its three maps are what it returned, and a credential of
one kind is never accepted as one of another.
-/

namespace Rsc.Mock.Store

open Rsc.Library Rsc.Mock.Pkce

/-! ## What the store returns -/

inductive Kind
  | code
  | access
  | refresh
  deriving DecidableEq

def Issued.credentials (issued : Issued) : List (Kind × String) :=
  (.access, issued.accessToken) :: issued.refreshToken.toList.map (.refresh, ·)

/-- The credentials that an operation returns. -/
def credentials : Event → List (Kind × String)
  | .issueCode _ _ _ _ code => [(.code, code)]
  | .redeemCode _ _ (.ok issued) | .refresh _ _ _ (.ok issued) => issued.credentials
  | .redeemCode _ _ (.error _) | .refresh _ _ _ (.error _) => []
  | .issueAppToken _ _ issued => issued.credentials

/-- All the credentials ever returned, the latest first. -/
def returned (h : List Event) : List (Kind × String) := h.flatMap credentials

/-- The credential is a key of the map of its kind. -/
def Holds (s : Store) : Kind → String → Prop
  | .code, c => c ∈ s.codes
  | .access, c => c ∈ s.accessTokens
  | .refresh, c => c ∈ s.refreshTokens

/-- Every entry is kept; at most it is marked as redeemed or spent. -/
structure Keeps (s s' : Store) : Prop where
  codes : ∀ {c code}, s.codes.lookup c = some code →
    ∃ redeemed, s'.codes.lookup c = some { code with redeemed }
  accessTokens : ∀ {c entry}, s.accessTokens.lookup c = some entry →
    s'.accessTokens.lookup c = some entry
  refreshTokens : ∀ {c entry}, s.refreshTokens.lookup c = some entry →
    ∃ spent, s'.refreshTokens.lookup c = some { entry with spent }

/-- A credential of one kind is not accepted as one of another, and trying changes nothing. -/
structure Refuses (H : Hashing) (s : Store) (kind : Kind) (c : String) : Prop where
  code : kind ≠ .code → ∀ request now draws, request.code = c →
    s.redeemCode H request now draws = some (.error .invalidGrant, s, draws)
  refresh : kind ≠ .refresh → ∀ clientId now draws,
    s.refresh clientId c now draws = some (.error .invalidGrant, s, draws)
  access : kind ≠ .access → ∀ now, s.accessTokenInfo c now = none

/-! ## One operation -/

variable {H : Hashing} {s s' : Store} {e : Event}

theorem unused_iff {c : String} : s.Unused c ↔ ∀ kind, ¬ s.Holds kind c := by
  constructor
  · intro h kind
    cases kind with
    | code => exact h.1
    | access => exact h.2.1
    | refresh => exact h.2.2
  · exact fun h => ⟨h .code, h .access, h .refresh⟩

theorem holds_grant {clientId access refresh c : String} {family : FamilyId} {now : Duration}
    {kind : Kind} : (s.grant clientId family now access refresh).Holds kind c ↔
      (kind, c) ∈ [(Kind.access, access), (Kind.refresh, refresh)] ∨ s.Holds kind c := by
  cases kind <;> simp [Holds, grant, Finmap.mem_insert]

theorem holds_redeem {request : CodeRedemption} {code : AuthCode} {kind : Kind} {c : String}
    (h : s.codes.lookup request.code = some code) :
    (s.redeem request code).Holds kind c ↔ s.Holds kind c := by
  have hmem := Finmap.mem_of_lookup_eq_some h
  cases kind <;> simp only [Holds, redeem, Finmap.mem_insert]
  exact or_iff_right_of_imp fun heq => heq ▸ hmem

theorem holds_spend {token : String} {entry : RefreshToken} {kind : Kind} {c : String}
    (h : s.refreshTokens.lookup token = some entry) :
    (s.spend token entry).Holds kind c ↔ s.Holds kind c := by
  have hmem := Finmap.mem_of_lookup_eq_some h
  cases kind <;> simp only [Holds, spend, Finmap.mem_insert]
  exact or_iff_right_of_imp fun heq => heq ▸ hmem

/-- The keys are those from before, and what the operation returned. -/
theorem Effect.holds (h : Effect H s e s') {kind : Kind} {c : String} :
    s'.Holds kind c ↔ (kind, c) ∈ credentials e ∨ s.Holds kind c := by
  cases h with
  | issued _ => cases kind <;> simp [Holds, issue, credentials, Finmap.mem_insert]
  | redeemed hcode => exact holds_grant.trans (or_congr_right (holds_redeem hcode.1))
  | refreshed hentry => exact holds_grant.trans (or_congr_right (holds_spend hentry.1))
  | appToken _ =>
    cases kind <;> simp [Holds, grantApp, credentials, Issued.credentials, Finmap.mem_insert]
  | replayed _ => cases kind <;> simp [Holds, revoke, credentials]
  | redeemRefused _ _ => simp [credentials]
  | refreshRefused _ => simp [credentials]

/-- What an operation returns was unused before. -/
theorem Effect.fresh (h : Effect H s e s') : ∀ entry ∈ credentials e, s.Unused entry.2 := by
  cases h with
  | issued hcode => simpa [credentials] using hcode
  | redeemed _ haccess hrefresh _ => simpa [credentials, Issued.credentials] using ⟨haccess, hrefresh⟩
  | refreshed _ haccess hrefresh _ => simpa [credentials, Issued.credentials] using ⟨haccess, hrefresh⟩
  | appToken haccess => simpa [credentials, Issued.credentials] using haccess
  | _ => exact nofun

/-- Also the two tokens of one grant are different. -/
theorem Effect.credentials_nodup (h : Effect H s e s') :
    ((credentials e).map Prod.snd).Nodup := by
  cases h with
  | redeemed _ _ _ hne => simpa [credentials, Issued.credentials] using hne.symm
  | refreshed _ _ _ hne => simpa [credentials, Issued.credentials] using hne.symm
  | _ => simp [credentials, Issued.credentials]

theorem Effect.lookup_codes {c : String} {code : AuthCode} (h : Effect H s e s')
    (hcode : s.codes.lookup c = some code) :
    ∃ redeemed, s'.codes.lookup c = some { code with redeemed } := by
  cases h with
  | @issued _ _ _ code' _ hunused =>
    refine ⟨code.redeemed, ?_⟩
    have hne : c ≠ code' := by
      rintro rfl
      exact hunused.1 (Finmap.mem_of_lookup_eq_some hcode)
    rw [issue, lookup_insert_eq, if_neg hne, hcode]
  | @redeemed request _ code' _ _ hredeemable _ _ _ =>
    simp only [grant, redeem, lookup_insert_eq]
    by_cases heq : c = request.code
    · subst heq
      obtain rfl := Option.some.inj (hcode.symm.trans hredeemable.1)
      exact ⟨true, if_pos rfl⟩
    · exact ⟨code.redeemed, by rw [if_neg heq, hcode]⟩
  | _ => exact ⟨code.redeemed, hcode⟩

theorem Effect.keeps (h : Effect H s e s') : Keeps s s' where
  codes hcode := h.lookup_codes hcode
  accessTokens hentry := h.lookup_accessTokens hentry
  refreshTokens hentry := by
    obtain ⟨spent, hspent, _⟩ := h.lookup_refreshTokens hentry
    exact ⟨spent, hspent⟩

/-- A credential that is not in the map of another kind is refused as one of that kind. -/
theorem refuses_of_disjoint {kind : Kind} {c : String}
    (h : ∀ other, s.Holds other c → kind = other) : Refuses H s kind c where
  code hkind request now draws hrequest := by
    have hnone : s.codes.lookup request.code = none := by
      rw [hrequest]
      exact Finmap.lookup_eq_none.mpr fun hmem => hkind (h .code hmem)
    simp only [redeemCode, hnone]
  refresh hkind clientId now draws := by
    have hnone : s.refreshTokens.lookup c = none :=
      Finmap.lookup_eq_none.mpr fun hmem => hkind (h .refresh hmem)
    simp only [Store.refresh, hnone]
  access hkind now := by
    have hnone : s.accessTokens.lookup c = none :=
      Finmap.lookup_eq_none.mpr fun hmem => hkind (h .access hmem)
    simp only [accessTokenInfo, hnone, Option.bind_eq_bind, Option.bind_none]

/-! ## Every run -/

/-- The keys are what was returned, and nothing was returned twice. -/
structure Unique (h : List Event) (s : Store) : Prop where
  holds : ∀ {kind c}, s.Holds kind c ↔ (kind, c) ∈ returned h
  nodup : ((returned h).map Prod.snd).Nodup

variable {tokenLifetime codeLifetime : Duration} {h : List Event}

theorem Unique.new : Unique [] (Store.new tokenLifetime codeLifetime) where
  holds {kind c} := by cases kind <;> simp [Holds, Store.new, returned, Finmap.notMem_empty]
  nodup := List.nodup_nil

/-- What is returned is new, so no credential is returned twice. -/
theorem Unique.step (hs : Unique h s) (he : Effect H s e s') : Unique (e :: h) s' where
  holds := by
    intro kind c
    rw [he.holds, hs.holds, returned, returned, List.flatMap_cons, List.mem_append]
  nodup := by
    rw [returned, List.flatMap_cons, List.map_append]
    refine List.nodup_append.mpr ⟨he.credentials_nodup, hs.nodup, ?_⟩
    rintro c hc _ hold rfl
    obtain ⟨⟨_, _⟩, hnew, rfl⟩ := List.mem_map.mp hc
    obtain ⟨⟨kind, _⟩, hold, heq⟩ := List.mem_map.mp hold
    refine unused_iff.mp (he.fresh _ hnew) kind (hs.holds.mpr ?_)
    rwa [← heq]

/-- A credential has one kind. -/
theorem Unique.kind_eq {kind other : Kind} {c : String} (hs : Unique h s)
    (h₁ : (kind, c) ∈ returned h) (h₂ : (other, c) ∈ returned h) : kind = other :=
  congrArg Prod.fst (List.inj_on_of_nodup_map hs.nodup h₁ h₂ rfl)

theorem Run.unique (hrun : Run H tokenLifetime codeLifetime h s) : Unique h s := by
  induction hrun with
  | new => exact .new
  | step _ hstep ih => exact ih.step hstep.effect

/-- **Unique credentials.** All the credentials ever returned are different; the keys of
each map are the credentials of its kind, so no two maps share one; an operation keeps every
entry and returns only what no map holds; and a credential of one kind is refused as one of
another, by every operation and at any time. -/
theorem credentials_unique (hrun : Run H tokenLifetime codeLifetime h s) :
    ((returned h).map Prod.snd).Nodup ∧
      (∀ kind c, s.Holds kind c ↔ (kind, c) ∈ returned h) ∧
      (∀ kind other c, s.Holds kind c → s.Holds other c → kind = other) ∧
      (∀ e s', Step H s e s' → Keeps s s' ∧ ∀ entry ∈ credentials e, s.Unused entry.2) ∧
      ∀ kind c, (kind, c) ∈ returned h → Refuses H s kind c := by
  have hunique := hrun.unique
  refine ⟨hunique.nodup, fun _ _ => hunique.holds, ?_, ?_, ?_⟩
  · intro kind other c hkind hother
    exact hunique.kind_eq (hunique.holds.mp hkind) (hunique.holds.mp hother)
  · exact fun e s' hstep => ⟨hstep.effect.keeps, hstep.effect.fresh⟩
  · intro kind c hmem
    exact refuses_of_disjoint fun other hother => hunique.kind_eq hmem (hunique.holds.mp hother)

/-- The refresh token of a login is not a code. -/
theorem credentials_unique_login :
    returned loginHistory = [(.access, "access"), (.refresh, "refresh"), (.code, "code")] ∧
      Refuses appendixB loginStore .refresh "refresh" :=
  ⟨rfl, (credentials_unique loginRun).2.2.2.2 _ _ (.tail _ (.head _))⟩

end Rsc.Mock.Store

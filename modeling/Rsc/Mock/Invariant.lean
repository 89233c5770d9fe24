import Rsc.Mock.History

/-!
The invariant of the store. `WellFormed` speaks of the maps alone: families are told
apart by their codes, every token of a family carries the client of its code, and a
redeemed family has exactly one unspent refresh token.
-/

namespace Rsc.Mock.Store

open Rsc.Library Rsc.Mock.Pkce

theorem lookup_insert_eq {β : Type} (m : Finmap (fun _ : String => β)) (a b : String) (v : β) :
    (m.insert a v).lookup b = if b = a then some v else m.lookup b := by
  split
  · subst b
    exact Finmap.lookup_insert m
  · rename_i h
    exact Finmap.lookup_insert_of_ne m h

theorem lookup_eq_none_of_unused {s : Store} {c : String} (h : s.Unused c) :
    s.codes.lookup c = none ∧ s.accessTokens.lookup c = none ∧ s.refreshTokens.lookup c = none :=
  ⟨Finmap.lookup_eq_none.mpr h.1, Finmap.lookup_eq_none.mpr h.2.1,
    Finmap.lookup_eq_none.mpr h.2.2⟩

/-- `token` is an unspent refresh token of the family. -/
def Unspent (s : Store) (family : FamilyId) (token : String) : Prop :=
  ∃ entry, s.refreshTokens.lookup token = some entry ∧ entry.family = family ∧ entry.spent = false

/-- The redeemed code of a family, with the client it was issued to. -/
def RedeemedCode (s : Store) (family : FamilyId) (clientId : String) : Prop :=
  ∃ root code, s.codes.lookup root = some code ∧ code.family = family ∧
    code.clientId = clientId ∧ code.redeemed = true

/-- Families are told apart by their codes, and every token of a family carries the
client of its redeemed code. -/
structure Linked (s : Store) : Prop where
  family_lt : ∀ {c code}, s.codes.lookup c = some code → code.family.id < s.nextFamily
  family_inj : ∀ {c₁ c₂ code₁ code₂}, s.codes.lookup c₁ = some code₁ →
    s.codes.lookup c₂ = some code₂ → code₁.family = code₂.family → c₁ = c₂
  refresh_code : ∀ {token entry}, s.refreshTokens.lookup token = some entry →
    s.RedeemedCode entry.family entry.clientId
  access_code : ∀ {token entry f}, s.accessTokens.lookup token = some entry →
    entry.family = some f → s.RedeemedCode f entry.clientId

/-- A redeemed family has exactly one unspent refresh token. -/
structure WellFormed (s : Store) : Prop extends Linked s where
  unspent : ∀ {f clientId}, s.RedeemedCode f clientId →
    ∃ token, ∀ token', s.Unspent f token' ↔ token' = token

theorem WellFormed.new (tokenLifetime codeLifetime : Duration) :
    (Store.new tokenLifetime codeLifetime).WellFormed := by
  refine ⟨⟨?_, ?_, ?_, ?_⟩, ?_⟩ <;> simp [Store.new, RedeemedCode]

/-- A family without a redeemed code has no refresh token. -/
theorem Linked.redeemed_of_unspent {s : Store} {f : FamilyId} {token : String} (hs : s.Linked)
    (h : s.Unspent f token) : ∃ clientId, s.RedeemedCode f clientId := by
  obtain ⟨entry, hentry, rfl, _⟩ := h
  exact ⟨entry.clientId, hs.refresh_code hentry⟩

/-! ## The two predicates across the updates -/

theorem unspent_grant {s : Store} {clientId access refresh token : String} {f g : FamilyId}
    {now : Duration} (hrefresh : refresh ∉ s.refreshTokens) :
    (s.grant clientId f now access refresh).Unspent g token ↔
      s.Unspent g token ∨ (g = f ∧ token = refresh) := by
  have hnone : s.refreshTokens.lookup refresh = none := Finmap.lookup_eq_none.mpr hrefresh
  simp only [Unspent, grant, lookup_insert_eq]
  by_cases h : token = refresh
  · subst h
    simp [hnone, @eq_comm _ f g]
  · simp [h]

theorem unspent_spend {s : Store} {old token : String} {entry : RefreshToken} {g : FamilyId} :
    (s.spend old entry).Unspent g token ↔ s.Unspent g token ∧ token ≠ old := by
  simp only [Unspent, spend, lookup_insert_eq]
  by_cases h : token = old
  · simp [h]
  · simp [h]

theorem redeemedCode_redeem {s : Store} {request : CodeRedemption} {code : AuthCode}
    {f : FamilyId} {clientId : String} (hcode : s.codes.lookup request.code = some code) :
    (s.redeem request code).RedeemedCode f clientId ↔
      s.RedeemedCode f clientId ∨ (f = code.family ∧ clientId = code.clientId) := by
  simp only [RedeemedCode, redeem, lookup_insert_eq]
  constructor
  · rintro ⟨root, code', hroot, rfl, rfl, hredeemed⟩
    split at hroot
    · cases hroot
      exact .inr ⟨rfl, rfl⟩
    · exact .inl ⟨root, code', hroot, rfl, rfl, hredeemed⟩
  · rintro (⟨root, code', hroot, rfl, rfl, hredeemed⟩ | ⟨rfl, rfl⟩)
    · by_cases h : root = request.code
      · subst h
        obtain rfl : code = code' := Option.some.inj (hcode.symm.trans hroot)
        exact ⟨request.code, _, if_pos rfl, rfl, rfl, rfl⟩
      · exact ⟨root, code', by rw [if_neg h, hroot], rfl, rfl, hredeemed⟩
    · exact ⟨request.code, _, if_pos rfl, rfl, rfl, rfl⟩

/-- A new code opens no redeemed family. -/
theorem redeemedCode_issue {s : Store} {c : String} {code : AuthCode} {f : FamilyId}
    {clientId : String} (hc : s.Unused c) (hcode : code.redeemed = false) :
    (s.issue c code).RedeemedCode f clientId ↔ s.RedeemedCode f clientId := by
  have hnone := (lookup_eq_none_of_unused hc).1
  simp only [RedeemedCode, issue, lookup_insert_eq]
  apply exists_congr
  intro root
  by_cases h : root = c
  · subst h
    simp [hnone, hcode]
  · simp [h]

/-! ## Preservation -/

theorem Linked.grant {s : Store} {clientId : String} {f : FamilyId} (now : Duration)
    (access refresh : String) (hs : s.Linked) (hf : s.RedeemedCode f clientId) :
    (s.grant clientId f now access refresh).Linked where
  family_lt := hs.family_lt
  family_inj := hs.family_inj
  refresh_code := by
    intro token entry h
    simp only [Store.grant, lookup_insert_eq] at h
    split at h
    · cases h
      exact hf
    · exact hs.refresh_code h
  access_code := by
    intro token entry g h hg
    simp only [Store.grant, lookup_insert_eq] at h
    split at h
    · cases h
      cases hg
      exact hf
    · exact hs.access_code h hg

theorem Linked.spend {s : Store} {token : String} {entry : RefreshToken} (hs : s.Linked)
    (hentry : s.refreshTokens.lookup token = some entry) : (s.spend token entry).Linked where
  family_lt := hs.family_lt
  family_inj := hs.family_inj
  refresh_code := by
    intro token' entry' h
    simp only [Store.spend, lookup_insert_eq] at h
    split at h
    · cases h
      exact @hs.refresh_code _ entry hentry
    · exact hs.refresh_code h
  access_code := hs.access_code

theorem Linked.redeem {s : Store} {request : CodeRedemption} {code : AuthCode} (hs : s.Linked)
    (hcode : s.codes.lookup request.code = some code) : (s.redeem request code).Linked := by
  have hold : ∀ {c code'}, (s.redeem request code).codes.lookup c = some code' →
      ∃ code'', s.codes.lookup c = some code'' ∧ code''.family = code'.family := by
    intro c code' h
    simp only [Store.redeem, lookup_insert_eq] at h
    split at h
    · cases h
      subst c
      exact ⟨code, hcode, rfl⟩
    · exact ⟨code', h, rfl⟩
  constructor
  · intro c code' h
    obtain ⟨code'', h', hf⟩ := hold h
    exact hf ▸ hs.family_lt h'
  · intro c₁ c₂ code₁ code₂ h₁ h₂ hf
    obtain ⟨code₁', h₁', hf₁⟩ := hold h₁
    obtain ⟨code₂', h₂', hf₂⟩ := hold h₂
    exact hs.family_inj h₁' h₂' (hf₁.trans (hf.trans hf₂.symm))
  · intro token entry h
    exact (redeemedCode_redeem hcode).mpr (.inl (hs.refresh_code h))
  · intro token entry f h hf
    exact (redeemedCode_redeem hcode).mpr (.inl (hs.access_code h hf))

theorem Linked.issued {s : Store} {c : String} {code : AuthCode} (hs : s.Linked)
    (hc : s.Unused c) (hfamily : code.family = ⟨s.nextFamily⟩) (hcode : code.redeemed = false) :
    (s.issue c code).Linked := by
  constructor
  · intro c' code' h
    simp only [issue, lookup_insert_eq] at h
    split at h
    · cases h
      simp [issue, hfamily]
    · exact Nat.lt_succ_of_lt (hs.family_lt h)
  · intro c₁ c₂ code₁ code₂ h₁ h₂ hf
    simp only [issue, lookup_insert_eq] at h₁ h₂
    -- the family of the new code is above every family in the map
    split at h₁ <;> split at h₂
    · simp_all
    · cases h₁
      exact absurd (hs.family_lt h₂) (by simp [← hf, hfamily])
    · cases h₂
      exact absurd (hs.family_lt h₁) (by simp [hf, hfamily])
    · exact hs.family_inj h₁ h₂ hf
  · intro token entry h
    exact (redeemedCode_issue hc hcode).mpr (hs.refresh_code h)
  · intro token entry f h hf
    exact (redeemedCode_issue hc hcode).mpr (hs.access_code h hf)

theorem Linked.revoke {s : Store} (f : FamilyId) (hs : s.Linked) : (s.revoke f).Linked :=
  ⟨hs.family_lt, hs.family_inj, hs.refresh_code, hs.access_code⟩

theorem Linked.grantApp {s : Store} (clientId : String) (now : Duration) (access : String)
    (hs : s.Linked) : (s.grantApp clientId now access).Linked where
  family_lt := hs.family_lt
  family_inj := hs.family_inj
  refresh_code := hs.refresh_code
  access_code := by
    intro token entry f h hf
    simp only [Store.grantApp, lookup_insert_eq] at h
    split at h
    · cases h
      cases hf
    · exact hs.access_code h hf

/-- **Preservation.** Every operation keeps the invariant of the maps. -/
theorem WellFormed.effect {H : Hashing} {s s' : Store} {e : Event} (hs : s.WellFormed)
    (he : Effect H s e s') : s'.WellFormed := by
  cases he with
  | issued hcode =>
    refine ⟨hs.toLinked.issued hcode rfl rfl, fun hf => ?_⟩
    exact hs.unspent ((redeemedCode_issue hcode rfl).mp hf)
  | redeemRefused => exact hs
  | replayed => exact ⟨hs.toLinked.revoke _, hs.unspent⟩
  | @redeemed request now code access refresh hcode _ hrefresh _ =>
    obtain ⟨hlookup, hclient, hredeemed, _⟩ := hcode
    -- the family has no token yet: a token would come with a redeemed code of the family
    have hnone : ∀ token, ¬ s.Unspent code.family token := by
      rintro token ⟨entry, hentry, hfamily, _⟩
      obtain ⟨root, code', hroot, hf, _, hr⟩ := hs.refresh_code hentry
      obtain rfl := hs.family_inj hroot hlookup (hf.trans hfamily)
      rw [Option.some.inj (hlookup.symm.trans hroot)] at hredeemed
      exact Bool.noConfusion (hredeemed.symm.trans hr)
    refine ⟨(hs.toLinked.redeem hlookup).grant now access refresh
      ((redeemedCode_redeem hlookup).mpr (.inr ⟨rfl, hclient.symm⟩)), fun {f client} hf => ?_⟩
    rcases (redeemedCode_redeem hlookup).mp hf with hf | ⟨rfl, _⟩
    · obtain ⟨token, ht⟩ := hs.unspent hf
      have hfamily : f ≠ code.family := by
        rintro rfl
        exact hnone token ((ht token).mpr rfl)
      exact ⟨token, fun token' => by
        rw [unspent_grant (s := s.redeem request code) hrefresh.2.2, ← ht]
        simp only [hfamily, false_and, or_false]
        rfl⟩
    · exact ⟨refresh, fun token => by
        rw [unspent_grant (s := s.redeem request code) hrefresh.2.2]
        have := hnone token
        simp only [true_and, or_iff_right_iff_imp]
        exact fun h => absurd h this⟩
  | refreshRefused => exact hs
  | @refreshed clientId token now entry access refresh hentry _ hrefresh _ =>
    obtain ⟨hlookup, hclient, hspent, _⟩ := hentry
    have hcode := hs.refresh_code hlookup
    refine ⟨(hs.toLinked.spend hlookup).grant now access refresh (hclient ▸ hcode),
      fun {f client} hf => ?_⟩
    have hnew : refresh ∉ (s.spend token entry).refreshTokens := (hrefresh.spend hlookup).2.2
    obtain ⟨current, hcurrent⟩ := hs.unspent hf
    by_cases h : f = entry.family
    · -- the presented token was the one unspent token of the family
      subst h
      obtain rfl : token = current := (hcurrent token).mp ⟨entry, hlookup, rfl, hspent⟩
      refine ⟨refresh, fun token' => ?_⟩
      rw [unspent_grant hnew, unspent_spend, hcurrent]
      simp
    · refine ⟨current, fun token' => ?_⟩
      rw [unspent_grant hnew, unspent_spend, hcurrent]
      have : current ≠ token := by
        rintro rfl
        obtain ⟨entry', hentry', hf', _⟩ := (hcurrent current).mpr rfl
        exact h (hf'.symm.trans (by rw [Option.some.inj (hentry'.symm.trans hlookup)]))
      simp only [h, false_and, or_false, and_iff_left_iff_imp]
      rintro rfl
      exact this
  | appToken => exact ⟨hs.toLinked.grantApp _ _ _, hs.unspent⟩

/-- A refresh token is never forgotten, and stays spent; only a successful `refresh` with
it spends it. -/
theorem Effect.lookup_refreshTokens {H : Hashing} {s s' : Store} {e : Event} {token : String}
    {entry : RefreshToken} (he : Effect H s e s')
    (hentry : s.refreshTokens.lookup token = some entry) :
    ∃ spent, s'.refreshTokens.lookup token = some { entry with spent } ∧
      (entry.spent = true → spent = true) ∧
      ((∀ clientId now issued, e ≠ .refresh clientId token now (.ok issued)) →
        spent = entry.spent) := by
  have hne : ∀ refresh, s.Unused refresh → token ≠ refresh := by
    rintro refresh hrefresh rfl
    exact hrefresh.2.2 (Finmap.mem_of_lookup_eq_some hentry)
  cases he with
  | redeemed _ _ hrefresh =>
    refine ⟨entry.spent, ?_, id, fun _ => rfl⟩
    simp only [Store.grant, lookup_insert_eq, if_neg (hne _ hrefresh), Store.redeem, hentry]
  | @refreshed _ old _ entry' _ _ hold _ hrefresh =>
    by_cases h : token = old
    · subst h
      obtain rfl := Option.some.inj (hentry.symm.trans hold.1)
      refine ⟨true, ?_, fun _ => rfl, fun hnot => absurd rfl (hnot _ _ _)⟩
      simp only [Store.grant, lookup_insert_eq, if_neg (hne _ hrefresh), Store.spend, if_pos]
    · refine ⟨entry.spent, ?_, id, fun _ => rfl⟩
      simp only [Store.grant, lookup_insert_eq, if_neg (hne _ hrefresh), Store.spend, if_neg h,
        hentry]
  | _ => exact ⟨entry.spent, hentry, id, fun _ => rfl⟩

/-- **Well-formed runs.** Every reachable store is well formed. -/
theorem Run.wellFormed {H : Hashing} {tokenLifetime codeLifetime : Duration} {h : List Event}
    {s : Store} (hrun : Run H tokenLifetime codeLifetime h s) : s.WellFormed := by
  induction hrun with
  | new => exact WellFormed.new _ _
  | step _ hstep ih => exact ih.effect hstep.effect

end Rsc.Mock.Store

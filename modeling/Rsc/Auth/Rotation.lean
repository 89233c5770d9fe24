import Rsc.Auth.Protocol
import Rsc.Library.Pool
import Rsc.Mock.Acceptance

/-!
Any number of `get_valid_token` and `refresh_after_unauthorized` calls of one
`AuthManager`, interleaved at their await points, against the token file, the refresh
lock and the authorization server.

The tasks are followed by a protocol: `Phase` is what a task may still do, and only the
holder of the lock is out of phase `outside`. The invariant (`Agree`) says where the one
unspent refresh token of the family is: in the file, or, between the answer of the server
and the save, in the hands of the holder.
-/

namespace Rsc.Auth

open Rsc.Library Rsc.Mock Rsc.Mock.Store Phase

namespace Rotation

/-! ## The system -/

/-- The shared state, with the refresh tokens sent and those answered `invalid_grant`. -/
structure World (ι : Type) where
  file : Option Tokens
  lock : Option ι
  server : Store
  sent : List String
  refused : List String

variable {ι : Type}

/-- The effects: saves succeed and are atomic, the lock excludes, the clock reads
anything, and the server answers every request with what `Store.refresh` gives.
Additions do not overflow, so `overflow` has no effect. -/
inductive Effect (clientId : String) (i : ι) :
    World ι → (op : Op) → Ans op → World ι → Prop
  | load {w : World ι} : Effect clientId i w .load (.ok w.file) w
  | save {w : World ι} {tokens : Tokens} :
      Effect clientId i w (.save tokens) (.ok ()) { w with file := some tokens }
  | now {w : World ι} (t : UInt64) : Effect clientId i w .now t w
  | lock {w : World ι} : w.lock = none →
      Effect clientId i w .lock () { w with lock := some i }
  | unlock {w : World ι} : Effect clientId i w .unlock () { w with lock := none }
  | post {w : World ι} {token : String} :
      Effect clientId i w (.post (.refreshToken token)) () { w with sent := token :: w.sent }
  | rotate {w : World ι} {token refresh : String} {now : Duration} {draws rest : List String}
      {issued : Issued} {s' : Store} (expiresIn : UInt64) (scope : String) :
      w.server.refresh clientId token now draws = some (.ok issued, s', rest) →
      issued.refreshToken = some refresh →
      Effect clientId i w (.answer (.refreshToken token))
        (.ok ⟨issued.accessToken, refresh, expiresIn, scope⟩) { w with server := s' }
  | refuse {w : World ι} {token : String} {now : Duration} {draws rest : List String}
      {e : InvalidGrant} {s' : Store} :
      w.server.refresh clientId token now draws = some (.error e, s', rest) →
      Effect clientId i w (.answer (.refreshToken token)) (.error .invalidGrant)
        { w with server := s', refused := token :: w.refused }

theorem Effect.load_inv {clientId : String} {i : ι} {w w' : World ι}
    {ans : Except String (Option Tokens)} (h : Effect clientId i w .load ans w') :
    ans = .ok w.file ∧ w' = w := by
  cases h
  exact ⟨rfl, rfl⟩

/-- What others do to the server meanwhile: anything but replaying the code of the family
or spending its refresh token. -/
def Others (H : Pkce.Hashing) (family : FamilyId) (w w' : World ι) : Prop :=
  ∃ e s', Step H w.server e s' ∧ w' = { w with server := s' } ∧
    (∀ request now result, e = .redeemCode request now result →
      ∀ code, w.server.Replay request code → code.family ≠ family) ∧
    ∀ clientId token now issued, e = .refresh clientId token now (.ok issued) →
      ¬ w.server.Unspent family token

/-- The refresh token would be accepted from the client, and belongs to the family. -/
def Current (clientId : String) (family : FamilyId) (s : Store) (token : String) : Prop :=
  ∃ entry, s.Refreshable clientId token entry ∧ entry.family = family

/-- The lock is free, nothing was sent yet, and the stored refresh token is the current
one of the family. -/
structure Start (H : Pkce.Hashing) (clientId : String) (family : FamilyId) (w : World ι) :
    Prop where
  reachable : ∃ tokenLifetime codeLifetime h, Store.Run H tokenLifetime codeLifetime h w.server
  stored : ∃ tokens, w.file = some tokens ∧ Current clientId family w.server tokens.refreshToken
  lock : w.lock = none
  sent : w.sent = []
  refused : w.refused = []

/-! ## The current refresh token across the operations of the server -/

variable {clientId token : String} {family : FamilyId} {s s' : Store}

theorem Current.unspent (h : Current clientId family s token) : s.Unspent family token := by
  obtain ⟨entry, hentry, hfamily⟩ := h
  exact ⟨entry, hentry.1, hfamily, hentry.2.2.1⟩

/-- The current token is the one and only unspent refresh token of its family. -/
theorem Current.unique (hs : s.WellFormed) (h : Current clientId family s token) (token' : String) :
    s.Unspent family token' ↔ token' = token := by
  obtain ⟨client, hcode⟩ := hs.redeemed_of_unspent h.unspent
  obtain ⟨token₀, hunique⟩ := hs.unspent hcode
  rw [hunique, (hunique token).mp h.unspent]

/-- A refresh with the current token is accepted, spends it and gives the next current one. -/
theorem Current.rotate {now : Duration} {draws rest : List String}
    {result : Except InvalidGrant Issued} (h : Current clientId family s token)
    (hrefresh : s.refresh clientId token now draws = some (result, s', rest)) :
    ∃ access refresh, result = .ok ⟨access, some refresh⟩ ∧ Current clientId family s' refresh ∧
      ∃ entry, s'.refreshTokens.lookup token = some entry ∧ entry.spent = true := by
  obtain ⟨entry, hentry, hfamily⟩ := h
  have heffect : Store.Effect ⟨id, fun _ => ""⟩ s (.refresh clientId token now result) s' :=
    refresh_effect hrefresh
  cases heffect with
  | refreshRefused hnot => exact absurd hentry (hnot entry)
  | @refreshed _ _ _ entry' access refresh hentry' _ hunused _ =>
    obtain rfl := Option.some.inj (hentry.1.symm.trans hentry'.1)
    have hne : token ≠ refresh := by
      rintro rfl
      exact hunused.2.2 (Finmap.mem_of_lookup_eq_some hentry.1)
    refine ⟨access, refresh, rfl, ⟨_, ⟨Finmap.lookup_insert _, rfl, rfl, hentry.2.2.2⟩, hfamily⟩,
      { entry with spent := true }, ?_, rfl⟩
    simp only [grant, spend, lookup_insert_eq, if_neg hne, if_pos]

/-- What the others do leaves the current token current. -/
theorem Current.others {H : Pkce.Hashing} {w w' : World ι} (h : Current clientId family w.server token)
    (hothers : Others H family w w') : Current clientId family w'.server token := by
  obtain ⟨e, s', hstep, rfl, hreplay, hspend⟩ := hothers
  have hunspent := h.unspent
  obtain ⟨entry, ⟨hlookup, hclient, hspent, hrevoked⟩, hfamily⟩ := h
  obtain ⟨spent, hlookup', _, hkept⟩ := hstep.effect.lookup_refreshTokens hlookup
  have hspent' : spent = false := by
    rw [← hspent]
    apply hkept
    rintro client now issued rfl
    exact hspend client token now issued rfl hunspent
  refine ⟨{ entry with spent }, ⟨hlookup', hclient, hspent', fun hmem => ?_⟩, hfamily⟩
  cases hstep.effect with
  | @replayed request now code hcode =>
    rcases Finset.mem_insert.mp hmem with heq | hmem
    · exact hreplay _ _ _ rfl code hcode (heq.symm.trans hfamily)
    · exact hrevoked hmem
  | _ => exact hrevoked hmem

/-! ## The invariant -/

/-- The current refresh token, for the stored tokens and the holder in this phase. -/
def currentToken (stored : Tokens) : Phase → String
  | .rotated _ response => response.refreshToken
  | _ => stored.refreshToken

/-- The phases of a refresh in which nothing has failed. -/
def Refreshing : Phase → Prop
  | .outside | .locked | .loaded _ | .sent _ | .rotated _ _ | .settled => True
  | _ => False

/-- A call in which nothing has failed returns outside the lock, with a value. -/
theorem returns_ok {α : Type} {p : Phase} {out : Outcome α} (hp : Refreshing p)
    (h : Returns p out) : p = .outside ∧ ∃ a, out = .ok a := by
  cases p <;> cases out <;> simp_all [Refreshing, Returns]

/-- The file, the server and the requests sent agree with the phase of the holder. -/
structure Agree (clientId : String) (family : FamilyId) (w : World ι) (p : Phase) : Prop where
  wellFormed : w.server.WellFormed
  stored : ∃ tokens, w.file = some tokens ∧
    (∀ loaded, p = .loaded loaded ∨ p = .sent loaded → loaded = tokens) ∧
    Current clientId family w.server (currentToken tokens p)
  sent : ∀ token ∈ w.sent, ∃ entry, w.server.refreshTokens.lookup token = some entry ∧
    (entry.spent = true ∨ ∃ tokens, p = .sent tokens ∧ tokens.refreshToken = token)
  nodup : w.sent.Nodup
  refused : w.refused = []
  running : Refreshing p

/-- Out of phase `sent`, every token that was sent is spent. -/
theorem Agree.spent {w : World ι} {p : Phase} (h : Agree clientId family w p)
    (hp : ∀ tokens, p ≠ .sent tokens) {token : String} (hmem : token ∈ w.sent) :
    ∃ entry, w.server.refreshTokens.lookup token = some entry ∧ entry.spent = true := by
  obtain ⟨entry, hentry, hspent | ⟨tokens, hphase, _⟩⟩ := h.sent token hmem
  · exact ⟨entry, hentry, hspent⟩
  · exact absurd hphase (hp tokens)

/-- A step that does not touch the server, from and to phases that are not `sent`. -/
theorem Agree.quiet {w w' : World ι} {p p' : Phase} {tokens : Tokens}
    (h : Agree clientId family w p) (hserver : w'.server = w.server) (hsent : w'.sent = w.sent)
    (hrefused : w'.refused = w.refused) (hp : ∀ tokens, p ≠ .sent tokens)
    (hfile : w'.file = some tokens) (hloaded : ∀ loaded, p' = .loaded loaded → loaded = tokens)
    (hnot : ∀ tokens, p' ≠ .sent tokens) (hrunning : Refreshing p')
    (hcurrent : Current clientId family w.server (currentToken tokens p')) :
    Agree clientId family w' p' where
  wellFormed := hserver ▸ h.wellFormed
  stored := by
    refine ⟨tokens, hfile, ?_, hserver ▸ hcurrent⟩
    rintro loaded (hp' | hp')
    · exact hloaded loaded hp'
    · exact absurd hp' (hnot loaded)
  sent := by
    intro token hmem
    obtain ⟨entry, hentry, hspent⟩ := h.spent hp (hsent ▸ hmem)
    exact ⟨entry, hserver ▸ hentry, .inl hspent⟩
  nodup := hsent ▸ h.nodup
  refused := hrefused ▸ h.refused
  running := hrunning

/-- A task loads or reads the clock, takes the lock or drops it. -/
theorem Agree.step_local {w : World ι} {lock : Option ι} {p p' : Phase} {tokens : Tokens}
    (h : Agree clientId family w p) (hfile : w.file = some tokens)
    (hp : ∀ tokens, p ≠ .sent tokens) (hcurrent : currentToken tokens p' = currentToken tokens p)
    (hloaded : ∀ loaded, p' = .loaded loaded → loaded = tokens)
    (hnot : ∀ tokens, p' ≠ .sent tokens) (hrunning : Refreshing p') :
    Agree clientId family { w with lock := lock } p' := by
  obtain ⟨tokens', hfile', _, hcur⟩ := h.stored
  obtain rfl := Option.some.inj (hfile.symm.trans hfile')
  exact h.quiet rfl rfl rfl hp hfile hloaded hnot hrunning (hcurrent ▸ hcur)

/-- **Step lemma.** Whatever the protocol allows keeps the agreement. -/
theorem Agree.step {i : ι} {w w' : World ι} {p p' : Phase} {op : Op} {ans : Ans op}
    (h : Agree clientId family w p) (hmove : Move p op ans p')
    (heffect : Effect clientId i w op ans w') : Agree clientId family w' p' := by
  obtain ⟨tokens, hfile, hloaded, hcurrent⟩ := h.stored
  cases hmove with
  | glanceNow | check | stamp =>
    cases heffect
    exact h
  | glance =>
    obtain ⟨_, rfl⟩ := heffect.load_inv
    exact h
  | lock | keep | unlock =>
    cases heffect
    exact h.step_local hfile nofun rfl nofun nofun trivial
  | load =>
    obtain ⟨hans, rfl⟩ := heffect.load_inv
    rw [hfile] at hans
    cases hans
    exact h.step_local hfile nofun rfl (by simp) nofun trivial
  | glanceMissing | loadMissing =>
    obtain ⟨hans, _⟩ := heffect.load_inv
    rw [hfile] at hans
    cases hans
  | @save _ fresh response hcarries =>
    cases heffect
    refine h.quiet rfl rfl rfl nofun rfl nofun nofun trivial ?_
    show Current clientId family w.server fresh.refreshToken
    rw [hcarries.2]
    exact hcurrent
  | @post loaded =>
    cases heffect
    obtain rfl := hloaded loaded (.inl rfl)
    -- a token sent before is spent, and the current one is not
    have hfresh : loaded.refreshToken ∉ w.sent := by
      intro hmem
      obtain ⟨entry, hentry, hspent⟩ := h.spent nofun hmem
      obtain ⟨entry', hentry', _, hunspent⟩ := hcurrent.unspent
      rw [← Option.some.inj (hentry.symm.trans hentry'), hspent] at hunspent
      cases hunspent
    obtain ⟨entry, hrefreshable, _⟩ := id hcurrent
    refine ⟨h.wellFormed, ⟨loaded, hfile, by simp, hcurrent⟩, ?_,
      List.nodup_cons.mpr ⟨hfresh, h.nodup⟩, h.refused, trivial⟩
    intro token hmem
    rcases List.mem_cons.mp hmem with rfl | hmem
    · exact ⟨entry, hrefreshable.1, .inr ⟨loaded, rfl, rfl⟩⟩
    · obtain ⟨entry, hentry, hspent⟩ := h.spent nofun hmem
      exact ⟨entry, hentry, .inl hspent⟩
  | @rotate sent response =>
    obtain rfl := hloaded sent (.inr rfl)
    cases heffect with
    | @rotate _ refresh now draws rest issued s' expiresIn scope hrefresh hissued =>
      obtain ⟨access, refresh', heq, hcurrent', hspent⟩ := hcurrent.rotate hrefresh
      cases heq
      cases hissued
      have hstep : Store.Effect ⟨id, fun _ => ""⟩ _ _ s' := refresh_effect hrefresh
      refine ⟨h.wellFormed.effect hstep, ⟨sent, hfile, by simp, hcurrent'⟩, ?_, h.nodup,
        h.refused, trivial⟩
      intro token hmem
      obtain ⟨entry, hentry, hwas | ⟨_, hphase, rfl⟩⟩ := h.sent token hmem
      · obtain ⟨spent, hentry', hkept, _⟩ := hstep.lookup_refreshTokens hentry
        exact ⟨_, hentry', .inl (hkept hwas)⟩
      · cases hphase
        obtain ⟨entry, hentry, hspent⟩ := hspent
        exact ⟨entry, hentry, .inl hspent⟩
  | @refused sent err =>
    obtain rfl := hloaded sent (.inr rfl)
    cases heffect with
    | refuse hrefresh =>
      obtain ⟨_, _, heq, _⟩ := hcurrent.rotate hrefresh
      cases heq
  | leave | postCode | exchange | refusedCode | stampLogin | overflowLogin | saveLogin
  | saveLoginError => exact h.running.elim
  | _ => cases heffect

theorem Agree.others {H : Pkce.Hashing} {w w' : World ι} {p : Phase}
    (h : Agree clientId family w p) (hothers : Others H family w w') :
    Agree clientId family w' p := by
  obtain ⟨tokens, hfile, hloaded, hcurrent⟩ := h.stored
  have hcurrent' := hcurrent.others hothers
  obtain ⟨e, s', hstep, rfl, _, _⟩ := hothers
  refine ⟨h.wellFormed.effect hstep.effect, ⟨tokens, hfile, hloaded, hcurrent'⟩, ?_, h.nodup,
    h.refused, h.running⟩
  intro token hmem
  obtain ⟨entry, hentry, hwas⟩ := h.sent token hmem
  obtain ⟨spent, hentry', hkept, _⟩ := hstep.effect.lookup_refreshTokens hentry
  exact ⟨_, hentry', hwas.imp_left hkept⟩

/-- The phase of the holder of the lock. -/
def lockPhase (w : World ι) (g : ι → Phase) : Phase :=
  match w.lock with
  | none => .outside
  | some i => g i

/-- The invariant: only the holder is not outside, and the world agrees with its phase. -/
structure Inv (clientId : String) (family : FamilyId) (w : World ι) (g : ι → Phase) : Prop where
  holder : ∀ i, g i ≠ .outside ↔ w.lock = some i
  agree : Agree clientId family w (lockPhase w g)

section

variable [DecidableEq ι] {w w' : World ι} {g : ι → Phase} {i : ι} {op : Op} {ans : Ans op}
  {p : Phase}

theorem Inv.step_outside (h : Inv clientId family w g) (hi : g i = .outside)
    (hmove : Move (g i) op ans p) (heffect : Effect clientId i w op ans w') :
    Inv clientId family w' (Function.update g i p) := by
  have hstay : Inv clientId family w (Function.update g i .outside) := by
    rwa [← hi, Function.update_eq_self]
  rw [hi] at hmove
  cases hmove with
  | glance =>
    obtain ⟨_, rfl⟩ := heffect.load_inv
    exact hstay
  | glanceNow =>
    cases heffect
    exact hstay
  | lock =>
    cases heffect with
    | lock hfree =>
      have houtside : lockPhase w g = .outside := by rw [lockPhase, hfree]
      have hagree := (houtside ▸ h.agree).step .lock (.lock (i := i) hfree)
      refine ⟨fun j => ?_, ?_⟩
      · by_cases hj : j = i
        · subst hj
          simp
        · have := h.holder j
          simp only [hfree, reduceCtorEq, iff_false, not_not] at this
          simp [Function.update_of_ne hj, this, Ne.symm hj]
      · simpa [lockPhase] using hagree
  | glanceMissing =>
    obtain ⟨tokens, hfile, _⟩ := h.agree.stored
    obtain ⟨hans, _⟩ := heffect.load_inv
    rw [hfile] at hans
    cases hans
  | glanceError => cases heffect

theorem Inv.step_inside (h : Inv clientId family w g) (hi : g i ≠ .outside)
    (hmove : Move (g i) op ans p) (heffect : Effect clientId i w op ans w') :
    Inv clientId family w' (Function.update g i p) := by
  have hlock : w.lock = some i := (h.holder i).mp hi
  have hagree : Agree clientId family w (g i) := by
    have := h.agree
    rwa [lockPhase, hlock] at this
  have hnew := hagree.step hmove heffect
  have hothers : ∀ j, j ≠ i → g j = .outside := by
    intro j hj
    by_contra hne
    have := (h.holder j).mp hne
    rw [hlock] at this
    exact hj (Option.some.inj this).symm
  -- as long as the lock is kept, the task stays the holder
  have kept : op ≠ .unlock → w'.lock = some i →
      Inv clientId family w' (Function.update g i p) := by
    intro hop hlock'
    refine ⟨fun j => ?_, ?_⟩
    · by_cases hj : j = i
      · subst hj
        simp [hlock', hmove.ne_outside hi hop]
      · simp [Function.update_of_ne hj, hothers j hj, hlock', Ne.symm hj]
    · simpa [lockPhase, hlock'] using hnew
  cases heffect with
  | lock hfree => simp [hlock] at hfree
  | unlock =>
    have hp : p = .outside := by
      generalize hphase : g i = q at hmove hagree
      cases hmove with
      | leave => exact hagree.running.elim
      | keep | unlock => rfl
    subst hp
    refine ⟨fun j => ?_, hnew⟩
    by_cases hj : j = i
    · subst hj
      simp
    · simp [Function.update_of_ne hj, hothers j hj]
  | _ => exact kept (by simp) hlock

/-- **Preservation.** Every step of a task keeps the invariant. -/
theorem Inv.step (h : Inv clientId family w g) (hmove : Move (g i) op ans p)
    (heffect : Effect clientId i w op ans w') :
    Inv clientId family w' (Function.update g i p) := by
  by_cases hi : g i = .outside
  · exact h.step_outside hi hmove heffect
  · exact h.step_inside hi hmove heffect

omit [DecidableEq ι] in
theorem Inv.others {H : Pkce.Hashing} (h : Inv clientId family w g)
    (hothers : Others H family w w') : Inv clientId family w' g := by
  have hagree := h.agree.others hothers
  obtain ⟨e, s', _, rfl, _⟩ := hothers
  exact ⟨h.holder, hagree⟩

end

/-! ## Progress -/

theorem Inv.running {w : World ι} {g : ι → Phase} (h : Inv clientId family w g) (i : ι) :
    Refreshing (g i) := by
  by_cases hi : g i = .outside
  · rw [hi]
    exact trivial
  · have := h.agree.running
    rwa [lockPhase, (h.holder i).mp hi] at this

/-- The effect a task asks for is possible, unless it waits for the lock. -/
theorem Inv.enabled {w : World ι} {g : ι → Phase} {i : ι} {op : Op}
    (h : Inv clientId family w g) (hmove : ∀ ans, ∃ p, Move (g i) op ans p)
    (hop : op ≠ .overflow) (hlock : op = .lock → w.lock = none) :
    ∃ ans w', Effect clientId i w op ans w' := by
  have hrunning := h.running i
  generalize g i = p at hmove hrunning
  cases op with
  | load => exact ⟨_, _, .load⟩
  | save => exact ⟨_, _, .save⟩
  | now => exact ⟨_, _, .now 0⟩
  | lock => exact ⟨_, _, .lock (hlock rfl)⟩
  | unlock => exact ⟨_, _, .unlock⟩
  | overflow => exact absurd rfl hop
  | post request =>
    obtain ⟨_, hmove⟩ := hmove ()
    cases hmove with
    | post => exact ⟨_, _, .post⟩
    | postCode => exact hrunning.elim
  | answer request =>
    obtain ⟨_, hmove⟩ := hmove (.error .invalidGrant)
    cases hmove with
    | refusedCode => exact hrunning.elim
    | @refused tokens =>
      obtain ⟨draws, hdraws⟩ := w.server.refresh_returns clientId tokens.refreshToken .zero
      obtain ⟨⟨result, s', rest⟩, hrefresh⟩ := Option.isSome_iff_exists.mp hdraws
      cases result with
      | error => exact ⟨_, _, .refuse hrefresh⟩
      | ok issued =>
        have heffect : Store.Effect ⟨id, fun _ => ""⟩ w.server
          (.refresh clientId tokens.refreshToken .zero (.ok issued)) s' := refresh_effect hrefresh
        cases heffect
        exact ⟨_, _, .rotate 0 "" hrefresh rfl⟩

/-- A task that has not returned can move, or the holder of the lock can. -/
theorem Inv.progress [DecidableEq ι] {E' : World ι → World ι → Prop} {g : ι → Phase}
    {p : Pool (World ι) ι Ans (Outcome String)} (h : Inv clientId family p.shared g)
    (hfollows : ∀ i, Prog.Follows Move Returns (g i) (p.tasks i))
    (hoverflow : ∀ i k, p.tasks i ≠ .perform .overflow k) {i : ι} {op : Op}
    {k : Ans op → Prog Ans (Outcome String)} (hi : p.tasks i = .perform op k) :
    ∃ j p', Pool.Step (Effect clientId) E' p (some j) p' := by
  -- a task whose effect is not a wait for the lock moves
  have moves : ∀ {j op k}, p.tasks j = .perform op k → (op = .lock → p.shared.lock = none) →
      ∃ j p', Pool.Step (Effect clientId) E' p (some j) p' := by
    intro j op k hj hlock
    have hf := hfollows j
    rw [hj] at hf
    have hop : op ≠ .overflow := by
      rintro rfl
      exact hoverflow j k hj
    obtain ⟨ans, w', heffect⟩ := h.enabled
      (fun ans => (hf ans).imp fun _ hmove => hmove.1) hop hlock
    exact ⟨j, _, .task hj heffect⟩
  cases hlock : p.shared.lock with
  | none => exact moves hi fun _ => hlock
  | some j =>
    have hj : g j ≠ .outside := (h.holder j).mpr hlock
    have hf := hfollows j
    cases htask : p.tasks j with
    | ret out =>
      rw [htask] at hf
      exact absurd (returns_ok (h.running j) hf).1 hj
    | perform op k =>
      apply moves htask
      rintro rfl
      rw [htask] at hf
      obtain ⟨_, hmove, _⟩ := hf ()
      generalize g j = q at hmove hj
      cases hmove
      contradiction

/-! ## The result -/

variable {H : Pkce.Hashing} {overflowChecks : Bool}

theorem Start.inv {w : World ι} (h : Start H clientId family w) :
    Inv clientId family w fun _ => .outside := by
  obtain ⟨⟨_, _, _, hreachable⟩, ⟨tokens, hfile, hcurrent⟩, hlock, hsent, hrefused⟩ := h
  refine ⟨fun i => by simp [hlock], ?_⟩
  rw [lockPhase, hlock]
  exact ⟨hreachable.wellFormed, ⟨tokens, hfile, by simp, hcurrent⟩, by simp [hsent],
    by simp [hsent], hrefused, trivial⟩

/-- **A refresh token is never burned.** In every interleaving no refresh is refused, no
refresh token is sent twice, every call that returns returns a token, and whenever the
lock is free the stored refresh token is the one unspent token of the family. As long as
no addition overflows some call can move until all have returned, each in at most ten
steps. -/
theorem rotation_safe [DecidableEq ι] {calls : ι → Call String}
    (hcalls : ∀ i, TokenCall overflowChecks (calls i)) {w₀ : World ι}
    (hstart : Start H clientId family w₀) {tr : List (Option ι)}
    {p : Pool (World ι) ι Ans (Outcome String)}
    (hrun : Pool.Run (Effect clientId) (Others H family) ⟨w₀, calls⟩ tr p) :
    p.shared.refused = [] ∧ p.shared.sent.Nodup ∧
    (∀ i out, p.tasks i = .ret out → ∃ token, out = .ok token) ∧
    (p.shared.lock = none → ∃ tokens, p.shared.file = some tokens ∧
      ∀ token, p.shared.server.Unspent family token ↔ token = tokens.refreshToken) ∧
    ((∀ i k, p.tasks i ≠ .perform .overflow k) → ∀ i op k, p.tasks i = .perform op k →
      ∃ j p', Pool.Step (Effect clientId) (Others H family) p (some j) p') ∧
    ∀ i, tr.count (some i) ≤ 10 := by
  obtain ⟨g, hfollows, hinv⟩ := hrun.invariant (I := Inv clientId family)
    (fun i => (hcalls i).follows) hstart.inv
    (fun _ _ _ _ _ _ _ hI hmove heffect => hI.step hmove heffect)
    (fun _ _ _ hI hothers => hI.others hothers)
  obtain ⟨tokens, hfile, _, hcurrent⟩ := hinv.agree.stored
  refine ⟨hinv.agree.refused, hinv.agree.nodup, ?_, ?_, ?_, ?_⟩
  · intro i out hi
    have hf := hfollows i
    rw [hi] at hf
    exact (returns_ok (hinv.running i) hf).2
  · intro hlock
    rw [lockPhase, hlock] at hcurrent
    exact ⟨tokens, hfile, hcurrent.unique hinv.agree.wellFormed⟩
  · exact fun hoverflow i op k hi => hinv.progress hfollows hoverflow hi
  · exact fun i => hrun.count_le (hcalls i).within

/-- The state after a login: the pair it gave is stored. -/
def loggedIn : World Bool where
  file := some ⟨"access", "refresh", 0⟩
  lock := none
  server := loginStore
  sent := []
  refused := []

theorem loggedIn_start : Start appendixB "web" ⟨0⟩ loggedIn where
  reachable := ⟨hour, hour, loginHistory, loginRun⟩
  stored := ⟨_, rfl, ⟨"web", ⟨0⟩, false⟩, ⟨rfl, rfl, rfl, by decide⟩, rfl⟩
  lock := rfl
  sent := rfl
  refused := rfl

/-- One call refreshes while the other has loaded the old tokens and waits for the lock. -/
theorem rotation_safe_twoCalls : ∃ tr p,
    Pool.Run (Effect "web") (Others appendixB ⟨0⟩) ⟨loggedIn, twoCalls⟩ tr p ∧
      p.tasks true = .ret (.ok "access₂") ∧ p.shared.sent = ["refresh"] ∧
      ∀ token, p.shared.server.Unspent ⟨0⟩ token ↔ token = "refresh₂" := by
  have hrefresh : ∃ s', loginStore.refresh "web" "refresh" minute ["access₂", "refresh₂"] =
      some (.ok ⟨"access₂", some "refresh₂"⟩, s', []) := ⟨_, rfl⟩
  obtain ⟨s', hrefresh⟩ := hrefresh
  have hrun : ∃ tr p, Pool.Run (Effect "web") (Others appendixB ⟨0⟩) ⟨loggedIn, twoCalls⟩ tr p ∧
      p.tasks true = .ret (.ok "access₂") ∧ p.shared.lock = none ∧
      p.shared.sent = ["refresh"] ∧ p.shared.file = some ⟨"access₂", "refresh₂", 3540⟩ := by
    have h₀ : Pool.Run (Effect "web") (Others appendixB ⟨0⟩) ⟨loggedIn, twoCalls⟩ [] _ := .start
    have h₁ := h₀.step (.task (i := false) rfl .load)
    have h₂ := h₁.step (.task (i := true) rfl (.lock rfl))
    have h₃ := h₂.step (.task (i := false) rfl (.now 0))
    have h₄ := h₃.step (.task (i := true) rfl .load)
    have h₅ := h₄.step (.task (i := true) rfl (.now 0))
    have h₆ := h₅.step (.task (i := true) rfl .post)
    have h₇ := h₆.step (.task (i := true) rfl (.rotate 3600 "" hrefresh rfl))
    have h₈ := h₇.step (.task (i := true) rfl (.now 0))
    have h₉ := h₈.step (.task (i := true) rfl .save)
    exact ⟨_, _, h₉.step (.task (i := true) rfl .unlock), rfl, rfl, rfl, rfl⟩
  obtain ⟨tr, p, hrun, htask, hlock, hsent, hfile⟩ := hrun
  have hcalls : ∀ i, TokenCall true (twoCalls i) := fun
    | true => .inr ⟨_, rfl⟩
    | false => .inl rfl
  obtain ⟨_, _, _, hunique, _⟩ := rotation_safe hcalls loggedIn_start hrun
  obtain ⟨tokens, hfile', hunique⟩ := hunique hlock
  obtain rfl := Option.some.inj (hfile.symm.trans hfile')
  exact ⟨tr, p, hrun, htask, hsent, hunique⟩

end Rotation

end Rsc.Auth

import Rsc.Api.Client
import Rsc.EndToEnd.LongSession

/-!
The API calls of a session: `get_json` over an `AuthManager` whose session lasts, against an API
that answers 401 only to tokens which `token_info` of the mock does not know.
-/

namespace Rsc.EndToEnd.ApiSession

open Rsc.Library Rsc.Library.Http Rsc.Auth Rsc.Mock Rsc.Mock.Store Rsc.Api Stage
open OneRefresh (Inside)
open LongSession (Setting Asked Exact Sound Good Fresh Keeps Leaves Kept Stored Local InRange)

variable {ι U α : Type}

/-! ## The system -/

/-- What the fetches share, with the time at which each one began and the request it sent last. -/
structure World (ι U : Type) where
  session : LongSession.World ι
  began : ι → Option Duration
  sent : ι → Option (Request U)

/-- A call of the manager goes on; the first time, the fetch begins. -/
def World.calls [DecidableEq ι] (w : World ι U) (i : ι) (session : LongSession.World ι) :
    World ι U :=
  { w with
    session
    began := Function.update w.began i
      (some ((w.began i).getD w.session.server.clock.now)) }

theorem World.began_calls [DecidableEq ι] (w : World ι U) (i : ι)
    (session : LongSession.World ι) : (w.calls i session).began i =
      some ((w.began i).getD w.session.server.clock.now) :=
  Function.update_self ..

theorem World.began_calls_of_ne [DecidableEq ι] (w : World ι U) {i j : ι}
    (session : LongSession.World ι) (hj : j ≠ i) : (w.calls i session).began j = w.began j :=
  Function.update_of_ne hj ..

/-- The effects: those of the manager, and an API that answers 401 to what `token_info` does not
know only. A response comes within the lifetime of a token after the fetch began. -/
inductive Effect [DecidableEq ι] (S : Setting) (i : ι) :
    World ι U → (op : ApiOp U) → ApiAns op → World ι U → Prop
  | auth {w : World ι U} {op : Op} {ans : Ans op} {session : LongSession.World ι}
      (h : LongSession.Effect S i w.session op ans session) :
      Effect S i w (.auth op) ans (w.calls i session)
  | get {w : World ι U} {request : Request U} :
      Effect S i w (.get request) () { w with sent := Function.update w.sent i (some request) }
  | response {w : World ι U} {request : Request U} {status : UInt16} {t₀ : Duration}
      (hsent : w.sent i = some request)
      (hstatus : ∀ token, ("authorization", "OAuth " ++ token) ∈ request.headers →
        status = unauthorized → Server.tokenInfo w.session.server.toState token = none)
      (hbegan : w.began i = some t₀)
      (hprompt : w.session.server.clock.now.nanos <
        t₀.nanos + S.config.accessTokenLifetime.nanos) :
      Effect S i w .response (.ok status) w
  | lost {w : World ι U} {err : String} : Effect S i w .response (.error err) w
  | text {w : World ι U} {body : Except String String} : Effect S i w .text body w

/-- Meanwhile the mock serves others. -/
inductive Meanwhile (S : Setting) (family : FamilyId) (w : World ι U) : World ι U → Prop
  | session {session : LongSession.World ι}
      (h : LongSession.Meanwhile S family w.session session) :
      Meanwhile S family w { w with session }

/-! ## A fetch -/

/-- How far a fetch is: in a call of the manager, or behind it with the token it got. -/
inductive Phase
  | asks (asked : Asked) (stage : Stage)
  | awaits (asked : Asked) (token : String)
  | reads (asked : Asked) (token : String)
  | finished (asked : Asked) (token : String)
  | expired

/-- The last call of the manager. -/
def Phase.asked : Phase → Asked
  | .asks asked _ | .awaits asked _ | .reads asked _ | .finished asked _ => asked
  | .expired => .valid

/-- How far it is. -/
def Phase.stage : Phase → Stage
  | .asks _ stage => stage
  | .awaits _ token | .reads _ token | .finished _ token => .done token
  | .expired => .failed

/-- What a fetch may ask for. -/
inductive Move (overflowChecks : Bool) : Prog.Protocol (ApiAns (U := U)) Phase
  | call {asked : Asked} {s s' : Stage} {op : Op} {ans : Ans op}
      (h : Exact overflowChecks s op ans s') :
      Move overflowChecks (.asks asked s) (.auth op) ans (.asks asked s')
  | get {asked : Asked} {token : String} (url : U) :
      Move overflowChecks (.asks asked (.done token)) (.get (authorized url token)) ()
        (.awaits asked token)
  | lost {asked : Asked} {token err : String} :
      Move overflowChecks (.awaits asked token) .response (.error err) (.finished asked token)
  | answered {asked : Asked} {token : String} {status : UInt16} (h : status ≠ unauthorized) :
      Move overflowChecks (.awaits asked token) .response (.ok status) (.reads asked token)
  | rejected {token : String} :
      Move overflowChecks (.awaits .valid token) .response (.ok unauthorized)
        (.asks (.rejected token) (Asked.rejected token).stage)
  | expired {rejected token : String} :
      Move overflowChecks (.awaits (.rejected rejected) token) .response (.ok unauthorized)
        .expired
  | text {asked : Asked} {token : String} {body : Except String String} :
      Move overflowChecks (.reads asked token) .text body (.finished asked token)

/-- No error of the manager, and no panic. -/
def Served (out : Fetched α) : Prop := (∀ err, out ≠ .err (.auth err)) ∧ out ≠ .panicked

/-- How a fetch may end in each phase. -/
def Ended : Phase → Fetched α → Prop
  | .asks _ .begins, out | .asks _ (.done _), out | .finished _ _, out => Served out
  | .asks _ .failed, _ | .expired, _ => True
  | _, _ => False

/-- How a call of the manager ends. -/
inductive Got (asked : Asked) : Phase → Fetched String → Prop
  | token {token : String} : Got asked (.asks asked (.done token)) (.ok token)
  | failed {out : Fetched String} (h : ∀ token, out ≠ .ok token) :
      Got asked (.asks asked .failed) out

section

variable {overflowChecks : Bool} {asked : Asked} {token : String}

theorem ofAuth_follows (asked : Asked) {rest : String → Fetch U α}
    (hrest : ∀ token,
      Prog.Follows (Move overflowChecks) Ended (.asks asked (.done token)) (rest token)) :
    Prog.Follows (Move overflowChecks) Ended (.asks asked asked.stage)
      (Fetch.bind (Fetch.ofAuth (asked.call overflowChecks)) rest) := by
  have hcall : Prog.Follows (Move (U := U) overflowChecks)
      (fun p out => ∃ s, p = .asks asked s ∧ Gives s out) (.asks asked asked.stage)
      (Prog.embed ApiOp.auth (asked.call overflowChecks)) :=
    (asked.exact overflowChecks).embed ApiOp.auth (Phase.asks asked) .call
      fun hgives => ⟨_, rfl, hgives⟩
  have hgot : Prog.Follows (Move (U := U) overflowChecks) (Got asked) (.asks asked asked.stage)
      (Fetch.ofAuth (asked.call overflowChecks)) := by
    refine hcall.bind ?_
    rintro _ out ⟨s, rfl, hgives⟩
    cases s with
    | done token =>
      obtain rfl : out = .ok token := hgives
      exact .token
    | failed =>
      cases out with
      | ok => exact hgives.elim
      | err | panicked => exact .failed nofun
    | _ => exact hgives.elim
  refine hgot.bind fun p out hout => ?_
  cases hout with
  | token => exact hrest _
  | failed h =>
    cases out with
    | ok token => exact absurd rfl (h token)
    | err | panicked => exact trivial

theorem served_transport {err : String} : Served (.err (.transport err) : Fetched α) :=
  ⟨nofun, nofun⟩

theorem readBody_follows {fromStr : String → Except String α} {status : UInt16} :
    Prog.Follows (Move (U := U) overflowChecks) Ended (.reads asked token)
      (readBody fromStr status) := by
  unfold readBody
  intro body
  refine ⟨_, .text, ?_⟩
  cases body with
  | error err => exact served_transport
  | ok body =>
    simp only [Prog.ret_bind]
    cases isSuccess status with
    | false => exact ⟨nofun, nofun⟩
    | true => cases fromStr body <;> exact ⟨nofun, nofun⟩

theorem send_follows {web : Web U} {url : U} {rest : UInt16 → Fetch U α} {p : Phase}
    (hmove : Move (U := U) overflowChecks (.awaits asked token) .response (.ok unauthorized) p)
    (hunauthorized : Prog.Follows (Move overflowChecks) Ended p (rest unauthorized))
    (hrest : ∀ status, status ≠ unauthorized →
      Prog.Follows (Move overflowChecks) Ended (.reads asked token) (rest status)) :
    Prog.Follows (Move overflowChecks) Ended (.asks asked (.done token))
      (Fetch.bind (send web url token) rest) := by
  unfold send
  cases web.build (authorized url token) with
  | error err => exact served_transport
  | ok =>
    refine fun _ => ⟨_, .get url, fun status => ?_⟩
    cases status with
    | error err => exact ⟨_, .lost, served_transport⟩
    | ok status =>
      by_cases hstatus : status = unauthorized
      · subst hstatus
        exact ⟨p, hmove, hunauthorized⟩
      · exact ⟨_, .answered hstatus, hrest status hstatus⟩

theorem getJson_follows (web : Web U) (fromStr : String → Except String α) (base : U)
    (pathAndQuery : String) :
    Prog.Follows (Move overflowChecks) Ended (.asks .valid .begins)
      (getJson web overflowChecks fromStr base pathAndQuery) := by
  unfold getJson
  cases web.join base pathAndQuery with
  | none => exact ⟨nofun, nofun⟩
  | some url =>
    refine ofAuth_follows .valid fun token => send_follows .rejected ?_ ?_
    · simp only [if_true]
      refine ofAuth_follows (.rejected token) fun token' => send_follows .expired ?_ ?_
      · exact trivial
      · intro status hstatus
        simp only [if_neg hstatus]
        exact readBody_follows
    · intro status hstatus
      simp only [if_neg hstatus]
      exact readBody_follows

end

/-! ## The tokens and their age -/

variable {S : Setting} {family : FamilyId} {st st' : Guarded} {tokens : Tokens} {asked : Asked}
  {s s' : Stage} {token : String}

/-- A user token of the session. -/
def Holds (S : Setting) (family : FamilyId) (st : Guarded) (token : String)
    (expiresAt : Duration) : Prop :=
  st.store.accessTokens.lookup token = some ⟨.user, S.client.clientId, expiresAt, some family⟩

/-- It does not expire within a lifetime from `t` on. -/
def Lasts (S : Setting) (family : FamilyId) (st : Guarded) (token : String) (t : Duration) : Prop :=
  ∃ expiresAt, Holds S family st token expiresAt ∧
    t.nanos + S.config.accessTokenLifetime.nanos ≤ expiresAt.nanos

/-- It has expired. -/
def Dead (S : Setting) (family : FamilyId) (st : Guarded) (token : String) : Prop :=
  ∃ expiresAt, Holds S family st token expiresAt ∧ expiresAt ≤ st.clock.now

/-- The client takes the tokens for expired. -/
def Outdated (S : Setting) (st : Guarded) (tokens : Tokens) : Prop :=
  tokens.expiresAt.toNat ≤ S.secondsAt st.clock.now

theorem Holds.tokenInfo {expiresAt : Duration} (h : Holds S family st token expiresAt)
    (hlive : family ∉ st.store.revokedFamilies) (hnow : st.clock.now < expiresAt) :
    Server.tokenInfo st.toState token ≠ none := by
  obtain ⟨info, hinfo, -⟩ := LongSession.tokenInfo_of_lookup h hlive hnow
  rw [hinfo]
  exact Option.some_ne_none info

theorem Outdated.keeps (h : Outdated S st tokens) (hkeeps : Keeps S family st st') :
    Outdated S st' tokens :=
  Nat.le_trans h (S.secondsAt_le hkeeps.clock)

theorem Lasts.keeps {t : Duration} (h : Lasts S family st token t)
    (hkeeps : Keeps S family st st') : Lasts S family st' token t := by
  obtain ⟨expiresAt, hholds, hle⟩ := h
  exact ⟨expiresAt, hkeeps.accessTokens hholds, hle⟩

theorem Dead.keeps (h : Dead S family st token) (hkeeps : Keeps S family st st') :
    Dead S family st' token := by
  obtain ⟨expiresAt, hholds, hle⟩ := h
  exact ⟨expiresAt, hkeeps.accessTokens hholds, Nat.le_trans hle hkeeps.clock⟩

/-- What the mock takes for expired, the client takes for expired. -/
theorem Dead.outdated (h : Dead S family st tokens.accessToken)
    (hsound : Sound S family st tokens) : Outdated S st tokens := by
  obtain ⟨expiresAt, hholds, hle⟩ := h
  obtain ⟨expiresAt', hentry, hbefore⟩ := hsound
  obtain rfl : expiresAt = expiresAt' :=
    congrArg AccessToken.expiresAt (Option.some.inj (hholds.symm.trans hentry))
  refine Nat.le_of_not_lt fun hlt => ?_
  exact absurd (hbefore _ (Nat.le_refl _) hlt) (Nat.not_lt.mpr hle)

/-- A fresh token lasts for every fetch that had begun when it was issued. -/
theorem lasts_of_fresh {t t₀ : Duration} {response : TokenResponse}
    (h : Fresh S family st t₀ response) (ht : t ≤ t₀) :
    Lasts S family st response.accessToken t := by
  refine ⟨_, h.accessToken, ?_⟩
  rw [Duration.nanos_saturatingAdd h.fits]
  exact Nat.add_le_add_right ht _

/-! ## What a fetch relies on -/

/-- A call has no tokens in hand but those that are stored, and renews none. -/
def Idle : Stage → Prop
  | .waits _ | .holds _ | .loaded _ _ | .keeps _ => True
  | _ => False

/-- A renewal has begun. -/
def Renewing : Stage → Prop
  | .posts _ | .awaits _ | .answered _ _ | .stamped _ _ _ => True
  | _ => False

/-- It was answered, and the access token of the answer is not stored yet. -/
inductive Flying : Stage → String → Prop
  | answered {tokens : Tokens} {response : TokenResponse} :
      Flying (.answered tokens response) response.accessToken
  | stamped {tokens fresh : Tokens} {response : TokenResponse} :
      Flying (.stamped tokens response fresh) fresh.accessToken

/-- The access token that `get_valid_token` has returned. -/
inductive Has : Asked → Stage → String → Prop
  | first {token : String} : Has .valid (.done token) token
  | rejected {token : String} {s : Stage} : Has (.rejected token) s token

theorem Has.goes (h : Has asked s' token) (hs' : ∀ token, s' ≠ .done token) :
    Has asked s token := by
  cases h with
  | first => exact absurd rfl (hs' token)
  | rejected => exact .rejected

theorem Renewing.inside (h : Renewing s) : Inside s := by
  cases s <;> first | exact trivial | exact h.elim

theorem Flying.renewing (h : Flying s token) : Renewing s := by
  cases h <;> exact trivial

/-- What is stored is the token, or one that lasts for a fetch that began at `t`. -/
def Followed (S : Setting) (family : FamilyId) (file : Option Tokens) (st : Guarded)
    (token : String) (t : Duration) : Prop :=
  ∃ stored, file = some stored ∧
    (stored.accessToken = token ∨ Lasts S family st stored.accessToken t)

/-- What a fetch that is in the stage `s` of a call relies on. -/
structure Traced (S : Setting) (family : FamilyId) (file : Option Tokens) (st : Guarded)
    (began : Option Duration) (asked : Asked) (s : Stage) : Prop where
  glanced : ∀ tokens, s = .glanced tokens → file = some tokens ∨ Outdated S st tokens
  renewing : Renewing s → ∀ tokens, file = some tokens → Outdated S st tokens
  first : ∀ token, Has asked s token → ∃ t, began = some t ∧
    Followed S family file st token t ∧ ∃ expiresAt, Holds S family st token expiresAt
  dead : ∀ token, asked = .rejected token → Dead S family st token
  second : ∀ rejected token, asked = .rejected rejected → s = .done token →
    ∃ t, began = some t ∧ Lasts S family st token t

variable {file : Option Tokens} {began : Option Duration} {now : Duration}

theorem Followed.keeps {t : Duration} (h : Followed S family file st token t)
    (hkeeps : Keeps S family st st') : Followed S family file st' token t := by
  obtain ⟨stored, hfile, hstored⟩ := h
  exact ⟨stored, hfile, hstored.imp id fun hlasts => hlasts.keeps hkeeps⟩

theorem Traced.keeps (h : Traced S family file st began asked s)
    (hkeeps : Keeps S family st st') : Traced S family file st' began asked s where
  glanced tokens hs := (h.glanced tokens hs).imp id fun houtdated => houtdated.keeps hkeeps
  renewing hs tokens hfile := (h.renewing hs tokens hfile).keeps hkeeps
  first token hhas := by
    obtain ⟨t, hbegan, hfollowed, expiresAt, hholds⟩ := h.first token hhas
    exact ⟨t, hbegan, hfollowed.keeps hkeeps, expiresAt, hkeeps.accessTokens hholds⟩
  dead token hasked := (h.dead token hasked).keeps hkeeps
  second rejected token hasked hs := by
    obtain ⟨t, hbegan, hlasts⟩ := h.second rejected token hasked hs
    exact ⟨t, hbegan, hlasts.keeps hkeeps⟩

/-- A call goes on. -/
theorem Traced.goes (h : Traced S family file st began asked s) (hs' : ∀ token, s' ≠ .done token)
    (hglanced : ∀ tokens, s' = .glanced tokens → file = some tokens ∨ Outdated S st tokens)
    (hrenewing : Renewing s' → ∀ tokens, file = some tokens → Outdated S st tokens) :
    Traced S family file st (some (began.getD now)) asked s' := by
  refine ⟨hglanced, hrenewing, fun token hhas => ?_, h.dead,
    fun _ token _ hdone => absurd hdone (hs' token)⟩
  cases hhas with
  | first => exact absurd rfl (hs' token)
  | rejected =>
    obtain ⟨t, rfl, hfirst⟩ := h.first token .rejected
    exact ⟨t, rfl, hfirst⟩

/-- A call returns a token that is stored. -/
theorem Traced.returns (h : Traced S family file st began asked s) (hfile : file = some tokens)
    (hsound : Sound S family st tokens)
    (hnot : ∀ rejected, asked = .rejected rejected → tokens.accessToken ≠ rejected) :
    Traced S family file st (some (began.getD now)) asked (.done tokens.accessToken) := by
  refine ⟨nofun, False.elim, fun token hhas => ?_, h.dead, fun rejected token hasked hdone => ?_⟩
  · cases hhas with
    | first =>
      obtain ⟨expiresAt, hentry, -⟩ := hsound
      exact ⟨_, rfl, ⟨tokens, hfile, .inl rfl⟩, expiresAt, hentry⟩
    | rejected =>
      obtain ⟨t, rfl, hfirst⟩ := h.first token .rejected
      exact ⟨t, rfl, hfirst⟩
  · cases hdone
    subst hasked
    obtain ⟨t, rfl, ⟨stored, hstored, hlasts⟩, -⟩ := h.first rejected .rejected
    rw [hfile] at hstored
    cases hstored
    exact ⟨t, rfl, hlasts.resolve_left (hnot rejected rfl)⟩

/-! ## The invariant -/

structure Inv (S : Setting) (family : FamilyId) (w : World ι U) (calls : ι → Asked)
    (g : ι → Stage) : Prop where
  session : LongSession.Inv S family calls w.session g
  began : ∀ i t, w.began i = some t → t ≤ w.session.server.clock.now
  traced : ∀ i, Traced S family w.session.file w.session.server (w.began i) (calls i) (g i)
  flying : ∀ i token t, Has (calls i) (g i) token → w.began i = some t →
    ∀ j fresh, Flying (g j) fresh → Lasts S family w.session.server fresh t

variable {calls : ι → Asked} {w w' : World ι U} {g : ι → Stage} {i : ι}
  {session : LongSession.World ι}

/-- Who stores tokens or renews them holds the lock. -/
theorem Inv.alone (h : Inv S family w calls g) (hi : Inside (g i)) {j : ι} (hj : j ≠ i) :
    ¬ Inside (g j) :=
  h.session.alone (.inr hi) j hj

/-- What the mock serves to others keeps the invariant. -/
theorem Inv.meanwhile (h : Inv S family w calls g) (hmeanwhile : Meanwhile S family w w') :
    Inv S family w' calls g := by
  cases hmeanwhile with
  | session hsession =>
    have hinv := h.session.meanwhile hsession
    cases hsession with
    | serves hserves hspares hrange =>
      have hkeeps := (LongSession.serves_leaves hserves hspares).keeps
      refine ⟨hinv, fun i t ht => Nat.le_trans (h.began i t ht) hkeeps.clock,
        fun i => (h.traced i).keeps hkeeps, fun i token t hhas ht j fresh hfresh => ?_⟩
      exact (h.flying i token t hhas ht j fresh hfresh).keeps hkeeps

variable [DecidableEq ι]

theorem began_le {i j : ι} {t : Duration}
    (hbegan : ∀ i t, w.began i = some t → t ≤ w.session.server.clock.now)
    (ht : (w.calls i session).began j = some t) : t ≤ w.session.server.clock.now := by
  by_cases hj : j = i
  · subst hj
    rw [World.began_calls] at ht
    cases hw : w.began j with
    | none =>
      rw [hw] at ht
      cases ht
      exact Nat.le_refl _
    | some t₀ =>
      rw [hw] at ht
      cases ht
      exact hbegan j _ hw
  · rw [World.began_calls_of_ne w session hj] at ht
    exact hbegan j t ht

/-- When a fetch that relies on a token began stays as it is. -/
theorem Inv.began_eq (h : Inv S family w calls g) {j : ι} {token : String} {t : Duration}
    (hhas : Has (calls j) (g j) token) (ht : (w.calls i session).began j = some t) :
    w.began j = some t := by
  obtain ⟨t₀, ht₀, -⟩ := (h.traced j).first token hhas
  by_cases hj : j = i
  · subst hj
    rw [World.began_calls, ht₀] at ht
    rw [ht₀]
    exact ht
  · rwa [World.began_calls_of_ne w session hj] at ht

/-- A step of a call, which neither stores tokens nor is answered. -/
theorem Inv.quiet (h : Inv S family w calls g)
    (hsession : LongSession.Inv S family calls session (Function.update g i s))
    (hfile : session.file = w.session.file) (hserver : session.server = w.session.server)
    (htraced : Traced S family w.session.file w.session.server
      (some ((w.began i).getD w.session.server.clock.now)) (calls i) s)
    (hflies : ∀ fresh, Flying s fresh → Flying (g i) fresh)
    (hhas : (∀ token, Has (calls i) s token → Has (calls i) (g i) token) ∨
      ∀ j fresh, ¬ Flying (g j) fresh) :
    Inv S family (w.calls i session) calls (Function.update g i s) := by
  have hflying : ∀ j fresh, Flying (Function.update g i s j) fresh → Flying (g j) fresh := by
    intro j fresh hfresh
    by_cases hj : j = i
    · subst hj
      rw [Function.update_self] at hfresh
      exact hflies fresh hfresh
    · rwa [Function.update_of_ne hj] at hfresh
  refine ⟨hsession, fun j t ht => ?_, fun j => ?_, fun j token t hj ht k fresh hfresh => ?_⟩
  · rw [show (w.calls i session).session.server = w.session.server from hserver]
    exact began_le h.began ht
  · show Traced S family session.file session.server _ _ _
    rw [hfile, hserver]
    by_cases hj : j = i
    · subst hj
      rw [World.began_calls, Function.update_self]
      exact htraced
    · rw [World.began_calls_of_ne w session hj, Function.update_of_ne hj]
      exact h.traced j
  · show Lasts S family session.server _ _
    rw [hserver]
    have hfresh' := hflying k fresh hfresh
    rcases hhas with hhas | hnone
    · have hj' : Has (calls j) (g j) token := by
        by_cases heq : j = i
        · subst heq
          rw [Function.update_self] at hj
          exact hhas token hj
        · rwa [Function.update_of_ne heq] at hj
      exact h.flying j token t hj' (h.began_eq hj' ht) k fresh hfresh'
    · exact absurd hfresh' (hnone k fresh)

theorem Inv.goes (h : Inv S family w calls g)
    (hsession : LongSession.Inv S family calls session (Function.update g i s))
    (hfile : session.file = w.session.file) (hserver : session.server = w.session.server)
    (hs : ∀ token, s ≠ .done token)
    (hglanced : ∀ tokens, s = .glanced tokens →
      w.session.file = some tokens ∨ Outdated S w.session.server tokens)
    (hrenewing : Renewing s → ∀ tokens, w.session.file = some tokens →
      Outdated S w.session.server tokens)
    (hflies : ∀ fresh, Flying s fresh → Flying (g i) fresh) :
    Inv S family (w.calls i session) calls (Function.update g i s) :=
  h.quiet hsession hfile hserver ((h.traced i).goes hs hglanced hrenewing) hflies
    (.inl fun _ hhas => hhas.goes hs)

theorem Inv.passes (h : Inv S family w calls g)
    (hsession : LongSession.Inv S family calls session (Function.update g i s))
    (hfile : session.file = w.session.file) (hserver : session.server = w.session.server)
    (hs : Idle s) : Inv S family (w.calls i session) calls (Function.update g i s) := by
  refine h.goes hsession hfile hserver (fun token heq => ?_) (fun tokens heq => ?_)
    (fun hrenewing => ?_) fun fresh hflies => ?_
  · subst heq
    exact hs.elim
  · subst heq
    exact hs.elim
  · cases s <;> first | exact hrenewing.elim | exact hs.elim
  · cases hflies <;> exact hs.elim

theorem Inv.returns (h : Inv S family w calls g)
    (hsession : LongSession.Inv S family calls session
      (Function.update g i (.done tokens.accessToken)))
    (hfile : session.file = w.session.file) (hserver : session.server = w.session.server)
    (hstored : w.session.file = some tokens) (hsound : Sound S family w.session.server tokens)
    (hnot : ∀ rejected, calls i = .rejected rejected → tokens.accessToken ≠ rejected)
    (hnone : ∀ j fresh, ¬ Flying (g j) fresh) :
    Inv S family (w.calls i session) calls (Function.update g i (.done tokens.accessToken)) :=
  h.quiet hsession hfile hserver ((h.traced i).returns hstored hsound hnot) nofun (.inr hnone)

/-- The holder drops the lock and returns what is stored. -/
theorem Inv.unlocks (h : Inv S family w calls g)
    (hsession : LongSession.Inv S family calls session
      (Function.update g i (.done tokens.accessToken)))
    (hfile : session.file = w.session.file) (hserver : session.server = w.session.server)
    (hi : Inside (g i)) (hflies : ∀ fresh, ¬ Flying (g i) fresh)
    (hstored : Stored S family w.session tokens)
    (hkept : Kept S (w.session.seen i) (calls i) tokens.accessToken) :
    Inv S family (w.calls i session) calls (Function.update g i (.done tokens.accessToken)) := by
  refine h.returns hsession hfile hserver hstored.1 hstored.2.sound (fun rejected hasked => ?_)
    fun j fresh hfresh => ?_
  · rw [hasked] at hkept
    exact hkept
  · by_cases hj : j = i
    · subst hj
      exact hflies fresh hfresh
    · exact h.alone hi hj hfresh.renewing.inside

/-- The refresh of the holder is answered. -/
theorem Inv.answers {response : TokenResponse} (h : Inv S family w calls g)
    (hsession : LongSession.Inv S family calls session
      (Function.update g i (.answered tokens response)))
    (hfile : session.file = w.session.file)
    (hkeeps : Keeps S family w.session.server session.server) (hrenewing : Renewing (g i))
    (hlasts : ∀ t, t ≤ w.session.server.clock.now →
      Lasts S family session.server response.accessToken t) :
    Inv S family (w.calls i session) calls (Function.update g i (.answered tokens response)) := by
  refine ⟨hsession, fun j t ht => ?_, fun j => ?_, fun j token t _ ht k fresh hfresh => ?_⟩
  · exact Nat.le_trans (began_le h.began ht) hkeeps.clock
  · show Traced S family session.file session.server _ _ _
    rw [hfile]
    by_cases hj : j = i
    · subst hj
      rw [World.began_calls, Function.update_self]
      refine Traced.keeps ?_ hkeeps
      exact (h.traced j).goes nofun nofun fun _ => (h.traced j).renewing hrenewing
    · rw [World.began_calls_of_ne w session hj, Function.update_of_ne hj]
      exact (h.traced j).keeps hkeeps
  · by_cases hk : k = i
    · subst hk
      rw [Function.update_self] at hfresh
      cases hfresh
      exact hlasts t (began_le h.began ht)
    · rw [Function.update_of_ne hk] at hfresh
      exact absurd hfresh.renewing.inside (h.alone hrenewing.inside hk)

/-- The holder stores the tokens of the answer. -/
theorem Inv.saves {response : TokenResponse} {fresh : Tokens} (h : Inv S family w calls g)
    (hsession : LongSession.Inv S family calls { w.session with file := some fresh }
      (Function.update g i (.saved fresh)))
    (hi : g i = .stamped tokens response fresh) :
    Inv S family (w.calls i { w.session with file := some fresh }) calls
      (Function.update g i (.saved fresh)) := by
  have hrenewing : Renewing (g i) := hi ▸ trivial
  have hflies : Flying (g i) fresh.accessToken := hi ▸ .stamped
  have hnone : ∀ j token, ¬ Flying (Function.update g i (.saved fresh) j) token := by
    intro j token hfresh
    by_cases hj : j = i
    · subst hj
      rw [Function.update_self] at hfresh
      cases hfresh
    · rw [Function.update_of_ne hj] at hfresh
      exact h.alone hrenewing.inside hj hfresh.renewing.inside
  have hfirst : ∀ j token, Has (calls j) (g j) token → ∃ t, w.began j = some t ∧
      Followed S family (some fresh) w.session.server token t ∧
      ∃ expiresAt, Holds S family w.session.server token expiresAt := by
    intro j token hhas
    obtain ⟨t, ht, -, hholds⟩ := (h.traced j).first token hhas
    exact ⟨t, ht, ⟨fresh, rfl, .inr (h.flying j token t hhas ht i _ hflies)⟩, hholds⟩
  refine ⟨hsession, fun j t ht => ?_, fun j => ?_,
    fun _ _ _ _ _ k token hfresh => absurd hfresh (hnone k token)⟩
  · show t ≤ w.session.server.clock.now
    exact began_le h.began ht
  by_cases hj : j = i
  · subst hj
    rw [World.began_calls, Function.update_self]
    refine ⟨nofun, False.elim, fun token hhas => ?_, (h.traced j).dead, nofun⟩
    obtain ⟨t, ht, hrest⟩ := hfirst j token (hhas.goes nofun)
    exact ⟨t, by rw [ht]; rfl, hrest⟩
  · rw [World.began_calls_of_ne w _ hj, Function.update_of_ne hj]
    refine ⟨fun tokens' hglanced => ?_, fun hother => ?_, hfirst j, (h.traced j).dead,
      (h.traced j).second⟩
    · right
      rcases (h.traced j).glanced tokens' hglanced with hfile | houtdated
      · exact (h.traced i).renewing hrenewing tokens' hfile
      · exact houtdated
    · exact absurd hother.inside (h.alone hrenewing.inside hj)

omit [DecidableEq ι] in
/-- What a call renews has expired for the client. -/
theorem Inv.needed {t : UInt64} (h : Inv S family w calls g)
    (hstored : Stored S family w.session tokens)
    (ht : t.toNat = S.secondsAt w.session.server.clock.now)
    (hneeded : (calls i).needs tokens t = true) : Outdated S w.session.server tokens := by
  cases hasked : calls i with
  | valid =>
    rw [hasked] at hneeded
    have hle : tokens.expiresAt ≤ t := by simpa [Asked.needs, Tokens.isExpired] using hneeded
    rw [Outdated, ← ht]
    exact UInt64.le_iff_toNat_le.mp hle
  | rejected token =>
    rw [hasked] at hneeded
    obtain rfl : tokens.accessToken = token := beq_iff_eq.mp hneeded
    exact ((h.traced i).dead _ hasked).outdated hstored.2.sound

/-- **Step lemma.** Whatever a call of the manager does keeps the invariant. -/
theorem Inv.step {overflowChecks : Bool} {op : Op} {ans : Ans op} (h : Inv S family w calls g)
    (hexact : Exact overflowChecks (g i) op ans s)
    (heffect : LongSession.Effect S i w.session op ans session) :
    Inv S family (w.calls i session) calls (Function.update g i s) := by
  have hsession := h.session.step hexact heffect
  have hnew : Local S family session i (calls i) s := by
    have hlocal := hsession.tasks i
    rwa [Function.update_self] at hlocal
  have hlocal := h.session.tasks i
  have htraced := h.traced i
  have hgoes := @Inv.goes ι U S family s calls w g i session _ h hsession
  generalize hstage : g i = s₀ at hexact hlocal htraced hgoes
  cases hexact with
  | stamp hfresh =>
    obtain ⟨-, -, rfl⟩ := heffect.now_inv
    refine hgoes rfl rfl (by rintro _ ⟨⟩) (by rintro _ ⟨⟩) (fun _ => htraced.renewing trivial)
      fun token hflies => ?_
    cases hflies
    rw [(Tokens.fromResponse_eq_some hfresh).1]
    exact .answered
  | overflow => exact hnew.elim
  | go hgo hnot =>
    cases hgo with
    | @glance tokens =>
      obtain ⟨hans, rfl⟩ := heffect.load_inv
      refine hgoes rfl rfl (by rintro _ ⟨⟩) (fun tokens' heq => .inl ?_) False.elim (by rintro _ ⟨⟩)
      cases heq
      exact (Except.ok.inj hans).symm
    | @valid tokens t hvalid =>
      obtain ⟨ht, -, rfl⟩ := heffect.now_inv
      have hcurrent : ¬ Outdated S w.session.server tokens := by
        have hlt : t < tokens.expiresAt := by simpa [Tokens.isExpired] using hvalid
        rw [Outdated, ← ht]
        exact Nat.not_le.mpr (UInt64.lt_iff_toNat_lt.mp hlt)
      have hfile := (htraced.glanced tokens rfl).resolve_right hcurrent
      refine h.returns hsession rfl rfl hfile hlocal.2 (fun rejected hasked => ?_)
        fun j fresh hfresh => ?_
      · rw [hlocal.1] at hasked
        cases hasked
      · exact hcurrent ((h.traced j).renewing hfresh.renewing tokens hfile)
    | expired =>
      obtain ⟨-, -, rfl⟩ := heffect.now_inv
      exact h.passes hsession rfl rfl trivial
    | lock =>
      cases heffect
      exact h.passes hsession rfl rfl trivial
    | load =>
      obtain ⟨-, rfl⟩ := heffect.load_inv
      exact h.passes hsession rfl rfl trivial
    | fine =>
      obtain ⟨-, -, rfl⟩ := heffect.now_inv
      exact h.passes hsession rfl rfl trivial
    | @needed needs tokens t hneeded =>
      obtain ⟨ht, -, rfl⟩ := heffect.now_inv
      obtain ⟨rfl, hstored⟩ := hlocal
      refine hgoes rfl rfl (by rintro _ ⟨⟩) (by rintro _ ⟨⟩) (fun _ tokens' hfile => ?_)
        (by rintro _ ⟨⟩)
      rw [hstored.1] at hfile
      cases hfile
      exact h.needed hstored ht hneeded
    | keep =>
      cases heffect
      exact h.unlocks hsession rfl rfl (hstage ▸ trivial) (by rw [hstage]; rintro _ ⟨⟩) hlocal.1
        hlocal.2
    | post =>
      cases heffect
      exact hgoes rfl rfl (by rintro _ ⟨⟩) (by rintro _ ⟨⟩) (fun _ => htraced.renewing trivial)
        (by rintro _ ⟨⟩)
    | @answer tokens response =>
      obtain ⟨t₀, hanswered, hfresh, -⟩ := hnew
      cases heffect with
      | answer hrequest hserved hreads =>
        obtain ⟨granted, -, -, hkeeps, -⟩ :=
          hlocal.1.2.refresh h.session.lifetime h.session.inRange hrequest hserved hreads
        obtain rfl : w.session.server.clock.now = t₀ := by simpa using hanswered
        exact h.answers hsession rfl hkeeps (hstage ▸ trivial)
          fun t ht => lasts_of_fresh hfresh ht
    | save =>
      cases heffect
      exact h.saves hsession hstage
    | unlock =>
      cases heffect
      exact h.unlocks hsession rfl rfl (hstage ▸ trivial) (by rw [hstage]; rintro _ ⟨⟩) hlocal.1
        hlocal.2
    | stamp | overflow => exact absurd rfl (hnot _ _)
    | glanceMissing | glanceError | loadMissing | loadError | refused | panic | saveError | leave =>
      exact hnew.elim
    | postCode | exchange | refusedCode | stampLogin | overflowLogin | panicLogin | saveLogin
    | saveLoginError => exact hlocal.elim

/-- The API rejected the token of a fetch, which asks the manager for another one. -/
theorem Inv.again (h : Inv S family w calls g) (hi : g i = .done token) (hasked : calls i = .valid)
    (hdead : Dead S family w.session.server token) :
    Inv S family w (Function.update calls i (.rejected token))
      (Function.update g i (Asked.rejected token).stage) := by
  have hhas : Has (calls i) (g i) token := by
    rw [hi, hasked]
    exact .first
  have hhas' : ∀ j token', Has (Function.update calls i (.rejected token) j)
      (Function.update g i (Asked.rejected token).stage j) token' →
      Has (calls j) (g j) token' := by
    intro j token' hj
    by_cases heq : j = i
    · subst heq
      rw [Function.update_self] at hj
      cases hj
      exact hhas
    · rwa [Function.update_of_ne heq, Function.update_of_ne heq] at hj
  refine ⟨h.session.again (by rw [hi]; exact id) _, h.began, fun j => ?_,
    fun j token' t hj ht k fresh hfresh => ?_⟩
  · by_cases hj : j = i
    · subst hj
      rw [Function.update_self, Function.update_self]
      refine ⟨nofun, False.elim, fun token' hj => ?_, fun token' heq => ?_, nofun⟩
      · cases hj
        exact (h.traced j).first token hhas
      · cases heq
        exact hdead
    · rw [Function.update_of_ne hj, Function.update_of_ne hj]
      exact h.traced j
  · by_cases hk : k = i
    · subst hk
      rw [Function.update_self] at hfresh
      cases hfresh
    · rw [Function.update_of_ne hk] at hfresh
      exact h.flying j token' t (hhas' j token' hj) ht k fresh hfresh

/-! ## The fetches -/

/-- A request that a fetch awaits the answer to presents the token it got last. -/
structure Fetching (S : Setting) (family : FamilyId) (w : World ι U) (p : ι → Phase) : Prop where
  inv : Inv S family w (fun i => (p i).asked) fun i => (p i).stage
  sent : ∀ i asked token, p i = .awaits asked token →
    ∃ url, w.sent i = some (authorized url token)

variable {p : ι → Phase} {q phase : Phase}

/-- A fetch goes on. -/
theorem Fetching.goes (h : Fetching S family w p)
    (hinv : Inv S family w' (Function.update (fun j => (p j).asked) i phase.asked)
      (Function.update (fun j => (p j).stage) i phase.stage))
    (hother : ∀ j, j ≠ i → w'.sent j = w.sent j)
    (hsent : ∀ asked token, phase = .awaits asked token →
      ∃ url, w'.sent i = some (authorized url token)) :
    Fetching S family w' (Function.update p i phase) := by
  refine ⟨?_, fun j asked token hj => ?_⟩
  · have hasked : (fun j => (Function.update p i phase j).asked) =
        Function.update (fun j => (p j).asked) i phase.asked :=
      Function.comp_update Phase.asked p i phase
    have hstage : (fun j => (Function.update p i phase j).stage) =
        Function.update (fun j => (p j).stage) i phase.stage :=
      Function.comp_update Phase.stage p i phase
    rw [hasked, hstage]
    exact hinv
  · by_cases heq : j = i
    · subst heq
      rw [Function.update_self] at hj
      exact hsent asked token hj
    · rw [Function.update_of_ne heq] at hj
      rw [hother j heq]
      exact h.sent j asked token hj

/-- A fetch goes on within a call of the manager. -/
theorem Fetching.asks (h : Fetching S family w p) (hasked : phase.asked = (p i).asked)
    (hinv : Inv S family w' (fun j => (p j).asked)
      (Function.update (fun j => (p j).stage) i phase.stage))
    (hsent : w'.sent = w.sent) (hphase : ∀ asked token, phase ≠ .awaits asked token) :
    Fetching S family w' (Function.update p i phase) := by
  refine h.goes ?_ (fun j _ => congrFun hsent j)
    fun asked token heq => absurd heq (hphase asked token)
  rw [hasked, show Function.update (fun j => (p j).asked) i (p i).asked = _ from
    Function.update_eq_self i _]
  exact hinv

/-- Behind the manager, only the fetch itself goes on. -/
theorem Fetching.rests (h : Fetching S family w p) (hasked : phase.asked = (p i).asked)
    (hstage : phase.stage = (p i).stage) (hsession : w'.session = w.session)
    (hbegan : w'.began = w.began) (hother : ∀ j, j ≠ i → w'.sent j = w.sent j)
    (hsent : ∀ asked token, phase = .awaits asked token →
      ∃ url, w'.sent i = some (authorized url token)) :
    Fetching S family w' (Function.update p i phase) := by
  refine h.goes ?_ hother hsent
  rw [hasked, hstage, show Function.update (fun j => (p j).asked) i (p i).asked = _ from
    Function.update_eq_self i _, show Function.update (fun j => (p j).stage) i (p i).stage = _ from
    Function.update_eq_self i _]
  obtain ⟨session, began, sent⟩ := w'
  cases hsession
  cases hbegan
  exact ⟨h.inv.session, h.inv.began, h.inv.traced, h.inv.flying⟩

/-- The token that a response is about was known when the response came. -/
theorem Fetching.rejected {asked : Asked} (h : Fetching S family w p)
    (hi : p i = .awaits asked token) {ans : Except String UInt16}
    (heffect : Effect S i w .response ans w') (hans : ans = .ok unauthorized) :
    Server.tokenInfo w.session.server.toState token = none ∧ ∃ t₀, w.began i = some t₀ ∧
      w.session.server.clock.now.nanos < t₀.nanos + S.config.accessTokenLifetime.nanos := by
  obtain ⟨url, hurl⟩ := h.sent i asked token hi
  cases heffect with
  | response hsent hstatus hbegan hprompt =>
    rw [hurl] at hsent
    cases hsent
    exact ⟨hstatus token List.mem_cons_self (Except.ok.inj hans), _, hbegan, hprompt⟩
  | lost => cases hans

/-- **Step lemma.** Whatever a fetch does keeps the invariant. -/
theorem Fetching.step {overflowChecks : Bool} {op : ApiOp U} {ans : ApiAns op}
    (h : Fetching S family w p) (hmove : Move overflowChecks (p i) op ans phase)
    (heffect : Effect S i w op ans w') : Fetching S family w' (Function.update p i phase) := by
  generalize hi : p i = q at hmove
  cases hmove with
  | @call asked stage stage' op ans hexact =>
    cases heffect with
    | auth heffect =>
      have hstage : (p i).stage = stage := congrArg Phase.stage hi
      exact h.asks (congrArg Phase.asked hi).symm (h.inv.step (hstage ▸ hexact) heffect) rfl nofun
  | get url =>
    cases heffect
    refine h.rests (congrArg Phase.asked hi).symm (congrArg Phase.stage hi).symm rfl rfl
      (fun j hj => Function.update_of_ne hj ..) fun asked token heq => ?_
    cases heq
    exact ⟨url, Function.update_self ..⟩
  | lost | answered | text =>
    cases heffect
    exact h.rests (congrArg Phase.asked hi).symm (congrArg Phase.stage hi).symm rfl rfl
      (fun _ _ => rfl) nofun
  | @rejected token =>
    obtain ⟨hnone, -⟩ := h.rejected hi heffect rfl
    cases heffect
    have hasked : (p i).asked = .valid := congrArg Phase.asked hi
    have hstage : (p i).stage = .done token := congrArg Phase.stage hi
    obtain ⟨-, -, -, expiresAt, hholds⟩ := (h.inv.traced i).first token (by
      rw [hasked, hstage]
      exact .first)
    have hdead : Dead S family w.session.server token :=
      ⟨expiresAt, hholds, Nat.le_of_not_lt fun hlt =>
        hholds.tokenInfo h.inv.session.live hlt hnone⟩
    exact h.goes (h.inv.again hstage hasked hdead) (fun _ _ => rfl) nofun
  | @expired rejected token =>
    obtain ⟨hnone, t₀, hbegan, hprompt⟩ := h.rejected hi heffect rfl
    obtain ⟨t, ht, expiresAt, hholds, hle⟩ := (h.inv.traced i).second rejected token
      (congrArg Phase.asked hi) (congrArg Phase.stage hi)
    rw [hbegan] at ht
    cases ht
    exact absurd hnone (hholds.tokenInfo h.inv.session.live (Nat.lt_of_lt_of_le hprompt hle))

/-! ## The session -/

section

variable {overflowChecks : Bool} {web : Web U} {base url : U}

theorem ofAuth_within {call : Call String} {rest : String → Fetch U α} {n n' : Nat}
    (hcall : Prog.Within call n) (hrest : ∀ token, Prog.Within (rest token) n') :
    Prog.Within (Fetch.bind (Fetch.ofAuth call) rest) (n + n') := by
  have hauth : Prog.Within (Fetch.ofAuth (U := U) call) (n + 0) := by
    refine (hcall.embed ApiOp.auth).bind fun out => ?_
    cases out <;> exact trivial
  refine hauth.bind fun out => ?_
  cases out with
  | ok token => exact hrest token
  | err | panicked => exact trivial

theorem send_within {rest : UInt16 → Fetch U α} {n : Nat} {token : String}
    (hrest : ∀ status, Prog.Within (rest status) n) :
    Prog.Within (Fetch.bind (send web url token) rest) (n + 2) := by
  unfold send
  cases web.build (authorized url token) with
  | error => exact trivial
  | ok =>
    intro _ status
    cases status with
    | error => exact trivial
    | ok status => exact hrest status

theorem readBody_within {fromStr : String → Except String α} {status : UInt16} :
    Prog.Within (readBody (U := U) fromStr status) 1 := by
  unfold readBody
  intro body
  cases body with
  | error => exact trivial
  | ok body =>
    simp only [Prog.ret_bind]
    cases isSuccess status with
    | false => exact trivial
    | true => cases fromStr body <;> exact trivial

/-- A fetch takes at most 25 steps. -/
theorem getJson_within (fromStr : String → Except String α) (pathAndQuery : String) :
    Prog.Within (getJson web overflowChecks fromStr base pathAndQuery) 25 := by
  unfold getJson
  cases web.join base pathAndQuery with
  | none => exact trivial
  | some url =>
    show Prog.Within _ (10 + (10 + (1 + 2) + 2))
    refine ofAuth_within (getValidToken_within overflowChecks)
      fun token => send_within fun status => ?_
    split
    · refine ofAuth_within (TokenCall.within (.inr ⟨token, rfl⟩))
        fun token' => send_within fun status' => ?_
      split
      · exact trivial
      · exact readBody_within
    · exact readBody_within.mono (by decide)

end

omit [DecidableEq ι] in
/-- Nothing has been fetched yet. -/
theorem Fetching.start (h : LongSession.Start S family w.session) (hbegan : ∀ i, w.began i = none) :
    Fetching S family w fun _ => .asks .valid .begins := by
  have hsession : LongSession.Inv S family (fun _ => Asked.valid) w.session
    (fun _ => Asked.valid.stage) := h.inv
  refine ⟨⟨hsession, fun i t ht => ?_, fun _ => ?_, nofun⟩, nofun⟩
  · rw [hbegan i] at ht
    cases ht
  · exact ⟨nofun, False.elim, nofun, nofun, nofun⟩

/-- **API calls are served.** Any number of fetches at once, with the mock serving others and its
clock going on: a fetch that takes less than the lifetime of a token never ends with an error of the
manager, so the user is never told to log in again while the session lasts. -/
theorem fetches_served {overflowChecks : Bool} {web : Web U} {base : U} {path : ι → String}
    {fromStr : ι → String → Except String α} {w₀ : World ι U}
    (hstart : LongSession.Start S family w₀.session) (hbegan : ∀ i, w₀.began i = none)
    {tr : List (Option ι)} {pool : Pool (World ι U) ι (ApiAns (U := U)) (Fetched α)}
    (hrun : Pool.Run (Effect S) (Meanwhile S family)
      ⟨w₀, fun i => getJson web overflowChecks (fromStr i) base (path i)⟩ tr pool) :
    (∀ i out, pool.tasks i = .ret out → Served out) ∧
    (pool.shared.session.lock = none → LongSession.Start S family pool.shared.session) ∧
    ∀ i, tr.count (some i) ≤ 25 := by
  obtain ⟨p, hfollows, hinv⟩ := hrun.invariant (I := Fetching S family)
    (fun i => getJson_follows web (fromStr i) base (path i)) (.start hstart hbegan)
    (fun _ _ _ _ _ _ _ hI hmove heffect => hI.step hmove heffect)
    (fun _ _ _ hI hmeanwhile => by
      refine ⟨hI.inv.meanwhile hmeanwhile, ?_⟩
      cases hmeanwhile
      exact hI.sent)
  have hsession := hinv.inv.session
  refine ⟨fun i out hout => ?_, fun hfree => ?_, fun i => ?_⟩
  · have hended := hfollows i
    have hlocal := hsession.tasks i
    rw [hout] at hended
    generalize p i = q at hended hlocal
    cases q with
    | asks asked stage =>
      cases stage with
      | begins | done => exact hended
      | failed => exact hlocal.elim
      | _ => exact hended.elim
    | awaits | reads => exact hended.elim
    | finished => exact hended
    | expired => exact hlocal.elim
  · exact ⟨hsession.inRange, hsession.lifetime, hsession.live, hsession.free hfree, hfree⟩
  · exact hrun.count_le (getJson_within (fromStr i) (path i))

/-! ## A fetch that is rejected once -/

open LongSession (LoggedIn exists_loggedIn stamped webSetting fromResponse_stamped serves_leaves
  store_later InTime)

/-- The body itself is fetched. -/
def fetchTracks (overflowChecks : Bool) : Fetch String String :=
  getJson plainWeb overflowChecks .ok "http://127.0.0.1" "/tracks"

/-- The token is still valid when the fetch begins. -/
def firstTry (tokens : Tokens) (t : UInt64) : List (Sigma (ApiAns (U := String))) :=
  [⟨.auth .load, .ok (some tokens)⟩, ⟨.auth .now, t⟩,
    ⟨.get (authorized "http://127.0.0.1/tracks" tokens.accessToken), ()⟩]

/-- It has expired when the API answers; the fetch renews it and tries again. -/
def secondTry (tokens fresh : Tokens) (response : TokenResponse) (t : UInt64) :
    List (Sigma (ApiAns (U := String))) :=
  [⟨.response, .ok unauthorized⟩, ⟨.auth .lock, ()⟩, ⟨.auth .load, .ok (some tokens)⟩,
    ⟨.auth .now, t⟩, ⟨.auth (.post (.refreshToken tokens.refreshToken)), ()⟩,
    ⟨.auth (.answer (.refreshToken tokens.refreshToken)), .ok response⟩, ⟨.auth .now, t⟩,
    ⟨.auth (.save fresh), .ok ()⟩, ⟨.auth .unlock, ()⟩,
    ⟨.get (authorized "http://127.0.0.1/tracks" fresh.accessToken), ()⟩, ⟨.response, .ok 200⟩,
    ⟨.text, .ok "[]"⟩]

theorem steps_tries {overflowChecks : Bool} {tokens fresh : Tokens} {response : TokenResponse}
    {t t' : UInt64} (hvalid : tokens.isExpired t = false)
    (hfresh : Tokens.fromResponse overflowChecks response t' = some fresh) :
    Prog.Steps (fetchTracks overflowChecks)
      (firstTry tokens t ++ secondTry tokens fresh response t') (.ret (.ok "[]")) := by
  refine .cons (.cons ?_)
  simp only [Prog.ret_bind, hvalid]
  refine .cons (.cons (.cons (.cons (.cons ?_))))
  simp only [Prog.ret_bind, beq_self_eq_true]
  refine .cons (.cons (.cons ?_))
  simp only [Prog.ret_bind, hfresh]
  exact .cons (.cons (.cons (.cons (.cons (.nil _)))))

/-- The API does not know a token that has expired. -/
theorem unknown_of_expired {st st' : Guarded} {granted : TokenResponse}
    (h : LoggedIn st granted) (hstore : st'.store = st.store)
    (hnow : minute.saturatingAdd webSetting.config.accessTokenLifetime ≤ st'.clock.now) :
    Server.tokenInfo st'.toState granted.accessToken = none := by
  cases hinfo : Server.tokenInfo st'.toState granted.accessToken with
  | none => rfl
  | some info =>
    obtain ⟨entry, hentry, -, hlt, -⟩ := accessTokenInfo_eq_some.mp hinfo
    rw [show st'.toState.store = st.store from hstore] at hentry
    cases hentry.symm.trans h.fresh.accessToken
    exact absurd hlt (Nat.not_lt.mpr hnow)

/-- What one fetch shares with the mock. -/
def sharing (tokens : Tokens) (st : Guarded) (seen : Option Guarded) (began : Option Duration)
    (sent : Option (Request String)) : World Unit String :=
  ⟨⟨some tokens, none, st, fun _ => none, fun _ => seen⟩, fun _ => began, fun _ => sent⟩

section

variable {tokens : Tokens} {st st' : Guarded} {t : UInt64} {family : FamilyId}

theorem along_firstTry (ht : t.toNat = webSetting.secondsAt st.clock.now) :
    Prog.Along (Effect webSetting ()) (sharing tokens st none none none) (firstTry tokens t)
      (sharing tokens st (some st) (some st.clock.now)
        (some (authorized "http://127.0.0.1/tracks" tokens.accessToken))) :=
  .cons (.auth .load) <| .cons (.auth (.now ht nofun)) <| .cons .get .nil

theorem along_secondTry {fresh : Tokens} {response : TokenResponse} {request : Http.Request}
    {draws : List Draw} {answer : Response} {t₀ : Duration} {seen : Option Guarded}
    (hnone : Server.tokenInfo st.toState tokens.accessToken = none)
    (hprompt : st.clock.now.nanos < t₀.nanos + webSetting.config.accessTokenLifetime.nanos)
    (ht : t.toNat = webSetting.secondsAt st.clock.now)
    (hrequest : PostsForm request (webTokenClient.form (.refreshToken tokens.refreshToken)))
    (hserved : Token.handler webSetting.D webSetting.config st request draws = some (answer, st'))
    (hreads : LongSession.Reads webSetting.fromSlice answer (.ok response))
    (hclock : st'.clock = st.clock) :
    Prog.Along (Effect webSetting ())
      (sharing tokens st seen (some t₀)
        (some (authorized "http://127.0.0.1/tracks" tokens.accessToken)))
      (secondTry tokens fresh response t)
      (sharing fresh st' (some st') (some t₀)
        (some (authorized "http://127.0.0.1/tracks" fresh.accessToken))) := by
  have hunknown : ∀ token, ("authorization", "OAuth " ++ token) ∈
      (authorized "http://127.0.0.1/tracks" tokens.accessToken).headers →
      unauthorized = unauthorized → Server.tokenInfo st.toState token = none := by
    intro token hmem _
    obtain rfl : token = tokens.accessToken := by
      simpa [authorized, String.append_right_inj] using hmem
    exact hnone
  have ht' : t.toNat = webSetting.secondsAt st'.clock.now := hclock ▸ ht
  have hprompt' : st'.clock.now.nanos <
      t₀.nanos + webSetting.config.accessTokenLifetime.nanos := hclock ▸ hprompt
  have hintime : InTime webSetting st.clock.now st'.clock.now := by
    rw [hclock]
    exact ⟨Nat.le_add_right _ _, Nat.lt_add_of_pos_right (by decide)⟩
  exact .cons (.response rfl hunknown rfl hprompt) <| .cons (.auth (.lock rfl)) <|
    .cons (.auth .load) <| .cons (.auth (.now ht nofun)) <| .cons (.auth .post) <|
    .cons (.auth (.answer hrequest hserved hreads)) <|
    .cons (.auth (.now ht' fun _ heq => Option.some.inj heq ▸ hintime)) <|
    .cons (.auth .save) <| .cons (.auth .unlock) <| .cons .get <|
    .cons (.response rfl (fun _ _ => nofun) rfl hprompt') <| .cons .text .nil

end

/-- A fetch begins when the token is still valid; it has expired when the API answers, and the
fetch renews it and succeeds. -/
theorem fetches_served_retried : ∃ (w₀ : World Unit String) (tr : List (Option Unit))
    (pool : Pool (World Unit String) Unit (ApiAns (U := String)) (Fetched String)),
    Pool.Run (Effect webSetting) (Meanwhile webSetting loginCode.family)
      ⟨w₀, fun _ => fetchTracks true⟩ tr pool ∧
    pool.tasks () = .ret (.ok "[]") ∧ Served (Fetched.ok "[]") ∧
    LongSession.Start webSetting loginCode.family pool.shared.session := by
  obtain ⟨st₁, granted, h₁⟩ := exists_loggedIn
  have hstart := @LoggedIn.start Unit st₁ granted h₁
  -- the token expires between the two times
  have hclock₂ : (later st₁ (.fromSecs 3000)).clock = ⟨.fromSecs 3060⟩ := by
    show st₁.clock.advance (.fromSecs 3000) = _
    rw [h₁.clock]
    rfl
  have hadvance₂ : Concurrent.Serves callbackDeps callbackConfig st₁
    (.advanceClock (.fromSecs 3000)) .done (later st₁ (.fromSecs 3000)) := .advanceClock
  have hstore₂ := store_later st₁ (.fromSecs 3000)
  generalize later st₁ (.fromSecs 3000) = st₂ at hclock₂ hadvance₂ hstore₂
  have hclock₃ : (later st₂ (.fromSecs 700)).clock = ⟨.fromSecs 3760⟩ := by
    show st₂.clock.advance (.fromSecs 700) = _
    rw [hclock₂]
    rfl
  have hadvance₃ : Concurrent.Serves callbackDeps callbackConfig st₂
    (.advanceClock (.fromSecs 700)) .done (later st₂ (.fromSecs 700)) := .advanceClock
  have hstore₃ := (store_later st₂ (.fromSecs 700)).trans hstore₂
  generalize later st₂ (.fromSecs 700) = st₃ at hclock₃ hadvance₃ hstore₃
  have hrange₂ : InRange webSetting st₂ := by
    constructor <;> rw [hclock₂] <;> decide
  have hrange₃ : InRange webSetting st₃ := by
    constructor <;> rw [hclock₃] <;> decide
  have hnow₂ : (3060 : UInt64).toNat = webSetting.secondsAt st₂.clock.now := by
    rw [hclock₂]
    decide
  have hnow₃ : (3760 : UInt64).toNat = webSetting.secondsAt st₃.clock.now := by
    rw [hclock₃]
    decide
  have hprompt : st₃.clock.now.nanos <
      st₂.clock.now.nanos + webSetting.config.accessTokenLifetime.nanos := by
    rw [hclock₃, hclock₂]
    decide
  have hnone := unknown_of_expired h₁ hstore₃ (by rw [hclock₃]; decide)
  -- it can be renewed
  obtain ⟨_, ⟨⟩, hgood⟩ := hstart.stored
  have hgood₂ := hgood.leaves (serves_leaves (S := webSetting) hadvance₂ nofun)
  obtain ⟨response, read, st₄, hserved, hreads, hfresh, hclock₄⟩ := h₁.renewed hstore₃
    (hgood₂.leaves (serves_leaves (S := webSetting) hadvance₃ nofun)) hrange₃
  -- the fetch
  have hvalid : (stamped granted 60).isExpired 3060 = false := h₁.isExpired.trans (by decide)
  have hstamped : Tokens.fromResponse true read 3760 = some (stamped read 3760) :=
    fromResponse_stamped hfresh (by decide)
  obtain ⟨m, hsteps₁, hsteps₂⟩ := (steps_tries hvalid hstamped).append_inv
  have hrun₀ : Pool.Run (Effect webSetting) (Meanwhile webSetting loginCode.family)
      ⟨sharing (stamped granted 60) st₁ none none none, fun _ => fetchTracks true⟩ [] _ := .start
  have hrun₁ := hrun₀.step (.env (.session (.serves hadvance₂ nofun hrange₂)))
  obtain ⟨tr₁, hrun₂⟩ := hrun₁.alone (i := ()) hsteps₁ (along_firstTry hnow₂)
  have hrun₃ := hrun₂.step (.env (.session (.serves hadvance₃ nofun hrange₃)))
  obtain ⟨tr₂, hrun⟩ := hrun₃.alone (i := ()) hsteps₂
    (along_secondTry hnone hprompt hnow₃ (postsForm_formPost _) hserved hreads hclock₄)
  have hfetched := fetches_served hstart (fun _ => rfl) hrun
  exact ⟨_, tr₂, _, hrun, rfl, hfetched.1 () _ rfl, hfetched.2.1 rfl⟩

end Rsc.EndToEnd.ApiSession

import Rsc.Auth.OneRefresh
import Rsc.Auth.Rotation
import Rsc.EndToEnd.MockLogin
import Rsc.Mock.Asked
import Rsc.Mock.Concurrent

/-!
A session of `rsc` with `rsc-mock`, for as long as it lasts. Any number of calls of one
`AuthManager` run at once; what they send is served by the token endpoint of the mock, which serves
everybody else meanwhile, and time goes on. The client reads whole seconds of a clock of its own.
-/

namespace Rsc.EndToEnd.LongSession

open Rsc.Library Rsc.Library.Http Rsc.Auth Rsc.Mock Rsc.Mock.Store Stage
open Rotation (Current)
open OneRefresh (Inside)
open Concurrent (Call Serves)

/-! ## The setting -/

/-- The form of a refresh is within the limit of the mock. -/
def Sendable (client : TokenClient) (token : String) : Prop :=
  (FormUrlEncoded.serializeBytes (client.form (.refreshToken token))).length ≤ Token.maxBodyBytes

/-- A client that is registered with a mock; the mock was spawned `origin` nanoseconds after the
beginning of unix time. -/
structure Setting where
  D : Deps
  fromSlice : List UInt8 → Option Json.Document
  config : MockConfig
  client : TokenClient
  port : UInt16
  origin : Nat
  reliable : Reliable D fromSlice
  registered : Registered D config client port
  sendable : ∀ draw, Sendable client (randomCredential draw)

/-- The unix seconds when the clock of the mock shows `t`. -/
def Setting.secondsAt (S : Setting) (t : Duration) : Nat := (S.origin + t.nanos) / 1000000000

theorem Setting.secondsAt_le (S : Setting) {t t' : Duration} (h : t ≤ t') :
    S.secondsAt t ≤ S.secondsAt t' :=
  Nat.div_le_div_right (Nat.add_le_add_left h _)

/-- The clocks do not reach their ends within the lifetime of a token. -/
structure InRange (S : Setting) (st : Guarded) : Prop where
  server : st.clock.now.Fits S.config.accessTokenLifetime
  client : S.secondsAt st.clock.now + S.config.accessTokenLifetime.asSecs.toNat < UInt64.size

/-- An answer of the time `t₀` is received at `t` within the margin, before its token expires. -/
structure InTime (S : Setting) (t₀ t : Duration) : Prop where
  margin : t.nanos ≤ t₀.nanos + expiryMarginSecs.toNat * 1000000000
  lifetime : t.nanos < t₀.nanos + S.config.accessTokenLifetime.nanos

/-! ## The system -/

variable {ι : Type}

/-- The shared state, with the time of the answer that a call got since it looked at the clock, and
the state of the mock when a call looked at the clock last. -/
structure World (ι : Type) where
  file : Option Tokens
  lock : Option ι
  server : Guarded
  answered : ι → Option Duration
  seen : ι → Option Guarded

/-- A call looks at the clock. -/
def World.look [DecidableEq ι] (w : World ι) (i : ι) : World ι :=
  { w with
    answered := Function.update w.answered i none
    seen := Function.update w.seen i (some w.server) }

/-- What `TokenClient::token_request` makes of a response. -/
inductive Reads (fromSlice : List UInt8 → Option Json.Document) (response : Response) :
    Except TokenError TokenResponse → Prop
  | ok {tokens : TokenResponse} (hstatus : response.status = .ok)
      (hjson : (fromSlice response.body).bind TokenResponse.deserialize = some tokens) :
      Reads fromSlice response (.ok tokens)
  | badResponse {message : String} (hstatus : response.status = .ok)
      (hjson : (fromSlice response.body).bind TokenResponse.deserialize = none) :
      Reads fromSlice response (.error (.badResponse message))
  | failure {err : TokenError} (hstatus : response.status ≠ .ok) :
      Reads fromSlice response (.error err)

/-- The effects: saves succeed and are atomic, the lock excludes, and the token endpoint answers
the form of the client, in time. -/
inductive Effect [DecidableEq ι] (S : Setting) (i : ι) :
    World ι → (op : Op) → Ans op → World ι → Prop
  | load {w : World ι} : Effect S i w .load (.ok w.file) w
  | save {w : World ι} {tokens : Tokens} :
      Effect S i w (.save tokens) (.ok ()) { w with file := some tokens }
  | now {w : World ι} {t : UInt64} (ht : t.toNat = S.secondsAt w.server.clock.now)
      (hprompt : ∀ t₀, w.answered i = some t₀ → InTime S t₀ w.server.clock.now) :
      Effect S i w .now t (w.look i)
  | lock {w : World ι} (h : w.lock = none) : Effect S i w .lock () { w with lock := some i }
  | unlock {w : World ι} : Effect S i w .unlock () { w with lock := none }
  | post {w : World ι} {request : TokenRequest} : Effect S i w (.post request) () w
  | answer {w : World ι} {token : String} {request : Request} {draws : List Draw}
      {response : Response} {st : Guarded} {answer : Except TokenError TokenResponse}
      (hrequest : PostsForm request (S.client.form (.refreshToken token)))
      (hserved : Token.handler S.D S.config w.server request draws = some (response, st))
      (hreads : Reads S.fromSlice response answer) :
      Effect S i w (.answer (.refreshToken token)) answer
        { w with
          server := st
          answered := Function.update w.answered i (some w.server.clock.now) }

/-- The request presents neither a code nor a refresh token of the family. -/
def Spares (S : Setting) (family : FamilyId) (st : Guarded) (request : Request) : Prop :=
  ∀ client params, Token.Admitted S.D S.config request client params →
    (∀ code entry, params.value "code" = some code → st.store.codes.lookup code = some entry →
      entry.family ≠ family) ∧
    ∀ token entry, params.value "refresh_token" = some token →
      st.store.refreshTokens.lookup token = some entry → entry.family ≠ family

/-- Meanwhile the mock serves another call, which may be that its clock is advanced. -/
inductive Meanwhile (S : Setting) (family : FamilyId) (w : World ι) : World ι → Prop
  | serves {call : Call} {reply : Concurrent.Reply} {st : Guarded}
      (h : Serves S.D S.config w.server call reply st)
      (hspares : ∀ request, call = .token request → Spares S family w.server request)
      (hrange : InRange S st) : Meanwhile S family w { w with server := st }

/-- A call for a token. -/
inductive Asked
  | valid
  | rejected (token : String)

def Asked.call (overflowChecks : Bool) : Asked → Auth.Call String
  | .valid => getValidToken overflowChecks
  | .rejected token => refreshAfterUnauthorized overflowChecks token

/-- When the call asks for new tokens. -/
def Asked.needs : Asked → Tokens → UInt64 → Bool
  | .valid => fun stored now => stored.isExpired now
  | .rejected token => fun stored _ => stored.accessToken == token

/-! ## The calls -/

/-- `Go`, where an answer is stamped with what `from_response` makes of it. -/
inductive Exact (overflowChecks : Bool) : Prog.Protocol Ans Stage
  | go {s s' : Stage} {op : Op} {ans : Ans op} (h : Go s op ans s')
      (hnot : ∀ tokens response, s ≠ .answered tokens response) : Exact overflowChecks s op ans s'
  | stamp {tokens fresh : Tokens} {response : TokenResponse} {t : UInt64}
      (h : Tokens.fromResponse overflowChecks response t = some fresh) :
      Exact overflowChecks (.answered tokens response) .now t (.stamped tokens response fresh)
  | overflow {tokens : Tokens} {response : TokenResponse} {t : UInt64}
      (h : Tokens.fromResponse overflowChecks response t = none) :
      Exact overflowChecks (.answered tokens response) .now t (.overflows tokens response)

theorem refreshIf_exact (overflowChecks : Bool) (needs : Tokens → UInt64 → Bool) :
    Prog.Follows (Exact overflowChecks) Gives (.waits needs) (refreshIf overflowChecks needs) := by
  refine fun _ => ⟨_, .go .lock nofun, fun stored => ?_⟩
  match stored with
  | .error _ => exact ⟨_, .go .loadError nofun, fun _ => ⟨_, .go .leave nofun, trivial⟩⟩
  | .ok none => exact ⟨_, .go .loadMissing nofun, fun _ => ⟨_, .go .leave nofun, trivial⟩⟩
  | .ok (some tokens) =>
    refine ⟨_, .go .load nofun, fun now => ?_⟩
    cases hneeds : needs tokens now with
    | false =>
      refine ⟨_, .go (.fine hneeds) nofun, ?_⟩
      simp only [Prog.ret_bind, hneeds, Bool.not_false, if_true]
      exact fun _ => ⟨_, .go .keep nofun, rfl⟩
    | true =>
      refine ⟨_, .go (.needed hneeds) nofun, ?_⟩
      simp only [Prog.ret_bind, hneeds, Bool.not_true, Bool.false_eq_true, if_false]
      refine fun _ => ⟨_, .go .post nofun, fun answer => ?_⟩
      match answer with
      | .error err =>
        refine ⟨_, .go .refused nofun, ?_⟩
        cases err <;> exact fun _ => ⟨_, .go .leave nofun, trivial⟩
      | .ok response =>
        refine ⟨_, .go .answer nofun, fun now => ?_⟩
        cases hfresh : Tokens.fromResponse overflowChecks response now with
        | none =>
          refine ⟨_, .overflow hfresh, ?_⟩
          simp only [Prog.ret_bind, hfresh]
          exact fun _ => ⟨_, .go .panic nofun, fun _ => ⟨_, .go .leave nofun, trivial⟩⟩
        | some fresh =>
          have hcarries := Tokens.fromResponse_eq_some hfresh
          refine ⟨_, .stamp hfresh, ?_⟩
          simp only [Prog.ret_bind, hfresh]
          intro saved
          match saved with
          | .error _ =>
            exact ⟨_, .go (.saveError hcarries) nofun, fun _ => ⟨_, .go .leave nofun, trivial⟩⟩
          | .ok () => exact ⟨_, .go (.save hcarries) nofun, fun _ => ⟨_, .go .unlock nofun, rfl⟩⟩

theorem getValidToken_exact (overflowChecks : Bool) :
    Prog.Follows (Exact overflowChecks) Gives .begins (getValidToken overflowChecks) := by
  intro stored
  match stored with
  | .error _ => exact ⟨_, .go .glanceError nofun, trivial⟩
  | .ok none => exact ⟨_, .go .glanceMissing nofun, trivial⟩
  | .ok (some tokens) =>
    refine ⟨_, .go .glance nofun, fun now => ?_⟩
    cases hexpired : tokens.isExpired now with
    | false =>
      refine ⟨_, .go (.valid hexpired) nofun, ?_⟩
      simp only [Prog.ret_bind, hexpired, Bool.not_false, if_true]
      exact rfl
    | true =>
      refine ⟨_, .go (.expired hexpired) nofun, ?_⟩
      simp only [Prog.ret_bind, hexpired, Bool.not_true, Bool.false_eq_true, if_false]
      exact refreshIf_exact overflowChecks _

/-- The stage a call begins in. -/
def Asked.stage : Asked → Stage
  | .valid => .begins
  | .rejected token => .waits fun stored _ => stored.accessToken == token

theorem Asked.exact (overflowChecks : Bool) (asked : Asked) :
    Prog.Follows (Exact overflowChecks) Gives asked.stage (asked.call overflowChecks) := by
  cases asked with
  | valid => exact getValidToken_exact overflowChecks
  | rejected token => exact refreshIf_exact overflowChecks _

theorem Asked.tokenCall (overflowChecks : Bool) (asked : Asked) :
    TokenCall overflowChecks (asked.call overflowChecks) := by
  cases asked with
  | valid => exact .inl rfl
  | rejected token => exact .inr ⟨token, rfl⟩

/-! ## The tokens of the session -/

variable {S : Setting} {family : FamilyId} {st st' : Guarded} {tokens : Tokens}

/-- The access token is a user token of the family, which expires for the client before it expires
for the mock. -/
def Sound (S : Setting) (family : FamilyId) (st : Guarded) (tokens : Tokens) : Prop :=
  ∃ expiresAt, st.store.accessTokens.lookup tokens.accessToken =
      some ⟨.user, S.client.clientId, expiresAt, some family⟩ ∧
    ∀ t : Duration, st.clock.now ≤ t → S.secondsAt t < tokens.expiresAt.toNat → t < expiresAt

/-- And the refresh token is the current one. -/
structure Good (S : Setting) (family : FamilyId) (st : Guarded) (tokens : Tokens) : Prop where
  sound : Sound S family st tokens
  current : Current S.client.clientId family st.store tokens.refreshToken
  nonempty : tokens.refreshToken ≠ ""
  sendable : Sendable S.client tokens.refreshToken

/-- The response carries a pair of tokens that was granted at `t₀`. -/
structure Fresh (S : Setting) (family : FamilyId) (st : Guarded) (t₀ : Duration)
    (response : TokenResponse) : Prop where
  issued : t₀ ≤ st.clock.now
  fits : t₀.Fits S.config.accessTokenLifetime
  accessToken : st.store.accessTokens.lookup response.accessToken = some
    ⟨.user, S.client.clientId, t₀.saturatingAdd S.config.accessTokenLifetime, some family⟩
  expiresIn : response.expiresIn = S.config.accessTokenLifetime.asSecs
  current : Current S.client.clientId family st.store response.refreshToken
  nonempty : response.refreshToken ≠ ""
  sendable : Sendable S.client response.refreshToken

/-- What the store keeps of a session, whatever it does for others. -/
structure Keeps (S : Setting) (family : FamilyId) (st st' : Guarded) : Prop where
  clock : st.clock.now ≤ st'.clock.now
  lifetime : st'.store.accessTokenLifetime = st.store.accessTokenLifetime
  accessTokens : ∀ {token entry}, st.store.accessTokens.lookup token = some entry →
    st'.store.accessTokens.lookup token = some entry
  live : family ∉ st.store.revokedFamilies → family ∉ st'.store.revokedFamilies

theorem Sound.keeps (h : Sound S family st tokens) (hkeeps : Keeps S family st st') :
    Sound S family st' tokens := by
  obtain ⟨expiresAt, hentry, hbefore⟩ := h
  exact ⟨expiresAt, hkeeps.accessTokens hentry,
    fun t ht => hbefore t (Nat.le_trans hkeeps.clock ht)⟩

/-- A user token of the session is accepted until it expires. -/
theorem tokenInfo_of_lookup {token : String} {expiresAt : Duration}
    (hentry : st.store.accessTokens.lookup token =
      some ⟨.user, S.client.clientId, expiresAt, some family⟩)
    (hlive : family ∉ st.store.revokedFamilies) (hnow : st.clock.now < expiresAt) :
    ∃ info, Server.tokenInfo st.toState token = some info ∧ info.kind = .user ∧
      info.clientId = S.client.clientId := by
  refine ⟨⟨.user, S.client.clientId, ⟨_, (Nat.sub_le _ _).trans expiresAt.le_max⟩⟩,
    accessTokenInfo_eq_some.mpr ⟨_, hentry, ?_, hnow, rfl, rfl, rfl⟩, rfl, rfl⟩
  rintro f ⟨⟩
  exact hlive

/-- What the client takes for valid is accepted by the mock. -/
theorem Sound.tokenInfo {t : UInt64} (h : Sound S family st tokens)
    (hlive : family ∉ st.store.revokedFamilies) (ht : t.toNat = S.secondsAt st.clock.now)
    (hvalid : tokens.isExpired t = false) :
    ∃ info, Server.tokenInfo st.toState tokens.accessToken = some info ∧ info.kind = .user ∧
      info.clientId = S.client.clientId := by
  obtain ⟨expiresAt, hentry, hbefore⟩ := h
  have hlt : S.secondsAt st.clock.now < tokens.expiresAt.toNat := by
    rw [← ht, ← UInt64.lt_iff_toNat_lt]
    simpa [Tokens.isExpired] using hvalid
  exact tokenInfo_of_lookup hentry hlive (hbefore _ (Nat.le_refl _) hlt)

/-! ## A refresh -/

theorem Setting.valid (S : Setting) : S.config.Valid S.D.urlParses :=
  MockConfig.validate_eq_ok.mp S.registered.validated

/-- The lifetime is a whole number of seconds. -/
theorem Setting.lifetime_nanos (S : Setting) : S.config.accessTokenLifetime.nanos =
    S.config.accessTokenLifetime.asSecs.toNat * 1000000000 := by
  have h := Duration.fromSecs_asSecs S.valid.accessTokenLifetime.2
  exact congrArg Duration.nanos h.symm

/-- The addition of the expiry does not overflow. -/
theorem InRange.fits {t : UInt64} (h : InRange S st) (ht : t.toNat = S.secondsAt st.clock.now) :
    t.toNat + (saturatingSub S.config.accessTokenLifetime.asSecs expiryMarginSecs).toNat <
      UInt64.size := by
  have hle := h.client
  rw [toNat_saturatingSub]
  omega

theorem fromResponse_eq {overflowChecks : Bool} {response : TokenResponse} {t : UInt64}
    (hfits : t.toNat + (saturatingSub response.expiresIn expiryMarginSecs).toNat < UInt64.size) :
    Tokens.fromResponse overflowChecks response t = some ⟨response.accessToken,
      response.refreshToken, t + saturatingSub response.expiresIn expiryMarginSecs⟩ :=
  if_neg fun hover => absurd hfits (Nat.not_lt.mpr hover.2)

/-- An answer that was received in time is stamped with an expiry that the mock outlives. -/
theorem Fresh.good {overflowChecks : Bool} {t₀ : Duration} {t : UInt64} {response : TokenResponse}
    {fresh : Tokens} (h : Fresh S family st t₀ response) (hrange : InRange S st)
    (hintime : InTime S t₀ st.clock.now) (ht : t.toNat = S.secondsAt st.clock.now)
    (hfresh : Tokens.fromResponse overflowChecks response t = some fresh) :
    Good S family st fresh := by
  obtain ⟨haccess, hrefresh⟩ := Tokens.fromResponse_eq_some hfresh
  have hfits := hrange.fits ht
  rw [← h.expiresIn] at hfits
  have hexpires := Tokens.toNat_expiresAt hfits hfresh
  rw [h.expiresIn, ht] at hexpires
  have hsecs := S.lifetime_nanos
  have hends := Duration.nanos_saturatingAdd h.fits
  have hmargin := hintime.margin
  rw [show expiryMarginSecs.toNat = 60 from rfl] at hmargin
  refine ⟨⟨_, haccess ▸ h.accessToken, fun t' ht' hlt => ?_⟩, hrefresh ▸ h.current,
    hrefresh ▸ h.nonempty, hrefresh ▸ h.sendable⟩
  rw [Duration.lt_def, hends]
  rw [Duration.le_def] at ht'
  rw [hexpires, Setting.secondsAt, Setting.secondsAt] at hlt
  omega

/-- The mock accepts the token of an answer that was received in time. -/
theorem Fresh.tokenInfo {t₀ : Duration} {response : TokenResponse}
    (h : Fresh S family st t₀ response) (hlive : family ∉ st.store.revokedFamilies)
    (hintime : InTime S t₀ st.clock.now) :
    ∃ info, Server.tokenInfo st.toState response.accessToken = some info ∧ info.kind = .user ∧
      info.clientId = S.client.clientId := by
  have hnow : st.clock.now < t₀.saturatingAdd S.config.accessTokenLifetime := by
    rw [Duration.lt_def, Duration.nanos_saturatingAdd h.fits]
    exact hintime.lifetime
  exact tokenInfo_of_lookup h.accessToken hlive hnow

/-- The client reads the pair of tokens in the response of the mock. -/
theorem Reads.tokenResponse {access refresh : String} {answer : Except TokenError TokenResponse}
    (h : Reads S.fromSlice (unwrapOrElse S.D.toVec (.ok (Token.tokenResponse S.D
      ⟨access, some refresh⟩ S.config.accessTokenLifetime))) answer) :
    answer = .ok ⟨access, refresh, S.config.accessTokenLifetime.asSecs, ""⟩ := by
  obtain ⟨bytes, hbytes, hread⟩ := S.reliable.json [("access_token", .str access),
    ("refresh_token", .str refresh), ("expires_in", .num S.config.accessTokenLifetime.asSecs),
    ("scope", .str ""), ("token_type", .str "bearer")]
  have hbody : (Token.tokenResponse S.D ⟨access, some refresh⟩
    S.config.accessTokenLifetime).body = bytes := json_body .ok hbytes
  have hjson : (S.fromSlice (Token.tokenResponse S.D ⟨access, some refresh⟩
      S.config.accessTokenLifetime).body).bind TokenResponse.deserialize =
      some ⟨access, refresh, S.config.accessTokenLifetime.asSecs, ""⟩ := by
    rw [hbody, hread]
    exact deserialize_tokenResponse _ _ _
  have hstatus : (Token.tokenResponse S.D ⟨access, some refresh⟩
      S.config.accessTokenLifetime).status = .ok :=
    Token.tokenResponse_status (fun doc => by
      obtain ⟨bytes, hbytes, -⟩ := S.reliable.json doc
      rw [hbytes]
      rfl) _ _
  cases h with
  | ok _ hread' => rw [Option.some.inj (hread'.symm.trans hjson)]
  | badResponse _ hnone => cases hnone.symm.trans hjson
  | failure hnot => exact absurd hstatus hnot

/-- An operation that revokes another family at most. -/
theorem Keeps.of_effect {H : Pkce.Hashing} {e : Event} {s : Store} (h : Store.Effect H st.store e s)
    (hreplay : ∀ request now code, e = .redeemCode request now (.error .invalidGrant) →
      st.store.Replay request code → code.family ≠ family) :
    Keeps S family st { st with store := s } := by
  refine ⟨Nat.le_refl _, ?_, fun hentry => h.lookup_accessTokens hentry, fun hlive => ?_⟩
  · cases h <;> rfl
  · cases h with
    | @replayed request now code hcode =>
      intro hmem
      rcases Finset.mem_insert.mp hmem with heq | hmem
      · exact hreplay request now code rfl hcode heq.symm
      · exact hlive hmem
    | _ => exact hlive

/-- A pair of tokens that is issued now, as the client reads it. -/
theorem Fresh.of_issue {s s' : Store} {draws : List Draw} {issued : Issued} {rest : List String}
    {answer : Except TokenError TokenResponse}
    (hissue : s.issueUserTokens S.client.clientId family st.clock.now (draws.map randomCredential) =
      some (issued, s', rest))
    (hlive : family ∉ s.revokedFamilies)
    (hlifetime : s.accessTokenLifetime = S.config.accessTokenLifetime) (hrange : InRange S st)
    (hreads : Reads S.fromSlice (unwrapOrElse S.D.toVec (.ok (Token.tokenResponse S.D issued
      S.config.accessTokenLifetime))) answer) :
    ∃ granted, answer = .ok granted ∧ s.Unused granted.accessToken ∧
      Fresh S family { st with store := s' } st.clock.now granted := by
  obtain ⟨access, refresh, rfl, haccess, -, -, rfl⟩ := issueUserTokens_spec hissue
  obtain ⟨draw, -, rfl⟩ := List.mem_map.mp (issueUserTokens_mem hissue).2
  refine ⟨_, hreads.tokenResponse, haccess, Nat.le_refl _, hrange.server, ?_, rfl, ?_,
    randomToken_ne_empty draw, S.sendable draw⟩
  · rw [← hlifetime]
    exact Finmap.lookup_insert _
  · exact ⟨_, refreshable_grant hlive, rfl⟩

/-- **A refresh is answered.** The current refresh token gets a new pair of tokens. -/
theorem Good.refresh {request : Request} {draws : List Draw} {response : Response}
    {answer : Except TokenError TokenResponse} (h : Good S family st tokens)
    (hlifetime : st.store.accessTokenLifetime = S.config.accessTokenLifetime)
    (hrange : InRange S st)
    (hrequest : PostsForm request (S.client.form (.refreshToken tokens.refreshToken)))
    (hserved : Token.handler S.D S.config st request draws = some (response, st'))
    (hreads : Reads S.fromSlice response answer) :
    ∃ granted, answer = .ok granted ∧ Fresh S family st' st.clock.now granted ∧
      Keeps S family st st' ∧ st'.clock = st.clock ∧
      granted.accessToken ≠ tokens.accessToken := by
  obtain ⟨entry, hentry, rfl⟩ := h.current
  obtain ⟨authenticated, hid, hadmitted⟩ := admitted_form S.registered hrequest h.sendable
  have hvalue : (Params.mk (S.client.form (.refreshToken tokens.refreshToken))).value
      "refresh_token" = some tokens.refreshToken := Params.value_of_occurrences rfl h.nonempty
  rw [Token.handler_of_admitted hadmitted] at hserved
  obtain ⟨⟨result, st₁⟩, hgrant, hunwrap⟩ := Option.map_eq_some_iff.mp hserved
  change Token.refreshToken S.D S.config st authenticated
    ⟨S.client.form (.refreshToken tokens.refreshToken)⟩ draws = _ at hgrant
  rw [Token.refreshToken, hvalue] at hgrant
  dsimp only at hgrant
  rw [hid] at hgrant
  obtain ⟨⟨outcome, s, rest⟩, hrefresh, hanswer⟩ := Option.map_eq_some_iff.mp hgrant
  have heffect := refresh_effect (H := S.D.toHashing) hrefresh
  rw [refresh_of_refreshable hentry] at hrefresh
  obtain ⟨⟨issued, s', rest'⟩, hissue, hout⟩ := Option.bind_eq_some_iff.mp hrefresh
  cases hout
  cases hanswer
  cases hunwrap
  obtain ⟨granted, rfl, hunused, hfresh⟩ :=
    Fresh.of_issue hissue hentry.2.2.2 hlifetime hrange hreads
  refine ⟨granted, rfl, hfresh, .of_effect heffect (by rintro _ _ _ ⟨⟩), rfl, fun heq => ?_⟩
  obtain ⟨expiresAt, hold, -⟩ := h.sound
  rw [← heq] at hold
  exact hunused.2.1 (Finmap.mem_of_lookup_eq_some hold)

/-- **A login is answered.** The exchange of a code that is redeemable starts a session. -/
theorem login_answered {request : Request} {draws : List Draw} {response : Response}
    {answer : Except TokenError TokenResponse} {code verifier redirect : String} {entry : AuthCode}
    (hcode : code ≠ "") (hverifier : verifier ≠ "") (hredirect : redirect ≠ "")
    (hredeem : st.store.Redeemable S.D.toHashing ⟨S.client.clientId, code, redirect, verifier⟩
      st.clock.now entry) (hlive : entry.family ∉ st.store.revokedFamilies)
    (hlifetime : st.store.accessTokenLifetime = S.config.accessTokenLifetime)
    (hrange : InRange S st)
    (hrequest : PostsForm request (S.client.form (.authorizationCode code verifier redirect)))
    (hlength : (FormUrlEncoded.serializeBytes
      (S.client.form (.authorizationCode code verifier redirect))).length ≤ Token.maxBodyBytes)
    (hserved : Token.handler S.D S.config st request draws = some (response, st'))
    (hreads : Reads S.fromSlice response answer) :
    ∃ granted, answer = .ok granted ∧ Fresh S entry.family st' st.clock.now granted ∧
      Keeps S entry.family st st' := by
  obtain ⟨authenticated, hid, hadmitted⟩ := admitted_form S.registered hrequest hlength
  have hvalue : (Params.mk (S.client.form (.authorizationCode code verifier redirect))).value
      "code" = some code := Params.value_of_occurrences rfl hcode
  have hvalue' : (Params.mk (S.client.form (.authorizationCode code verifier redirect))).value
      "redirect_uri" = some redirect := Params.value_of_occurrences rfl hredirect
  have hvalue'' : (Params.mk (S.client.form (.authorizationCode code verifier redirect))).value
      "code_verifier" = some verifier := Params.value_of_occurrences rfl hverifier
  rw [Token.handler_of_admitted hadmitted] at hserved
  obtain ⟨⟨result, st₁⟩, hgrant, hunwrap⟩ := Option.map_eq_some_iff.mp hserved
  change Token.authorizationCode S.D S.config st authenticated
    ⟨S.client.form (.authorizationCode code verifier redirect)⟩ draws = _ at hgrant
  rw [Token.authorizationCode, hvalue, hvalue', hvalue''] at hgrant
  dsimp only at hgrant
  rw [hid] at hgrant
  obtain ⟨⟨outcome, s, rest⟩, hredeemed, hanswer⟩ := Option.map_eq_some_iff.mp hgrant
  have heffect := redeemCode_effect hredeemed
  rw [redeemCode_of_redeemable hredeem] at hredeemed
  obtain ⟨⟨issued, s', rest'⟩, hissue, hout⟩ := Option.bind_eq_some_iff.mp hredeemed
  cases hout
  cases hanswer
  cases hunwrap
  obtain ⟨granted, rfl, -, hfresh⟩ := Fresh.of_issue hissue hlive hlifetime hrange hreads
  exact ⟨granted, rfl, hfresh, .of_effect heffect (by rintro _ _ _ ⟨⟩)⟩

/-! ## The others -/

/-- The operation neither replays a code of the family nor refreshes with its tokens. -/
structure Foreign (family : FamilyId) (s : Store) (e : Event) : Prop where
  code : ∀ request now result, e = .redeemCode request now result → ∀ entry,
    s.codes.lookup request.code = some entry → entry.family ≠ family
  token : ∀ clientId token now result, e = .refresh clientId token now result → ∀ entry,
    s.refreshTokens.lookup token = some entry → entry.family ≠ family

theorem current_of_effect {H : Pkce.Hashing} {e : Event} {s s' : Store} {clientId token : String}
    (h : Current clientId family s token) (hforeign : Foreign family s e)
    (heffect : Store.Effect H s e s') : Current clientId family s' token := by
  obtain ⟨entry, ⟨hlookup, hclient, hspent, hlive⟩, hfamily⟩ := h
  obtain ⟨spent, hlookup', -, hkept⟩ := heffect.lookup_refreshTokens hlookup
  have hspent' : spent = false := by
    rw [← hspent]
    apply hkept
    rintro clientId now issued rfl
    exact hforeign.token clientId token now _ rfl entry hlookup hfamily
  refine ⟨{ entry with spent }, ⟨hlookup', hclient, hspent', ?_⟩, hfamily⟩
  cases heffect with
  | @replayed request now code hcode =>
    intro hmem
    rcases Finset.mem_insert.mp hmem with heq | hmem
    · exact hforeign.code request now _ rfl code hcode.1 (heq.symm.trans hfamily)
    · exact hlive hmem
  | _ => exact hlive

/-- What a step of the mock leaves to the session. -/
structure Leaves (S : Setting) (family : FamilyId) (st st' : Guarded) : Prop where
  keeps : Keeps S family st st'
  current : ∀ token, Current S.client.clientId family st.store token →
    Current S.client.clientId family st'.store token

theorem Leaves.refl : Leaves S family st st :=
  ⟨⟨Nat.le_refl _, rfl, id, id⟩, fun _ => id⟩

theorem Leaves.of_effect {H : Pkce.Hashing} {e : Event} {s : Store}
    (hforeign : Foreign family st.store e) (h : Store.Effect H st.store e s) :
    Leaves S family st { st with store := s } where
  keeps := .of_effect h fun request now code he hcode =>
    hforeign.code request now _ he code hcode.1
  current _ hcurrent := current_of_effect hcurrent hforeign h

/-- Whatever the mock serves for others, the session is left alone. -/
theorem serves_leaves {call : Call} {reply : Concurrent.Reply}
    (h : Serves S.D S.config st call reply st')
    (hspares : ∀ request, call = .token request → Spares S family st request) :
    Leaves S family st st' := by
  cases h with
  | @authorize request draws response _ hhandler =>
    by_cases hmethod : request.method = .get ∨ request.method = .head
    · cases Authorize.handler_outcome S.reliable.urlParses S.valid hmethod hhandler with
      | refused | error => exact .refl
      | code _ _ _ hcode _ =>
        refine .of_effect ⟨?_, ?_⟩ (Store.Effect.issued (H := S.D.toHashing) hcode)
        · exact nofun
        · exact nofun
    · rw [not_or] at hmethod
      rw [Authorize.handler, Authorize.authorize, if_pos hmethod] at hhandler
      cases hhandler
      exact .refl
  | @token request draws response _ hhandler =>
    cases Token.handler_outcome hhandler with
    | refused => exact .refl
    | asked hadmitted hasks heffect _ =>
      obtain ⟨hcode, htoken⟩ := hspares request rfl _ _ hadmitted
      refine .of_effect ⟨?_, ?_⟩ heffect
      · rintro redemption now result rfl entry hentry
        cases hasks with
        | authorizationCode _ hpresented _ _ => exact hcode _ _ hpresented hentry
      · rintro clientId token now result rfl entry hentry
        cases hasks with
        | refreshToken _ hpresented => exact htoken _ _ hpresented hentry
  | elapsed | tokenInfo => exact .refl
  | setUserDecision => exact ⟨⟨Nat.le_refl _, rfl, id, id⟩, fun _ => id⟩
  | advanceClock =>
    exact ⟨⟨Duration.le_saturatingAdd _ _, rfl, id, id⟩, fun _ => id⟩

theorem Good.leaves (h : Good S family st tokens) (hleaves : Leaves S family st st') :
    Good S family st' tokens :=
  ⟨h.sound.keeps hleaves.keeps, hleaves.current _ h.current, h.nonempty, h.sendable⟩

theorem Fresh.leaves {t₀ : Duration} {response : TokenResponse}
    (h : Fresh S family st t₀ response) (hleaves : Leaves S family st st') :
    Fresh S family st' t₀ response where
  issued := Nat.le_trans h.issued hleaves.keeps.clock
  fits := h.fits
  accessToken := hleaves.keeps.accessTokens h.accessToken
  expiresIn := h.expiresIn
  current := hleaves.current _ h.current
  nonempty := h.nonempty
  sendable := h.sendable

/-! ## The invariant -/

/-- What a call promises of its token: the mock accepted it when the call looked at the clock
last, or it is another one than the rejected one. -/
def Kept (S : Setting) (seen : Option Guarded) : Asked → String → Prop
  | .valid, token => ∃ st info, seen = some st ∧ Server.tokenInfo st.toState token = some info ∧
      info.kind = .user ∧ info.clientId = S.client.clientId
  | .rejected rejected, token => token ≠ rejected

/-- Good tokens are stored. -/
def Stored (S : Setting) (family : FamilyId) (w : World ι) (tokens : Tokens) : Prop :=
  w.file = some tokens ∧ Good S family w.server tokens

/-- What holds of the shared state in each stage of a call. -/
def Local (S : Setting) (family : FamilyId) (w : World ι) (i : ι) (asked : Asked) : Stage → Prop
  | .begins => asked = .valid
  | .glanced tokens => asked = .valid ∧ Sound S family w.server tokens
  | .waits needs => needs = asked.needs
  | .holds needs => needs = asked.needs ∧ ∃ tokens, Stored S family w tokens
  | .loaded needs tokens => needs = asked.needs ∧ Stored S family w tokens
  | .keeps tokens => Stored S family w tokens ∧ Kept S (w.seen i) asked tokens.accessToken
  | .posts tokens | .awaits tokens =>
      Stored S family w tokens ∧ ∀ token, asked = .rejected token → tokens.accessToken = token
  | .answered _ response => ∃ t₀, w.answered i = some t₀ ∧ Fresh S family w.server t₀ response ∧
      ∀ token, asked = .rejected token → response.accessToken ≠ token
  | .stamped _ _ fresh => Good S family w.server fresh ∧ Kept S (w.seen i) asked fresh.accessToken
  | .saved fresh => Stored S family w fresh ∧ Kept S (w.seen i) asked fresh.accessToken
  | .done token => Kept S (w.seen i) asked token
  | _ => False

theorem Asked.stage_outside (asked : Asked) : ¬ Inside asked.stage := by
  cases asked <;> exact id

theorem Asked.begins {w : World ι} {i : ι} (asked : Asked) :
    Local S family w i asked asked.stage := by
  cases asked <;> exact rfl

structure Inv (S : Setting) (family : FamilyId) (calls : ι → Asked) (w : World ι)
    (g : ι → Stage) : Prop where
  inRange : InRange S w.server
  lifetime : w.server.store.accessTokenLifetime = S.config.accessTokenLifetime
  live : family ∉ w.server.store.revokedFamilies
  sound : ∃ tokens, w.file = some tokens ∧ Sound S family w.server tokens
  holder : ∀ i, Inside (g i) ↔ w.lock = some i
  free : w.lock = none → ∃ tokens, Stored S family w tokens
  tasks : ∀ i, Local S family w i (calls i) (g i)

variable {calls : ι → Asked} {w w' : World ι} {g : ι → Stage} {i : ι} {s : Stage} {asked : Asked}

/-! ## What a step leaves to the others -/

theorem Local.congr (h : Local S family w i asked s) (hfile : w'.file = w.file)
    (hserver : w'.server = w.server) (hseen : w'.seen i = w.seen i)
    (hanswered : w'.answered i = w.answered i) : Local S family w' i asked s := by
  have heq : Local S family w' i asked s = Local S family w i asked s := by
    cases s <;> simp only [Local, Stored, hfile, hserver, hseen, hanswered]
  rwa [heq]

/-- Outside the lock, a call only relies on what the store keeps. -/
theorem Local.outside (h : Local S family w i asked s) (hs : ¬ Inside s)
    (hkeeps : Keeps S family w.server w'.server) (hseen : w'.seen i = w.seen i) :
    Local S family w' i asked s := by
  cases s with
  | begins | waits => exact h
  | glanced tokens => exact ⟨h.1, h.2.keeps hkeeps⟩
  | done token =>
    show Kept S (w'.seen i) asked token
    rw [hseen]
    exact h
  | holds | loaded | keeps | posts | awaits | answered | overflows | stamped | saved | leaves =>
    exact absurd trivial hs
  | _ => exact h.elim

theorem Local.leaves (h : Local S family w i asked s) (hleaves : Leaves S family w.server st) :
    Local S family { w with server := st } i asked s := by
  have hstored : ∀ {tokens}, Stored S family w tokens →
      Stored S family { w with server := st } tokens :=
    fun hstored => ⟨hstored.1, hstored.2.leaves hleaves⟩
  cases s with
  | begins | waits | done => exact h
  | glanced tokens => exact ⟨h.1, h.2.keeps hleaves.keeps⟩
  | holds needs => exact ⟨h.1, h.2.imp fun _ => hstored⟩
  | loaded needs tokens => exact ⟨h.1, hstored h.2⟩
  | keeps | posts | awaits | saved => exact ⟨hstored h.1, h.2⟩
  | answered tokens response =>
    obtain ⟨t₀, hanswered, hfresh, hnot⟩ := h
    exact ⟨t₀, hanswered, hfresh.leaves hleaves, hnot⟩
  | stamped => exact ⟨h.1.leaves hleaves, h.2⟩
  | _ => exact h.elim

/-- **The others.** Whatever is served meanwhile keeps the invariant. -/
theorem Inv.meanwhile (h : Inv S family calls w g) (hmeanwhile : Meanwhile S family w w') :
    Inv S family calls w' g := by
  cases hmeanwhile with
  | serves hserves hspares hrange =>
    have hleaves := serves_leaves hserves hspares
    obtain ⟨tokens, hfile, hsound⟩ := h.sound
    exact ⟨hrange, hleaves.keeps.lifetime.trans h.lifetime, hleaves.keeps.live h.live,
      ⟨tokens, hfile, hsound.keeps hleaves.keeps⟩, h.holder,
      fun hfree => (h.free hfree).imp fun _ hstored => ⟨hstored.1, hstored.2.leaves hleaves⟩,
      fun i => (h.tasks i).leaves hleaves⟩

/-! ## What a step does -/

theorem Inv.alone (h : Inv S family calls w g) (hi : w.lock = none ∨ Inside (g i)) :
    ∀ j, j ≠ i → ¬ Inside (g j) := by
  intro j hj hinside
  have hlock := (h.holder j).mp hinside
  rcases hi with hnone | hi
  · rw [hnone] at hlock
    cases hlock
  · rw [(h.holder i).mp hi] at hlock
    exact hj (Option.some.inj hlock).symm

variable [DecidableEq ι]

/-- A call that has returned is followed by another one. -/
theorem Inv.again (h : Inv S family calls w g) (hi : ¬ Inside (g i)) (asked : Asked) :
    Inv S family (Function.update calls i asked) w (Function.update g i asked.stage) := by
  refine ⟨h.inRange, h.lifetime, h.live, h.sound, fun j => ?_, h.free, fun j => ?_⟩
  · rw [← h.holder]
    by_cases hj : j = i
    · subst hj
      rw [Function.update_self]
      exact ⟨fun hinside => absurd hinside asked.stage_outside, fun hinside => absurd hinside hi⟩
    · rw [Function.update_of_ne hj]
  · by_cases hj : j = i
    · subst hj
      rw [Function.update_self, Function.update_self]
      exact asked.begins
    · rw [Function.update_of_ne hj, Function.update_of_ne hj]
      exact h.tasks j

/-- A call goes on by itself. -/
theorem Inv.quiet (h : Inv S family calls w g) (hfile : w'.file = w.file)
    (hserver : w'.server = w.server) (hlock : w'.lock = w.lock)
    (hseen : ∀ j, j ≠ i → w'.seen j = w.seen j)
    (hanswered : ∀ j, j ≠ i → w'.answered j = w.answered j) (hinside : Inside s ↔ Inside (g i))
    (hlocal : Local S family w' i (calls i) s) :
    Inv S family calls w' (Function.update g i s) := by
  refine ⟨hserver ▸ h.inRange, hserver ▸ h.lifetime, hserver ▸ h.live, ?_, fun j => ?_, ?_,
    fun j => ?_⟩
  · rw [hfile, hserver]
    exact h.sound
  · rw [hlock]
    by_cases hj : j = i
    · subst hj
      rw [Function.update_self, hinside, h.holder]
    · rw [Function.update_of_ne hj, h.holder]
  · simp only [Stored, hlock, hfile, hserver]
    exact h.free
  · by_cases hj : j = i
    · subst hj
      rwa [Function.update_self]
    · rw [Function.update_of_ne hj]
      exact (h.tasks j).congr hfile hserver (hseen j hj) (hanswered j hj)

/-- A call changes the shared state, and no other call holds the lock. -/
theorem Inv.moves (h : Inv S family calls w g) (halone : ∀ j, j ≠ i → ¬ Inside (g j))
    (hkeeps : Keeps S family w.server w'.server) (hclock : w'.server.clock = w.server.clock)
    (hseen : w'.seen = w.seen) (hlock : ∀ j, w'.lock = some j ↔ j = i ∧ Inside s)
    (hsound : ∃ tokens, w'.file = some tokens ∧ Sound S family w'.server tokens)
    (hfree : w'.lock = none → ∃ tokens, Stored S family w' tokens)
    (hlocal : Local S family w' i (calls i) s) :
    Inv S family calls w' (Function.update g i s) := by
  refine ⟨⟨hclock ▸ h.inRange.server, hclock ▸ h.inRange.client⟩,
    hkeeps.lifetime.trans h.lifetime, hkeeps.live h.live, hsound, fun j => ?_, hfree, fun j => ?_⟩
  · rw [hlock]
    by_cases hj : j = i
    · subst hj
      simp
    · simp [hj, halone j hj]
  · by_cases hj : j = i
    · subst hj
      rwa [Function.update_self]
    · rw [Function.update_of_ne hj]
      exact (h.tasks j).outside (halone j hj) hkeeps (congrFun hseen j)

theorem Keeps.refl : Keeps S family st st := Leaves.refl.keeps

/-- The holder drops the lock, with the token it returns. -/
theorem Inv.unlocks {token : String} (h : Inv S family calls w g) (hi : Inside (g i))
    (hstored : Stored S family w tokens) (hkept : Kept S (w.seen i) (calls i) token) :
    Inv S family calls { w with lock := none } (Function.update g i (.done token)) :=
  h.moves (h.alone (.inr hi)) .refl rfl rfl (fun j => by simp [Inside]) h.sound
    (fun _ => ⟨tokens, hstored⟩) hkept

/-- The holder works on. -/
theorem Inv.works (h : Inv S family calls w g) (hi : Inside (g i)) (hs : Inside s)
    (hkeeps : Keeps S family w.server w'.server) (hclock : w'.server.clock = w.server.clock)
    (hseen : w'.seen = w.seen) (hlock : w'.lock = w.lock)
    (hsound : ∃ tokens, w'.file = some tokens ∧ Sound S family w'.server tokens)
    (hlocal : Local S family w' i (calls i) s) :
    Inv S family calls w' (Function.update g i s) := by
  have hheld : w'.lock = some i := hlock.trans ((h.holder i).mp hi)
  refine h.moves (h.alone (.inr hi)) hkeeps hclock hseen (fun j => ?_) hsound (fun hfree => ?_)
    hlocal
  · rw [hheld]
    simp [hs, @eq_comm _ i]
  · rw [hheld] at hfree
    cases hfree

variable {overflowChecks : Bool} {op : Op} {ans : Ans op}

theorem Effect.load_inv {ans : Except String (Option Tokens)} (h : Effect S i w .load ans w') :
    ans = .ok w.file ∧ w' = w := by
  cases h
  exact ⟨rfl, rfl⟩

theorem Effect.now_inv {t : UInt64} (h : Effect S i w .now t w') :
    t.toNat = S.secondsAt w.server.clock.now ∧
      (∀ t₀, w.answered i = some t₀ → InTime S t₀ w.server.clock.now) ∧
      w' = w.look i := by
  cases h with
  | now ht hprompt => exact ⟨ht, hprompt, rfl⟩

/-- A call looks at the clock. -/
theorem Inv.looks (h : Inv S family calls w g) (hinside : Inside s ↔ Inside (g i))
    (hlocal : Local S family (w.look i) i (calls i) s) :
    Inv S family calls (w.look i) (Function.update g i s) :=
  h.quiet rfl rfl rfl (fun _ hj => Function.update_of_ne hj ..)
    (fun _ hj => Function.update_of_ne hj ..) hinside hlocal

/-- What the call does not need to renew, it may return. -/
theorem Kept.of_fine {t : UInt64} {seen : ι → Option Guarded} (hsound : Sound S family st tokens)
    (hlive : family ∉ st.store.revokedFamilies) (ht : t.toNat = S.secondsAt st.clock.now)
    (hfine : asked.needs tokens t = false) :
    Kept S (Function.update seen i (some st) i) asked tokens.accessToken := by
  rw [Function.update_self]
  cases asked with
  | valid =>
    obtain ⟨info, hinfo⟩ := hsound.tokenInfo hlive ht hfine
    exact ⟨st, info, rfl, hinfo⟩
  | rejected token => exact beq_eq_false_iff_ne.mp hfine

/-- **Step lemma.** Whatever a call does keeps the invariant. -/
theorem Inv.step (h : Inv S family calls w g) (hexact : Exact overflowChecks (g i) op ans s)
    (heffect : Effect S i w op ans w') : Inv S family calls w' (Function.update g i s) := by
  have hlocal := h.tasks i
  have hquiet := @Inv.quiet ι S family calls w w' g i s _ h
  have hworks := @Inv.works ι S family calls w w' g i s _ h
  have hunlocks := @Inv.unlocks ι S family
  have hlooks := @Inv.looks ι S family calls w g i s _ h
  generalize hstage : g i = s₀ at hexact hlocal hquiet hworks hlooks
  cases hexact with
  | @stamp tokens fresh response t hfresh =>
    obtain ⟨ht, hprompt, rfl⟩ := heffect.now_inv
    obtain ⟨t₀, hanswered, hgranted, hnot⟩ := hlocal
    have hintime := hprompt t₀ hanswered
    refine hlooks Iff.rfl ⟨hgranted.good h.inRange hintime ht hfresh, ?_⟩
    show Kept S (Function.update w.seen i (some w.server) i) _ _
    rw [Function.update_self, (Tokens.fromResponse_eq_some hfresh).1]
    cases hasked : calls i with
    | valid =>
      obtain ⟨info, hinfo⟩ := hgranted.tokenInfo h.live hintime
      exact ⟨w.server, info, rfl, hinfo⟩
    | rejected token => exact hnot token hasked
  | @overflow tokens response t hnone =>
    obtain ⟨ht, -, rfl⟩ := heffect.now_inv
    obtain ⟨t₀, -, hgranted, -⟩ := hlocal
    have hfits := h.inRange.fits ht
    rw [← hgranted.expiresIn] at hfits
    rw [fromResponse_eq hfits] at hnone
    cases hnone
  | go hgo hnot =>
    cases hgo with
    | @glance tokens =>
      obtain ⟨hans, rfl⟩ := heffect.load_inv
      obtain ⟨stored, hfile, hsound⟩ := h.sound
      obtain rfl : tokens = stored := by
        rw [hfile] at hans
        exact Option.some.inj (Except.ok.inj hans)
      exact hquiet rfl rfl rfl (fun _ _ => rfl) (fun _ _ => rfl) Iff.rfl ⟨hlocal, hsound⟩
    | glanceMissing | loadMissing =>
      obtain ⟨hans, rfl⟩ := heffect.load_inv
      obtain ⟨stored, hfile, -⟩ := h.sound
      rw [hfile] at hans
      cases hans
    | @valid tokens t hvalid =>
      obtain ⟨ht, -, rfl⟩ := heffect.now_inv
      obtain ⟨hasked, hsound⟩ := hlocal
      refine hlooks Iff.rfl ?_
      have hfine : (calls i).needs tokens t = false := by rwa [hasked]
      exact Kept.of_fine hsound h.live ht hfine
    | @expired tokens t hexpired =>
      obtain ⟨-, -, rfl⟩ := heffect.now_inv
      refine hlooks Iff.rfl ?_
      show _ = (calls i).needs
      rw [hlocal.1]
      rfl
    | lock =>
      cases heffect with
      | lock hfree =>
        refine h.moves (h.alone (.inl hfree)) .refl rfl rfl (fun j => ?_) h.sound nofun
          ⟨hlocal, h.free hfree⟩
        simp [Inside, @eq_comm _ i]
    | @load needs tokens =>
      obtain ⟨hans, rfl⟩ := heffect.load_inv
      obtain ⟨hneeds, stored, hstored⟩ := hlocal
      obtain rfl : tokens = stored := by
        rw [hstored.1] at hans
        exact Option.some.inj (Except.ok.inj hans)
      exact hquiet rfl rfl rfl (fun _ _ => rfl) (fun _ _ => rfl) Iff.rfl ⟨hneeds, hstored⟩
    | @fine needs tokens t hfine =>
      obtain ⟨ht, -, rfl⟩ := heffect.now_inv
      obtain ⟨rfl, hstored⟩ := hlocal
      exact hlooks Iff.rfl ⟨hstored, Kept.of_fine hstored.2.sound h.live ht hfine⟩
    | @needed needs tokens t hneeded =>
      obtain ⟨-, -, rfl⟩ := heffect.now_inv
      obtain ⟨rfl, hstored⟩ := hlocal
      refine hlooks Iff.rfl ⟨hstored, fun token hasked => ?_⟩
      rw [hasked] at hneeded
      exact beq_iff_eq.mp hneeded
    | keep =>
      cases heffect
      exact hunlocks h (hstage ▸ trivial) hlocal.1 hlocal.2
    | post =>
      cases heffect
      exact hquiet rfl rfl rfl (fun _ _ => rfl) (fun _ _ => rfl) Iff.rfl hlocal
    | @answer tokens response =>
      cases heffect with
      | answer hrequest hserved hreads =>
        obtain ⟨⟨hfile, hgood⟩, hrejected⟩ := hlocal
        obtain ⟨granted, hok, hfresh, hkeeps, hclock, hne⟩ :=
          hgood.refresh h.lifetime h.inRange hrequest hserved hreads
        obtain rfl := Except.ok.inj hok
        refine hworks trivial trivial hkeeps hclock rfl rfl
          ⟨tokens, hfile, hgood.sound.keeps hkeeps⟩
          ⟨_, Function.update_self .., hfresh, fun token hasked => ?_⟩
        rw [← hrejected token hasked]
        exact hne
    | refused =>
      cases heffect with
      | answer hrequest hserved hreads =>
        obtain ⟨⟨hfile, hgood⟩, -⟩ := hlocal
        obtain ⟨granted, hok, -⟩ := hgood.refresh h.lifetime h.inRange hrequest hserved hreads
        cases hok
    | @save tokens fresh response hcarries =>
      cases heffect
      obtain ⟨hgood, hkept⟩ := hlocal
      exact hworks trivial trivial .refl rfl rfl rfl ⟨fresh, rfl, hgood.sound⟩
        ⟨⟨rfl, hgood⟩, hkept⟩
    | unlock =>
      cases heffect
      exact hunlocks h (hstage ▸ trivial) hlocal.1 hlocal.2
    | stamp | overflow => exact absurd rfl (hnot _ _)
    | leave | panic | postCode | exchange | refusedCode | stampLogin | overflowLogin | panicLogin
    | saveLogin | saveLoginError => exact hlocal.elim
    | glanceError | loadError | saveError => cases heffect

/-! ## The session -/

/-- The lock is free, and good tokens are stored. -/
structure Start (S : Setting) (family : FamilyId) (w : World ι) : Prop where
  inRange : InRange S w.server
  lifetime : w.server.store.accessTokenLifetime = S.config.accessTokenLifetime
  live : family ∉ w.server.store.revokedFamilies
  stored : ∃ tokens, Stored S family w tokens
  lock : w.lock = none

omit [DecidableEq ι] in
theorem Start.inv (h : Start S family w) : Inv S family calls w fun i => (calls i).stage := by
  obtain ⟨tokens, hfile, hgood⟩ := h.stored
  refine ⟨h.inRange, h.lifetime, h.live, ⟨tokens, hfile, hgood.sound⟩, fun i => ?_,
    fun _ => h.stored, fun i => ?_⟩
  · rw [h.lock]
    exact ⟨fun hinside => absurd hinside (calls i).stage_outside, nofun⟩
  · exact (calls i).begins

omit [DecidableEq ι] in
/-- The tokens of a login are stored, as `complete_login` does. -/
theorem Start.login {t₀ : Duration} {t : UInt64} {response : TokenResponse} {fresh : Tokens}
    (hfresh : Fresh S family st t₀ response) (hrange : InRange S st)
    (hlifetime : st.store.accessTokenLifetime = S.config.accessTokenLifetime)
    (hlive : family ∉ st.store.revokedFamilies) (hintime : InTime S t₀ st.clock.now)
    (ht : t.toNat = S.secondsAt st.clock.now)
    (hstamp : Tokens.fromResponse overflowChecks response t = some fresh)
    (answered : ι → Option Duration) (seen : ι → Option Guarded) :
    Start S family ⟨some fresh, none, st, answered, seen⟩ :=
  ⟨hrange, hlifetime, hlive, ⟨fresh, rfl, hfresh.good hrange hintime ht hstamp⟩, rfl⟩

/-- **A session lasts.** Any number of calls at once, with the mock serving others and its clock
going on: every call that returns returns a token, after at most ten steps. What `get_valid_token`
returns was accepted by the mock when the call looked at the clock last, and what
`refresh_after_unauthorized` returns is not what was rejected. Whenever the lock is free, the
session may start again. -/
theorem session_lasts {w₀ : World ι} (hstart : Start S family w₀) {tr : List (Option ι)}
    {p : Pool (World ι) ι Ans (Outcome String)}
    (hrun : Pool.Run (Effect S) (Meanwhile S family)
      ⟨w₀, fun i => (calls i).call overflowChecks⟩ tr p) :
    (∀ i out, p.tasks i = .ret out →
      ∃ token, out = .ok token ∧ Kept S (p.shared.seen i) (calls i) token) ∧
    (p.shared.lock = none → Start S family p.shared) ∧ ∀ i, tr.count (some i) ≤ 10 := by
  obtain ⟨g, hfollows, hinv⟩ := hrun.invariant (I := Inv S family calls)
    (fun i => (calls i).exact overflowChecks) hstart.inv
    (fun _ _ _ _ _ _ _ hI hexact heffect => hI.step hexact heffect)
    (fun _ _ _ hI hmeanwhile => hI.meanwhile hmeanwhile)
  refine ⟨fun i out hout => ?_, fun hfree => ?_, fun i => ?_⟩
  · have hgives := hfollows i
    have hlocal := hinv.tasks i
    rw [hout] at hgives
    generalize g i = s at hgives hlocal
    cases s with
    | done token => exact ⟨token, hgives, hlocal⟩
    | failed => exact hlocal.elim
    | _ => exact hgives.elim
  · exact ⟨hinv.inRange, hinv.lifetime, hinv.live, hinv.free hfree, hfree⟩
  · exact hrun.count_le ((calls i).tokenCall overflowChecks).within

/-! ## A session from its login on -/

/-- The refreshes of the client are all of one length. -/
theorem sendable_webTokenClient (draw : Draw) :
    Sendable webTokenClient (randomCredential draw) := by
  have hlength : (FormUrlEncoded.encodeText (randomCredential draw)).length = 43 := by
    rw [FormUrlEncoded.encodeText_of_isUnchanged (Authorize.plain_randomCredential draw)]
    exact length_randomToken draw
  have hpair : (FormUrlEncoded.encodePair ("refresh_token", randomCredential draw)).length =
      (FormUrlEncoded.encodeText "refresh_token").length + 44 := by
    rw [FormUrlEncoded.encodePair, List.length_append, List.length_cons, hlength]
  have hconst : (FormUrlEncoded.encodePair ("grant_type", "refresh_token")).length +
      (FormUrlEncoded.encodePair ("client_id", "web")).length +
      (FormUrlEncoded.encodePair ("client_secret", "secret")).length +
      (FormUrlEncoded.encodeText "refresh_token").length ≤ 1000 := by decide +kernel
  show (FormUrlEncoded.serializeBytes [("grant_type", "refresh_token"), ("client_id", "web"),
    ("client_secret", "secret"), ("refresh_token", randomCredential draw)]).length ≤ 65536
  simp only [FormUrlEncoded.serializeBytes_cons, FormUrlEncoded.serializeBytes_singleton,
    List.length_append, List.length_cons]
  omega

def webSetting : Setting where
  D := callbackDeps
  fromSlice := Json.fromSlice
  config := callbackConfig
  client := webTokenClient
  port := 8888
  origin := 0
  reliable := reliable_callbackDeps
  registered := registered_webTokenClient
  sendable := sendable_webTokenClient

/-- A code of the client was issued a minute ago. -/
def codeIssued : Guarded := ⟨⟨⟨minute⟩, codeStore⟩, .approve⟩

/-- The request that exchanges it. -/
def codeForm : List (String × String) :=
  webTokenClient.form (.authorizationCode "code" "dBjftJeZ4CVP-mB92K27uhbUJU1p1r_wW1gFWFOEjXk"
    "http://127.0.0.1/callback")

theorem redeemable_codeIssued : codeIssued.store.Redeemable callbackDeps.toHashing loginRequest
    codeIssued.clock.now loginCode :=
  ⟨Finmap.lookup_insert _, rfl, rfl, by decide, rfl, by decide +kernel⟩

/-- What a call asks for and gets when it renews the tokens. -/
def renewal (tokens fresh : Tokens) (response : TokenResponse) (t : UInt64) : List (Sigma Ans) :=
  [⟨.load, .ok (some tokens)⟩, ⟨.now, t⟩, ⟨.lock, ()⟩, ⟨.load, .ok (some tokens)⟩, ⟨.now, t⟩,
    ⟨.post (.refreshToken tokens.refreshToken), ()⟩,
    ⟨.answer (.refreshToken tokens.refreshToken), .ok response⟩, ⟨.now, t⟩, ⟨.save fresh, .ok ()⟩,
    ⟨.unlock, ()⟩]

theorem steps_renewal {fresh : Tokens} {response : TokenResponse} {t : UInt64}
    (hexpired : tokens.isExpired t = true)
    (hfresh : Tokens.fromResponse overflowChecks response t = some fresh) :
    Prog.Steps (getValidToken overflowChecks) (renewal tokens fresh response t)
      (.ret (.ok fresh.accessToken)) := by
  refine .cons (.cons ?_)
  simp only [Prog.ret_bind, hexpired, Bool.not_true, Bool.false_eq_true, if_false]
  refine .cons (.cons (.cons ?_))
  simp only [Prog.ret_bind, hexpired, Bool.not_true, Bool.false_eq_true, if_false]
  refine .cons (.cons (.cons ?_))
  simp only [Prog.ret_bind, hfresh]
  exact .cons (.cons (.nil _))

/-- The stamp of a response that was read in the `t`th second. -/
def stamped (response : TokenResponse) (t : UInt64) : Tokens :=
  ⟨response.accessToken, response.refreshToken,
    t + saturatingSub response.expiresIn expiryMarginSecs⟩

theorem store_later (st : Guarded) (advance : Duration) : (later st advance).store = st.store := rfl

/-- The login that takes no time. -/
structure LoggedIn (st : Guarded) (granted : TokenResponse) : Prop where
  clock : st.clock = ⟨minute⟩
  fresh : Fresh webSetting loginCode.family st minute granted
  lifetime : st.store.accessTokenLifetime = webSetting.config.accessTokenLifetime
  live : loginCode.family ∉ st.store.revokedFamilies
  supplies : st.store.Supplies ([repeated 4, repeated 5].map randomCredential)

theorem exists_loggedIn : ∃ st granted, LoggedIn st granted := by
  have hsupplies : codeIssued.store.Supplies ([repeated 2, repeated 3].map randomCredential) :=
    ⟨_, List.mem_cons_self, _, List.mem_cons_of_mem _ (List.mem_singleton_self _),
      by decide +kernel, by decide +kernel, by decide +kernel⟩
  have hlength : (FormUrlEncoded.serializeBytes codeForm).length ≤ Token.maxBodyBytes := by
    decide +kernel
  obtain ⟨response, read, st, hserved, hgranted, -, hlifetime, huses⟩ :=
    exchange_granted reliable_callbackDeps registered_webTokenClient (by decide) (by decide)
      (by decide) redeemable_codeIssued (Finset.notMem_empty _) rfl (by decide)
      (postsForm_formPost codeForm) hlength hsupplies
  obtain ⟨granted, -, hfresh, hkeeps⟩ :=
    login_answered (S := webSetting) (by decide) (by decide) (by decide) redeemable_codeIssued
      (Finset.notMem_empty _) rfl ⟨by decide, by decide⟩ (postsForm_formPost codeForm) hlength
      hserved (.ok hgranted.status hgranted.json)
  have hclock : st.clock = ⟨minute⟩ := by
    rcases Token.handler_moves hserved with rfl | ⟨_, _, _, _, rfl⟩ <;> rfl
  refine ⟨st, granted, hclock, hfresh, hlifetime, hkeeps.live (Finset.notMem_empty _), ?_⟩
  exact ⟨_, List.mem_cons_self, _, List.mem_cons_of_mem _ (List.mem_singleton_self _),
    by decide +kernel, huses _ (by decide +kernel) (by decide +kernel),
    huses _ (by decide +kernel) (by decide +kernel)⟩

section

variable {granted read : TokenResponse} {t : UInt64}

/-- The stamp is one that `from_response` makes. -/
theorem fromResponse_stamped {t₀ : Duration} (hfresh : Fresh webSetting family st t₀ read)
    (ht : t.toNat + (saturatingSub webSetting.config.accessTokenLifetime.asSecs
      expiryMarginSecs).toNat < UInt64.size) :
    Tokens.fromResponse overflowChecks read t = some (stamped read t) := by
  rw [← hfresh.expiresIn] at ht
  exact fromResponse_eq ht

omit [DecidableEq ι] in
/-- A minute after the mock was spawned, the tokens of the login are stored. -/
theorem LoggedIn.start (h : LoggedIn st granted) : Start webSetting loginCode.family
    (⟨some (stamped granted 60), none, st, fun _ => none, fun _ => none⟩ : World ι) := by
  have hrange : InRange webSetting st := by
    constructor <;> rw [h.clock] <;> decide
  have hintime : InTime webSetting minute st.clock.now := by
    constructor <;> rw [h.clock] <;> decide
  have hstamped : Tokens.fromResponse true granted 60 = some (stamped granted 60) :=
    fromResponse_stamped h.fresh (by decide)
  exact .login (t := 60) h.fresh hrange h.lifetime h.live hintime (by rw [h.clock]; rfl) hstamped
    _ _

/-- Later the tokens can still be renewed. -/
theorem LoggedIn.renewed (h : LoggedIn st granted) (hstore : st'.store = st.store)
    (hgood : Good webSetting loginCode.family st' (stamped granted 60))
    (hrange : InRange webSetting st') :
    ∃ response read st₂, Token.handler webSetting.D webSetting.config st'
        (formPost (webTokenClient.form (.refreshToken granted.refreshToken)))
        [repeated 4, repeated 5] = some (response, st₂) ∧
      Reads webSetting.fromSlice response (.ok read) ∧
      Fresh webSetting loginCode.family st₂ st'.clock.now read ∧ st₂.clock = st'.clock := by
  obtain ⟨entry, hentry, -⟩ := hgood.current
  have hlifetime : st'.store.accessTokenLifetime = webSetting.config.accessTokenLifetime := by
    rw [hstore]
    exact h.lifetime
  have hsupplies : st'.store.Supplies ([repeated 4, repeated 5].map randomCredential) := by
    rw [hstore]
    exact h.supplies
  obtain ⟨response, read, st₂, hserved, hgranted, -⟩ :=
    refresh_granted (D := callbackDeps) reliable_callbackDeps registered_webTokenClient
      ⟨hgood.nonempty, entry, hentry⟩ hlifetime hrange.server (postsForm_formPost _)
      hgood.sendable hsupplies
  have hreads : Reads Json.fromSlice response (.ok read) := .ok hgranted.status hgranted.json
  obtain ⟨_, hok, hfresh, -, hclock, -⟩ := hgood.refresh hlifetime hrange
    (postsForm_formPost _) hserved hreads
  cases hok
  exact ⟨response, read, st₂, hserved, hreads, hfresh, hclock⟩

theorem LoggedIn.isExpired (h : LoggedIn st granted) :
    (stamped granted 60).isExpired t = decide (3600 ≤ t) := by
  have hsum : 60 + saturatingSub webSetting.config.accessTokenLifetime.asSecs expiryMarginSecs =
      (3600 : UInt64) := by decide +kernel
  rw [Tokens.isExpired, stamped, h.fresh.expiresIn, hsum]

end

/-- The login takes no time; an hour later the token has expired, and the call renews it. -/
theorem session_lasts_renewed : ∃ (w₀ : World Unit) (tr : List (Option Unit))
    (p : Pool (World Unit) Unit Ans (Outcome String)) (token : String) (st : Guarded)
    (info : TokenInfo),
    Pool.Run (Effect webSetting) (Meanwhile webSetting loginCode.family)
      ⟨w₀, fun _ => Asked.valid.call true⟩ tr p ∧
    p.tasks () = .ret (.ok token) ∧ p.shared.seen () = some st ∧
      Server.tokenInfo st.toState token = some info ∧ info.clientId = "web" := by
  obtain ⟨st₁, granted, h₁⟩ := exists_loggedIn
  have hstart := h₁.start (ι := Unit)
  -- an hour later
  have hclock : (later st₁ hour).clock = ⟨.fromSecs 3660⟩ := by
    show st₁.clock.advance hour = _
    rw [h₁.clock]
    rfl
  have hrange : InRange webSetting (later st₁ hour) := by
    constructor <;> rw [hclock] <;> decide
  have hadvance : Serves callbackDeps callbackConfig st₁ (.advanceClock hour) .done
    (later st₁ hour) := .advanceClock
  obtain ⟨_, ⟨⟩, hgood⟩ := hstart.stored
  obtain ⟨response, read, st₂, hserved, hreads, hfresh, hclock₂⟩ := h₁.renewed (store_later _ _)
    (hgood.leaves (serves_leaves (S := webSetting) hadvance nofun)) hrange
  have hnow : (3660 : UInt64).toNat = webSetting.secondsAt (later st₁ hour).clock.now := by
    rw [hclock]
    decide
  have hnow₂ : (3660 : UInt64).toNat = webSetting.secondsAt st₂.clock.now := by
    rw [hclock₂]
    exact hnow
  have hintime : InTime webSetting (later st₁ hour).clock.now st₂.clock.now := by
    rw [hclock₂]
    constructor <;> rw [hclock] <;> decide
  -- the call
  let p₀ : Pool (World Unit) Unit Ans (Outcome String) :=
    ⟨⟨some (stamped granted 60), none, st₁, fun _ => none, fun _ => none⟩,
      fun _ => Asked.valid.call true⟩
  have hrun₀ : Pool.Run (Effect webSetting) (Meanwhile webSetting loginCode.family) p₀ [] p₀ :=
    .start
  have hrun₁ := hrun₀.step (.env (.serves hadvance nofun hrange))
  obtain ⟨tr, hrun⟩ := hrun₁.alone (i := ()) (steps_renewal (h₁.isExpired.trans (by decide))
      (fromResponse_stamped hfresh (by decide))) <|
    .cons .load <| .cons (.now hnow nofun) <| .cons (.lock rfl) <| .cons .load <|
    .cons (.now hnow nofun) <| .cons .post <|
    .cons (.answer (postsForm_formPost _) hserved hreads) <|
    .cons (.now hnow₂ fun t₀ ht₀ => Option.some.inj ht₀ ▸ hintime) <| .cons .save <|
    .cons .unlock .nil
  obtain ⟨token, hout, st, info, hseen, hinfo, -, hclient⟩ :=
    (session_lasts hstart hrun).1 () _ rfl
  obtain rfl := Outcome.ok.inj hout
  exact ⟨_, tr, _, _, st, info, hrun, rfl, hseen, hinfo, hclient⟩

end Rsc.EndToEnd.LongSession

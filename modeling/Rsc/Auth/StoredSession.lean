import Rsc.Auth.Client
import Rsc.Auth.Protocol
import Rsc.Auth.TokenStore
import Rsc.Auth.Ways

/-!
One call alone against any answer of the token endpoint. A call that fails leaves the stored
session as it was, unless storing failed; the file is replaced by nothing but the pair of a
successful answer, and only a refused refresh is a logout.
-/

namespace Rsc.Auth

open Rsc.Library

/-- The token file, as `fs::read` gives it, and what was sent to the token endpoint and came
back. -/
structure Session where
  file : Except TokenStore.IoError (List UInt8)
  requests : List TokenRequest
  replies : List Reply

variable {store : TokenStore} {codec : TokenStore.Codec} {decoder : Decoder}

/-- The effects of a call alone. A save is atomic; one that fails may have replaced the file
or not. No sum overflows. -/
inductive Alone (store : TokenStore) (codec : TokenStore.Codec) (decoder : Decoder)
    (s : Session) : (op : Op) → Ans op → Session → Prop
  | load : Alone store codec decoder s .load (store.load codec s.file) s
  | save {tokens : Tokens} : Alone store codec decoder s (.save tokens) (.ok ())
      { s with file := .ok (codec.toVecPretty tokens) }
  | saveError {tokens : Tokens} (err : String) (file : Except TokenStore.IoError (List UInt8))
      (h : file = s.file ∨ file = .ok (codec.toVecPretty tokens)) :
      Alone store codec decoder s (.save tokens) (.error err) { s with file := file }
  | now (t : UInt64) : Alone store codec decoder s .now t s
  | lock : Alone store codec decoder s .lock () s
  | unlock : Alone store codec decoder s .unlock () s
  | post {request : TokenRequest} : Alone store codec decoder s (.post request) ()
      { s with requests := request :: s.requests }
  | answer {request : TokenRequest} (reply : Reply) :
      Alone store codec decoder s (.answer request) (reply.receive decoder)
        { s with replies := reply :: s.replies }

/-- Before the call. -/
def Session.start (file : Except TokenStore.IoError (List UInt8)) : Session := ⟨file, [], []⟩

/-- The call asks for what the trace says, gets it, and takes the session to another. -/
def RunsAlone (store : TokenStore) (codec : TokenStore.Codec) (decoder : Decoder) {α : Type}
    (call : Call α) (file : Except TokenStore.IoError (List UInt8)) (out : Outcome α)
    (s : Session) : Prop :=
  ∃ tr, Prog.Exec (fun _ _ => True) call tr out ∧
    Prog.Along (Alone store codec decoder) (.start file) tr s

/-- The file holds the pair of a successful answer. -/
def Replaced (codec : TokenStore.Codec) (decoder : Decoder) (s : Session) : Prop :=
  ∃ status body response tokens, s.replies = [.http status body] ∧ isSuccess status = true ∧
    decoder.tokenResponse body = .ok response ∧ tokens.accessToken = response.accessToken ∧
    tokens.refreshToken = response.refreshToken ∧ s.file = .ok (codec.toVecPretty tokens)

/-- A failure leaves the file as it was unless storing failed, and nothing but the pair of a
successful answer replaces it. -/
structure Undamaged (codec : TokenStore.Codec) (decoder : Decoder)
    (file : Except TokenStore.IoError (List UInt8)) {α : Type} (out : Outcome α) (s : Session) :
    Prop where
  failed : ∀ e, out = .err e → (∀ message, e ≠ .storage message) → s.file = file
  replaced : s.file ≠ file → Replaced codec decoder s

/-- The server refused the only request with `invalid_grant`. -/
def Refused (decoder : Decoder) (s : Session) : Prop :=
  ∃ status body, s.replies = [.http status body] ∧ isSuccess status = false ∧
    SaysInvalidGrant decoder body

variable {α : Type} {file : Except TokenStore.IoError (List UInt8)} {out : Outcome α}
  {s s' : Session} {overflowChecks : Bool} {tr : List (Sigma Ans)}

theorem load_eq_none : store.load codec file = .ok none ↔ file = .error .notFound := by
  cases file with
  | ok bytes =>
    rw [TokenStore.load]
    cases codec.fromSlice bytes <;> simp
  | error err => cases err <;> simp [TokenStore.load]

theorem Alone.load_inv {ans : Ans .load} (h : Alone store codec decoder s .load ans s') :
    s' = s ∧ ans = store.load codec s.file := by
  cases h
  exact ⟨rfl, rfl⟩

theorem Alone.answer_inv {request : TokenRequest} {ans : Ans (.answer request)}
    (h : Alone store codec decoder s (.answer request) ans s') :
    ∃ reply, ans = reply.receive decoder ∧ s' = { s with replies := reply :: s.replies } := by
  cases h with
  | answer reply => exact ⟨reply, rfl, rfl⟩

/-- What becomes of the file once a successful answer is there. -/
theorem StoreWay.session {response : TokenResponse} {out : Outcome Tokens}
    (h : StoreWay overflowChecks response tr out)
    (hrun : Prog.Along (Alone store codec decoder) s tr s') :
    s'.requests = s.requests ∧ s'.replies = s.replies ∧ (∀ e, out = .err e → ∃ m, e = .storage m) ∧
      (s'.file = s.file ∨ ∃ tokens, s'.file = .ok (codec.toVecPretty tokens) ∧
        tokens.accessToken = response.accessToken ∧
        tokens.refreshToken = response.refreshToken) := by
  cases h with
  | overflowed =>
    obtain ⟨_, hnow, hrun⟩ := hrun.cons_inv
    obtain ⟨_, hoverflow, -⟩ := hrun.cons_inv
    cases hoverflow
  | @unsaved _ fresh err hfresh =>
    obtain ⟨_, hnow, hrun⟩ := hrun.cons_inv
    obtain ⟨_, hsave, hrun⟩ := hrun.cons_inv
    obtain rfl := hrun.nil_inv
    cases hnow
    cases hsave with
    | saveError _ file hfile =>
      refine ⟨rfl, rfl, fun e he => ⟨err, by cases he; rfl⟩, ?_⟩
      rcases hfile with rfl | rfl
      · exact .inl rfl
      · exact .inr ⟨fresh, rfl, Tokens.fromResponse_eq_some hfresh⟩
  | @saved _ fresh hfresh =>
    obtain ⟨_, hnow, hrun⟩ := hrun.cons_inv
    obtain ⟨_, hsave, hrun⟩ := hrun.cons_inv
    obtain rfl := hrun.nil_inv
    cases hnow
    cases hsave
    exact ⟨rfl, rfl, nofun, .inr ⟨fresh, rfl, Tokens.fromResponse_eq_some hfresh⟩⟩

/-- The first request and its answer, and what is stored of it. -/
theorem StoreWay.undamaged {β : Type} {f : Tokens → β} {response : TokenResponse}
    {out : Outcome Tokens} {status : UInt16} {body : String}
    (h : StoreWay overflowChecks response tr out) (hfile : s.file = file)
    (hreplies : s.replies = [.http status body]) (hsuccess : isSuccess status = true)
    (hdecode : decoder.tokenResponse body = .ok response)
    (hrun : Prog.Along (Alone store codec decoder) s tr s') :
    Undamaged codec decoder file (out.map f) s' := by
  obtain ⟨-, hreplies', herr, hstored⟩ := h.session hrun
  refine ⟨fun e he hne => ?_, fun hchanged => ?_⟩
  · cases out with
    | ok | panicked => cases he
    | err e' =>
      cases he
      obtain ⟨message, rfl⟩ := herr _ rfl
      exact absurd rfl (hne message)
  · rcases hstored with hsame | ⟨tokens, hnew, haccess, hrefresh⟩
    · exact absurd (hsame.trans hfile) hchanged
    · exact ⟨status, body, response, tokens, hreplies'.trans hreplies, hsuccess, hdecode, haccess,
        hrefresh, hnew⟩

/-- What a call for a token does to the session. -/
structure Spec (store : TokenStore) (codec : TokenStore.Codec) (decoder : Decoder)
    (file : Except TokenStore.IoError (List UInt8)) (out : Outcome String) (s : Session) : Prop where
  undamaged : Undamaged codec decoder file out s
  sessionExpired : out = .err .sessionExpired ↔ Refused decoder s
  notLoggedIn : out = .err .notLoggedIn ↔ file = .error .notFound
  unasked : out = .err .notLoggedIn → s.requests = []

/-- A call that does nothing to the session. -/
theorem Spec.untouched {out : Outcome String} (hexpired : out ≠ .err .sessionExpired)
    (hmissing : out = .err .notLoggedIn ↔ file = .error .notFound) :
    Spec store codec decoder file out (.start file) where
  undamaged := ⟨fun _ _ _ => rfl, fun h => absurd rfl h⟩
  sessionExpired := iff_of_false hexpired fun ⟨_, _, hreplies, _⟩ => nomatch hreplies
  notLoggedIn := hmissing
  unasked _ := rfl

/-- The tokens were loaded, so the file is there. -/
theorem ne_notFound {tokens : Tokens} (h : .ok (some tokens) = store.load codec file) :
    file ≠ .error .notFound := by
  intro hmissing
  rw [load_eq_none.mpr hmissing] at h
  cases h

theorem refusal_eq_sessionExpired {err : TokenError} :
    refusal err = .sessionExpired ↔ err = .invalidGrant := by
  cases err <;> simp [refusal]

theorem refused_iff {reply : Reply} (h : s.replies = [reply]) :
    Refused decoder s ↔ reply.receive decoder = .error .invalidGrant := by
  rw [receive_eq_invalidGrant, Refused, h]
  simp

theorem Outcome.map_eq_err {β γ : Type} {f : β → γ} {out : Outcome β} {e : AuthError} :
    out.map f = .err e ↔ out = .err e := by
  cases out <;> simp [Outcome.map]

/-- A refresh that failed at the server. -/
theorem Spec.refused {err : TokenError} {requests : List TokenRequest} {reply : Reply}
    (hreceive : reply.receive decoder = .error err) (hfile : file ≠ .error .notFound) :
    Spec store codec decoder file (.err (refusal err)) ⟨file, requests, [reply]⟩ where
  undamaged := ⟨fun _ _ _ => rfl, fun h => absurd rfl h⟩
  sessionExpired := by
    rw [refused_iff rfl, hreceive, Outcome.err.injEq, refusal_eq_sessionExpired, Except.error.injEq]
  notLoggedIn := iff_of_false (by cases err <;> exact nofun) hfile
  unasked h := by cases err <;> cases h

/-- A refresh that the server granted. -/
theorem Spec.answered {response : TokenResponse} {stored : Outcome Tokens} {reply : Reply}
    (hstore : StoreWay overflowChecks response tr stored) (hfile : file ≠ .error .notFound)
    (hsession : s.file = file ∧ s.replies = [reply])
    (hreceive : reply.receive decoder = .ok response)
    (hrun : Prog.Along (Alone store codec decoder) s tr s') :
    Spec store codec decoder file (stored.map (·.accessToken)) s' := by
  obtain ⟨-, hreplies, herr, -⟩ := hstore.session hrun
  have hfails : ∀ e, (∀ m, e ≠ .storage m) → stored.map (·.accessToken) ≠ .err e := by
    intro e he hmap
    obtain ⟨m, rfl⟩ := herr e (Outcome.map_eq_err.mp hmap)
    exact he m rfl
  obtain ⟨status, body, rfl, hsuccess, hdecode⟩ := receive_eq_ok.mp hreceive
  refine ⟨hstore.undamaged hsession.1 hsession.2 hsuccess hdecode hrun, ?_, ?_, ?_⟩
  · rw [refused_iff (hreplies.trans hsession.2), hreceive]
    exact iff_of_false (hfails _ nofun) nofun
  · exact iff_of_false (hfails _ nofun) hfile
  · exact fun h => absurd h (hfails _ nofun)

theorem LockedWay.spec {needs : Tokens → UInt64 → Bool} {out : Outcome String}
    (h : LockedWay overflowChecks needs tr out)
    (hrun : Prog.Along (Alone store codec decoder) (.start file) tr s) :
    Spec store codec decoder file out s := by
  cases h with
  | missing =>
    obtain ⟨_, hload, hrun⟩ := hrun.cons_inv
    obtain rfl := hrun.nil_inv
    obtain ⟨rfl, hans⟩ := hload.load_inv
    exact .untouched nofun (iff_of_true rfl (load_eq_none.mp hans.symm))
  | unreadable =>
    obtain ⟨_, hload, hrun⟩ := hrun.cons_inv
    obtain rfl := hrun.nil_inv
    obtain ⟨rfl, hans⟩ := hload.load_inv
    refine .untouched nofun (iff_of_false nofun fun hmissing => ?_)
    rw [show (Session.start file).file = file from rfl, load_eq_none.mpr hmissing] at hans
    cases hans
  | fine hneeds =>
    obtain ⟨_, hload, hrun⟩ := hrun.cons_inv
    obtain ⟨_, hnow, hrun⟩ := hrun.cons_inv
    obtain rfl := hrun.nil_inv
    obtain ⟨rfl, hans⟩ := hload.load_inv
    cases hnow
    exact .untouched nofun (iff_of_false nofun (ne_notFound hans))
  | refused hneeds =>
    obtain ⟨_, hload, hrun⟩ := hrun.cons_inv
    obtain ⟨_, hnow, hrun⟩ := hrun.cons_inv
    obtain ⟨_, hpost, hrun⟩ := hrun.cons_inv
    obtain ⟨_, hanswer, hrun⟩ := hrun.cons_inv
    obtain rfl := hrun.nil_inv
    obtain ⟨rfl, hans⟩ := hload.load_inv
    cases hnow
    cases hpost
    obtain ⟨reply, hreceive, rfl⟩ := hanswer.answer_inv
    exact .refused hreceive.symm (ne_notFound hans)
  | answered hneeds hstore =>
    obtain ⟨_, hload, hrun⟩ := hrun.cons_inv
    obtain ⟨_, hnow, hrun⟩ := hrun.cons_inv
    obtain ⟨_, hpost, hrun⟩ := hrun.cons_inv
    obtain ⟨_, hanswer, hrun⟩ := hrun.cons_inv
    obtain ⟨rfl, hans⟩ := hload.load_inv
    cases hnow
    cases hpost
    obtain ⟨reply, hreceive, rfl⟩ := hanswer.answer_inv
    exact .answered hstore (ne_notFound hans) ⟨rfl, rfl⟩ hreceive.symm hrun

theorem RefreshWay.spec {needs : Tokens → UInt64 → Bool} {out : Outcome String}
    (h : RefreshWay overflowChecks needs tr out)
    (hrun : Prog.Along (Alone store codec decoder) (.start file) tr s) :
    Spec store codec decoder file out s := by
  cases h with
  | locked hlocked =>
    obtain ⟨_, hlock, hrun⟩ := hrun.cons_inv
    obtain ⟨_, hrun, hunlock⟩ := hrun.append_inv
    obtain ⟨_, hunlock, hrun'⟩ := hunlock.cons_inv
    obtain rfl := hrun'.nil_inv
    cases hlock
    cases hunlock
    exact hlocked.spec hrun

theorem ValidWay.spec {out : Outcome String} (h : ValidWay overflowChecks tr out)
    (hrun : Prog.Along (Alone store codec decoder) (.start file) tr s) :
    Spec store codec decoder file out s := by
  cases h with
  | missing =>
    exact (LockedWay.missing : LockedWay overflowChecks (fun _ _ => true) _ _).spec hrun
  | unreadable =>
    exact (LockedWay.unreadable : LockedWay overflowChecks (fun _ _ => true) _ _).spec hrun
  | valid hvalid =>
    exact (LockedWay.fine hvalid : LockedWay overflowChecks Tokens.isExpired _ _).spec hrun
  | expired hexpired hrefresh =>
    obtain ⟨_, hload, hrun⟩ := hrun.cons_inv
    obtain ⟨_, hnow, hrun⟩ := hrun.cons_inv
    obtain ⟨rfl, -⟩ := hload.load_inv
    cases hnow
    exact hrefresh.spec hrun

theorem LoginWay.undamaged {request : TokenRequest} {out : Outcome Unit}
    (h : LoginWay overflowChecks request tr out)
    (hrun : Prog.Along (Alone store codec decoder) (.start file) tr s) :
    Undamaged codec decoder file out s ∧ out ≠ .err .sessionExpired ∧ out ≠ .err .notLoggedIn := by
  cases h with
  | refused =>
    obtain ⟨_, hpost, hrun⟩ := hrun.cons_inv
    obtain ⟨_, hanswer, hrun⟩ := hrun.cons_inv
    obtain rfl := hrun.nil_inv
    cases hpost
    obtain ⟨reply, hreceive, rfl⟩ := hanswer.answer_inv
    exact ⟨⟨fun _ _ _ => rfl, fun h => absurd rfl h⟩, nofun, nofun⟩
  | answered hstore =>
    obtain ⟨_, hpost, hrun⟩ := hrun.cons_inv
    obtain ⟨_, hanswer, hrun⟩ := hrun.cons_inv
    cases hpost
    obtain ⟨reply, hreceive, rfl⟩ := hanswer.answer_inv
    obtain ⟨status, body, rfl, hsuccess, hdecode⟩ := receive_eq_ok.mp hreceive.symm
    obtain ⟨-, -, herr, -⟩ := hstore.session hrun
    refine ⟨hstore.undamaged rfl rfl hsuccess hdecode hrun, ?_, ?_⟩
    · intro hmap
      obtain ⟨m, hm⟩ := herr _ (Outcome.map_eq_err.mp hmap)
      cases hm
    · intro hmap
      obtain ⟨m, hm⟩ := herr _ (Outcome.map_eq_err.mp hmap)
      cases hm

theorem TokenCall.spec {call : Call String} {out : Outcome String}
    (hcall : TokenCall overflowChecks call)
    (h : RunsAlone store codec decoder call file out s) : Spec store codec decoder file out s := by
  obtain ⟨tr, hexec, hrun⟩ := h
  obtain rfl | ⟨rejected, rfl⟩ := hcall
  · exact (validWay_of_exec hexec).spec hrun
  · exact (refreshWay_of_exec hexec).spec hrun

/-- A call alone fails without damage to the stored session, whatever the server answers. The
file is replaced by nothing but the pair of a successful answer. A call for a token returns
`SessionExpired` for `invalid_grant` and nothing else, and `NotLoggedIn` without a token file
and without a request; a login returns neither. -/
theorem session_undamaged (store : TokenStore) (codec : TokenStore.Codec) (decoder : Decoder)
    (overflowChecks : Bool) (file : Except TokenStore.IoError (List UInt8)) (s : Session) :
    (∀ call out, TokenCall overflowChecks call → RunsAlone store codec decoder call file out s →
      Undamaged codec decoder file out s ∧
      (out = .err .sessionExpired ↔ Refused decoder s) ∧
      (out = .err .notLoggedIn ↔ file = .error .notFound) ∧
      (out = .err .notLoggedIn → s.requests = [])) ∧
    ∀ code codeVerifier redirectUri out,
      RunsAlone store codec decoder (completeLogin overflowChecks code codeVerifier redirectUri)
        file out s →
      Undamaged codec decoder file out s ∧ out ≠ .err .sessionExpired ∧
        out ≠ .err .notLoggedIn := by
  refine ⟨fun call out hcall h => ?_, fun code codeVerifier redirectUri out h => ?_⟩
  · obtain ⟨hundamaged, hexpired, hmissing, hunasked⟩ := hcall.spec h
    exact ⟨hundamaged, hexpired, hmissing, hunasked⟩
  · obtain ⟨tr, hexec, hrun⟩ := h
    exact (loginWay_of_exec hexec).undamaged hrun

/-- The stored tokens have expired. -/
def expiredTokens : Tokens := ⟨"access", "refresh", 0⟩

/-- The file holds the fields of the tokens, one on a line. -/
def linesCodec : TokenStore.Codec where
  toVecPretty tokens := Utf8.encode
    (tokens.accessToken ++ "\n" ++ tokens.refreshToken ++ "\n" ++ tokens.expiresAt.toNat.repr)
  fromSlice bytes :=
    if bytes = Utf8.encode "access\nrefresh\n0" then .ok expiredTokens else .error "syntax"

def invalidGrantBody : String := "\x7b\"error\":\"invalid_grant\"\x7d"

def errorDecoder : Decoder where
  tokenResponse _ := .error "missing field access_token"
  value body :=
    if body = invalidGrantBody then some (.object [("error", .string "invalid_grant")]) else none

/-- The server refuses to refresh the expired tokens. -/
theorem runsAlone_refused : RunsAlone TokenStore.sampleStore linesCodec errorDecoder (getValidToken true)
    (.ok (linesCodec.toVecPretty expiredTokens)) (.err .sessionExpired)
    ⟨.ok (linesCodec.toVecPretty expiredTokens), [.refreshToken "refresh"],
      [.http 400 invalidGrantBody]⟩ := by
  refine ⟨[⟨.load, .ok (some expiredTokens)⟩, ⟨.now, 0⟩, ⟨.lock, ()⟩,
    ⟨.load, .ok (some expiredTokens)⟩, ⟨.now, 0⟩, ⟨.post (.refreshToken "refresh"), ()⟩,
    ⟨.answer (.refreshToken "refresh"), .error .invalidGrant⟩, ⟨.unlock, ()⟩],
    .perform trivial (.perform trivial (.perform trivial (.perform trivial (.perform trivial
      (.perform trivial (.perform trivial (.perform trivial (.ret _)))))))), ?_⟩
  have hload : TokenStore.sampleStore.load linesCodec (.ok (linesCodec.toVecPretty expiredTokens)) =
      .ok (some expiredTokens) := by decide +kernel
  have hanswer : (Reply.http 400 invalidGrantBody).receive errorDecoder = .error .invalidGrant :=
    rfl
  have hloads : ∀ requests replies, Alone TokenStore.sampleStore linesCodec errorDecoder
      ⟨.ok (linesCodec.toVecPretty expiredTokens), requests, replies⟩ .load
      (.ok (some expiredTokens))
      ⟨.ok (linesCodec.toVecPretty expiredTokens), requests, replies⟩ := by
    intro requests replies
    rw [← hload]
    exact .load
  refine .cons (hloads _ _) (.cons (.now 0) (.cons .lock (.cons (hloads _ _) (.cons (.now 0)
    (.cons .post (.cons ?_ (.cons .unlock .nil)))))))
  rw [← hanswer]
  exact .answer _

theorem session_undamaged_refused :
    RunsAlone TokenStore.sampleStore linesCodec errorDecoder (getValidToken true)
      (.ok (linesCodec.toVecPretty expiredTokens)) (.err .sessionExpired)
      ⟨.ok (linesCodec.toVecPretty expiredTokens), [.refreshToken "refresh"],
        [.http 400 invalidGrantBody]⟩ ∧
    Refused errorDecoder ⟨.ok (linesCodec.toVecPretty expiredTokens), [.refreshToken "refresh"],
      [.http 400 invalidGrantBody]⟩ :=
  ⟨runsAlone_refused, ((session_undamaged _ _ _ true _ _).1 _ _ (.inl rfl)
    runsAlone_refused).2.1.mp rfl⟩

end Rsc.Auth

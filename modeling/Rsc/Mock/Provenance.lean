import Rsc.Mock.Asked
import Rsc.Mock.Concurrent
import Rsc.Mock.FreshTokens
import Rsc.Mock.Redirects

/-!
Where a token comes from. Whatever the server was asked at once since it was spawned: a user token
that it knows was granted to a client that authenticated and proved the verifier of a code, which
was issued for this client when the user approved, or it descends from such a token by refreshes of
the same client. An app token was granted to a client that authenticated by the Basic scheme.
-/

namespace Rsc.Mock.Provenance

open Rsc.Library Rsc.Library.Http Rsc.Library.Atomic Rsc.Mock.Store Rsc.Mock.Pkce
open Concurrent (Call Reply Serves)
open Authorize (Trusted ValidRequest Redirects appended queryParams)
open Token (Admitted Asks webConfig)

/-! ## What is claimed -/

/-- What a server has served, the latest first. -/
abbrev Log : Type := List (Call × Reply)

/-- What the user would answer now. -/
def decision (config : MockConfig) : Log → UserDecision
  | [] => config.userDecision
  | (.setUserDecision answer, _) :: _ => answer
  | _ :: log => decision config log

/-- What a user approved, and the code that says so. -/
structure Authorization where
  client : RegisteredClient
  redirectUri : String
  codeChallenge : String
  code : String

section

variable (D : Deps) (config : MockConfig)

/-- The user approved a valid request of the client, and the code went to its redirect URI. -/
inductive Approved (auth : Authorization) : Log → Prop
  | request {log : Log} {request : Request} {response : Response}
      (hmethod : request.method = .get ∨ request.method = .head)
      (htrusted : Trusted config (queryParams request) auth.client auth.redirectUri)
      (hvalid : ValidRequest (queryParams request) auth.codeChallenge)
      (happrove : decision config log = .approve)
      (hredirects : Redirects response auth.redirectUri (appended auth.redirectUri "code" auth.code
        ((queryParams request).first "state"))) :
      Approved auth ((.authorize request, .response response) :: log)
  | later {log : Log} {entry : Call × Reply} (h : Approved auth log) : Approved auth (entry :: log)

/-- What is answered when tokens were granted. -/
def granted (issued : Issued) : Reply :=
  .response (Token.tokenResponse D issued config.accessTokenLifetime)

/-- The tokens that were granted for what the user approved, the first ones or by refreshes. -/
inductive Granted (auth : Authorization) : Log → Issued → Prop
  | exchange {log : Log} {request : Request} {method : ClientAuth.Method} {params : Params}
      {verifier : String} {issued : Issued} (happroved : Approved config auth log)
      (hadmitted : Admitted D config request ⟨auth.client, method⟩ params)
      (hgrant : params.value "grant_type" = some "authorization_code")
      (hcode : params.value "code" = some auth.code)
      (huri : params.value "redirect_uri" = some auth.redirectUri)
      (hverifier : params.value "code_verifier" = some verifier)
      (hproof : verifyS256 D.toHashing verifier auth.codeChallenge = true) :
      Granted auth ((.token request, granted D config issued) :: log) issued
  | refresh {log : Log} {request : Request} {method : ClientAuth.Method} {params : Params}
      {previous issued : Issued} {token : String} (hprevious : Granted auth log previous)
      (htoken : previous.refreshToken = some token)
      (hadmitted : Admitted D config request ⟨auth.client, method⟩ params)
      (hgrant : params.value "grant_type" = some "refresh_token")
      (hpresented : params.value "refresh_token" = some token) :
      Granted auth ((.token request, granted D config issued) :: log) issued
  | later {log : Log} {entry : Call × Reply} {issued : Issued} (h : Granted auth log issued) :
      Granted auth (entry :: log) issued

/-- The token was granted to the client alone. -/
inductive GrantedApp (client : RegisteredClient) (token : String) : Log → Prop
  | credentials {log : Log} {request : Request} {params : Params}
      (hadmitted : Admitted D config request ⟨client, .basic⟩ params)
      (hgrant : params.value "grant_type" = some "client_credentials") :
      GrantedApp client token ((.token request, granted D config ⟨token, none⟩) :: log)
  | later {log : Log} {entry : Call × Reply} (h : GrantedApp client token log) :
      GrantedApp client token (entry :: log)

/-- What entitles a client to a token of its kind. -/
inductive Entitled (log : Log) (token : String) : TokenKind → String → Prop
  | user {auth : Authorization} {issued : Issued} (h : Granted D config auth log issued)
      (htoken : issued.accessToken = token) : Entitled log token .user auth.client.clientId
  | app {client : RegisteredClient} (h : GrantedApp D config client token log) :
      Entitled log token .app client.clientId

end

/-! ## The maps of the store -/

/-- Every entry of the store comes from a call that was served. -/
structure Known (D : Deps) (config : MockConfig) (log : Log) (st : Guarded) : Prop where
  decision : st.userDecision = decision config log
  codes : ∀ {code entry}, st.store.codes.lookup code = some entry →
    ∃ auth, Approved config auth log ∧ auth.code = code ∧ auth.client ∈ config.clients ∧
      auth.client.clientId = entry.clientId ∧ auth.redirectUri = entry.redirectUri ∧
      auth.codeChallenge = entry.codeChallenge
  refreshTokens : ∀ {token entry}, st.store.refreshTokens.lookup token = some entry →
    ∃ auth issued, Granted D config auth log issued ∧ issued.refreshToken = some token ∧
      auth.client ∈ config.clients ∧ auth.client.clientId = entry.clientId
  accessTokens : ∀ {token entry}, st.store.accessTokens.lookup token = some entry →
    Entitled D config log token entry.kind entry.clientId

variable {D : Deps} {config : MockConfig} {log : Log} {st st' : Guarded} {entry : Call × Reply}

theorem Entitled.later {token clientId : String} {kind : TokenKind}
    (h : Entitled D config log token kind clientId) :
    Entitled D config (entry :: log) token kind clientId := by
  cases h with
  | user h htoken => exact .user h.later htoken
  | app h => exact .app h.later

/-- A call that leaves the maps as they are. -/
theorem Known.quiet (h : Known D config log st)
    (hdecision : st'.userDecision = Provenance.decision config (entry :: log))
    (hcodes : st'.store.codes = st.store.codes)
    (hrefreshTokens : st'.store.refreshTokens = st.store.refreshTokens)
    (haccessTokens : st'.store.accessTokens = st.store.accessTokens) :
    Known D config (entry :: log) st' where
  decision := hdecision
  codes hentry := by
    obtain ⟨auth, happroved, hrest⟩ := h.codes (hcodes ▸ hentry)
    exact ⟨auth, happroved.later, hrest⟩
  refreshTokens hentry := by
    obtain ⟨auth, issued, hgranted, hrest⟩ := h.refreshTokens (hrefreshTokens ▸ hentry)
    exact ⟨auth, issued, hgranted.later, hrest⟩
  accessTokens hentry := (h.accessTokens (haccessTokens ▸ hentry)).later

/-! ## The steps -/

section

variable {request : Request} {client : ClientAuth.Authenticated} {params : Params}

/-- Two registered clients with one id are one. -/
theorem client_inj {urlParses : String → Bool} (hconfig : config.Valid urlParses)
    {c c' : RegisteredClient} (hc : c ∈ config.clients) (hc' : c' ∈ config.clients)
    (hid : c.clientId = c'.clientId) : c = c' := by
  have hfind := (MockConfig.client_eq_some hconfig).mpr ⟨hc, hid⟩
  have hfind' := (MockConfig.client_eq_some hconfig).mpr ⟨hc', rfl⟩
  exact Option.some.inj (hfind.symm.trans hfind')

/-- Only a registered client is authenticated. -/
theorem admitted_mem (h : Admitted D config request client params) :
    client.client ∈ config.clients := by
  obtain ⟨⟨method, clientId, clientSecret⟩, -, hconfirm⟩ := Except.bind_eq_ok.mp h.authenticated
  exact List.mem_of_find?_eq_some (ClientAuth.confirm_eq_ok.mp hconfirm).2.1

/-- A code that was issued. -/
theorem Known.issue {response : Response} {registered : RegisteredClient}
    {uri challenge code : String} {family : FamilyId} (h : Known D config log st)
    (happroved : Approved config ⟨registered, uri, challenge, code⟩
      ((.authorize request, .response response) :: log))
    (hregistered : registered ∈ config.clients) :
    Known D config ((.authorize request, .response response) :: log)
      { st with
        store := st.store.issue code
          ⟨registered.clientId, uri, challenge, st.clock.now, family, false⟩ } where
  decision := h.decision
  codes {code' entry} hentry := by
    rw [Store.issue, lookup_insert_eq] at hentry
    split at hentry
    · next heq =>
      subst heq
      cases hentry
      exact ⟨_, happroved, rfl, hregistered, rfl, rfl, rfl⟩
    · obtain ⟨auth, hold, hrest⟩ := h.codes hentry
      exact ⟨auth, hold.later, hrest⟩
  refreshTokens hentry := by
    obtain ⟨auth, issued, hgranted, hrest⟩ := h.refreshTokens hentry
    exact ⟨auth, issued, hgranted.later, hrest⟩
  accessTokens hentry := (h.accessTokens hentry).later

/-- A pair of tokens that was granted for what the user approved. -/
theorem Known.grant {auth : Authorization} {access refresh : String} {family : FamilyId}
    {s : Store} (h : Known D config log st)
    (hgranted : Granted D config auth (entry :: log) ⟨access, some refresh⟩)
    (hregistered : auth.client ∈ config.clients)
    (hdecision : Provenance.decision config (entry :: log) = Provenance.decision config log)
    (hcodes : ∀ {code new}, s.codes.lookup code = some new → ∃ old,
      st.store.codes.lookup code = some old ∧ new.clientId = old.clientId ∧
        new.redirectUri = old.redirectUri ∧ new.codeChallenge = old.codeChallenge)
    (hrefreshTokens : ∀ {token new}, s.refreshTokens.lookup token = some new → ∃ old,
      st.store.refreshTokens.lookup token = some old ∧ new.clientId = old.clientId)
    (haccessTokens : s.accessTokens = st.store.accessTokens) :
    Known D config (entry :: log)
      { st with store := s.grant auth.client.clientId family st.clock.now access refresh } where
  decision := h.decision.trans hdecision.symm
  codes hentry := by
    obtain ⟨old, hold, hclient, huri, hchallenge⟩ := hcodes hentry
    obtain ⟨auth', happroved, hcode, hmem, hclient', huri', hchallenge'⟩ := h.codes hold
    exact ⟨auth', happroved.later, hcode, hmem, hclient'.trans hclient.symm,
      huri'.trans huri.symm, hchallenge'.trans hchallenge.symm⟩
  refreshTokens {token new} hentry := by
    rw [Store.grant, lookup_insert_eq] at hentry
    split at hentry
    · next heq =>
      subst heq
      cases hentry
      exact ⟨auth, _, hgranted, rfl, hregistered, rfl⟩
    · obtain ⟨old, hold, hclient⟩ := hrefreshTokens hentry
      obtain ⟨auth', issued, hgranted', htoken, hmem, hclient'⟩ := h.refreshTokens hold
      exact ⟨auth', issued, hgranted'.later, htoken, hmem, hclient'.trans hclient.symm⟩
  accessTokens {token new} hentry := by
    rw [Store.grant, lookup_insert_eq] at hentry
    split at hentry
    · next heq =>
      subst heq
      cases hentry
      exact .user hgranted rfl
    · rw [haccessTokens] at hentry
      exact (h.accessTokens hentry).later

/-- An app token that was granted. -/
theorem Known.grantApp {registered : RegisteredClient} {access : String} {now : Duration}
    (h : Known D config log st)
    (hgranted : GrantedApp D config registered access (entry :: log))
    (hdecision : Provenance.decision config (entry :: log) = Provenance.decision config log) :
    Known D config (entry :: log)
      { st with store := st.store.grantApp registered.clientId now access } where
  decision := h.decision.trans hdecision.symm
  codes hentry := by
    obtain ⟨auth, happroved, hrest⟩ := h.codes hentry
    exact ⟨auth, happroved.later, hrest⟩
  refreshTokens hentry := by
    obtain ⟨auth, issued, hgranted', hrest⟩ := h.refreshTokens hentry
    exact ⟨auth, issued, hgranted'.later, hrest⟩
  accessTokens {token new} hentry := by
    rw [Store.grantApp, lookup_insert_eq] at hentry
    split at hentry
    · next heq =>
      subst heq
      cases hentry
      exact .app hgranted
    · exact (h.accessTokens hentry).later

/-- A token request, as what it asks of the store. -/
theorem Known.asked {urlParses : String → Bool} (hconfig : config.Valid urlParses) {e : Event}
    {s : Store} {response : Response} (h : Known D config log st)
    (hadmitted : Admitted D config request client params)
    (hasks : Asks client params st.clock.now e) (heffect : Effect D.toHashing st.store e s)
    (hissued : ∀ issued, e.issued = some issued →
      response = Token.tokenResponse D issued config.accessTokenLifetime) :
    Known D config ((.token request, .response response) :: log) { st with store := s } := by
  have hregistered := admitted_mem hadmitted
  obtain ⟨registered, method⟩ := client
  cases hasks with
  | @authorizationCode code redirectUri codeVerifier result hgrant hcode huri hverifier =>
    cases heffect with
    | redeemRefused | replayed => exact h.quiet h.decision rfl rfl rfl
    | @redeemed _ _ entry access refresh hredeemable =>
      obtain rfl := hissued _ rfl
      obtain ⟨hlookup, hid, -, -, huri', hproof⟩ := hredeemable
      obtain ⟨auth, happroved, rfl, hmem, hid', huri'', hchallenge⟩ := h.codes hlookup
      -- the client that authenticated is the one of the code
      obtain rfl : auth.client = registered :=
        client_inj hconfig hmem hregistered (hid'.trans hid)
      obtain rfl : auth.redirectUri = redirectUri := huri''.trans huri'
      rw [← hchallenge] at hproof
      refine h.grant (.exchange happroved hadmitted hgrant hcode huri hverifier hproof) hmem rfl ?_
        (fun hentry => ⟨_, hentry, rfl⟩) rfl
      intro code' new hentry
      rw [Store.redeem, lookup_insert_eq] at hentry
      split at hentry
      · next heq =>
        subst heq
        cases hentry
        exact ⟨entry, hlookup, rfl, rfl, rfl⟩
      · exact ⟨new, hentry, rfl, rfl, rfl⟩
  | @refreshToken token result hgrant htoken =>
    cases heffect with
    | refreshRefused => exact h.quiet h.decision rfl rfl rfl
    | @refreshed _ _ _ entry access refresh hrefreshable =>
      obtain rfl := hissued _ rfl
      obtain ⟨hlookup, hid, -, -⟩ := hrefreshable
      obtain ⟨auth, issued, hgranted, hprevious, hmem, hid'⟩ := h.refreshTokens hlookup
      obtain rfl : auth.client = registered :=
        client_inj hconfig hmem hregistered (hid'.trans hid)
      refine h.grant (.refresh hgranted hprevious hadmitted hgrant htoken) hmem rfl
        (fun hentry => ⟨_, hentry, rfl, rfl, rfl⟩) ?_ rfl
      intro token' new hentry
      rw [Store.spend, lookup_insert_eq] at hentry
      split at hentry
      · next heq =>
        subst heq
        cases hentry
        exact ⟨entry, hlookup, rfl⟩
      · exact ⟨new, hentry, rfl⟩
  | clientCredentials hbasic hgrant =>
    cases heffect with
    | appToken =>
      obtain rfl := hissued _ rfl
      obtain rfl : method = .basic := hbasic
      exact h.grantApp (.credentials hadmitted hgrant) rfl

/-- **Step lemma.** Every call that is served keeps the account of the entries. -/
theorem Known.serves (hurl : D.urlParses "" = false) (hconfig : config.Valid D.urlParses)
    {call : Call} {reply : Reply} (h : Known D config log st)
    (hserves : Serves D config st call reply st') : Known D config ((call, reply) :: log) st' := by
  cases hserves with
  | @authorize request draws response _ hhandler =>
    by_cases hmethod : request.method = .get ∨ request.method = .head
    · cases Authorize.handler_outcome hurl hconfig hmethod hhandler with
      | refused | error => exact h.quiet h.decision rfl rfl rfl
      | code htrusted hvalid happrove hcode hredirects =>
        rw [h.decision] at happrove
        exact h.issue (.request hmethod htrusted hvalid happrove hredirects) htrusted.known
    · rw [not_or] at hmethod
      rw [Authorize.handler, Authorize.authorize, if_pos hmethod] at hhandler
      cases hhandler
      exact h.quiet h.decision rfl rfl rfl
  | token hhandler =>
    cases Token.handler_outcome hhandler with
    | refused => exact h.quiet h.decision rfl rfl rfl
    | asked hadmitted hasks heffect hissued =>
      exact h.asked hconfig hadmitted hasks heffect hissued
  | elapsed | advanceClock | tokenInfo => exact h.quiet h.decision rfl rfl rfl
  | setUserDecision => exact h.quiet rfl rfl rfl rfl

end

/-! ## The runs -/

/-- The state that `spawn` starts with. -/
def spawned (config : MockConfig) : Guarded :=
  ⟨Server.new config.accessTokenLifetime config.authorizationCodeLifetime, config.userDecision⟩

theorem Known.spawned : Known D config [] (spawned config) where
  decision := rfl
  codes hentry := by
    rw [Provenance.spawned, Server.new, Store.new, Finmap.lookup_empty] at hentry
    cases hentry
  refreshTokens hentry := by
    rw [Provenance.spawned, Server.new, Store.new, Finmap.lookup_empty] at hentry
    cases hentry
  accessTokens hentry := by
    rw [Provenance.spawned, Server.new, Store.new, Finmap.lookup_empty] at hentry
    cases hentry

variable {ι : Type} {calls : ι → Call}

/-- The calls that were served in this order. -/
def served (calls : ι → Call) (order : List (ι × Reply)) : Log :=
  (order.map fun entry => (calls entry.1, entry.2)).reverse

/-- **Run lemma.** -/
theorem Known.serial (hurl : D.urlParses "" = false) (hconfig : config.Valid D.urlParses)
    {order : List (ι × Reply)}
    (h : Serial (fun i st reply st' => Serves D config st (calls i) reply st')
      (Provenance.spawned config) order st) : Known D config (served calls order) st := by
  induction h with
  | nil => exact .spawned
  | concat _ hserves ih =>
    rw [served, List.map_append, List.reverse_append]
    exact ih.serves hurl hconfig hserves

variable [DecidableEq ι] {tr : List (Option ι)}
  {p : Pool (World Guarded ι) ι (LockAns Concurrent.StateAns) Reply}

/-- **Every token has its origin.** Whatever calls are served at once since the server was
spawned, they are served in some order in which a client has a token only if it is entitled to it
by the calls before: by the approval of the user and the proof of the verifier, or by refreshes
from there on, or by its own credentials when the token is the app's. -/
theorem tokens_entitled (hurl : D.urlParses "" = false)
    (hconfig : config.validate D.urlParses = .ok ())
    (hrun : Concurrent.Interleaves D (Concurrent.serving D config (spawned config) calls) tr p) :
    ∃ order, Concurrent.ServedIn D config (spawned config) calls order p ∧
      ∀ before i token info after, order = before ++ (i, .tokenInfo (some info)) :: after →
        calls i = .tokenInfo token →
          Entitled D config (served calls before) token info.kind info.clientId := by
  obtain ⟨order, horder⟩ := Run.linearizes (fun i => (calls i).task_disciplined) rfl hrun
  have horder := horder.mono fun _ _ _ _ => Call.serves
  refine ⟨order, horder, ?_⟩
  rintro before i token info after rfl hcall
  obtain ⟨⟨s, hserial, -⟩, -, -⟩ := horder
  obtain ⟨st, st', hbefore, hserves⟩ := hserial.split
  rw [hcall] at hserves
  generalize hreply : Reply.tokenInfo (some info) = reply at hserves
  cases hserves with
  | tokenInfo =>
    obtain ⟨entry, hentry, -, -, hkind, hclient, -⟩ :=
      accessTokenInfo_eq_some.mp (Reply.tokenInfo.inj hreply).symm
    rw [hkind, hclient]
    exact (Known.serial hurl (MockConfig.validate_eq_ok.mp hconfig) hbefore).accessTokens hentry

/-! ## A login -/

/-- The credentials that are drawn. -/
def drawn (b : UInt8) : String := randomCredential (repeated b)

def webForm (rest : List (String × String)) : List (String × String) :=
  [("client_id", "web"), ("client_secret", "secret")] ++ rest

def drawnCode : CodeRedemption :=
  ⟨"web", drawn 0, "http://127.0.0.1/callback", "dBjftJeZ4CVP-mB92K27uhbUJU1p1r_wW1gFWFOEjXk"⟩

def drawnEntry : AuthCode :=
  ⟨"web", drawnCode.redirectUri, "E9Melhoa2OwvFrEMTJguCHaoeK1t8URWbuGJSstw-cM", .zero, ⟨0⟩, false⟩

def drawnCodeForm : List (String × String) :=
  webForm [("grant_type", "authorization_code"), ("code", drawnCode.code),
    ("redirect_uri", drawnCode.redirectUri), ("code_verifier", drawnCode.codeVerifier)]

def drawnRefreshForm : List (String × String) :=
  webForm [("grant_type", "refresh_token"), ("refresh_token", drawn 2)]

/-- The user approves, the client exchanges the code and refreshes, and the test asks for the
second token. Then the client gets a token for the app. -/
def sessionCalls : Fin 6 → Call
  | 0 => .authorize Authorize.loginAuthorize
  | 1 => .token (formPost drawnCodeForm)
  | 2 => .token (formPost drawnRefreshForm)
  | 3 => .tokenInfo (drawn 3)
  | 4 => .token appRequest
  | 5 => .tokenInfo (drawn 7)

theorem admitted_webForm {rest : List (String × String)}
    (hlength : (FormUrlEncoded.serializeBytes (webForm rest)).length ≤ Token.maxBodyBytes)
    (hnone : Token.NoneRepeated ⟨webForm rest⟩)
    (hid : (Params.mk (webForm rest)).value "client_id" = some "web")
    (hsecret : (Params.mk (webForm rest)).value "client_secret" = some "secret") :
    Admitted ClientAuth.basicDeps webConfig (formPost (webForm rest)) ⟨Token.webClient, .body⟩
      ⟨webForm rest⟩ :=
  Token.admitted_of_postsForm (postsForm_formPost _) hlength hnone hid hsecret rfl

theorem serves_token (draws : List Draw) {form : List (String × String)}
    {client : ClientAuth.Authenticated} {request : Request} {result : Except ApiError Response}
    (hadmitted : Admitted D config request client ⟨form⟩)
    (hgrant : Token.grant D config st client ⟨form⟩ draws = some (result, st')) :
    Serves D config st (.token request) (.response (unwrapOrElse D.toVec result)) st' :=
  @Serves.token D config st request draws _ _ (by
    rw [Token.handler_of_admitted hadmitted, hgrant]
    rfl)

/-! The stores that the calls leave. -/

def approvedStore : Store := (Store.new hour hour).issue (drawn 0) drawnEntry

def exchangedStore : Store :=
  (approvedStore.redeem drawnCode drawnEntry).grant "web" ⟨0⟩ .zero (drawn 1) (drawn 2)

def refreshedStore : Store :=
  (exchangedStore.spend (drawn 2) ⟨"web", ⟨0⟩, false⟩).grant "web" ⟨0⟩ .zero (drawn 3) (drawn 4)

def appStore : Store := refreshedStore.grantApp "web" .zero (drawn 7)

theorem serves_approve : ∃ reply, Serves ClientAuth.basicDeps webConfig (spawned webConfig)
    (sessionCalls 0) reply ⟨⟨⟨.zero⟩, approvedStore⟩, .approve⟩ :=
  ⟨_, @Serves.authorize _ _ _ _ [repeated 0] _ _ (by
    rw [Authorize.handler, Authorize.authorize_of_valid rfl
      (MockConfig.validate_eq_ok.mp Authorize.validate_webConfig) rfl
      Authorize.trusted_loginAuthorize Authorize.validRequest_loginAuthorize rfl]
    rfl)⟩

theorem serves_exchange : ∃ reply, Serves ClientAuth.basicDeps webConfig
    ⟨⟨⟨.zero⟩, approvedStore⟩, .approve⟩ (sessionCalls 1) reply
    ⟨⟨⟨.zero⟩, exchangedStore⟩, .approve⟩ :=
  ⟨_, serves_token [repeated 1, repeated 2]
    (admitted_webForm (by decide +kernel) (by decide) rfl rfl) rfl⟩

theorem serves_refresh : ∃ reply, Serves ClientAuth.basicDeps webConfig
    ⟨⟨⟨.zero⟩, exchangedStore⟩, .approve⟩ (sessionCalls 2) reply
    ⟨⟨⟨.zero⟩, refreshedStore⟩, .approve⟩ :=
  ⟨_, serves_token [repeated 3, repeated 4]
    (admitted_webForm (by decide +kernel) (by decide) rfl rfl) rfl⟩

theorem serves_app : ∃ reply, Serves ClientAuth.basicDeps webConfig
    ⟨⟨⟨.zero⟩, refreshedStore⟩, .approve⟩ (sessionCalls 4) reply
    ⟨⟨⟨.zero⟩, appStore⟩, .approve⟩ :=
  ⟨_, serves_token [appDraw] admitted_appRequest rfl⟩

theorem serial_sessionCalls : ∃ order st,
    Serial (fun i st reply st' => Serves ClientAuth.basicDeps webConfig st (sessionCalls i) reply st')
      (spawned webConfig) order st ∧
    order.map Prod.fst = [0, 1, 2, 3, 4, 5] ∧
    (3, .tokenInfo (some ⟨.user, "web", hour⟩)) ∈ order ∧
    (5, .tokenInfo (some ⟨.app, "web", hour⟩)) ∈ order := by
  obtain ⟨_, h₀⟩ := serves_approve
  obtain ⟨_, h₁⟩ := serves_exchange
  obtain ⟨_, h₂⟩ := serves_refresh
  have h₃ : Serves ClientAuth.basicDeps webConfig ⟨⟨⟨.zero⟩, refreshedStore⟩, .approve⟩
      (sessionCalls 3) (.tokenInfo (some ⟨.user, "web", hour⟩))
      ⟨⟨⟨.zero⟩, refreshedStore⟩, .approve⟩ := .tokenInfo
  obtain ⟨_, h₄⟩ := serves_app
  have h₅ : Serves ClientAuth.basicDeps webConfig ⟨⟨⟨.zero⟩, appStore⟩, .approve⟩
      (sessionCalls 5) (.tokenInfo (some ⟨.app, "web", hour⟩))
      ⟨⟨⟨.zero⟩, appStore⟩, .approve⟩ := .tokenInfo
  refine ⟨_, _, .concat (.concat (.concat (.concat (.concat (.concat .nil h₀) h₁) h₂) h₃) h₄) h₅,
    rfl, ?_, ?_⟩
  · exact List.mem_append_left _ (List.mem_append_left _
      (List.mem_append_right _ List.mem_cons_self))
  · exact List.mem_append_right _ List.mem_cons_self

theorem tokens_entitled_session : ∃ tr p order,
    Concurrent.Interleaves ClientAuth.basicDeps
      (Concurrent.serving ClientAuth.basicDeps webConfig (spawned webConfig) sessionCalls) tr p ∧
    Concurrent.ServedIn ClientAuth.basicDeps webConfig (spawned webConfig) sessionCalls order p ∧
    (∃ before after, order = before ++ (3, .tokenInfo (some ⟨.user, "web", hour⟩)) :: after ∧
      Entitled ClientAuth.basicDeps webConfig (served sessionCalls before) (drawn 3) .user "web") ∧
    ∃ before after, order = before ++ (5, .tokenInfo (some ⟨.app, "web", hour⟩)) :: after ∧
      Entitled ClientAuth.basicDeps webConfig (served sessionCalls before) (drawn 7) .app "web" := by
  obtain ⟨serial, st, hserial, hcalls, huser, happ⟩ := serial_sessionCalls
  obtain ⟨tr, p, hrun, -, hreturned⟩ :=
    Concurrent.exists_interleaves hserial (by rw [hcalls]; decide)
  have hconfig : webConfig.validate ClientAuth.basicDeps.urlParses = .ok () :=
    Authorize.validate_webConfig
  obtain ⟨order, horder, hentitled⟩ := tokens_entitled rfl hconfig hrun
  refine ⟨tr, p, order, hrun, horder, ?_, ?_⟩
  · obtain ⟨before, after, hsplit⟩ :=
      List.append_of_mem ((horder.returned _ _).mp (hreturned _ huser))
    exact ⟨before, after, hsplit, hentitled before 3 _ _ after hsplit rfl⟩
  · obtain ⟨before, after, hsplit⟩ :=
      List.append_of_mem ((horder.returned _ _).mp (hreturned _ happ))
    exact ⟨before, after, hsplit, hentitled before 5 _ _ after hsplit rfl⟩

end Rsc.Mock.Provenance

import Rsc.Auth.Callback
import Rsc.Auth.Client
import Rsc.Mock.AccessTokens
import Rsc.Mock.Reachable
import Rsc.Mock.Redirects
import Mathlib.Data.List.TakeWhile

/-!
The login of `rsc` against `rsc-mock`: the URL that is opened in the browser, the redirect
that the callback listener reads, the exchange of the code and the refresh.
-/

namespace Rsc.EndToEnd

open Rsc.Library Rsc.Library.Http Rsc.Auth Rsc.Mock Rsc.Mock.Store Rsc.Mock.Pkce

variable {D : Deps} {fromSlice : List UInt8 → Option Json.Document} {config : MockConfig}
  {st st' : Guarded} {request : Request} {draws : List Draw}

/-! ## Random texts -/

theorem length_randomToken (draw : Draw) : (Utf8.encode (randomToken draw)).length = 43 :=
  Base64.length_encode_urlSafe draw.2

theorem isUrlSafe_of_mem {bytes : List UInt8} {b : UInt8}
    (h : b ∈ Utf8.encode (Base64.urlSafe bytes)) : Base64.isUrlSafe b = true := by
  rw [Base64.encode_urlSafe] at h
  exact Base64.isUrlSafe_encodeBytes h

theorem randomToken_ne_empty (draw : Draw) : randomToken draw ≠ "" := by
  intro h
  have hlength := length_randomToken draw
  rw [h] at hlength
  cases hlength

/-- A random token is a code verifier. -/
theorem isValidVerifier_randomToken (draw : Draw) : isValidVerifier (randomToken draw) = true := by
  have hall : ∀ b, Base64.isUrlSafe b = true → isUnreserved b = true :=
    Utf8.forall_byte (by decide +kernel)
  have hlength : (asBytes (randomToken draw)).length = 43 := length_randomToken draw
  rw [isValidVerifier, hlength, Bool.and_eq_true]
  exact ⟨rfl, List.all_eq_true.mpr fun b hb => hall b (isUrlSafe_of_mem hb)⟩

/-- The encoding of a digest is a code challenge. -/
theorem isValidChallenge_urlSafe {digest : List UInt8} (h : digest.length = 32) :
    isValidChallenge (Base64.urlSafe digest) = true := by
  have hall : ∀ b, Base64.isUrlSafe b = true →
      (isAsciiAlphanumeric b || b.toNat == 45 || b.toNat == 95) = true :=
    Utf8.forall_byte (by decide +kernel)
  have hlength : (asBytes (Base64.urlSafe digest)).length = 43 := Base64.length_encode_urlSafe h
  rw [isValidChallenge, hlength, Bool.and_eq_true]
  exact ⟨rfl, List.all_eq_true.mpr fun b hb => hall b (isUrlSafe_of_mem hb)⟩

/-! ## The browser -/

/-- The redirect URI of the callback listener. -/
def redirectUri (port : UInt16) : String :=
  "http://127.0.0.1:" ++ port.toNat.repr ++ "/callback"

/-- The request line that a browser sends for an `http` URL: the path and the query. -/
def browserLine (location : HeaderValue) : List Char :=
  let url := (Utf8.decodeLossy location.bytes).toList
  let target := ((url.drop "http://".length).dropWhile (· != '/')).takeWhile (· != '#')
  "GET".toList ++ ' ' :: target ++ ' ' :: "HTTP/1.1".toList

theorem toList_redirectUri (port : UInt16) : (redirectUri port).toList =
    "http://".toList ++ ("127.0.0.1:".toList ++ (Nat.toDigits 10 port.toNat ++ callbackPath)) := by
  have hport : port.toNat.repr.toList = Nat.toDigits 10 port.toNat := Nat.toList_repr
  have hbase : "http://127.0.0.1:".toList = "http://".toList ++ "127.0.0.1:".toList := by
    decide +kernel
  calc (redirectUri port).toList
      = ("http://127.0.0.1:".toList ++ port.toNat.repr.toList) ++ callbackPath :=
        (String.toList_append ..).trans (congrArg (· ++ _) (String.toList_append ..))
    _ = ("http://".toList ++ "127.0.0.1:".toList ++ Nat.toDigits 10 port.toNat) ++ callbackPath :=
        congrArg₂ (fun base port => base ++ port ++ callbackPath) hbase hport
    _ = _ := by rw [List.append_assoc, List.append_assoc]

theorem redirectUri_ne_empty (port : UInt16) : redirectUri port ≠ "" := by
  intro h
  have hlist := toList_redirectUri port
  rw [h] at hlist
  cases hlist

theorem browserLine_redirectUri {location : HeaderValue} {port : UInt16} {query : String}
    (hlocation : location.bytes = Utf8.encode (redirectUri port ++ ("?" ++ query)))
    (hquery : '#' ∉ query.toList) : browserLine location = callbackLine query := by
  have hdigit : ∀ c ∈ Nat.toDigits 10 port.toNat, (c != '/') = true := by
    intro c hc
    rw [bne_iff_ne]
    rintro rfl
    exact Text.notMem_toDigits (by decide) hc
  have hurl : (redirectUri port ++ ("?" ++ query)).toList = "http://".toList ++
      ("127.0.0.1:".toList ++
        (Nat.toDigits 10 port.toNat ++ (callbackPath ++ '?' :: query.toList))) := by
    have happend : ∀ a b c : String, (a ++ (b ++ c)).toList = a.toList ++ (b.toList ++ c.toList) :=
      fun a b c => by rw [String.toList_append, String.toList_append]
    refine (happend _ _ _).trans ?_
    rw [toList_redirectUri, List.append_assoc, List.append_assoc, List.append_assoc]
    rfl
  have hbefore : ∀ c ∈ "127.0.0.1:".toList, (c != '/') = true := List.all_eq_true.mp rfl
  have hpath : ∀ c ∈ callbackPath, (c != '#') = true := List.all_eq_true.mp rfl
  have hafter : ∀ c ∈ callbackPath ++ '?' :: query.toList, (c != '#') = true := by
    intro c hc
    rcases List.mem_append.mp hc with hc | hc
    · exact hpath c hc
    · rcases List.mem_cons.mp hc with rfl | hc
      · rfl
      · exact bne_iff_ne.mpr fun heq => hquery (heq ▸ hc)
  have htarget : (callbackPath ++ '?' :: query.toList).dropWhile (· != '/') =
      callbackPath ++ '?' :: query.toList := rfl
  rw [browserLine, hlocation, Utf8.decodeLossy_encode, hurl,
    show "http://".length = "http://".toList.length from rfl, List.drop_left,
    List.dropWhile_append_of_pos hbefore, List.dropWhile_append_of_pos hdigit, htarget,
    List.takeWhile_eq_self_iff.mpr hafter, callbackLine]

/-! ## The two sides -/

/-- What the mock and the client rely on in their dependencies; `fromSlice` is
`Response::text` and `serde_json::from_str`. -/
structure Reliable (D : Deps) (fromSlice : List UInt8 → Option Json.Document) : Prop where
  urlParses : D.urlParses "" = false
  base64url : D.base64url = Base64.urlSafe
  sha256 : ∀ bytes, (D.sha256 bytes).length = 32
  json : ∀ doc, ∃ bytes, D.toVec doc = some bytes ∧ fromSlice bytes = some doc

/-- The client is registered with the mock, with its id, secret and callback. -/
structure Registered (D : Deps) (config : MockConfig) (client : TokenClient) (port : UInt16) :
    Prop where
  validated : config.validate D.urlParses = .ok ()
  clientId : client.clientId ≠ ""
  clientSecret : client.clientSecret ≠ ""
  registered : ∃ registered ∈ config.clients, registered.clientId = client.clientId ∧
    registered.clientSecret = client.clientSecret ∧ redirectUri port ∈ registered.redirectUris

/-- The response carries tokens of the draws that the client can read, and the access token
is a user token of the client with the whole lifetime. -/
structure Granted (fromSlice : List UInt8 → Option Json.Document) (config : MockConfig)
    (client : TokenClient) (draws : List Draw) (response : Response) (tokens : TokenResponse)
    (st : Guarded) : Prop where
  status : response.status = .ok
  accessToken : tokens.accessToken ∈ draws.map randomCredential
  refreshToken : tokens.refreshToken ∈ draws.map randomCredential
  json : (fromSlice response.body).bind TokenResponse.deserialize = some tokens
  tokenInfo : Server.tokenInfo st.toState tokens.accessToken =
    some ⟨.user, client.clientId, config.accessTokenLifetime⟩

/-- The state after the clock was advanced. -/
def later (st : Guarded) (advance : Duration) : Guarded :=
  { st with toState := Server.advanceClock st.toState advance }

/-- The client can refresh with the token. -/
def Renewable (client : TokenClient) (st : Guarded) (token : String) : Prop :=
  token ≠ "" ∧ ∃ entry, st.store.Refreshable client.clientId token entry

/-! ## Tokens -/

theorem deserialize_tokenResponse (access refresh : String) (expiresIn : UInt64) :
    TokenResponse.deserialize [("access_token", .str access), ("refresh_token", .str refresh),
      ("expires_in", .num expiresIn), ("scope", .str ""), ("token_type", .str "bearer")] =
      some ⟨access, refresh, expiresIn, ""⟩ := rfl

theorem tokenInfo_grant {s : Store} {clientId access refresh : String} {family : FamilyId}
    {now : Duration} (hfamily : family ∉ s.revokedFamilies)
    (hlifetime : s.accessTokenLifetime.isZero = false)
    (hfits : now.Fits s.accessTokenLifetime) :
    (s.grant clientId family now access refresh).accessTokenInfo access now =
      some ⟨.user, clientId, s.accessTokenLifetime⟩ := by
  have hpos : s.accessTokenLifetime.nanos ≠ 0 := by
    simpa [Duration.isZero] using hlifetime
  have hexpires := Duration.nanos_saturatingAdd hfits
  refine accessTokenInfo_eq_some.mpr ⟨_, Finmap.lookup_insert _, ?_, ?_, rfl, rfl, ?_⟩
  · rintro f hf
    cases hf
    exact hfamily
  · rw [Duration.lt_def, hexpires]
    omega
  · show s.accessTokenLifetime.nanos = (now.saturatingAdd s.accessTokenLifetime).nanos - now.nanos
    rw [hexpires]
    omega

theorem refreshable_grant {s : Store} {clientId access refresh : String} {family : FamilyId}
    {now : Duration} (hfamily : family ∉ s.revokedFamilies) :
    (s.grant clientId family now access refresh).Refreshable clientId refresh
      ⟨clientId, family, false⟩ :=
  ⟨Finmap.lookup_insert _, rfl, rfl, hfamily⟩

theorem lifetime_ne_zero {client : TokenClient} {port : UInt16}
    (h : Registered D config client port) : config.accessTokenLifetime.isZero = false :=
  (MockConfig.validate_eq_ok.mp h.validated).accessTokenLifetime.1

/-- The state uses no other credentials than the draws. -/
def Uses (s : Store) (draws : List Draw) (s' : Store) : Prop :=
  ∀ c, s.Unused c → c ∉ draws.map randomCredential → s'.Unused c

theorem Uses.grant {s : Store} {clientId access refresh : String} {family : FamilyId}
    {now : Duration} (haccess : access ∈ draws.map randomCredential)
    (hrefresh : refresh ∈ draws.map randomCredential) :
    Uses s draws (s.grant clientId family now access refresh) := by
  rintro c ⟨hcodes, haccessTokens, hrefreshTokens⟩ hnot
  refine ⟨hcodes, ?_, ?_⟩
  · rw [Store.grant, Finmap.mem_insert, not_or]
    exact ⟨fun h => hnot (h ▸ haccess), haccessTokens⟩
  · rw [Store.grant, Finmap.mem_insert, not_or]
    exact ⟨fun h => hnot (h ▸ hrefresh), hrefreshTokens⟩

/-- The issue of tokens to the client. -/
theorem granted_issue (hD : Reliable D fromSlice) (client : TokenClient) (s : Store)
    {family : FamilyId} (hstore : s.accessTokenLifetime = config.accessTokenLifetime)
    (hlifetime : config.accessTokenLifetime.isZero = false)
    (hfits : st.clock.now.Fits config.accessTokenLifetime) (hfamily : family ∉ s.revokedFamilies)
    (hdraws : s.Supplies (draws.map randomCredential)) :
    ∃ issued s' rest tokens, s.issueUserTokens client.clientId family st.clock.now
        (draws.map randomCredential) = some (issued, s', rest) ∧
      Granted fromSlice config client draws
        (Token.tokenResponse D issued config.accessTokenLifetime) tokens { st with store := s' } ∧
      Renewable client { st with store := s' } tokens.refreshToken ∧
      s'.accessTokenLifetime = config.accessTokenLifetime ∧ Uses s draws s' := by
  obtain ⟨⟨issued, s', rest⟩, hissue⟩ := hdraws.issueUserTokens client.clientId family st.clock.now
  obtain ⟨access, refresh, rfl, -, -, -, rfl⟩ := issueUserTokens_spec hissue
  obtain ⟨haccess, hrefresh⟩ := issueUserTokens_mem hissue
  refine ⟨_, _, rest, ⟨access, refresh, config.accessTokenLifetime.asSecs, ""⟩, hissue, ?_, ?_,
    hstore, .grant haccess hrefresh⟩
  · refine ⟨Token.tokenResponse_status (fun doc => ?_) _ _, haccess, hrefresh, ?_, ?_⟩
    · obtain ⟨bytes, hbytes, -⟩ := hD.json doc
      rw [hbytes]
      rfl
    · obtain ⟨bytes, hbytes, hread⟩ := hD.json [("access_token", .str access),
        ("refresh_token", .str refresh), ("expires_in", .num config.accessTokenLifetime.asSecs),
        ("scope", .str ""), ("token_type", .str "bearer")]
      have hbody : (Token.tokenResponse D ⟨access, some refresh⟩ config.accessTokenLifetime).body =
          bytes := json_body .ok hbytes
      rw [hbody, hread]
      exact deserialize_tokenResponse _ _ _
    · show Store.accessTokenInfo _ _ _ = _
      rw [← hstore]
      exact tokenInfo_grant hfamily (hstore ▸ hlifetime) (hstore ▸ hfits)
  · refine ⟨?_, _, refreshable_grant hfamily⟩
    obtain ⟨draw, -, hdraw⟩ := List.mem_map.mp hrefresh
    show refresh ≠ ""
    rw [← hdraw]
    exact randomToken_ne_empty draw

/-! ## The token endpoint -/

/-- The client authenticates with its form. -/
theorem admitted_form {client : TokenClient} {port : UInt16}
    (hclient : Registered D config client port) {tokenRequest : TokenRequest}
    (hrequest : PostsForm request (client.form tokenRequest))
    (hlength : (FormUrlEncoded.serializeBytes (client.form tokenRequest)).length ≤
      Token.maxBodyBytes) :
    ∃ authenticated, authenticated.client.clientId = client.clientId ∧
      Token.Admitted D config request authenticated ⟨client.form tokenRequest⟩ := by
  obtain ⟨hvalidated, hid, hsecret, registered, hmem, hclientId, hclientSecret, -⟩ := hclient
  have hfind := (MockConfig.client_eq_some (MockConfig.validate_eq_ok.mp hvalidated)).mpr
    ⟨hmem, rfl⟩
  refine ⟨⟨registered, .body⟩, hclientId,
    Token.admitted_of_postsForm hrequest hlength ?_ ?_ ?_ hfind⟩
  · cases tokenRequest <;> exact of_decide_eq_true rfl
  · rw [hclientId]
    cases tokenRequest <;> exact Params.value_of_occurrences rfl hid
  · rw [hclientSecret]
    cases tokenRequest <;> exact Params.value_of_occurrences rfl hsecret

/-- A code of the client that is redeemable is exchanged for tokens. -/
theorem exchange_granted (hD : Reliable D fromSlice) {client : TokenClient} {port : UInt16}
    (hclient : Registered D config client port) {code verifier redirect : String}
    {entry : AuthCode}
    (hcode : code ≠ "") (hverifier : verifier ≠ "") (hredirect : redirect ≠ "")
    (hredeem : st.store.Redeemable D.toHashing ⟨client.clientId, code, redirect, verifier⟩
      st.clock.now entry) (hfamily : entry.family ∉ st.store.revokedFamilies)
    (hstore : st.store.accessTokenLifetime = config.accessTokenLifetime)
    (hfits : st.clock.now.Fits config.accessTokenLifetime)
    (hrequest : PostsForm request (client.form (.authorizationCode code verifier redirect)))
    (hlength : (FormUrlEncoded.serializeBytes
      (client.form (.authorizationCode code verifier redirect))).length ≤ Token.maxBodyBytes)
    (hdraws : st.store.Supplies (draws.map randomCredential)) :
    ∃ response tokens st', Token.handler D config st request draws = some (response, st') ∧
      Granted fromSlice config client draws response tokens st' ∧
      Renewable client st' tokens.refreshToken ∧
      st'.store.accessTokenLifetime = config.accessTokenLifetime ∧
      Uses st.store draws st'.store := by
  obtain ⟨authenticated, hid, hadmitted⟩ := admitted_form hclient hrequest hlength
  obtain ⟨issued, s', rest, tokens, hissue, hgranted, hrenewable, hstore', huses⟩ :=
    granted_issue hD client (st.store.redeem ⟨client.clientId, code, redirect, verifier⟩ entry)
      hstore (lifetime_ne_zero hclient) hfits hfamily (hdraws.redeem hredeem.1)
  refine ⟨_, tokens, _, ?_, hgranted, hrenewable, hstore',
    fun c hc => huses c (hc.redeem hredeem.1)⟩
  have hvalue : (Params.mk (client.form (.authorizationCode code verifier redirect))).value "code" =
      some code := Params.value_of_occurrences rfl hcode
  have hvalue' : (Params.mk (client.form (.authorizationCode code verifier redirect))).value
      "redirect_uri" = some redirect := Params.value_of_occurrences rfl hredirect
  have hvalue'' : (Params.mk (client.form (.authorizationCode code verifier redirect))).value
      "code_verifier" = some verifier := Params.value_of_occurrences rfl hverifier
  have hgrant : Token.grant D config st authenticated
      ⟨client.form (.authorizationCode code verifier redirect)⟩ draws =
        Token.authorizationCode D config st authenticated
          ⟨client.form (.authorizationCode code verifier redirect)⟩ draws := rfl
  rw [Token.handler_of_admitted hadmitted, hgrant, Token.authorizationCode, hvalue, hvalue', hvalue'']
  simp only [hid]
  rw [redeemCode_of_redeemable hredeem, hissue]
  rfl

/-- A refresh token of the client is exchanged for tokens. -/
theorem refresh_granted (hD : Reliable D fromSlice) {client : TokenClient} {port : UInt16}
    (hclient : Registered D config client port) {token : String}
    (htoken : Renewable client st token)
    (hstore : st.store.accessTokenLifetime = config.accessTokenLifetime)
    (hfits : st.clock.now.Fits config.accessTokenLifetime)
    (hrequest : PostsForm request (client.form (.refreshToken token)))
    (hlength : (FormUrlEncoded.serializeBytes (client.form (.refreshToken token))).length ≤
      Token.maxBodyBytes)
    (hdraws : st.store.Supplies (draws.map randomCredential)) :
    ∃ response tokens st', Token.handler D config st request draws = some (response, st') ∧
      Granted fromSlice config client draws response tokens st' ∧
      Renewable client st' tokens.refreshToken ∧
      st'.store.accessTokenLifetime = config.accessTokenLifetime ∧
      Uses st.store draws st'.store := by
  obtain ⟨hne, entry, hentry⟩ := htoken
  obtain ⟨authenticated, hid, hadmitted⟩ := admitted_form hclient hrequest hlength
  obtain ⟨issued, s', rest, tokens, hissue, hgranted, hrenewable, hstore', huses⟩ :=
    granted_issue hD client (st.store.spend token entry) hstore (lifetime_ne_zero hclient) hfits
      hentry.2.2.2 (hdraws.spend hentry.1)
  refine ⟨_, tokens, _, ?_, hgranted, hrenewable, hstore',
    fun c hc => huses c (hc.spend hentry.1)⟩
  have hvalue : (Params.mk (client.form (.refreshToken token))).value "refresh_token" =
      some token := Params.value_of_occurrences rfl hne
  have hgrant : Token.grant D config st authenticated ⟨client.form (.refreshToken token)⟩ draws =
      Token.refreshToken D config st authenticated ⟨client.form (.refreshToken token)⟩ draws := rfl
  rw [Token.handler_of_admitted hadmitted, hgrant, Token.refreshToken, hvalue]
  simp only [hid]
  rw [refresh_of_refreshable hentry, hissue]
  rfl

/-! ## The authorization endpoint -/

theorem separator_redirectUri (port : UInt16) : Authorize.separator (redirectUri port) = "?" := by
  have hdigit : '?' ∉ Nat.toDigits 10 port.toNat := Text.notMem_toDigits (by decide)
  have hbase : '?' ∉ "http://".toList := by decide
  have hhost : '?' ∉ "127.0.0.1:".toList := by decide
  have hpath : '?' ∉ callbackPath := by decide
  rw [Authorize.separator, toList_redirectUri, if_pos]
  simp only [List.mem_append, not_or]
  exact ⟨hbase, hhost, hdigit, hpath⟩

/-- The redirect of an issued code, as a query. -/
theorem appended_code (port : UInt16) (draw : Draw) (state : String) :
    Authorize.appended (redirectUri port) "code" (randomCredential draw) (some state) =
      "?" ++ FormUrlEncoded.serialize [("code", randomCredential draw), ("state", state)] := by
  have hquery := Authorize.query_bytes Authorize.plain_code (Authorize.plain_randomCredential draw)
    (some state)
  rw [← FormUrlEncoded.encode_serialize, Utf8.encode_inj] at hquery
  rw [Authorize.appended, separator_redirectUri, ← hquery]
  rfl

/-- The parameters of the authorization request. -/
def authorizeParams (client : TokenClient) (port : UInt16) (challenge state : String) : Params :=
  ⟨[("client_id", client.clientId), ("redirect_uri", redirectUri port), ("response_type", "code"),
    ("code_challenge", challenge), ("code_challenge_method", "S256"), ("state", state)]⟩

theorem queryParams_authorizeUrl {client : TokenClient} {port : UInt16} {challenge state : String}
    (hquery : request.query =
      (client.authorizeUrl (redirectUri port) challenge state).query.map Utf8.encode) :
    Authorize.queryParams request = authorizeParams client port challenge state := by
  rw [Authorize.queryParams, hquery]
  exact congrArg Params.mk (FormUrlEncoded.parse_serialize _)

/-- The request of the client is trusted and valid. -/
theorem trusted_authorizeParams {client : TokenClient} {port : UInt16}
    (hclient : Registered D config client port) (challenge state : String) :
    ∃ registered, registered.clientId = client.clientId ∧
      Authorize.Trusted config (authorizeParams client port challenge state) registered
        (redirectUri port) := by
  obtain ⟨registered, hmem, hid, -, huri⟩ := hclient.registered
  refine ⟨registered, hid, ?_, hid ▸ hclient.clientId, hmem, rfl, huri⟩
  rw [hid]
  rfl

theorem validRequest_authorizeParams (client : TokenClient) (port : UInt16) {challenge : String}
    (hchallenge : isValidChallenge challenge = true) (state : String) :
    Authorize.ValidRequest (authorizeParams client port challenge state) challenge :=
  ⟨rfl, rfl, hchallenge, rfl, Nat.le_refl _⟩

/-- The client is sent back to its callback with a code. -/
theorem authorize_redirects (hD : Reliable D fromSlice) {client : TokenClient} {port : UInt16}
    (hclient : Registered D config client port) {challenge state : String}
    (hchallenge : isValidChallenge challenge = true) (happrove : st.userDecision = .approve)
    (hmethod : request.method = .get)
    (hquery : request.query =
      (client.authorizeUrl (redirectUri port) challenge state).query.map Utf8.encode)
    (hfamily : st.store.nextFamily + 1 < 2 ^ 64)
    (hdraws : ∃ draw ∈ draws, st.store.Unused (randomCredential draw)) :
    ∃ response location, ∃ draw ∈ draws,
      Authorize.handler D config st request draws = some (response, { st with
        store := st.store.issue (randomCredential draw) ⟨client.clientId, redirectUri port,
          challenge, st.clock.now, ⟨st.store.nextFamily⟩, false⟩ }) ∧
      response.status = .found ∧ response.headers.getAll .location = [location] ∧
      parseRequestLine (browserLine location) state = .ok (randomCredential draw) ∧
      st.store.Unused (randomCredential draw) := by
  have hconfig := MockConfig.validate_eq_ok.mp hclient.validated
  have hparams := queryParams_authorizeUrl hquery
  obtain ⟨registered, hid, htrusted⟩ := trusted_authorizeParams hclient challenge state
  have hvalid := validRequest_authorizeParams client port hchallenge state
  rw [← hparams] at htrusted hvalid
  have huri := hconfig.redirectUris registered htrusted.known _ htrusted.registered
  obtain ⟨draw, hmem, hunused⟩ := hdraws
  obtain ⟨⟨code, s, rest⟩, hissue⟩ := issueCode_returns registered.clientId (redirectUri port)
    challenge st.clock.now hfamily hunused
    (List.mem_map_of_mem (f := randomCredential) hmem)
  obtain ⟨hcode, hunused, rfl⟩ := Authorize.issueCode_spec hissue
  obtain ⟨draw, hmem, rfl⟩ := List.mem_map.mp hcode
  have hstate : (Authorize.queryParams request).first "state" = some state := by
    rw [hparams]
    rfl
  obtain ⟨response, hto, hstatus, location, hlocation, hbytes⟩ := Authorize.redirect_to
    ⟨redirectUri port, some state⟩ huri Authorize.plain_code
    (Authorize.plain_randomCredential draw)
  refine ⟨response, location, draw, hmem, ?_, hstatus, hlocation, ?_, hunused⟩
  · rw [Authorize.handler, Authorize.authorize_of_valid hD.urlParses hconfig hmethod htrusted
      hvalid happrove, hissue, hstate, hid]
    simp only [Option.map_some, hto]
    rfl
  · have hhash : '#' ∉ (FormUrlEncoded.serialize
        [("code", randomCredential draw), ("state", state)]).toList :=
      fun h => absurd (FormUrlEncoded.le_toNat_of_mem_serialize h) (by decide)
    rw [appended_code] at hbytes
    rw [browserLine_redirectUri hbytes hhash]
    exact parseRequestLine_code (randomToken_ne_empty draw)

/-! ## The login -/

/-- The verifier opens the challenge of the client. -/
theorem verifyS256_challengeFor (hD : Reliable D fromSlice) (verifier : Draw) :
    verifyS256 D.toHashing (randomToken verifier)
      (challengeFor D.sha256 (randomToken verifier)) = true := by
  rw [verifyS256_iff]
  refine ⟨isValidVerifier_randomToken verifier, ?_⟩
  rw [s256Challenge, hD.base64url]
  rfl

/-- The code just issued can be redeemed until its lifetime is over. -/
theorem redeemable_later (hD : Reliable D fromSlice) (clientId redirect code : String)
    (verifier : Draw) {advance : Duration} (hadvance : advance < st.store.authorizationCodeLifetime)
    (hfits : st.clock.now.Fits st.store.authorizationCodeLifetime)
    (hst' : st' = { st with
      store := st.store.issue code ⟨clientId, redirect,
        challengeFor D.sha256 (randomToken verifier), st.clock.now, ⟨st.store.nextFamily⟩,
        false⟩ }) :
    (later st' advance).store.Redeemable D.toHashing
      ⟨clientId, code, redirect, randomToken verifier⟩ (later st' advance).clock.now
      ⟨clientId, redirect, challengeFor D.sha256 (randomToken verifier), st.clock.now,
        ⟨st.store.nextFamily⟩, false⟩ := by
  subst hst'
  refine ⟨Finmap.lookup_insert _, rfl, rfl, ?_, rfl, verifyS256_challengeFor hD verifier⟩
  show st.clock.now.saturatingAdd advance <
    st.clock.now.saturatingAdd st.store.authorizationCodeLifetime
  have hlt : advance.nanos < st.store.authorizationCodeLifetime.nanos := hadvance
  have hle : (st.clock.now.saturatingAdd advance).nanos ≤ st.clock.now.nanos + advance.nanos :=
    Nat.min_le_left _ _
  rw [Duration.lt_def, Duration.nanos_saturatingAdd hfits]
  omega

/-- **The login succeeds.** In every reachable state of the mock whose user approves, the
authorization request of the client is redirected to its callback with a new code. The
callback listener reads the code, and as long as the code lives its exchange is answered with
tokens of the user, and so is the refresh after it. -/
theorem login_succeeds (hD : Reliable D fromSlice) {client : TokenClient} {port : UInt16}
    (hclient : Registered D config client port) (hreachable : Reachable D config st)
    (happrove : st.userDecision = .approve) (verifier state : Draw)
    (hmethod : request.method = .get)
    (hquery : request.query = (client.authorizeUrl (redirectUri port)
      (challengeFor D.sha256 (randomToken verifier)) (randomToken state)).query.map Utf8.encode)
    (hfamily : st.store.nextFamily + 1 < 2 ^ 64)
    (hdraws : ∃ draw ∈ draws, st.store.Unused (randomCredential draw))
    (hfits : st.clock.now.Fits config.authorizationCodeLifetime) :
    ∃ response st₁ location code,
      Authorize.handler D config st request draws = some (response, st₁) ∧
      response.status = .found ∧ response.headers.getAll .location = [location] ∧
      parseRequestLine (browserLine location) (randomToken state) = .ok code ∧
      code ∈ draws.map randomCredential ∧ st.store.Unused code ∧
      st₁ = { st with
        store := st.store.issue code ⟨client.clientId, redirectUri port,
          challengeFor D.sha256 (randomToken verifier), st.clock.now, ⟨st.store.nextFamily⟩,
          false⟩ } ∧
      ∀ advance, advance < config.authorizationCodeLifetime →
        (later st₁ advance).clock.now.Fits config.accessTokenLifetime →
      ∀ request draws, PostsForm request (client.form
          (.authorizationCode code (randomToken verifier) (redirectUri port))) →
        (FormUrlEncoded.serializeBytes (client.form
          (.authorizationCode code (randomToken verifier) (redirectUri port)))).length ≤
            Token.maxBodyBytes →
        st₁.store.Supplies (draws.map randomCredential) →
      ∃ response tokens st₂,
        Token.handler D config (later st₁ advance) request draws = some (response, st₂) ∧
        Granted fromSlice config client draws response tokens st₂ ∧ Uses st₁.store draws st₂.store ∧
      ∀ advance, (later st₂ advance).clock.now.Fits config.accessTokenLifetime →
      ∀ request draws, PostsForm request (client.form (.refreshToken tokens.refreshToken)) →
        (FormUrlEncoded.serializeBytes (client.form
          (.refreshToken tokens.refreshToken))).length ≤ Token.maxBodyBytes →
        st₂.store.Supplies (draws.map randomCredential) →
      ∃ response tokens st₃,
        Token.handler D config (later st₂ advance) request draws = some (response, st₃) ∧
        Granted fromSlice config client draws response tokens st₃ := by
  obtain ⟨hlifetime, hcodeLifetime⟩ := hreachable.lifetimes
  have hchallenge : isValidChallenge (challengeFor D.sha256 (randomToken verifier)) = true :=
    isValidChallenge_urlSafe (hD.sha256 _)
  obtain ⟨response, location, draw, hmem, hhandler, hstatus, hlocation, hline, hunused⟩ :=
    authorize_redirects hD hclient hchallenge happrove hmethod hquery hfamily hdraws
  refine ⟨_, _, _, _, hhandler, hstatus, hlocation, hline, List.mem_map_of_mem hmem, hunused,
    rfl, ?_⟩
  intro advance hadvance hnow request draws hrequest hlength hsupplies
  rw [← hcodeLifetime] at hadvance hfits
  have hredeem := redeemable_later hD client.clientId (redirectUri port) (randomCredential draw)
    verifier hadvance hfits rfl
  obtain ⟨response, tokens, st₂, hexchange, hgranted, hrenewable, hlifetime₂, huses⟩ :=
    exchange_granted hD hclient (randomToken_ne_empty draw) (randomToken_ne_empty verifier)
      (redirectUri_ne_empty port) hredeem hreachable.nextFamily_notMem hlifetime hnow hrequest
      hlength hsupplies
  refine ⟨response, tokens, st₂, hexchange, hgranted, huses, ?_⟩
  intro advance hnow request draws hrequest hlength hsupplies
  have hrenewable : Renewable client (later st₂ advance) tokens.refreshToken := hrenewable
  obtain ⟨response, tokens, st₃, hrefresh, hgranted, -, -, -⟩ :=
    refresh_granted hD hclient hrenewable hlifetime₂ hnow hrequest hlength hsupplies
  exact ⟨response, tokens, st₃, hrefresh, hgranted⟩

/-! ## A login from the start -/

def callbackDeps : Deps := { Token.loginDeps with urlParses := (· == redirectUri 8888) }

def callbackConfig : MockConfig :=
  { Token.webConfig with clients := [⟨"web", "secret", [redirectUri 8888]⟩] }

def webTokenClient : TokenClient := ⟨"http://127.0.0.1:9000/", "web", "secret"⟩

def spawned : Guarded := ⟨Server.new hour hour, .approve⟩

/-- The octets of the appendix. -/
def appendixDraw : Draw :=
  ⟨[116, 24, 223, 180, 151, 153, 224, 37, 79, 250, 96, 125, 216, 173, 187, 186, 22, 212, 37, 77,
    105, 214, 191, 240, 91, 88, 5, 88, 83, 132, 141, 121], rfl⟩

def authorizeRequest : Request where
  method := .get
  query := (webTokenClient.authorizeUrl (redirectUri 8888)
    (challengeFor callbackDeps.sha256 (randomToken appendixDraw))
    (randomToken (repeated 0))).query.map Utf8.encode
  headers := []
  body := []

theorem reliable_callbackDeps : Reliable callbackDeps Json.fromSlice where
  urlParses := by decide
  base64url := rfl
  sha256 bytes := by
    show (if _ then _ else _ : List UInt8).length = 32
    split <;> rfl
  json doc := ⟨_, rfl, Json.fromSlice_toVec doc⟩

theorem registered_webTokenClient : Registered callbackDeps callbackConfig webTokenClient 8888 where
  validated := by
    rw [MockConfig.validate_eq_ok]
    refine ⟨by decide, by decide, by decide, ?_⟩
    intro client hclient uri huri
    obtain rfl := List.mem_singleton.mp hclient
    obtain rfl := List.mem_singleton.mp huri
    exact MockConfig.checkRedirectUri_eq_ok.mp rfl
  clientId := by decide
  clientSecret := by decide
  registered := ⟨_, List.mem_singleton_self _, rfl, rfl, List.mem_singleton_self _⟩

theorem login_succeeds_spawned : ∃ (code : String) (tokens : TokenResponse)
    (st₁ st₂ st₃ : Guarded) (response₁ response₂ response₃ : Response),
    Authorize.handler callbackDeps callbackConfig spawned authorizeRequest [repeated 1] =
      some (response₁, st₁) ∧
    Token.handler callbackDeps callbackConfig (later st₁ minute)
      (formPost (webTokenClient.form
        (.authorizationCode code (randomToken appendixDraw) (redirectUri 8888))))
      [repeated 2, repeated 3] = some (response₂, st₂) ∧
    Server.tokenInfo st₂.toState tokens.accessToken = some ⟨.user, "web", hour⟩ ∧
    Token.handler callbackDeps callbackConfig (later st₂ hour)
      (formPost (webTokenClient.form (.refreshToken tokens.refreshToken)))
      [repeated 4, repeated 5] = some (response₃, st₃) ∧ response₃.status = .ok := by
  have hspawned : Reachable callbackDeps callbackConfig spawned := .spawn
  have hmethod : authorizeRequest.method = .get := rfl
  have hdraws : ∃ draw ∈ [repeated 1], spawned.store.Unused (randomCredential draw) :=
    ⟨_, List.mem_singleton_self _, by decide⟩
  obtain ⟨response₁, st₁, location, code, hauthorize, -, -, -, hcode, -, hst₁, hexchange⟩ :=
    login_succeeds reliable_callbackDeps registered_webTokenClient hspawned rfl appendixDraw
      (repeated 0) hmethod rfl (by decide) hdraws (by decide)
  obtain rfl : code = randomCredential (repeated 1) := by simpa using hcode
  have hunused : ∀ b, randomCredential (repeated b) ≠ randomCredential (repeated 1) →
      st₁.store.Unused (randomCredential (repeated b)) := by
    intro b hb
    rw [hst₁]
    refine ⟨?_, Finmap.notMem_empty, Finmap.notMem_empty⟩
    rw [Store.issue, Finmap.mem_insert, not_or]
    exact ⟨hb, Finmap.notMem_empty⟩
  obtain ⟨response₂, tokens, st₂, htokens, hgranted, huses, hrefresh⟩ :=
    hexchange minute (by decide) (by rw [hst₁]; decide)
      (formPost (webTokenClient.form (.authorizationCode (randomCredential (repeated 1))
        (randomToken appendixDraw) (redirectUri 8888))))
      [repeated 2, repeated 3] (postsForm_formPost _) (by decide +kernel)
      ⟨_, List.mem_cons_self, _, List.mem_cons_of_mem _ (List.mem_singleton_self _),
        by decide +kernel, hunused 2 (by decide +kernel), hunused 3 (by decide +kernel)⟩
  have hclock : st₂.clock = (later st₁ minute).clock := by
    rcases Token.handler_moves htokens with rfl | ⟨_, _, _, _, rfl⟩ <;> rfl
  have hfits : (later st₂ hour).clock.now.Fits callbackConfig.accessTokenLifetime := by
    show (st₂.clock.advance hour).now.Fits _
    rw [hclock, hst₁]
    decide
  have hunused₂ : ∀ b, randomCredential (repeated b) ≠ randomCredential (repeated 1) →
      randomCredential (repeated b) ∉ [repeated 2, repeated 3].map randomCredential →
      st₂.store.Unused (randomCredential (repeated b)) :=
    fun b hb hnot => huses _ (hunused b hb) hnot
  have hlength : (FormUrlEncoded.serializeBytes
      (webTokenClient.form (.refreshToken tokens.refreshToken))).length ≤ Token.maxBodyBytes := by
    have hall : ∀ token ∈ [repeated 2, repeated 3].map randomCredential,
        (FormUrlEncoded.serializeBytes (webTokenClient.form (.refreshToken token))).length ≤
          Token.maxBodyBytes := by decide +kernel
    exact hall _ hgranted.refreshToken
  obtain ⟨response₃, tokens₃, st₃, hhandler, hgranted₃⟩ :=
    hrefresh hour hfits (formPost (webTokenClient.form (.refreshToken tokens.refreshToken)))
      [repeated 4, repeated 5] (postsForm_formPost _) hlength
      ⟨_, List.mem_cons_self, _, List.mem_cons_of_mem _ (List.mem_singleton_self _),
        by decide +kernel, hunused₂ 4 (by decide +kernel) (by decide +kernel),
        hunused₂ 5 (by decide +kernel) (by decide +kernel)⟩
  exact ⟨_, tokens, st₁, st₂, st₃, response₁, response₂, response₃, hauthorize, htokens,
    hgranted.tokenInfo, hhandler, hgranted₃.status⟩

end Rsc.EndToEnd

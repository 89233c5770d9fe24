import Rsc.Mock.Authorize

/-!
No open redirect: the authorization endpoint redirects to nothing but a URI registered for
the client that the query names, and issues a code for nothing but an approved valid request.
-/

namespace Rsc.Mock.Authorize

open Rsc.Library Rsc.Library.Http Rsc.Mock.Store Rsc.Mock.Pkce
open Token (loginDeps webClient webConfig loggedIn)

variable {D : Deps} {config : MockConfig} {st st' : Guarded} {request : Request}
  {draws : List Draw} {params : Params}

/-! ## The text of a redirect -/

/-- The parameter `state` that is appended when the query has one. -/
def stateText : Option String → String
  | none => ""
  | some state => "&state=" ++ Utf8.ascii (FormUrlEncoded.encodeText state)

/-- The text that a redirect appends to its URI. -/
def appended (base name value : String) (state : Option String) : String :=
  separator base ++ (name ++ "=" ++ value ++ stateText state)

/-- The response redirects to the URI with the text after it. -/
structure Redirects (response : Response) (uri text : String) : Prop where
  status : response.status = .found
  location : ∃ location, response.headers.getAll .location = [location] ∧
    location.bytes = Utf8.encode (uri ++ text)

/-- The bytes of a character that is no control character may stand in a header. -/
theorem isHeaderByte_of_mem {c : Char} (hc : MockConfig.isControl c = false) {b : UInt8}
    (hb : b ∈ String.utf8EncodeChar c) : isHeaderByte b = true := by
  have hcontrol : 32 ≤ c.toNat ∧ ¬ (127 ≤ c.toNat ∧ c.toNat ≤ 159) := by
    simpa [MockConfig.isControl] using hc
  have hbytes : ∀ b ∈ String.utf8EncodeChar c, 32 ≤ b.toNat ∧ b.toNat ≠ 127 := by
    simp only [String.utf8EncodeChar, ← Char.toNat.eq_1]
    split
    · simp
      omega
    · split
      · simp
        omega
      · split
        · simp
          omega
        · simp
          omega
  have hall : ∀ b : UInt8, 32 ≤ b.toNat ∧ b.toNat ≠ 127 → isHeaderByte b = true :=
    Utf8.forall_byte (by decide +kernel)
  exact hall b (hbytes b hb)

theorem isHeaderByte_of_isControl {uri : String}
    (huri : ∀ c ∈ uri.toList, MockConfig.isControl c = false) {b : UInt8}
    (hb : b ∈ Utf8.encode uri) : isHeaderByte b = true := by
  rw [Utf8.encode_eq] at hb
  obtain ⟨c, hc, hb⟩ := List.mem_flatMap.mp hb
  exact isHeaderByte_of_mem (huri c hc) hb

/-- A name or value that a redirect carries as it is. -/
def Plain (text : String) : Prop := ∀ b ∈ Utf8.encode text, FormUrlEncoded.isUnchanged b = true

theorem lt_of_mem_encodeText {text : String} {b : UInt8}
    (h : b ∈ FormUrlEncoded.encodeText text) : b < 128 :=
  UInt8.lt_trans (FormUrlEncoded.isWritten_encodeText h).bounds.2.1 (by decide)

theorem query_bytes {name value : String} (hname : Plain name) (hvalue : Plain value)
    (state : Option String) :
    FormUrlEncoded.serializeBytes
        ((name, value) :: (state.map fun state => ("state", state)).toList) =
      Utf8.encode (name ++ "=" ++ value ++ stateText state) := by
  have hpair : FormUrlEncoded.encodePair (name, value) =
      Utf8.encode name ++ 61 :: Utf8.encode value := by
    rw [FormUrlEncoded.encodePair, FormUrlEncoded.encodeText_of_isUnchanged hname,
      FormUrlEncoded.encodeText_of_isUnchanged hvalue]
  rw [Utf8.encode_append, Utf8.encode_append, Utf8.encode_append,
    show Utf8.encode "=" = [61] by decide +kernel, List.append_assoc (Utf8.encode name),
    List.singleton_append, ← hpair]
  cases state with
  | none => exact (FormUrlEncoded.serializeBytes_singleton _).trans (List.append_nil _).symm
  | some state =>
    rw [stateText, Utf8.encode_append, Utf8.encode_ascii fun b hb => lt_of_mem_encodeText hb,
      show Utf8.encode "&state=" = 38 :: (FormUrlEncoded.encodeText "state" ++ [61])
        by decide +kernel]
    show FormUrlEncoded.serializeBytes [(name, value), ("state", state)] = _
    rw [FormUrlEncoded.serializeBytes_cons, FormUrlEncoded.serializeBytes_singleton,
      FormUrlEncoded.encodePair]
    simp only [List.append_assoc, List.cons_append, List.nil_append]
    rfl

theorem separator_eq (base : String) :
    separator base = "?" ∨ separator base = "" ∨ separator base = "&" := by
  unfold separator
  split_ifs
  · exact .inr (.inl rfl)
  · exact .inr (.inr rfl)
  · exact .inl rfl

theorem isHeaderByte_of_visible {b : UInt8} (hb : 37 ≤ b ∧ b < 127) : isHeaderByte b = true := by
  have hall : ∀ b : UInt8, 37 ≤ b ∧ b < 127 → isHeaderByte b = true :=
    Utf8.forall_byte (by decide +kernel)
  exact hall b hb

/-- The parameters that a redirect appends. -/
def Redirect.parameters (redirect : Redirect) (name value : String) : List (String × String) :=
  (name, value) :: (redirect.state.map fun state => ("state", state)).toList

/-- What a redirect appends to its URI. -/
def Redirect.text (redirect : Redirect) (name value : String) : String :=
  separator redirect.base ++ FormUrlEncoded.serialize (redirect.parameters name value)

theorem visible_of_mem_text (redirect : Redirect) (name value : String) {b : UInt8}
    (hb : b ∈ Utf8.encode (redirect.text name value)) : 37 ≤ b ∧ b < 127 := by
  rw [Redirect.text, Utf8.encode_append, FormUrlEncoded.encode_serialize] at hb
  rcases List.mem_append.mp hb with hb | hb
  · have hall : ∀ text ∈ ["?", "", "&"], ∀ b ∈ Utf8.encode text, 37 ≤ b ∧ b < 127 := by
      decide +kernel
    exact hall _ (by simpa using separator_eq redirect.base) b hb
  · exact ⟨(FormUrlEncoded.lt_of_mem_serializeBytes hb).1,
      (FormUrlEncoded.lt_of_mem_serializeBytes hb).2.1⟩

/-- A redirect to a URI without control characters succeeds. -/
theorem to_eq_ok (redirect : Redirect)
    (hbase : ∀ c ∈ redirect.base.toList, MockConfig.isControl c = false) (name value : String) :
    ∃ response, redirect.to name value = .ok response ∧
      Redirects response redirect.base (redirect.text name value) := by
  have hvalid : (Utf8.encode (redirect.base ++ separator redirect.base ++ FormUrlEncoded.serialize
      ((name, value) :: (redirect.state.map fun state => ("state", state)).toList))).all
        isHeaderByte = true := by
    rw [String.append_assoc, Utf8.encode_append, List.all_append, Bool.and_eq_true]
    refine ⟨?_, ?_⟩
    · exact List.all_eq_true.mpr fun b hb => isHeaderByte_of_isControl hbase hb
    · exact List.all_eq_true.mpr fun b hb =>
        isHeaderByte_of_visible (visible_of_mem_text redirect name value hb)
  refine ⟨_, by rw [Redirect.to, HeaderValue.tryFrom, dif_pos hvalid], rfl, _, rfl, ?_⟩
  rw [Redirect.text, Redirect.parameters, ← String.append_assoc]

theorem redirect_to {urlParses : String → Bool} (redirect : Redirect)
    (hbase : MockConfig.GoodUri urlParses redirect.base) {name value : String}
    (hname : Plain name) (hvalue : Plain value) :
    ∃ response, redirect.to name value = .ok response ∧
      Redirects response redirect.base (appended redirect.base name value redirect.state) := by
  have htext : redirect.text name value = appended redirect.base name value redirect.state := by
    rw [Redirect.text, appended, ← Utf8.encode_inj, Utf8.encode_append, Utf8.encode_append,
      FormUrlEncoded.encode_serialize]
    exact congrArg _ (query_bytes hname hvalue redirect.state)
  rw [← htext]
  exact to_eq_ok redirect hbase.2.2 name value

/-! ## What a request can lead to -/

/-- The `error=` codes. -/
def errors : List String := ["invalid_request", "unsupported_response_type", "access_denied"]

theorem plain_errors : ∀ e ∈ errors, Plain e := by
  unfold Plain
  decide +kernel

theorem plain_error : Plain "error" := by
  unfold Plain
  decide +kernel

theorem plain_code : Plain "code" := by
  unfold Plain
  decide +kernel

theorem plain_randomCredential (draw : Draw) : Plain (randomCredential draw) := by
  intro b hb
  rw [randomCredential, Base64.encode_urlSafe] at hb
  have hsafe := Base64.isUrlSafe_encodeBytes hb
  have hall : ∀ b, Base64.isUrlSafe b = true → FormUrlEncoded.isUnchanged b = true :=
    Utf8.forall_byte (by decide +kernel)
  exact hall b hsafe

/-- The three ways the endpoint answers a GET request. -/
inductive Outcome (config : MockConfig) (st : Guarded) (params : Params) :
    Response → Guarded → Prop
  | refused {response : Response} (hnot : ∀ client uri, ¬ Trusted config params client uri)
      (hlocation : response.headers.get .location = none) : Outcome config st params response st
  | error {response : Response} {client : RegisteredClient} {uri e : String}
      (htrusted : Trusted config params client uri)
      (hnot : ∀ challenge, ValidRequest params challenge → st.userDecision = .deny)
      (he : e ∈ errors)
      (hredirects : Redirects response uri (appended uri "error" e (params.first "state"))) :
      Outcome config st params response st
  | code {response : Response} {client : RegisteredClient} {uri challenge code : String}
      (htrusted : Trusted config params client uri) (hvalid : ValidRequest params challenge)
      (happrove : st.userDecision = .approve) (hcode : st.store.Unused code)
      (hredirects : Redirects response uri (appended uri "code" code (params.first "state"))) :
      Outcome config st params response { st with
        store := st.store.issue code
          ⟨client.clientId, uri, challenge, st.clock.now, ⟨st.store.nextFamily⟩, false⟩ }

theorem issueCode_spec {s s' : Store} {clientId redirectUri codeChallenge code : String}
    {now : Duration} {draws rest : List String}
    (h : s.issueCode clientId redirectUri codeChallenge now draws = some (code, s', rest)) :
    code ∈ draws ∧ s.Unused code ∧
      s' = s.issue code ⟨clientId, redirectUri, codeChallenge, now, ⟨s.nextFamily⟩, false⟩ := by
  simp only [issueCode, Option.bind_eq_bind, Option.bind_eq_some_iff, Option.pure_def,
    Option.some.injEq, Prod.mk.injEq, Prod.exists] at h
  obtain ⟨_, _, c, rest, hc, rfl, rfl, _⟩ := h
  have hunused := freshCredential_unused hc
  exact ⟨freshCredential_mem hc, hunused, rfl⟩

theorem handler_outcome (hurl : D.urlParses "" = false)
    (hconfig : config.Valid D.urlParses) (hmethod : request.method = .get ∨ request.method = .head)
    {response : Response} (h : handler D config st request draws = some (response, st')) :
    Outcome config st (queryParams request) response st' := by
  obtain ⟨⟨result, st''⟩, hauthorize, hunwrap⟩ := Option.map_eq_some_iff.mp h
  cases hunwrap
  have hget : ¬ (request.method ≠ .get ∧ request.method ≠ .head) := by
    rintro ⟨hget, hhead⟩
    exact hmethod.elim hget hhead
  rw [authorize, if_neg hget] at hauthorize
  split at hauthorize
  · rename_i e htrusted
    cases hauthorize
    refine .refused (fun client uri hnot => ?_) e.intoResponse_location
    rw [(trusted_eq_ok hurl hconfig).mpr hnot] at htrusted
    cases htrusted
  rename_i client uri htrusted
  have htrusted := (trusted_eq_ok hurl hconfig).mp htrusted
  have huri := hconfig.redirectUris client htrusted.known uri htrusted.registered
  split at hauthorize
  · rename_i e hvalidate
    have he : e ∈ errors := by
      rcases validate_eq_error hvalidate with rfl | rfl
      · exact List.mem_cons_self
      · exact List.mem_cons_of_mem _ List.mem_cons_self
    obtain ⟨response, hto, hredirects⟩ := redirect_to
      ⟨uri, (queryParams request).first "state"⟩ huri plain_error (plain_errors e he)
    cases hauthorize
    rw [hto]
    refine .error htrusted (fun challenge hvalid => ?_) he hredirects
    rw [validate_eq_ok.mpr hvalid] at hvalidate
    cases hvalidate
  rename_i challenge hvalidate
  have hvalid := validate_eq_ok.mp hvalidate
  by_cases hdeny : st.userDecision = .deny
  · rw [if_pos hdeny] at hauthorize
    have he : "access_denied" ∈ errors := by decide
    obtain ⟨response, hto, hredirects⟩ := redirect_to
      ⟨uri, (queryParams request).first "state"⟩ huri plain_error (plain_errors _ he)
    cases hauthorize
    rw [hto]
    exact .error htrusted (fun _ _ => hdeny) he hredirects
  · rw [if_neg hdeny] at hauthorize
    have happrove : st.userDecision = .approve := by
      cases hdecision : st.userDecision with
      | approve => rfl
      | deny => exact absurd hdecision hdeny
    obtain ⟨⟨code, s, rest⟩, hissue, hanswer⟩ := Option.map_eq_some_iff.mp hauthorize
    obtain ⟨hmem, hunused, rfl⟩ := issueCode_spec hissue
    obtain ⟨draw, -, rfl⟩ := List.mem_map.mp hmem
    obtain ⟨response, hto, hredirects⟩ := redirect_to
      ⟨uri, (queryParams request).first "state"⟩ huri plain_code (plain_randomCredential draw)
    cases hanswer
    rw [hto]
    exact .code htrusted hvalid happrove hunused hredirects

/-- The endpoint answers as soon as the draws hold an unused credential. -/
theorem handler_returns {draw : Draw} (hnext : st.store.nextFamily + 1 < 2 ^ 64)
    (hunused : st.store.Unused (randomCredential draw)) (hmem : draw ∈ draws) :
    ∃ response st', handler D config st request draws = some (response, st') := by
  have hauthorize : ∃ out, authorize config st request draws = some out := by
    unfold authorize
    split
    · exact ⟨_, rfl⟩
    split
    · exact ⟨_, rfl⟩
    rename_i client base htrusted
    dsimp only
    split
    · exact ⟨_, rfl⟩
    rename_i challenge hvalidate
    split
    · exact ⟨_, rfl⟩
    obtain ⟨out, hout⟩ := issueCode_returns client.clientId base challenge st.clock.now hnext
      hunused (List.mem_map_of_mem (f := randomCredential) hmem)
    rw [hout]
    exact ⟨_, rfl⟩
  obtain ⟨out, hout⟩ := hauthorize
  exact ⟨_, _, by rw [handler, hout]; rfl⟩

theorem Trusted.unique {urlParses : String → Bool} (hconfig : config.Valid urlParses)
    {client client' : RegisteredClient} {uri uri' : String}
    (h : Trusted config params client uri) (h' : Trusted config params client' uri') :
    client = client' ∧ uri = uri' := by
  have hid : client.clientId = client'.clientId :=
    (List.cons.inj (h.clientId.symm.trans h'.clientId)).1
  have hfind := (MockConfig.client_eq_some hconfig).mpr ⟨h.known, hid⟩
  have hfind' := (MockConfig.client_eq_some hconfig).mpr ⟨h'.known, rfl⟩
  exact ⟨Option.some.inj (hfind.symm.trans hfind'),
    (List.cons.inj (h.redirectUri.symm.trans h'.redirectUri)).1⟩

theorem ValidRequest.unique {challenge challenge' : String} (h : ValidRequest params challenge)
    (h' : ValidRequest params challenge') : challenge = challenge' :=
  (List.cons.inj (h.challenged.symm.trans h'.challenged)).1

theorem Redirects.isSome {response : Response} {uri text : String}
    (h : Redirects response uri text) : (response.headers.get .location).isSome := by
  obtain ⟨location, hlocation, -⟩ := h.location
  rw [HeaderMap.get, hlocation]
  rfl

/-- The state has a new code. -/
theorem issue_ne {code : String} {entry : AuthCode} (hcode : st.store.Unused code) :
    { st with store := st.store.issue code entry } ≠ st := by
  intro h
  have hstore : st.store.issue code entry = st.store := congrArg (fun st => st.store) h
  have hcodes : (st.store.issue code entry).codes.lookup code = some entry :=
    Finmap.lookup_insert _
  rw [hstore] at hcodes
  exact hcode.1 (Finmap.mem_of_lookup_eq_some hcodes)

/-- **No open redirect.** A GET request is redirected exactly when its query names, once
each, a registered client and a URI registered for it, and then to that URI with a text
after it. The state changes exactly when the query is valid too and the user approves: one
new code is issued and the text carries it. Every other redirect carries an error. -/
theorem no_open_redirect (hurl : D.urlParses "" = false)
    (hconfig : config.validate D.urlParses = .ok ())
    (hmethod : request.method = .get ∨ request.method = .head) {response : Response}
    (h : handler D config st request draws = some (response, st')) :
    ((response.headers.get .location).isSome ↔
      ∃ client uri, Trusted config (queryParams request) client uri) ∧
    (st' ≠ st ↔ ∃ client uri challenge, Trusted config (queryParams request) client uri ∧
      ValidRequest (queryParams request) challenge ∧ st.userDecision = .approve) ∧
    ∀ client uri, Trusted config (queryParams request) client uri →
      (∀ challenge, ValidRequest (queryParams request) challenge → st.userDecision = .approve →
        ∃ code, st.store.Unused code ∧
          st' = { st with
            store := st.store.issue code
              ⟨client.clientId, uri, challenge, st.clock.now, ⟨st.store.nextFamily⟩, false⟩ } ∧
          Redirects response uri
            (separator uri ++ ("code=" ++ code ++ stateText ((queryParams request).first "state")))) ∧
      ((∀ challenge, ValidRequest (queryParams request) challenge → st.userDecision ≠ .approve) →
        st' = st ∧ ∃ error ∈ errors, Redirects response uri
          (separator uri ++
            ("error=" ++ error ++ stateText ((queryParams request).first "state")))) := by
  have hconfig := MockConfig.validate_eq_ok.mp hconfig
  cases handler_outcome hurl hconfig hmethod h with
  | refused hnot hlocation =>
    refine ⟨?_, ?_, fun client uri htrusted => absurd htrusted (hnot client uri)⟩
    · rw [hlocation]
      exact iff_of_false nofun fun ⟨client, uri, htrusted⟩ => hnot client uri htrusted
    · exact iff_of_false (fun hne => hne rfl)
        fun ⟨client, uri, _, htrusted, _⟩ => hnot client uri htrusted
  | @error client uri e htrusted hnot he hredirects =>
    have hdenied : ∀ challenge, ValidRequest (queryParams request) challenge →
        st.userDecision ≠ .approve := fun challenge hvalid happrove => by
      rw [hnot challenge hvalid] at happrove
      cases happrove
    refine ⟨iff_of_true hredirects.isSome ⟨client, uri, htrusted⟩, ?_, ?_⟩
    · exact iff_of_false (fun hne => hne rfl)
        fun ⟨_, _, challenge, _, hvalid, happrove⟩ => hdenied challenge hvalid happrove
    · intro client' uri' htrusted'
      obtain ⟨rfl, rfl⟩ := htrusted.unique hconfig htrusted'
      exact ⟨fun challenge hvalid happrove => absurd happrove (hdenied challenge hvalid),
        fun _ => ⟨rfl, e, he, hredirects⟩⟩
  | @code client uri challenge code htrusted hvalid happrove hcode hredirects =>
    refine ⟨iff_of_true hredirects.isSome ⟨client, uri, htrusted⟩, ?_, ?_⟩
    · exact iff_of_true (issue_ne hcode) ⟨client, uri, challenge, htrusted, hvalid, happrove⟩
    · intro client' uri' htrusted'
      obtain ⟨rfl, rfl⟩ := htrusted.unique hconfig htrusted'
      refine ⟨fun challenge' hvalid' _ => ?_, fun hnot => absurd happrove (hnot challenge hvalid)⟩
      obtain rfl := hvalid.unique hvalid'
      exact ⟨code, hcode, rfl, hredirects⟩

/-- The query of the login. -/
def loginQuery : List (String × String) :=
  [("client_id", "web"), ("redirect_uri", "http://127.0.0.1/callback"), ("response_type", "code"),
    ("code_challenge", "E9Melhoa2OwvFrEMTJguCHaoeK1t8URWbuGJSstw-cM"),
    ("code_challenge_method", "S256"), ("state", "a b")]

def loginAuthorize : Request := ⟨.get, some (FormUrlEncoded.serializeBytes loginQuery), [], []⟩

def zeroDraw : Draw := repeated 0

theorem validate_webConfig : webConfig.validate loginDeps.urlParses = .ok () := by
  rw [MockConfig.validate_eq_ok]
  refine ⟨by decide, by decide, by decide, ?_⟩
  intro client hclient uri huri
  obtain rfl := List.mem_singleton.mp hclient
  obtain rfl := List.mem_singleton.mp huri
  exact MockConfig.checkRedirectUri_eq_ok.mp rfl

theorem queryParams_loginAuthorize : queryParams loginAuthorize = ⟨loginQuery⟩ :=
  congrArg Params.mk (FormUrlEncoded.parse_serializeBytes loginQuery)

theorem trusted_loginAuthorize : Trusted webConfig (queryParams loginAuthorize) webClient
    "http://127.0.0.1/callback" := by
  rw [queryParams_loginAuthorize]
  exact ⟨rfl, by decide, List.mem_cons_self, rfl, List.mem_cons_self⟩

theorem validRequest_loginAuthorize : ValidRequest (queryParams loginAuthorize)
    "E9Melhoa2OwvFrEMTJguCHaoeK1t8URWbuGJSstw-cM" := by
  rw [queryParams_loginAuthorize]
  exact ⟨rfl, rfl, by decide +kernel, rfl, by decide⟩

theorem no_open_redirect_login : ∃ response st' code,
    handler loginDeps webConfig loggedIn loginAuthorize [zeroDraw] = some (response, st') ∧
      Redirects response "http://127.0.0.1/callback" ("?" ++ ("code=" ++ code ++ "&state=a+b")) ∧
      st' = { loggedIn with
        store := loginStore.issue code ⟨"web", "http://127.0.0.1/callback",
          "E9Melhoa2OwvFrEMTJguCHaoeK1t8URWbuGJSstw-cM", minute, ⟨1⟩, false⟩ } := by
  obtain ⟨response, st', hreturns⟩ : ∃ response st',
      handler loginDeps webConfig loggedIn loginAuthorize [zeroDraw] = some (response, st') :=
    handler_returns (by decide) (by decide +kernel) List.mem_cons_self
  obtain ⟨code, -, hst', hredirects⟩ :=
    ((no_open_redirect rfl validate_webConfig (.inl rfl) hreturns).2.2 _ _
      trusted_loginAuthorize).1 _ validRequest_loginAuthorize rfl
  refine ⟨response, st', code, hreturns, ?_, hst'⟩
  have hstate : stateText ((queryParams loginAuthorize).first "state") = "&state=a+b" := by
    rw [queryParams_loginAuthorize]
    decide +kernel
  rwa [hstate] at hredirects

end Rsc.Mock.Authorize

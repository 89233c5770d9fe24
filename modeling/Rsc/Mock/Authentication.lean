import Rsc.Library.Base64
import Rsc.Mock.Token
import Mathlib.Data.Option.Basic

/-!
Which client a token request is authenticated as: the one whose credentials it presents, by
the body or by a single Basic header, and nobody else.
-/

namespace Rsc.Mock.ClientAuth

open Rsc.Library Rsc.Library.Http Rsc.Mock.Pkce

/-- The header has the Basic scheme in any case, and after one space the base64 of the id and
the secret, with blanks around it. The id ends at the first colon. -/
def BasicHeader (base64Decode : String → Option (List UInt8)) (value : HeaderValue)
    (clientId clientSecret : String) : Prop :=
  ∃ scheme encoded, value.toStr = some (scheme ++ ' ' :: encoded) ∧ ' ' ∉ scheme ∧
    Text.eqIgnoreAsciiCase scheme "basic".toList = true ∧
    base64Decode (.ofList (Text.trim encoded)) =
      some (Utf8.encode (clientId ++ ":" ++ clientSecret)) ∧
    ':' ∉ clientId.toList ∧ clientId ≠ "" ∧ clientSecret ≠ ""

/-- The body presents the credentials of the client, and there is no header. -/
structure ByBody (headers : HeaderMap) (params : Params) (client : RegisteredClient) : Prop where
  noHeader : headers.getAll .authorization = []
  clientId : params.occurrences "client_id" = [client.clientId]
  clientId_ne : client.clientId ≠ ""
  clientSecret : params.occurrences "client_secret" = [client.clientSecret]
  clientSecret_ne : client.clientSecret ≠ ""

/-- A single header presents the credentials of the client. The body has no secret, and no
other id. -/
structure ByBasic (base64Decode : String → Option (List UInt8)) (headers : HeaderMap)
    (params : Params) (client : RegisteredClient) : Prop where
  header : ∃ value, headers.getAll .authorization = [value] ∧
    BasicHeader base64Decode value client.clientId client.clientSecret
  noSecret : params.occurrences "client_secret" = []
  clientId : params.occurrences "client_id" = [] ∨ params.occurrences "client_id" = [""] ∨
    params.occurrences "client_id" = [client.clientId]

/-- No registered secret has the digest of another secret that the request presents. -/
def NoCollision (D : Deps) (clients : List RegisteredClient) (headers : HeaderMap)
    (params : Params) : Prop :=
  ∀ method clientId clientSecret,
    presented D.base64Decode headers params = .ok (method, clientId, clientSecret) →
      ∀ client ∈ clients, D.sha256 (asBytes client.clientSecret) = D.sha256 (asBytes clientSecret) →
        client.clientSecret = clientSecret

variable {D : Deps} {base64Decode : String → Option (List UInt8)} {headers : HeaderMap}
  {params : Params} {method : Method} {clientId clientSecret : String}

theorem basicCredentials_eq_some :
    basicCredentials base64Decode headers = some (clientId, clientSecret) ↔
      ∃ value, headers.getAll .authorization = [value] ∧
        BasicHeader base64Decode value clientId clientSecret := by
  unfold basicCredentials
  constructor
  · intro h
    split at h
    · next value hvalue =>
      simp only [Option.bind_eq_bind, Option.bind_eq_some_iff, Option.guard_eq_some',
        Option.pure_def, Option.some.injEq, Prod.mk.injEq] at h
      obtain ⟨text, htext, ⟨scheme, encoded⟩, hsplit, -, hbasic, bytes, hdecode, decoded, hutf8,
        ⟨id, secret⟩, hcolon, -, ⟨hid, hsecret⟩, rfl, rfl⟩ := h
      obtain ⟨rfl, hscheme⟩ := Text.splitOnce_eq_some.mp hsplit
      obtain ⟨hdecoded, hnot⟩ := Text.splitOnce_eq_some.mp hcolon
      rw [Utf8.fromUTF8?_eq_some.mp hutf8] at hdecode
      refine ⟨value, hvalue, scheme, encoded, htext, hscheme, hbasic, ?_, ?_, ?_, ?_⟩
      · rw [hdecode, Option.some.injEq, Utf8.encode_inj, ← String.toList_inj, hdecoded]
        simp
      · rwa [String.toList_ofList]
      · simpa using hid
      · simpa using hsecret
    · cases h
  · rintro ⟨value, hvalue, scheme, encoded, htext, hscheme, hbasic, hdecode, hcolon, hid, hsecret⟩
    rw [hvalue]
    simp only [Option.bind_eq_bind, Option.bind_eq_some_iff, Option.guard_eq_some',
      Option.pure_def, Option.some.injEq, Prod.mk.injEq]
    refine ⟨_, htext, _, Text.splitOnce_eq_some.mpr ⟨rfl, hscheme⟩, (), hbasic, _, hdecode, _,
      Utf8.fromUTF8?_eq_some.mpr rfl, (clientId.toList, clientSecret.toList),
      Text.splitOnce_eq_some.mpr ⟨by simp, hcolon⟩, (), ⟨by simpa using hid, by simpa using hsecret⟩,
      String.ofList_toList, String.ofList_toList⟩

theorem containsKey_eq {name : HeaderName} :
    headers.containsKey name = !(headers.getAll name).isEmpty := by
  rw [HeaderMap.containsKey, HeaderMap.get]
  cases headers.getAll name <;> rfl

/-- Without a header the credentials are those of the body. -/
theorem presented_of_noHeader (h : headers.getAll .authorization = []) :
    presented base64Decode headers params = .ok (method, clientId, clientSecret) ↔
      method = .body ∧ params.value "client_id" = some clientId ∧
        params.value "client_secret" = some clientSecret := by
  rw [presented, containsKey_eq, h, if_neg (by simp)]
  cases params.value "client_id" <;> cases params.value "client_secret" <;>
    simp [eq_comm, throw, throwThe, MonadExceptOf.throw, pure, Except.pure]

/-- With a header they are those of the header. -/
theorem presented_of_header (h : headers.getAll .authorization ≠ []) :
    presented base64Decode headers params = .ok (method, clientId, clientSecret) ↔
      method = .basic ∧ basicCredentials base64Decode headers = some (clientId, clientSecret) ∧
        params.occurrences "client_secret" = [] ∧
        (params.value "client_id" = none ∨ params.value "client_id" = some clientId) := by
  rw [presented, containsKey_eq, if_pos (by simpa using h)]
  cases hbasic : basicCredentials base64Decode headers with
  | none =>
    refine iff_of_false (fun hthrow => by cases hthrow) ?_
    rintro ⟨-, hcredentials, -⟩
    cases hcredentials
  | some credentials =>
    obtain ⟨id, secret⟩ := credentials
    have hpure : (pure (.basic, id, secret) : Except ApiError (Method × String × String)) =
        .ok (method, clientId, clientSecret) ↔
          method = .basic ∧ id = clientId ∧ secret = clientSecret := by
      simp [pure, Except.pure, eq_comm]
    have hany : ¬ (params.value "client_id").any (· != id) = true ↔
        params.value "client_id" = none ∨ params.value "client_id" = some id := by
      cases params.value "client_id" <;> simp
    have hcontains : ¬ params.contains "client_secret" = true ↔
        params.occurrences "client_secret" = [] := by
      rw [Params.contains]
      cases params.occurrences "client_secret" <;> simp
    simp only [Except.unless_eq_ok, hpure, hany, hcontains, Option.some.injEq, Prod.mk.injEq]
    constructor
    · rintro ⟨hsecret, hid, hmethod, rfl, rfl⟩
      exact ⟨hmethod, ⟨rfl, rfl⟩, hsecret, hid⟩
    · rintro ⟨hmethod, ⟨rfl, rfl⟩, hsecret, hid⟩
      exact ⟨hsecret, hid, hmethod, rfl, rfl⟩

theorem confirm_eq_ok {H : Hashing} {clients : List RegisteredClient} {client : RegisteredClient}
    {method' : Method} :
    confirm H clients method clientId clientSecret = .ok ⟨client, method'⟩ ↔
      method' = method ∧ clients.find? (·.clientId == clientId) = some client ∧
        H.sha256 (asBytes client.clientSecret) = H.sha256 (asBytes clientSecret) := by
  unfold confirm
  cases hfind : clients.find? (·.clientId == clientId) with
  | none => exact iff_of_false nofun fun h => nomatch h.2.1
  | some found =>
    have hpure : (pure ⟨found, method⟩ : Except ApiError Authenticated) = .ok ⟨client, method'⟩ ↔
        found = client ∧ method = method' := by
      simp [pure, Except.pure]
    show (if secretsEqual H found.clientSecret clientSecret then
      (pure ⟨found, method⟩ : Except ApiError Authenticated)
        else throw .invalidClientCredentials) = _ ↔ _
    rw [Option.some.injEq]
    by_cases hmatch : secretsEqual H found.clientSecret clientSecret = true
    · rw [if_pos hmatch, hpure]
      constructor
      · rintro ⟨rfl, rfl⟩
        exact ⟨rfl, rfl, beq_iff_eq.mp hmatch⟩
      · rintro ⟨rfl, rfl, -⟩
        exact ⟨rfl, rfl⟩
    · rw [if_neg hmatch]
      refine iff_of_false nofun ?_
      rintro ⟨-, rfl, hdigest⟩
      exact hmatch (beq_iff_eq.mpr hdigest)

theorem authenticate_eq_ok {config : MockConfig} {urlParses : String → Bool}
    (hconfig : config.validate urlParses = .ok ())
    (hcollision : NoCollision D config.clients headers params) {client : RegisteredClient} :
    authenticate D config.clients headers params = .ok ⟨client, method⟩ ↔
      client ∈ config.clients ∧ presented D.base64Decode headers params =
        .ok (method, client.clientId, client.clientSecret) := by
  have hvalid := MockConfig.validate_eq_ok.mp hconfig
  unfold authenticate
  rw [Except.bind_eq_ok]
  constructor
  · rintro ⟨⟨method', id, secret⟩, hpresented, hconfirm⟩
    obtain ⟨rfl, hfind, hdigest⟩ := confirm_eq_ok.mp hconfirm
    obtain ⟨hmem, rfl⟩ := (MockConfig.client_eq_some hvalid).mp hfind
    obtain rfl := hcollision _ _ _ hpresented client hmem hdigest
    exact ⟨hmem, hpresented⟩
  · rintro ⟨hmem, hpresented⟩
    exact ⟨_, hpresented, confirm_eq_ok.mpr
      ⟨rfl, (MockConfig.client_eq_some hvalid).mpr ⟨hmem, rfl⟩, rfl⟩⟩

/-- A parameter that occurs at most once has a value when its only occurrence is not empty. -/
theorem value_eq_some_of_unique {name v : String} (h : (params.occurrences name).length ≤ 1) :
    params.value name = some v ↔ params.occurrences name = [v] ∧ v ≠ "" := by
  rw [← Params.unique_eq_some, Params.unique_eq_ok, and_iff_right h]

theorem value_eq_none_of_unique {name : String} (h : (params.occurrences name).length ≤ 1) :
    params.value name = none ↔ params.occurrences name = [] ∨ params.occurrences name = [""] := by
  rw [Params.value, Params.first]
  cases hvalues : params.occurrences name with
  | nil => simp
  | cons v rest =>
    obtain rfl : rest = [] := by
      rw [hvalues] at h
      simpa using h
    simp

theorem presented_body_iff {client : RegisteredClient}
    (hid : (params.occurrences "client_id").length ≤ 1)
    (hsecret : (params.occurrences "client_secret").length ≤ 1) :
    presented base64Decode headers params =
      .ok (.body, client.clientId, client.clientSecret) ↔ ByBody headers params client := by
  by_cases h : headers.getAll .authorization = []
  · rw [presented_of_noHeader h, value_eq_some_of_unique hid, value_eq_some_of_unique hsecret]
    constructor
    · rintro ⟨-, ⟨hclientId, hne⟩, hclientSecret, hne'⟩
      exact ⟨h, hclientId, hne, hclientSecret, hne'⟩
    · rintro ⟨-, hclientId, hne, hclientSecret, hne'⟩
      exact ⟨rfl, ⟨hclientId, hne⟩, hclientSecret, hne'⟩
  · rw [presented_of_header h]
    exact iff_of_false (fun hpresented => nomatch hpresented.1) fun hbody => h hbody.noHeader

theorem presented_basic_iff {client : RegisteredClient}
    (hid : (params.occurrences "client_id").length ≤ 1) :
    presented base64Decode headers params =
      .ok (.basic, client.clientId, client.clientSecret) ↔
        ByBasic base64Decode headers params client := by
  by_cases h : headers.getAll .authorization = []
  · rw [presented_of_noHeader h]
    refine iff_of_false (fun hpresented => nomatch hpresented.1) fun hbasic => ?_
    obtain ⟨value, hvalue, -⟩ := hbasic.header
    rw [h] at hvalue
    cases hvalue
  · rw [presented_of_header h, basicCredentials_eq_some, value_eq_none_of_unique hid,
      value_eq_some_of_unique hid]
    constructor
    · rintro ⟨-, hheader, hnoSecret, hclientId⟩
      refine ⟨hheader, hnoSecret, ?_⟩
      rcases hclientId with (habsent | hempty) | hsame
      · exact .inl habsent
      · exact .inr (.inl hempty)
      · exact .inr (.inr hsame.1)
    · rintro ⟨hheader, hnoSecret, hclientId⟩
      refine ⟨rfl, hheader, hnoSecret, ?_⟩
      obtain ⟨value, -, scheme, encoded, -, -, -, -, -, hne, -⟩ := hheader
      rcases hclientId with habsent | hempty | hsame
      · exact .inl (.inl habsent)
      · exact .inl (.inr hempty)
      · exact .inr ⟨hsame, hne⟩

/-- An unusable header is refused, whatever the body holds. -/
theorem authenticate_of_unusable {clients : List RegisteredClient}
    (h : headers.getAll .authorization ≠ []) (hnone : basicCredentials D.base64Decode headers = none) :
    authenticate D clients headers params = .error .invalidClientCredentials := by
  have hpresented : presented D.base64Decode headers params = .error .invalidClientCredentials := by
    rw [presented, containsKey_eq, if_pos (by simpa using h), hnone]
    rfl
  rw [authenticate, hpresented]
  rfl

theorem trim_payload {bytes : List UInt8} {payload : String}
    (h : payload = Base64.standard bytes ∨ payload = Base64.standardNoPad bytes) :
    Text.trim payload.toList = payload.toList := by
  apply Text.trim_eq_self
  rcases h with rfl | rfl
  · exact fun c => Base64.isWhitespace_standard
  · exact fun c => Base64.isWhitespace_standardNoPad

/-- The header that a client sends, with or without padding. -/
theorem basicHeader_of_payload {value : HeaderValue} {payload : String}
    (hvalue : value.toStr = some ("Basic ".toList ++ payload.toList))
    (hpayload : payload = Base64.standard (Utf8.encode (clientId ++ ":" ++ clientSecret)) ∨
      payload = Base64.standardNoPad (Utf8.encode (clientId ++ ":" ++ clientSecret)))
    (hdecode : base64Decode payload = some (Utf8.encode (clientId ++ ":" ++ clientSecret)))
    (hcolon : ':' ∉ clientId.toList) (hid : clientId ≠ "") (hsecret : clientSecret ≠ "") :
    BasicHeader base64Decode value clientId clientSecret := by
  refine ⟨"Basic".toList, payload.toList, hvalue, by decide, by decide, ?_, hcolon, hid, hsecret⟩
  rw [trim_payload hpayload, String.ofList_toList, hdecode]

/-- A request is authenticated as exactly one client for exactly its credentials, by the body
or by the header. An unusable header is not made up for by the body, and every client with an
id and a secret can use both ways, the header if there is no colon in its id. -/
theorem authenticate_accepts {config : MockConfig} {urlParses : String → Bool}
    (hconfig : config.validate urlParses = .ok ())
    (hid : (params.occurrences "client_id").length ≤ 1)
    (hsecret : (params.occurrences "client_secret").length ≤ 1)
    (hcollision : NoCollision D config.clients headers params) :
    (∀ client, authenticate D config.clients headers params = .ok ⟨client, .body⟩ ↔
      client ∈ config.clients ∧ ByBody headers params client) ∧
    (∀ client, authenticate D config.clients headers params = .ok ⟨client, .basic⟩ ↔
      client ∈ config.clients ∧ ByBasic D.base64Decode headers params client) ∧
    (headers.getAll .authorization ≠ [] →
      (∀ value clientId clientSecret, headers.getAll .authorization = [value] →
        ¬ BasicHeader D.base64Decode value clientId clientSecret) →
      authenticate D config.clients headers params = .error .invalidClientCredentials) ∧
    ∀ client ∈ config.clients, client.clientId ≠ "" → client.clientSecret ≠ "" →
      (headers.getAll .authorization = [] →
        params.occurrences "client_id" = [client.clientId] →
        params.occurrences "client_secret" = [client.clientSecret] →
        authenticate D config.clients headers params = .ok ⟨client, .body⟩) ∧
      ∀ value payload bytes, ':' ∉ client.clientId.toList →
        bytes = Utf8.encode (client.clientId ++ ":" ++ client.clientSecret) →
        payload = Base64.standard bytes ∨ payload = Base64.standardNoPad bytes →
        D.base64Decode payload = some bytes → headers.getAll .authorization = [value] →
        value.toStr = some ("Basic ".toList ++ payload.toList) →
        params.occurrences "client_secret" = [] → params.occurrences "client_id" = [] →
        authenticate D config.clients headers params = .ok ⟨client, .basic⟩ := by
  have hbody : ∀ client, authenticate D config.clients headers params = .ok ⟨client, .body⟩ ↔
      client ∈ config.clients ∧ ByBody headers params client := fun client => by
    rw [authenticate_eq_ok hconfig hcollision, presented_body_iff hid hsecret]
  have hbasic : ∀ client, authenticate D config.clients headers params = .ok ⟨client, .basic⟩ ↔
      client ∈ config.clients ∧ ByBasic D.base64Decode headers params client := fun client => by
    rw [authenticate_eq_ok hconfig hcollision, presented_basic_iff hid]
  refine ⟨hbody, hbasic, fun hheader hunusable => ?_, fun client hclient hne hne' => ⟨?_, ?_⟩⟩
  · apply authenticate_of_unusable hheader
    rw [Option.eq_none_iff_forall_ne_some]
    rintro ⟨id, secret⟩ hcredentials
    obtain ⟨value, hvalue, husable⟩ := basicCredentials_eq_some.mp hcredentials
    exact hunusable value id secret hvalue husable
  · intro hheader hclientId hclientSecret
    exact (hbody client).mpr ⟨hclient, hheader, hclientId, hne, hclientSecret, hne'⟩
  · rintro value payload _ hcolon rfl hpayload hdecode hvalue htext hnoSecret hnoId
    exact (hbasic client).mpr ⟨hclient, ⟨value, hvalue,
      basicHeader_of_payload htext hpayload hdecode hcolon hne hne'⟩, hnoSecret, .inl hnoId⟩

/-- The dependencies with the base64 of `web:secret`, padded or not. -/
def basicDeps : Deps :=
  { Token.loginDeps with
    base64Decode := fun payload =>
      if payload = "d2ViOnNlY3JldA==" ∨ payload = "d2ViOnNlY3JldA" then
        some (Utf8.encode "web:secret")
      else none }

/-- The header of the client, without padding. -/
def basicHeaders : HeaderMap := [(.authorization, .fromStatic "Basic d2ViOnNlY3JldA")]

theorem noCollision_basicDeps (clients : List RegisteredClient)
    (h : ∀ client ∈ clients, client.clientSecret = "secret") :
    NoCollision basicDeps clients headers params := by
  intro method clientId clientSecret _ client hclient hdigest
  rw [h client hclient] at hdigest ⊢
  by_contra hne
  have hbytes : asBytes clientSecret ≠ asBytes "secret" := fun heq =>
    hne (Utf8.encode_inj.mp heq).symm
  have hother : basicDeps.sha256 (asBytes clientSecret) = basicDeps.sha256 [] := if_neg hbytes
  rw [hother] at hdigest
  exact absurd hdigest (by decide +kernel)

theorem authenticate_basic : authenticate basicDeps Token.webConfig.clients basicHeaders ⟨[]⟩ =
    .ok ⟨Token.webClient, .basic⟩ := by
  have hconfig : Token.webConfig.validate (fun _ => true) = .ok () := rfl
  have hcollision : NoCollision basicDeps Token.webConfig.clients basicHeaders ⟨[]⟩ := by
    apply noCollision_basicDeps
    intro client hclient
    rw [List.mem_singleton.mp hclient]
    rfl
  have hencoded : Base64.standardNoPad (Utf8.encode "web:secret") = "d2ViOnNlY3JldA" := by
    decide +kernel
  exact ((authenticate_accepts hconfig (Nat.zero_le _) (Nat.zero_le _) hcollision).2.2.2
    Token.webClient List.mem_cons_self (by decide) (by decide)).2
      (.fromStatic "Basic d2ViOnNlY3JldA") "d2ViOnNlY3JldA" _ (by decide) rfl
      (.inr hencoded.symm) rfl rfl (by decide +kernel) rfl rfl

end Rsc.Mock.ClientAuth

import Rsc.Api.Retry
import Rsc.Library.Http
import Rsc.Library.UrlReference

/-!
Where the access token goes. `Url::join` resolves the path that `get_json` is given as a
reference, so that it may leave the origin or the path of the base; this is exactly when.
-/

namespace Rsc.Api

open Rsc.Library Rsc.Library.UrlParser Rsc.Auth

/-! ## The client with its URLs -/

/-- Why `ApiClient::new` fails. -/
inductive NewError
  | parse
  | unusable (base : UrlRecord)

/-- `ApiClient::new`: the base URL. -/
def ApiClient.new (parseHost : HostParser) (apiBase : String) : Except NewError UrlRecord :=
  match parse parseHost apiBase with
  | none => .error .parse
  | some base => if base.cannotBeABase then .error (.unusable base) else .ok base

/-- The schemes of requests. -/
def isHttp (scheme : List Char) : Bool := scheme == "http".toList || scheme == "https".toList

/-- `Url::join`, taken to join a reference to a base as the URL standard does, and what `reqwest`
refuses to build: a request with another scheme, or with a header value that is not one. (The
crate `url` itself differs from the standard at `//` with a further slash, and at `^`.) -/
def webOf (parseHost : HostParser) : Web UrlRecord where
  join := join parseHost
  build request :=
    if isHttp request.url.scheme &&
        request.headers.all fun header => (Http.HeaderValue.tryFrom header.2).isSome then .ok ()
    else .error "builder error"

/-! ## The token at the origin -/

/-- The URL is one of the base: its scheme, host and port, and a path that begins with its. -/
structure Confined (base url : UrlRecord) : Prop where
  scheme : url.scheme = base.scheme
  host : url.host = base.host
  port : url.port = base.port
  path : base.pathText <+: url.pathText

section

variable {α : Type} (parseHost : HostParser) (overflowChecks : Bool)
  (fromStr : String → Except String α) (base : UrlRecord) (pathAndQuery : String)

/-- A run of `get_json`, among whatever other calls. -/
def Fetches (log : List (Entry UrlRecord)) (out : Fetched α) : Prop :=
  Prog.Exec Prog.anyAnswer (getJson (webOf parseHost) overflowChecks fromStr base pathAndQuery) log
    out

/-- Every request, which carries the token, goes to a URL of the base; a path that no request
goes out for is refused as invalid, before anything else is done. -/
structure KeepsToken : Prop where
  confined : ∀ log out, Fetches parseHost overflowChecks fromStr base pathAndQuery log out →
    ∀ request ∈ requests log, Confined base request.url
  refused : (∀ log out, Fetches parseHost overflowChecks fromStr base pathAndQuery log out →
      requests log = []) →
    ∀ log out, Fetches parseHost overflowChecks fromStr base pathAndQuery log out →
      log = [] ∧ out = .err (.invalidPath pathAndQuery)

end

/-! ## How the path must be written -/

section

variable (parseHost : HostParser) (base : UrlRecord)

/-- From the directory, the text leads to a path that begins with the one of the base. -/
def Below (dir : List (List Char)) (text : List Char) : Prop :=
  base.pathText <+: (lead dir (segments base.scheme text)).flatMap ('/' :: ·)

/-- The authority is the one of the base, but for the user. -/
def Names (text : List Char) : Prop :=
  ∃ authority, readAuthority parseHost base.scheme
      (text.takeWhile (!isDelimiter base.scheme ·)) = some authority ∧
    some authority.host = base.host ∧ authority.port = base.port

/-- What follows the scheme stays at the base: an authority that is written is the one of the
base, and the path leads below its path, from the root behind an authority or a slash and from
the directory of the base otherwise. -/
def StaysAt (rest : List Char) : Prop :=
  match writtenAuthority base base.scheme rest with
  | some text => Names parseHost base text ∧
      Below base [] (afterSlash base.scheme (text.dropWhile (!isDelimiter base.scheme ·)))
  | none =>
      if rest.head?.any (isSlash base.scheme) then Below base [] rest.tail
      else rest.head?.all isPathEnd = true ∨ Below base base.path.list.dropLast rest

/-- The path is refused because of its authority, or keeps to the scheme of the base, which is
one of HTTP, and stays at the base. -/
def Stays (pathAndQuery : String) : Prop :=
  Refused parseHost base (strip pathAndQuery.toList) ∨
    isHttp base.scheme = true ∧
    (writtenScheme base (strip pathAndQuery.toList)).1 = base.scheme ∧
    StaysAt parseHost base (writtenScheme base (strip pathAndQuery.toList)).2

end

variable {α : Type} {parseHost : HostParser} {overflowChecks : Bool}
  {fromStr : String → Except String α} {base url : UrlRecord} {pathAndQuery : String}
  {log : List (Entry UrlRecord)} {out : Fetched α}

/-! ## The requests of a fetch -/

theorem build_webOf (request : Request UrlRecord) :
    (webOf parseHost).build request = .ok () ↔ isHttp request.url.scheme = true ∧
      (request.headers.all fun header => (Http.HeaderValue.tryFrom header.2).isSome) = true := by
  simp only [webOf]
  split
  · next h => exact iff_of_true rfl (Bool.and_eq_true_iff.mp h)
  · next h => exact iff_of_false (by simp) fun hboth => h (Bool.and_eq_true_iff.mpr hboth)

/-- A token that a header may carry goes out. -/
theorem build_authorized (hhttp : isHttp url.scheme = true) :
    (webOf parseHost).build (authorized url "a") = .ok () := by
  rw [build_webOf]
  refine ⟨hhttp, ?_⟩
  change ([("authorization", "OAuth " ++ "a"), ("accept", "application/json; charset=utf-8")].all
    fun header : String × String => (Http.HeaderValue.tryFrom header.2).isSome) = true
  decide +kernel

/-- A run up to the first request. -/
theorem fetches_request (hjoin : join parseHost base pathAndQuery = some url)
    (hhttp : isHttp url.scheme = true) :
    ∃ log, ∃ out : Fetched α,
      Fetches parseHost overflowChecks fromStr base pathAndQuery log out ∧
      requests log = [authorized url "a"] := by
  refine ⟨[⟨.auth .load, .ok (some ⟨"a", "r", 1⟩)⟩, ⟨.auth .now, (0 : UInt64)⟩,
    ⟨.get (authorized url "a"), ()⟩, ⟨.response, .error ""⟩], .err (.transport ""), ?_, rfl⟩
  have hwebjoin : (webOf parseHost).join base pathAndQuery = some url := hjoin
  rw [Fetches, getJson, hwebjoin]
  refine .perform trivial (.perform trivial ?_)
  change Prog.Exec Prog.anyAnswer (Fetch.bind (send (webOf parseHost) url "a") _) _ _
  rw [send, build_authorized hhttp]
  exact .perform trivial (.perform trivial (.ret _))

/-- A run without tokens. -/
theorem fetches_notLoggedIn (hjoin : join parseHost base pathAndQuery = some url) :
    Fetches parseHost overflowChecks fromStr base pathAndQuery [⟨.auth .load, .ok none⟩]
      (.err (.auth .notLoggedIn)) := by
  have hwebjoin : (webOf parseHost).join base pathAndQuery = some url := hjoin
  rw [Fetches, getJson, hwebjoin]
  exact .perform trivial (.ret _)

/-- The token is kept exactly when the path has no URL, or one of the base. -/
theorem keepsToken_iff_join : KeepsToken parseHost overflowChecks fromStr base pathAndQuery ↔
    ∀ url, join parseHost base pathAndQuery = some url →
      isHttp url.scheme = true ∧ Confined base url := by
  constructor
  · intro h url hjoin
    cases hhttp : isHttp url.scheme with
    | true =>
      obtain ⟨log, out, hrun, hrequests⟩ := fetches_request hjoin hhttp
      exact ⟨rfl, h.confined log out hrun (authorized url "a") (by simp [hrequests])⟩
    | false =>
      have hnone : ∀ log (out : Fetched α),
          Fetches parseHost overflowChecks fromStr base pathAndQuery log out →
          requests log = [] := by
        intro log out hrun
        rw [List.eq_nil_iff_forall_not_mem]
        intro request hmem
        obtain ⟨hurl, hbuild⟩ := (fetchWay_of_exec hjoin hrun).sent hmem
        rw [build_webOf, hurl, hhttp] at hbuild
        cases hbuild.1
      cases (h.refused hnone _ _ (fetches_notLoggedIn hjoin)).1
  · intro h
    cases hjoin : join parseHost base pathAndQuery with
    | none =>
      have hrefused : ∀ log (out : Fetched α),
          Fetches parseHost overflowChecks fromStr base pathAndQuery log out →
          log = [] ∧ out = .err (.invalidPath pathAndQuery) := by
        intro log out hrun
        have hwebjoin : (webOf parseHost).join base pathAndQuery = none := hjoin
        rw [Fetches, getJson, hwebjoin] at hrun
        exact hrun.ret_inv
      refine ⟨fun log out hrun request hmem => ?_, fun _ => hrefused⟩
      rw [(hrefused log out hrun).1] at hmem
      cases hmem
    | some url =>
      obtain ⟨hhttp, hconfined⟩ := h url hjoin
      constructor
      · intro log out hrun request hmem
        rw [((fetchWay_of_exec hjoin hrun).sent hmem).1]
        exact hconfined
      · intro hnone
        obtain ⟨log, out, hrun, hrequests⟩ := fetches_request hjoin hhttp
        rw [hnone log out hrun] at hrequests
        cases hrequests

/-! ## The URL of a path -/

theorem hasAuthority_of_isHttp {scheme : List Char} (h : isHttp scheme = true) :
    hasAuthority scheme = true := by
  rw [isHttp, Bool.or_eq_true, beq_iff_eq, beq_iff_eq] at h
  rcases h with rfl | rfl <;> decide

theorem confined_withPath {path : List (List Char) × List Char} :
    Confined base (base.withPath path) ↔ base.pathText <+: path.1.flatMap ('/' :: ·) :=
  ⟨fun h => h.path, fun h => ⟨rfl, rfl, rfl, h⟩⟩

theorem confined_toUrl {authority : Authority} {path : List (List Char) × List Char} :
    Confined base ((authority.toUrl base.scheme).withPath path) ↔
      (some authority.host = base.host ∧ authority.port = base.port) ∧
        base.pathText <+: path.1.flatMap ('/' :: ·) :=
  ⟨fun h => ⟨⟨h.host, h.port⟩, h.path⟩, fun h => ⟨rfl, h.1.1, h.1.2, h.2⟩⟩

/-- An authority and what follows it. -/
theorem authorityState_confined (hauthority : hasAuthority base.scheme = true) {text : List Char} :
    (∃ url, authorityState parseHost base.scheme text = some url ∧ Confined base url) ↔
      Names parseHost base text ∧
        Below base [] (afterSlash base.scheme (text.dropWhile (!isDelimiter base.scheme ·))) := by
  constructor
  · rintro ⟨url, hurl, hconfined⟩
    obtain ⟨authority, hread, rfl⟩ := authorityState_eq_some.mp hurl
    rw [confined_toUrl, pathStartState_segments hauthority] at hconfined
    exact ⟨⟨authority, hread, hconfined.1⟩, hconfined.2⟩
  · rintro ⟨⟨authority, hread, hnames⟩, hbelow⟩
    refine ⟨_, authorityState_eq_some.mpr ⟨authority, hread, rfl⟩, ?_⟩
    rw [confined_toUrl, pathStartState_segments hauthority]
    exact ⟨hnames, hbelow⟩

/-- A path from a directory. -/
theorem pathState_confined (hfile : base.scheme ≠ fileScheme) {dir : List (List Char)}
    {text : List Char} :
    (∃ url, some (base.withPath (pathState base.scheme dir [] text)) = some url ∧
      Confined base url) ↔ Below base dir text := by
  simp only [Option.some.injEq, exists_eq_left', confined_withPath, pathState_segments hfile]
  rfl

/-- The URL of a reference without a path is the base, apart from what follows the path. -/
theorem confined_self (query fragment : Option (List Char)) :
    Confined base { base with query := query, fragment := fragment } :=
  ⟨rfl, rfl, rfl, List.prefix_rfl⟩

/-- Behind one slash. -/
theorem relativeSlashState_confined (hauthority : hasAuthority base.scheme = true) {c : Char}
    (hc : isSlash base.scheme c = true) {rest : List Char} :
    (∃ url, relativeSlashState parseHost base rest = some url ∧ Confined base url) ↔
      StaysAt parseHost base (c :: rest) := by
  obtain ⟨hspecial, hfile⟩ := hasAuthority_iff.mp hauthority
  cases rest with
  | nil => simpa [relativeSlashState, StaysAt, writtenAuthority, hc] using pathState_confined hfile
  | cons d text =>
    cases hd : isSlash base.scheme d with
    | true =>
      simpa [relativeSlashState, StaysAt, writtenAuthority, hc, hd, hspecial, hauthority,
        skipSlashes, specialAuthorityState] using authorityState_confined hauthority
    | false =>
      have hne : d ≠ '/' := fun h => by simp [h, isSlash] at hd
      simpa [relativeSlashState, StaysAt, writtenAuthority, hc, hd, hne] using
        pathState_confined hfile

/-- Without a slash no authority is written. -/
theorem staysAt_relative {rest : List Char}
    (h : rest.head?.any (isSlash base.scheme) = false) :
    StaysAt parseHost base rest ↔
      rest.head?.all isPathEnd = true ∨ Below base base.path.list.dropLast rest := by
  have hnone : writtenAuthority base base.scheme rest = none := by
    cases rest with
    | nil => simp [writtenAuthority]
    | cons c rest =>
      have hc : isSlash base.scheme c = false := h
      cases rest with
      | nil => simp [writtenAuthority]
      | cons d text => simp [writtenAuthority, hc]
  rw [StaysAt, hnone]
  simp [h]

theorem relativeState_confined (hauthority : hasAuthority base.scheme = true) {rest : List Char} :
    (∃ url, relativeState parseHost base rest = some url ∧ Confined base url) ↔
      StaysAt parseHost base rest := by
  obtain ⟨hspecial, hfile⟩ := hasAuthority_iff.mp hauthority
  unfold relativeState
  split
  · next h =>
    cases rest with
    | nil => cases h
    | cons c rest => exact relativeSlashState_confined hauthority h
  · next h =>
    rw [staysAt_relative (by simpa using h)]
    split
    · exact iff_of_true ⟨_, rfl, confined_self _ _⟩ (.inl rfl)
    · exact iff_of_true ⟨_, rfl, confined_self _ _⟩ (.inl rfl)
    · exact iff_of_true ⟨_, rfl, confined_self _ _⟩ (.inl rfl)
    · next hnil hquery hfragment =>
      have hend : ¬ rest.head?.all isPathEnd = true := by
        cases rest with
        | nil => exact absurd rfl hnil
        | cons c rest =>
          have hquery' : c ≠ '?' := fun hc => hquery rest (by rw [hc])
          have hfragment' : c ≠ '#' := fun hc => hfragment rest (by rw [hc])
          simp [isPathEnd, hquery', hfragment']
      rw [or_iff_right hend, pathState_confined hfile]
      rw [shorten, if_neg (by simp [hfile])]

theorem join_confined {list : List (List Char)} (hhttp : isHttp base.scheme = true)
    (hbase : base.path = .segments list) :
    (∃ url, join parseHost base pathAndQuery = some url ∧ Confined base url) ↔
      (writtenScheme base (strip pathAndQuery.toList)).1 = base.scheme ∧
        StaysAt parseHost base (writtenScheme base (strip pathAndQuery.toList)).2 := by
  have hauthority := hasAuthority_of_isHttp hhttp
  rw [join]
  by_cases hsame : (writtenScheme base (strip pathAndQuery.toList)).1 = base.scheme
  · rw [schemeState_same hauthority hbase hsame, relativeState_confined hauthority]
    exact (and_iff_right hsame).symm
  · refine iff_of_false ?_ fun h => hsame h.1
    rintro ⟨url, hurl, hconfined⟩
    exact hsame ((schemeState_scheme hsame hurl).symm.trans hconfined.scheme)

theorem ApiClient.new_eq_ok {apiBase : String} (h : ApiClient.new parseHost apiBase = .ok base) :
    parse parseHost apiBase = some base ∧ base.cannotBeABase = false := by
  rw [ApiClient.new] at h
  split at h
  · cases h
  · next hparse =>
    split at h
    · cases h
    · next hbase =>
      cases h
      exact ⟨hparse, by simpa using hbase⟩

/-- For every base that the client accepts, every request of `get_json` stays at the base and
every other path is refused, exactly when the path is written so. -/
theorem keepsToken_iff {apiBase : String} (h : ApiClient.new parseHost apiBase = .ok base) :
    KeepsToken parseHost overflowChecks fromStr base pathAndQuery ↔
      Stays parseHost base pathAndQuery := by
  obtain ⟨list, hbase⟩ := UrlRecord.cannotBeABase_eq_false (ApiClient.new_eq_ok h).2
  rw [keepsToken_iff_join, Stays, ← schemeState_eq_none hbase, ← join]
  cases hjoin : join parseHost base pathAndQuery with
  | none => simp
  | some url =>
    simp only [Option.some.injEq, forall_eq', reduceCtorEq, false_or]
    constructor
    · rintro ⟨hhttp, hconfined⟩
      rw [hconfined.scheme] at hhttp
      exact ⟨hhttp, (join_confined hhttp hbase).mp ⟨url, hjoin, hconfined⟩⟩
    · rintro ⟨hhttp, hstays⟩
      obtain ⟨url', hurl', hconfined⟩ := (join_confined hhttp hbase).mpr hstays
      obtain rfl : url = url' := Option.some.inj (hjoin.symm.trans hurl')
      exact ⟨by rw [hconfined.scheme]; exact hhttp, hconfined⟩

/-- Domains in lower case. -/
def plainHost : HostParser := fun _ text =>
  if text.all fun c => c.isLower || c.isDigit || c == '.' || c == '-' then some (.ofList text)
  else none

/-- `https://<host><path>`. -/
def httpsUrl (host : String) (path : List String) : UrlRecord where
  scheme := "https".toList
  username := []
  password := []
  host := some host
  port := none
  path := .segments (path.map String.toList)
  query := none
  fragment := none

def apiUrl : UrlRecord := httpsUrl "api.soundcloud.com" [""]

theorem new_apiUrl : ApiClient.new plainHost "https://api.soundcloud.com" = .ok apiUrl := by
  have hparse : parse plainHost "https://api.soundcloud.com" = some apiUrl := by decide +kernel
  rw [ApiClient.new, hparse]
  rfl

theorem keepsToken_iff_me :
    KeepsToken plainHost true (.ok : String → Except String String) apiUrl "/me" := by
  refine (keepsToken_iff new_apiUrl).mpr (.inr ⟨by decide, by decide +kernel, ?_⟩)
  change Below apiUrl [] "me".toList
  exact ⟨"me".toList, by decide +kernel⟩

/-- The path that `<base><path_and_query>` has at the API begins with two slashes, and the token
goes to another host. -/
theorem keepsToken_leaks : ApiClient.new plainHost "https://api.soundcloud.com" = .ok apiUrl ∧
    (∃ log, ∃ out : Fetched String, Fetches plainHost true .ok apiUrl "//evil.example/me" log out ∧
      requests log = [authorized (httpsUrl "evil.example" ["me"]) "a"]) ∧
    ¬ KeepsToken plainHost true (.ok : String → Except String String) apiUrl
      "//evil.example/me" := by
  have hjoin : join plainHost apiUrl "//evil.example/me" =
      some (httpsUrl "evil.example" ["me"]) := by decide +kernel
  refine ⟨new_apiUrl, fetches_request hjoin (by decide), fun h => ?_⟩
  have hhost := (keepsToken_iff_join.mp h _ hjoin).2.host
  exact absurd hhost (by decide)

end Rsc.Api

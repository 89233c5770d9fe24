import Rsc.Library.Checks
import Rsc.Library.Duration
import Mathlib.Data.List.Nodup

/-!
`rsc-mock/src/config.rs`: the configuration of a mock server, and its validation.
Whether `Url::parse` accepts a text is a parameter.
-/

namespace Rsc.Mock

open Rsc.Library

structure RegisteredClient where
  clientId : String
  clientSecret : String
  redirectUris : List String
  deriving DecidableEq

inductive UserDecision
  | approve
  | deny
  deriving DecidableEq, Repr

structure MockConfig where
  clients : List RegisteredClient
  accessTokenLifetime : Duration
  authorizationCodeLifetime : Duration
  userDecision : UserDecision
  deriving DecidableEq

namespace MockConfig

/-- `MockConfig::default`. -/
def default : MockConfig where
  clients := [{
    clientId := "mock-client-id"
    clientSecret := "mock-client-secret"
    redirectUris := ["http://127.0.0.1:8888/callback"] }]
  accessTokenLifetime := .fromSecs 3599
  authorizationCodeLifetime := .fromSecs 600
  userDecision := .approve

/-- What is wrong with a configuration. -/
inductive Error
  | lifetime (name : String) (lifetime : Duration)
  | duplicateClientId (clientId : String)
  | notAbsolute (uri : String)
  | fragment (uri : String)
  | controlCharacter (uri : String)

/-- `char::is_control`. -/
def isControl (c : Char) : Bool := c.toNat < 32 || (127 ≤ c.toNat && c.toNat ≤ 159)

/-- `check_lifetime`. -/
def checkLifetime (name : String) (lifetime : Duration) : Except Error Unit :=
  if lifetime.isZero ∨ lifetime.subsecNanos ≠ 0 then throw (.lifetime name lifetime)
  else pure ()

/-- `check_redirect_uri`. -/
def checkRedirectUri (urlParses : String → Bool) (uri : String) : Except Error Unit :=
  if urlParses uri = false then throw (.notAbsolute uri)
  else if '#' ∈ uri.toList then throw (.fragment uri)
  else if uri.toList.any isControl then throw (.controlCharacter uri)
  else pure ()

/-- The loop of `validate` over the clients, with the ids seen before. -/
def checkClients (urlParses : String → Bool) (seen : List String) :
    List RegisteredClient → Except Error Unit
  | [] => pure ()
  | client :: clients =>
      if client.clientId ∈ seen then throw (.duplicateClientId client.clientId)
      else do
        forM client.redirectUris (checkRedirectUri urlParses)
        checkClients urlParses (client.clientId :: seen) clients

/-- `MockConfig::validate`. -/
def validate (urlParses : String → Bool) (config : MockConfig) : Except Error Unit := do
  checkLifetime "access_token_lifetime" config.accessTokenLifetime
  checkLifetime "authorization_code_lifetime" config.authorizationCodeLifetime
  checkClients urlParses [] config.clients

/-! ## What a validated configuration is -/

variable {urlParses : String → Bool}

theorem checkLifetime_eq_ok {name : String} {lifetime : Duration} :
    checkLifetime name lifetime = .ok () ↔ lifetime.isZero = false ∧ lifetime.subsecNanos = 0 := by
  rw [checkLifetime, Except.refuse_eq_ok, not_or, Bool.not_eq_true, not_not]

/-- An absolute URL without a fragment or a control character. -/
def GoodUri (urlParses : String → Bool) (uri : String) : Prop :=
  urlParses uri = true ∧ '#' ∉ uri.toList ∧ ∀ c ∈ uri.toList, isControl c = false

theorem checkRedirectUri_eq_ok {uri : String} :
    checkRedirectUri urlParses uri = .ok () ↔ GoodUri urlParses uri := by
  rw [checkRedirectUri, Except.unless_eq_ok, Except.unless_eq_ok, Except.refuse_eq_ok,
    Bool.not_eq_false, List.any_eq_true, GoodUri]
  simp only [not_exists, not_and, Bool.not_eq_true]

theorem checkClients_eq_ok {seen : List String} {clients : List RegisteredClient} :
    checkClients urlParses seen clients = .ok () ↔
      (∀ client ∈ clients, client.clientId ∉ seen) ∧ (clients.map (·.clientId)).Nodup ∧
        ∀ client ∈ clients, ∀ uri ∈ client.redirectUris, GoodUri urlParses uri := by
  induction clients generalizing seen with
  | nil => exact iff_of_true rfl (by simp)
  | cons client clients ih =>
    have huris : forM client.redirectUris (checkRedirectUri urlParses) = .ok () ↔
        ∀ uri ∈ client.redirectUris, GoodUri urlParses uri := by
      simp only [Except.forM_eq_ok, checkRedirectUri_eq_ok]
    unfold checkClients
    rw [Except.unless_eq_ok, Except.check_eq_ok, huris, ih]
    rw [List.forall_mem_cons, List.forall_mem_cons, List.map_cons, List.nodup_cons]
    simp only [List.mem_cons, not_or, List.mem_map, not_exists, not_and]
    constructor
    · rintro ⟨hseen, hgood, hnew, hnodup, hall⟩
      exact ⟨⟨hseen, fun c hc => (hnew c hc).2⟩, ⟨fun c hc => (hnew c hc).1, hnodup⟩, hgood, hall⟩
    · rintro ⟨⟨hseen, hnot⟩, ⟨hne, hnodup⟩, hgood, hall⟩
      exact ⟨hseen, hgood, fun c hc => ⟨hne c hc, hnot c hc⟩, hnodup, hall⟩

/-- What the server relies on. -/
structure Valid (urlParses : String → Bool) (config : MockConfig) : Prop where
  accessTokenLifetime :
    config.accessTokenLifetime.isZero = false ∧ config.accessTokenLifetime.subsecNanos = 0
  authorizationCodeLifetime : config.authorizationCodeLifetime.isZero = false ∧
    config.authorizationCodeLifetime.subsecNanos = 0
  clientIds : (config.clients.map (·.clientId)).Nodup
  redirectUris : ∀ client ∈ config.clients, ∀ uri ∈ client.redirectUris, GoodUri urlParses uri

/-- `validate` checks just that. -/
theorem validate_eq_ok {config : MockConfig} :
    config.validate urlParses = .ok () ↔ Valid urlParses config := by
  rw [validate, Except.check_eq_ok, Except.check_eq_ok, checkLifetime_eq_ok, checkLifetime_eq_ok,
    checkClients_eq_ok]
  constructor
  · rintro ⟨haccess, hcode, -, hnodup, huris⟩
    exact ⟨haccess, hcode, hnodup, huris⟩
  · rintro ⟨haccess, hcode, hnodup, huris⟩
    exact ⟨haccess, hcode, by simp, hnodup, huris⟩

theorem default_valid (h : urlParses "http://127.0.0.1:8888/callback" = true) :
    default.validate urlParses = .ok () := by
  rw [validate_eq_ok]
  refine ⟨by decide, by decide, by decide, ?_⟩
  intro client hclient uri huri
  obtain rfl := List.mem_singleton.mp hclient
  obtain rfl := List.mem_singleton.mp huri
  apply checkRedirectUri_eq_ok.mp
  rw [checkRedirectUri, h]
  rfl

/-- `Shared::client`. -/
def client (config : MockConfig) (clientId : String) : Option RegisteredClient :=
  config.clients.find? (·.clientId == clientId)

/-- The clients are told apart by their ids. -/
theorem client_eq_some {config : MockConfig} (hconfig : Valid urlParses config)
    {clientId : String} {client : RegisteredClient} :
    config.client clientId = some client ↔
      client ∈ config.clients ∧ client.clientId = clientId := by
  have hnodup := hconfig.clientIds
  unfold MockConfig.client
  generalize config.clients = clients at hnodup
  induction clients with
  | nil => simp
  | cons first clients ih =>
    rw [List.map_cons, List.nodup_cons] at hnodup
    by_cases hfirst : first.clientId = clientId
    · rw [List.find?_cons_of_pos (by simpa using hfirst), Option.some_inj, List.mem_cons]
      constructor
      · rintro rfl
        exact ⟨.inl rfl, hfirst⟩
      · rintro ⟨rfl | hmem, hid⟩
        · rfl
        · have hsame : client.clientId ∈ clients.map (·.clientId) := List.mem_map_of_mem hmem
          rw [hid, ← hfirst] at hsame
          exact absurd hsame hnodup.1
    · rw [List.find?_cons_of_neg (by simpa using hfirst), List.mem_cons]
      refine (ih hnodup.2).trans ?_
      constructor
      · rintro ⟨hmem, hid⟩
        exact ⟨.inr hmem, hid⟩
      · rintro ⟨rfl | hmem, hid⟩
        · exact absurd hid hfirst
        · exact ⟨hmem, hid⟩

end MockConfig

end Rsc.Mock

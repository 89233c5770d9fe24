import Rsc.Library.Atomic
import Rsc.Mock.Reachable

/-!
The handlers of the mock as they run at once: `Shared::lock` guards the state, and every request
and every command of the handle uses it in one critical section. So the requests that are served
at once are served as if one after the other, and what is reached is `Reachable`.
-/

namespace Rsc.Mock.Concurrent

open Rsc.Library Rsc.Library.Http Rsc.Library.Atomic Rsc.Mock.Store Rsc.Mock.Pkce
open Token (loginDeps webConfig loggedIn)

/-! ## The guarded state -/

/-- What is done through the guard of the lock. -/
inductive StateOp
  | userDecision
  | now
  | issueCode (clientId redirectUri codeChallenge : String) (now : Duration)
  | redeemCode (request : CodeRedemption) (now : Duration)
  | refresh (clientId refreshToken : String) (now : Duration)
  | issueAppToken (clientId : String) (now : Duration)
  | accessTokenInfo (accessToken : String) (now : Duration)
  | advance (duration : Duration)
  | setUserDecision (decision : UserDecision)

abbrev StateAns : StateOp → Type
  | .userDecision => UserDecision
  | .now => Duration
  | .issueCode .. => String
  | .redeemCode .. | .refresh .. => Except InvalidGrant Issued
  | .issueAppToken .. => Issued
  | .accessTokenInfo .. => Option TokenInfo
  | .advance _ | .setUserDecision _ => Unit

/-- The answer and the state after it, for any bytes of the random generator. -/
inductive Access (H : Hashing) (st : Guarded) : (op : StateOp) → StateAns op → Guarded → Prop
  | userDecision : Access H st .userDecision st.userDecision st
  | now : Access H st .now st.clock.now st
  | issueCode {clientId redirectUri codeChallenge code : String} {now : Duration}
      {draws : List Draw} {s : Store} {rest : List String}
      (h : st.store.issueCode clientId redirectUri codeChallenge now (draws.map randomCredential) =
        some (code, s, rest)) :
      Access H st (.issueCode clientId redirectUri codeChallenge now) code { st with store := s }
  | redeemCode {request : CodeRedemption} {now : Duration} {draws : List Draw}
      {result : Except InvalidGrant Issued} {s : Store} {rest : List String}
      (h : st.store.redeemCode H request now (draws.map randomCredential) =
        some (result, s, rest)) :
      Access H st (.redeemCode request now) result { st with store := s }
  | refresh {clientId refreshToken : String} {now : Duration} {draws : List Draw}
      {result : Except InvalidGrant Issued} {s : Store} {rest : List String}
      (h : st.store.refresh clientId refreshToken now (draws.map randomCredential) =
        some (result, s, rest)) :
      Access H st (.refresh clientId refreshToken now) result { st with store := s }
  | issueAppToken {clientId : String} {now : Duration} {draws : List Draw} {issued : Issued}
      {s : Store} {rest : List String}
      (h : st.store.issueAppToken clientId now (draws.map randomCredential) =
        some (issued, s, rest)) :
      Access H st (.issueAppToken clientId now) issued { st with store := s }
  | accessTokenInfo {accessToken : String} {now : Duration} :
      Access H st (.accessTokenInfo accessToken now) (st.store.accessTokenInfo accessToken now) st
  | advance {duration : Duration} :
      Access H st (.advance duration) () { st with clock := st.clock.advance duration }
  | setUserDecision {decision : UserDecision} :
      Access H st (.setUserDecision decision) () { st with userDecision := decision }

/-- The generator can still give two credentials that are not in use, and there is a number for one
family more. -/
def Supplied (st : Guarded) : Prop :=
  st.store.nextFamily + 1 < UInt64.size ∧
    ∃ draws : List Draw, st.store.Supplies (draws.map randomCredential)

/-- Then every method of the store returns. -/
theorem Supplied.answers {H : Hashing} {st : Guarded} (h : Supplied st) (op : StateOp) :
    ∃ ans st', Access H st op ans st' := by
  obtain ⟨hnext, draws, hdraws⟩ := h
  cases op with
  | userDecision => exact ⟨_, _, .userDecision⟩
  | now => exact ⟨_, _, .now⟩
  | issueCode clientId redirectUri codeChallenge now =>
    obtain ⟨a, ha, -, -, -, hunused, -⟩ := hdraws
    obtain ⟨_, hissued⟩ := issueCode_returns clientId redirectUri codeChallenge now hnext hunused ha
    exact ⟨_, _, .issueCode hissued⟩
  | redeemCode request now =>
    obtain ⟨_, hredeemed⟩ := hdraws.redeemCode (H := H) request now
    exact ⟨_, _, .redeemCode hredeemed⟩
  | refresh clientId token now =>
    obtain ⟨_, hrefreshed⟩ := hdraws.refresh clientId token now
    exact ⟨_, _, .refresh hrefreshed⟩
  | issueAppToken clientId now =>
    obtain ⟨_, hissued⟩ := hdraws.issueAppToken clientId now
    exact ⟨_, _, .issueAppToken hissued⟩
  | accessTokenInfo accessToken now => exact ⟨_, _, .accessTokenInfo⟩
  | advance duration => exact ⟨_, _, .advance⟩
  | setUserDecision decision => exact ⟨_, _, .setUserDecision⟩

/-! ## The handlers -/

/-- An `async fn` that shares the state. -/
abbrev Handler (α : Type) : Type := Prog (LockAns StateAns) α

def begin : Handler Unit := Prog.call LockOp.begin

/-- `Shared::lock`. -/
def lock : Handler Unit := Prog.call LockOp.lock

/-- The guard is dropped. -/
def unlock : Handler Unit := Prog.call LockOp.unlock

/-- A method is called through the guard. -/
def access (op : StateOp) : Handler (StateAns op) := Prog.call (LockOp.access op)

variable (D : Deps) (config : MockConfig)

theorem isHeaderByte_get : (Utf8.encode "GET").all isHeaderByte = true := by
  decide +kernel

/-- `authorize`, from the arrival of the request. -/
def authorize (request : Request) : Handler (Except ApiError Response) := do
  begin
  if request.method ≠ .get ∧ request.method ≠ .head then
    return .error (.methodNotAllowed (.fromStatic "GET" isHeaderByte_get))
  else
    match Authorize.trusted config (Authorize.queryParams request) with
    | .error e => return .error e
    | .ok (client, base) =>
        let redirect : Authorize.Redirect := ⟨base, (Authorize.queryParams request).first "state"⟩
        match Authorize.validate (Authorize.queryParams request) with
        | .error e => return redirect.to "error" e
        | .ok codeChallenge => do
            lock
            if (← access .userDecision) = .deny then do
              unlock
              return redirect.to "error" "access_denied"
            else do
              let now ← access .now
              let code ← access (.issueCode client.clientId redirect.base codeChallenge now)
              unlock
              return redirect.to "code" code

/-- The answer to the issue of tokens. -/
def answer : Except InvalidGrant Issued → Except ApiError Response
  | .ok issued => .ok (Token.tokenResponse D issued config.accessTokenLifetime)
  | .error _ => .error .invalidGrant

/-- `authorization_code`. -/
def authorizationCode (client : ClientAuth.Authenticated) (params : Params) :
    Handler (Except ApiError Response) :=
  match params.value "code", params.value "redirect_uri", params.value "code_verifier" with
  | some code, some redirectUri, some codeVerifier => do
      lock
      let now ← access .now
      let issued ← access <|
        .redeemCode ⟨client.client.clientId, code, redirectUri, codeVerifier⟩ now
      unlock
      return answer D config issued
  | _, _, _ => return .error .invalidRequest

/-- `refresh_token`. -/
def refreshToken (client : ClientAuth.Authenticated) (params : Params) :
    Handler (Except ApiError Response) :=
  match params.value "refresh_token" with
  | some token => do
      lock
      let now ← access .now
      let issued ← access (.refresh client.client.clientId token now)
      unlock
      return answer D config issued
  | none => return .error .invalidRequest

/-- `client_credentials`. -/
def clientCredentials (client : ClientAuth.Authenticated) : Handler (Except ApiError Response) :=
  if client.method ≠ .basic then return .error .invalidClientCredentials
  else do
    lock
    let now ← access .now
    let issued ← access (.issueAppToken client.client.clientId now)
    unlock
    return answer D config (.ok issued)

/-- The grant that an admitted request asks for. -/
def grant (client : ClientAuth.Authenticated) (params : Params) :
    Handler (Except ApiError Response) :=
  match params.value "grant_type" with
  | none => return .error .invalidRequest
  | some grantType =>
      if grantType = "authorization_code" then authorizationCode D config client params
      else if grantType = "refresh_token" then refreshToken D config client params
      else if grantType = "client_credentials" then clientCredentials D config client
      else return .error (.badRequest "unsupported_grant")

/-- `token_endpoint`, from the arrival of the request. -/
def tokenEndpoint (request : Request) : Handler (Except ApiError Response) := do
  begin
  match Token.checkRequest D config request with
  | .error e => return .error e
  | .ok (client, params) => grant D config client params

/-- A request to one of the endpoints, or a command of the `MockServer`. -/
inductive Call
  | authorize (request : Request)
  | token (request : Request)
  | elapsed
  | advanceClock (duration : Duration)
  | setUserDecision (decision : UserDecision)
  | tokenInfo (accessToken : String)

inductive Reply
  | response (response : Response)
  | elapsed (duration : Duration)
  | done
  | tokenInfo (info : Option TokenInfo)

/-- The handlers of the router and the methods of `MockServer`. -/
def Call.task : Call → Handler Reply
  | .authorize request =>
      (Concurrent.authorize config request).bind fun result =>
        .ret (.response (unwrapOrElse D.toVec result))
  | .token request =>
      (tokenEndpoint D config request).bind fun result =>
        .ret (.response (unwrapOrElse D.toVec result))
  | .elapsed => do
      begin
      lock
      let now ← access .now
      unlock
      return .elapsed now
  | .advanceClock duration => do
      begin
      lock
      access (.advance duration)
      unlock
      return .done
  | .setUserDecision decision => do
      begin
      lock
      access (.setUserDecision decision)
      unlock
      return .done
  | .tokenInfo accessToken => do
      begin
      lock
      let now ← access .now
      let info ← access (.accessTokenInfo accessToken now)
      unlock
      return .tokenInfo info

/-! ## The discipline of the handlers -/

variable {D : Deps} {config : MockConfig}

/-- The decision and the clock are read, and the code is issued, in one critical section. -/
theorem authorize_disciplined (request : Request) : Disciplined (authorize config request) := by
  refine .begin ?_
  change Ready (ite _ _ _)
  split
  · exact .ret _
  split
  · exact .ret _
  dsimp only
  split
  · exact .ret _
  refine .lock (.access fun decision => ?_)
  change Holding (ite _ _ _)
  split
  · exact .unlock _ rfl
  · exact .access fun now => .access fun code => .unlock _ rfl

theorem grant_ready (client : ClientAuth.Authenticated) (params : Params) :
    Ready (grant D config client params) := by
  unfold grant
  split
  · exact .ret _
  split_ifs
  · unfold authorizationCode
    split
    · exact .lock (.access fun now => .access fun issued => .unlock _ rfl)
    · exact .ret _
  · unfold refreshToken
    split
    · exact .lock (.access fun now => .access fun issued => .unlock _ rfl)
    · exact .ret _
  · unfold clientCredentials
    split
    · exact .ret _
    · exact .lock (.access fun now => .access fun issued => .unlock _ rfl)
  · exact .ret _

theorem tokenEndpoint_disciplined (request : Request) :
    Disciplined (tokenEndpoint D config request) := by
  refine .begin ?_
  change Ready (match Token.checkRequest D config request with | .error e => _ | .ok (_, _) => _)
  split
  · exact .ret _
  · exact grant_ready _ _

theorem Call.task_disciplined (call : Call) : Disciplined (call.task D config) := by
  cases call with
  | authorize request => exact (authorize_disciplined request).map _
  | token request => exact (tokenEndpoint_disciplined request).map _
  | elapsed => exact .begin (.lock (.access fun now => .unlock _ rfl))
  | advanceClock duration => exact .begin (.lock (.access fun _ => .unlock _ rfl))
  | setUserDecision decision => exact .begin (.lock (.access fun _ => .unlock _ rfl))
  | tokenInfo accessToken =>
    exact .begin (.lock (.access fun now => .access fun info => .unlock _ rfl))

variable {H : Hashing} {st st' : Guarded} {result : Except ApiError Response}

theorem Access.userDecision_inv {decision : UserDecision}
    (h : Access H st .userDecision decision st') : decision = st.userDecision ∧ st' = st := by
  cases h
  exact ⟨rfl, rfl⟩

theorem Access.now_inv {now : Duration} (h : Access H st .now now st') :
    now = st.clock.now ∧ st' = st := by
  cases h
  exact ⟨rfl, rfl⟩

/-- Alone, the handler of `/authorize` is the one of the sequential server. -/
theorem authorize_alone {request : Request}
    (h : Alone (Access H) st (authorize config request) result st') :
    ∃ draws, Authorize.authorize config st request draws = some (result, st') := by
  have h := h.begin_inv
  change Alone _ _ (ite _ _ _) _ _ at h
  unfold Authorize.authorize
  split at h
  · next hmethod =>
    obtain ⟨rfl, rfl⟩ := h.ret_inv
    exact ⟨[], if_pos hmethod⟩
  next hmethod =>
  simp only [if_neg hmethod]
  rcases htrusted : Authorize.trusted config (Authorize.queryParams request) with e | ⟨client, base⟩
  · rw [htrusted] at h
    obtain ⟨rfl, rfl⟩ := h.ret_inv
    exact ⟨[], rfl⟩
  rw [htrusted] at h
  dsimp only at h
  rcases hvalidate : Authorize.validate (Authorize.queryParams request) with e | challenge
  · rw [hvalidate] at h
    obtain ⟨rfl, rfl⟩ := h.ret_inv
    exact ⟨[], rfl⟩
  rw [hvalidate] at h
  obtain ⟨decision, st₁, haccess, h⟩ := h.lock_inv.access_inv
  obtain ⟨rfl, rfl⟩ := haccess.userDecision_inv
  change Alone _ _ (ite _ _ _) _ _ at h
  split at h
  · next hdeny =>
    obtain ⟨rfl, rfl⟩ := h.unlock_inv.ret_inv
    exact ⟨[], if_pos hdeny⟩
  next happrove =>
  simp only [if_neg happrove]
  obtain ⟨now, st₂, haccess, h⟩ := h.access_inv
  obtain ⟨rfl, rfl⟩ := haccess.now_inv
  obtain ⟨code, st₃, haccess, h⟩ := h.access_inv
  obtain ⟨rfl, rfl⟩ := h.unlock_inv.ret_inv
  cases haccess with
  | @issueCode _ _ _ _ _ draws _ _ hissue => exact ⟨draws, by rw [hissue]; rfl⟩

/-- What the sequential server does, the handler does alone. -/
theorem alone_authorize {request : Request} {draws : List Draw}
    (h : Authorize.authorize config st request draws = some (result, st')) :
    Alone (Access H) st (authorize config request) result st' := by
  refine .begin ?_
  change Alone _ _ (ite _ _ _) _ _
  unfold Authorize.authorize at h
  by_cases hmethod : request.method ≠ .get ∧ request.method ≠ .head
  · rw [if_pos hmethod] at h ⊢
    cases h
    exact .ret
  rw [if_neg hmethod] at h ⊢
  rcases htrusted : Authorize.trusted config (Authorize.queryParams request) with e | ⟨client, base⟩
  · rw [htrusted] at h
    cases h
    exact .ret
  rw [htrusted] at h
  dsimp only at h ⊢
  rcases hvalidate : Authorize.validate (Authorize.queryParams request) with e | challenge
  · rw [hvalidate] at h
    cases h
    exact .ret
  rw [hvalidate] at h
  dsimp only at h
  refine .lock (.access .userDecision ?_)
  change Alone _ _ (ite _ _ _) _ _
  by_cases hdeny : st.userDecision = .deny
  · rw [if_pos hdeny] at h ⊢
    cases h
    exact .unlock .ret
  rw [if_neg hdeny] at h ⊢
  obtain ⟨⟨code, s, rest⟩, hissue, heq⟩ := Option.map_eq_some_iff.mp h
  cases heq
  exact .access .now (.access (.issueCode hissue) (.unlock .ret))

variable {client : ClientAuth.Authenticated} {params : Params}

theorem authorizationCode_alone
    (h : Alone (Access D.toHashing) st (authorizationCode D config client params) result st') :
    ∃ draws, Token.authorizationCode D config st client params draws = some (result, st') := by
  unfold authorizationCode at h
  unfold Token.authorizationCode
  generalize params.value "code" = code at h ⊢
  generalize params.value "redirect_uri" = redirectUri at h ⊢
  generalize params.value "code_verifier" = codeVerifier at h ⊢
  have hmissing : ∀ e : ApiError, Alone (Access D.toHashing) st (.ret (.error e)) result st' →
      ∃ draws : List Draw, some (Except.error e, st) = some (result, st') := by
    intro e halone
    obtain ⟨rfl, rfl⟩ := halone.ret_inv
    exact ⟨[], rfl⟩
  rcases code with - | code
  · exact hmissing _ h
  rcases redirectUri with - | redirectUri
  · exact hmissing _ h
  rcases codeVerifier with - | codeVerifier
  · exact hmissing _ h
  obtain ⟨now, st₁, haccess, h⟩ := h.lock_inv.access_inv
  obtain ⟨rfl, rfl⟩ := haccess.now_inv
  obtain ⟨issued, st₂, haccess, h⟩ := h.access_inv
  obtain ⟨rfl, rfl⟩ := h.unlock_inv.ret_inv
  cases haccess with
  | @redeemCode _ _ draws _ _ _ hredeem =>
    refine ⟨draws, ?_⟩
    dsimp only
    rw [hredeem]
    cases issued <;> rfl

theorem alone_authorizationCode {draws : List Draw}
    (h : Token.authorizationCode D config st client params draws = some (result, st')) :
    Alone (Access D.toHashing) st (authorizationCode D config client params) result st' := by
  unfold Token.authorizationCode at h
  unfold authorizationCode
  generalize params.value "code" = code at h ⊢
  generalize params.value "redirect_uri" = redirectUri at h ⊢
  generalize params.value "code_verifier" = codeVerifier at h ⊢
  have hmissing : ∀ e : ApiError, some (Except.error e, st) = some (result, st') →
      Alone (Access D.toHashing) st (.ret (.error e)) result st' := by
    rintro e ⟨⟩
    exact .ret
  rcases code with - | code
  · exact hmissing _ h
  rcases redirectUri with - | redirectUri
  · exact hmissing _ h
  rcases codeVerifier with - | codeVerifier
  · exact hmissing _ h
  obtain ⟨⟨issued, s, rest⟩, hredeem, heq⟩ := Option.map_eq_some_iff.mp h
  cases issued <;> cases heq <;>
    exact .lock (.access .now (.access (.redeemCode hredeem) (.unlock .ret)))

theorem refreshToken_alone
    (h : Alone (Access D.toHashing) st (refreshToken D config client params) result st') :
    ∃ draws, Token.refreshToken D config st client params draws = some (result, st') := by
  unfold refreshToken at h
  unfold Token.refreshToken
  generalize params.value "refresh_token" = token at h ⊢
  rcases token with - | token
  · obtain ⟨rfl, rfl⟩ := h.ret_inv
    exact ⟨[], rfl⟩
  obtain ⟨now, st₁, haccess, h⟩ := h.lock_inv.access_inv
  obtain ⟨rfl, rfl⟩ := haccess.now_inv
  obtain ⟨issued, st₂, haccess, h⟩ := h.access_inv
  obtain ⟨rfl, rfl⟩ := h.unlock_inv.ret_inv
  cases haccess with
  | @refresh _ _ _ draws _ _ _ hrefresh =>
    refine ⟨draws, ?_⟩
    dsimp only
    rw [hrefresh]
    cases issued <;> rfl

theorem alone_refreshToken {draws : List Draw}
    (h : Token.refreshToken D config st client params draws = some (result, st')) :
    Alone (Access D.toHashing) st (refreshToken D config client params) result st' := by
  unfold Token.refreshToken at h
  unfold refreshToken
  generalize params.value "refresh_token" = token at h ⊢
  rcases token with - | token
  · cases h
    exact .ret
  obtain ⟨⟨issued, s, rest⟩, hrefresh, heq⟩ := Option.map_eq_some_iff.mp h
  cases issued <;> cases heq <;>
    exact .lock (.access .now (.access (.refresh hrefresh) (.unlock .ret)))

theorem clientCredentials_alone
    (h : Alone (Access D.toHashing) st (clientCredentials D config client) result st') :
    ∃ draws, Token.clientCredentials D config st client draws = some (result, st') := by
  unfold clientCredentials at h
  unfold Token.clientCredentials
  split_ifs at h ⊢
  · obtain ⟨rfl, rfl⟩ := h.ret_inv
    exact ⟨[], rfl⟩
  obtain ⟨now, st₁, haccess, h⟩ := h.lock_inv.access_inv
  obtain ⟨rfl, rfl⟩ := haccess.now_inv
  obtain ⟨issued, st₂, haccess, h⟩ := h.access_inv
  obtain ⟨rfl, rfl⟩ := h.unlock_inv.ret_inv
  cases haccess with
  | @issueAppToken _ _ draws _ _ _ hissue => exact ⟨draws, by rw [hissue]; rfl⟩

theorem alone_clientCredentials {draws : List Draw}
    (h : Token.clientCredentials D config st client draws = some (result, st')) :
    Alone (Access D.toHashing) st (clientCredentials D config client) result st' := by
  unfold Token.clientCredentials at h
  unfold clientCredentials
  split_ifs at h ⊢
  · cases h
    exact .ret
  obtain ⟨⟨issued, s, rest⟩, hissue, heq⟩ := Option.map_eq_some_iff.mp h
  cases heq
  exact .lock (.access .now (.access (.issueAppToken hissue) (.unlock .ret)))

theorem grant_alone (h : Alone (Access D.toHashing) st (grant D config client params) result st') :
    ∃ draws, Token.grant D config st client params draws = some (result, st') := by
  unfold grant at h
  unfold Token.grant
  generalize params.value "grant_type" = grantType at h ⊢
  rcases grantType with - | grantType
  · obtain ⟨rfl, rfl⟩ := h.ret_inv
    exact ⟨[], rfl⟩
  dsimp only at h ⊢
  split_ifs at h ⊢
  · exact authorizationCode_alone h
  · exact refreshToken_alone h
  · exact clientCredentials_alone h
  · obtain ⟨rfl, rfl⟩ := h.ret_inv
    exact ⟨[], rfl⟩

theorem alone_grant {draws : List Draw}
    (h : Token.grant D config st client params draws = some (result, st')) :
    Alone (Access D.toHashing) st (grant D config client params) result st' := by
  unfold Token.grant at h
  unfold grant
  generalize params.value "grant_type" = grantType at h ⊢
  rcases grantType with - | grantType
  · cases h
    exact .ret
  dsimp only at h ⊢
  split_ifs at h ⊢
  · exact alone_authorizationCode h
  · exact alone_refreshToken h
  · exact alone_clientCredentials h
  · cases h
    exact .ret

/-- Alone, the handler of `/oauth/token` is the one of the sequential server. -/
theorem tokenEndpoint_alone {request : Request}
    (h : Alone (Access D.toHashing) st (tokenEndpoint D config request) result st') :
    ∃ draws, Token.tokenEndpoint D config st request draws = some (result, st') := by
  have h := h.begin_inv
  change Alone _ _ (match Token.checkRequest D config request with | .error e => _ | .ok (_, _) => _)
    _ _ at h
  unfold Token.tokenEndpoint
  rcases hcheck : Token.checkRequest D config request with e | ⟨client, params⟩
  · rw [hcheck] at h
    obtain ⟨rfl, rfl⟩ := h.ret_inv
    exact ⟨[], rfl⟩
  · rw [hcheck] at h
    exact grant_alone h

theorem alone_tokenEndpoint {request : Request} {draws : List Draw}
    (h : Token.tokenEndpoint D config st request draws = some (result, st')) :
    Alone (Access D.toHashing) st (tokenEndpoint D config request) result st' := by
  refine .begin ?_
  change Alone _ _ (match Token.checkRequest D config request with | .error e => _ | .ok (_, _) => _)
    _ _
  unfold Token.tokenEndpoint at h
  rcases hcheck : Token.checkRequest D config request with e | ⟨client, params⟩
  · rw [hcheck] at h
    cases h
    exact .ret
  · rw [hcheck] at h
    exact alone_grant h

/-! ## The server -/

/-- What a call does on the sequential server. -/
inductive Serves (D : Deps) (config : MockConfig) (st : Guarded) : Call → Reply → Guarded → Prop
  | authorize {request : Request} {draws : List Draw} {response : Response} {st' : Guarded}
      (h : Authorize.handler D config st request draws = some (response, st')) :
      Serves D config st (.authorize request) (.response response) st'
  | token {request : Request} {draws : List Draw} {response : Response} {st' : Guarded}
      (h : Token.handler D config st request draws = some (response, st')) :
      Serves D config st (.token request) (.response response) st'
  | elapsed : Serves D config st .elapsed (.elapsed st.clock.now) st
  | advanceClock {duration : Duration} :
      Serves D config st (.advanceClock duration) .done
        { st with toState := Server.advanceClock st.toState duration }
  | setUserDecision {decision : UserDecision} :
      Serves D config st (.setUserDecision decision) .done { st with userDecision := decision }
  | tokenInfo {accessToken : String} :
      Serves D config st (.tokenInfo accessToken)
        (.tokenInfo (Server.tokenInfo st.toState accessToken)) st

theorem Serves.reachable {call : Call} {reply : Reply} (h : Serves D config st call reply st')
    (hst : Reachable D config st) : Reachable D config st' := by
  cases h with
  | authorize h => exact hst.authorize h
  | token h => exact hst.token h
  | elapsed | tokenInfo => exact hst
  | advanceClock => exact hst.advanceClock _
  | setUserDecision => exact hst.setUserDecision _

/-- A task alone serves its call. -/
theorem Call.serves {call : Call} {reply : Reply}
    (h : Alone (Access D.toHashing) st (call.task D config) reply st') :
    Serves D config st call reply st' := by
  cases call with
  | authorize request =>
    obtain ⟨result, rfl, halone⟩ := Alone.map_inv h
    obtain ⟨draws, h⟩ := authorize_alone halone
    exact @Serves.authorize D config st request draws _ _ (by rw [Authorize.handler, h]; rfl)
  | token request =>
    obtain ⟨result, rfl, halone⟩ := Alone.map_inv h
    obtain ⟨draws, h⟩ := tokenEndpoint_alone halone
    exact @Serves.token D config st request draws _ _ (by rw [Token.handler, h]; rfl)
  | elapsed =>
    obtain ⟨now, st₁, haccess, h⟩ := h.begin_inv.lock_inv.access_inv
    obtain ⟨rfl, rfl⟩ := haccess.now_inv
    obtain ⟨rfl, rfl⟩ := h.unlock_inv.ret_inv
    exact .elapsed
  | advanceClock duration =>
    obtain ⟨_, st₁, haccess, h⟩ := h.begin_inv.lock_inv.access_inv
    obtain ⟨rfl, rfl⟩ := h.unlock_inv.ret_inv
    cases haccess
    exact .advanceClock
  | setUserDecision decision =>
    obtain ⟨_, st₁, haccess, h⟩ := h.begin_inv.lock_inv.access_inv
    obtain ⟨rfl, rfl⟩ := h.unlock_inv.ret_inv
    cases haccess
    exact .setUserDecision
  | tokenInfo accessToken =>
    obtain ⟨now, st₁, haccess, h⟩ := h.begin_inv.lock_inv.access_inv
    obtain ⟨rfl, rfl⟩ := haccess.now_inv
    obtain ⟨info, st₂, haccess, h⟩ := h.access_inv
    obtain ⟨rfl, rfl⟩ := h.unlock_inv.ret_inv
    cases haccess
    exact .tokenInfo

/-- A call that is served is served by a task alone. -/
theorem Serves.alone {call : Call} {reply : Reply} (h : Serves D config st call reply st') :
    Alone (Access D.toHashing) st (call.task D config) reply st' := by
  cases h with
  | authorize h =>
    obtain ⟨⟨result, s⟩, h, heq⟩ := Option.map_eq_some_iff.mp h
    cases heq
    exact (alone_authorize h).map _
  | token h =>
    obtain ⟨⟨result, s⟩, h, heq⟩ := Option.map_eq_some_iff.mp h
    cases heq
    exact (alone_tokenEndpoint h).map _
  | elapsed => exact .begin (.lock (.access .now (.unlock .ret)))
  | advanceClock => exact .begin (.lock (.access .advance (.unlock .ret)))
  | setUserDecision => exact .begin (.lock (.access .setUserDecision (.unlock .ret)))
  | tokenInfo => exact .begin (.lock (.access .now (.access .accessTokenInfo (.unlock .ret))))

variable {ι : Type}

/-- Calls that are served at once; one of them may begin at any time. -/
def serving (D : Deps) (config : MockConfig) (st₀ : Guarded) (calls : ι → Call) :
    Pool (World Guarded ι) ι (LockAns StateAns) Reply :=
  ⟨⟨st₀, none⟩, fun i => (calls i).task D config⟩

/-- The interleavings of the calls. -/
abbrev Interleaves [DecidableEq ι] (D : Deps)
    (p : Pool (World Guarded ι) ι (LockAns StateAns) Reply) (tr : List (Option ι))
    (p' : Pool (World Guarded ι) ι (LockAns StateAns) Reply) : Prop :=
  Pool.Run (Effect (Access D.toHashing)) (fun _ _ => False) p tr p'

/-- Every call that has returned was served by the sequential server, in this order. -/
abbrev ServedIn (D : Deps) (config : MockConfig) (st₀ : Guarded) (calls : ι → Call)
    (order : List (ι × Reply)) (p : Pool (World Guarded ι) ι (LockAns StateAns) Reply) : Prop :=
  Linearizes (fun i st reply st' => Serves D config st (calls i) reply st') st₀ order p

/-- What the sequential server does, the server that serves at once may do. -/
theorem exists_interleaves [DecidableEq ι] {st₀ : Guarded} {calls : ι → Call}
    {order : List (ι × Reply)}
    (h : Serial (fun i st reply st' => Serves D config st (calls i) reply st') st₀ order st)
    (hnodup : (order.map Prod.fst).Nodup) : ∃ tr p,
      Interleaves D (serving D config st₀ calls) tr p ∧ p.shared = ⟨st, none⟩ ∧
      ∀ entry ∈ order, p.tasks entry.1 = .ret entry.2 := by
  have hserial : Serial (Does (Access D.toHashing) (serving D config st₀ calls)) st₀ order st :=
    h.mono fun _ _ _ _ h => h.alone
  obtain ⟨tr, p, hrun, hshared, hreturned, -⟩ :=
    hserial.run (fun i => (calls i).task_disciplined) rfl hnodup
  exact ⟨tr, p, hrun, hshared, hreturned⟩

variable [DecidableEq ι] {st₀ : Guarded} {calls : ι → Call}
  {run : Runs ι Reply (Access D.toHashing)}

end Rsc.Mock.Concurrent

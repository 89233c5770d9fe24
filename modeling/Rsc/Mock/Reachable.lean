import Rsc.Mock.Authorize

/-!
The states of a running server: requests to its two endpoints and commands of its
handle, one at a time. Every request is at most one operation of the store, so what holds
of the runs of the store holds of the server.
-/

namespace Rsc.Mock

open Rsc.Library Rsc.Library.Http Rsc.Mock.Pkce Rsc.Mock.Store

variable {D : Deps} {config : MockConfig} {st st' : Guarded} {request : Request}
  {draws : List Draw}

/-- A request does at most one operation of the store, at the time of the clock. -/
def Moves (H : Hashing) (st st' : Guarded) : Prop :=
  st' = st ∨ ∃ e s', e.now = st.clock.now ∧ Store.Step H st.store e s' ∧
    st' = { st with store := s' }

theorem Authorize.handler_moves {response : Response}
    (h : Authorize.handler D config st request draws = some (response, st')) :
    Moves D.toHashing st st' := by
  obtain ⟨⟨result, st''⟩, hauthorize, hunwrap⟩ := Option.map_eq_some_iff.mp h
  cases hunwrap
  unfold authorize at hauthorize
  split at hauthorize
  · cases hauthorize
    exact .inl rfl
  split at hauthorize
  · cases hauthorize
    exact .inl rfl
  rename_i client base htrusted
  dsimp only at hauthorize
  split at hauthorize
  · cases hauthorize
    exact .inl rfl
  rename_i challenge hvalidate
  split at hauthorize
  · cases hauthorize
    exact .inl rfl
  obtain ⟨⟨code, s, rest⟩, hissue, hanswer⟩ := Option.map_eq_some_iff.mp hauthorize
  cases hanswer
  exact .inr ⟨_, s, rfl, .issueCode hissue, rfl⟩

theorem Token.answer_state {x : Except InvalidGrant Issued × Store × List String}
    {result : Except ApiError Response} (h : Token.answer D config st x = (result, st')) :
    st' = { st with store := x.2.1 } := by
  obtain ⟨outcome, s, rest⟩ := x
  cases outcome <;> · cases h; rfl

theorem Token.grant_moves {client : ClientAuth.Authenticated} {params : Params}
    {result : Except ApiError Response}
    (h : Token.grant D config st client params draws = some (result, st')) :
    Moves D.toHashing st st' := by
  unfold Token.grant at h
  split at h
  · cases h
    exact .inl rfl
  split_ifs at h
  · unfold Token.authorizationCode at h
    split at h
    · obtain ⟨⟨outcome, s, rest⟩, hredeem, hanswer⟩ := Option.map_eq_some_iff.mp h
      exact .inr ⟨_, s, rfl, .redeemCode hredeem, answer_state hanswer⟩
    · cases h
      exact .inl rfl
  · unfold Token.refreshToken at h
    split at h
    · obtain ⟨⟨outcome, s, rest⟩, hrefresh, hanswer⟩ := Option.map_eq_some_iff.mp h
      exact .inr ⟨_, s, rfl, .refresh hrefresh, answer_state hanswer⟩
    · cases h
      exact .inl rfl
  · unfold Token.clientCredentials at h
    split at h
    · cases h
      exact .inl rfl
    · obtain ⟨⟨issued, s, rest⟩, hissue, hanswer⟩ := Option.map_eq_some_iff.mp h
      exact .inr ⟨_, s, rfl, .issueAppToken hissue, answer_state hanswer⟩
  · cases h
    exact .inl rfl

theorem Token.handler_moves {response : Response}
    (h : Token.handler D config st request draws = some (response, st')) :
    Moves D.toHashing st st' := by
  obtain ⟨⟨result, st''⟩, htoken, hunwrap⟩ := Option.map_eq_some_iff.mp h
  cases hunwrap
  unfold Token.tokenEndpoint at htoken
  split at htoken
  · cases htoken
    exact .inl rfl
  · exact Token.grant_moves htoken

/-- The states of the server that `spawn` starts. -/
inductive Reachable (D : Deps) (config : MockConfig) : Guarded → Prop
  | spawn : Reachable D config
      ⟨Server.new config.accessTokenLifetime config.authorizationCodeLifetime, config.userDecision⟩
  | advanceClock {st : Guarded} (duration : Duration) : Reachable D config st →
      Reachable D config { st with toState := Server.advanceClock st.toState duration }
  | setUserDecision {st : Guarded} (decision : UserDecision) : Reachable D config st →
      Reachable D config { st with userDecision := decision }
  | authorize {st st' : Guarded} {request : Request} {draws : List Draw} {response : Response} :
      Reachable D config st →
      Authorize.handler D config st request draws = some (response, st') → Reachable D config st'
  | token {st st' : Guarded} {request : Request} {draws : List Draw} {response : Response} :
      Reachable D config st →
      Token.handler D config st request draws = some (response, st') → Reachable D config st'

/-- The server as a run over its store, with the history of the operations. -/
theorem Reachable.run (h : Reachable D config st) :
    ∃ events, Server.Run D.toHashing
      (Server.new config.accessTokenLifetime config.authorizationCodeLifetime) events st.toState := by
  have hmoves : ∀ {st st' : Guarded}, Moves D.toHashing st st' →
      (∃ events, Server.Run D.toHashing
        (Server.new config.accessTokenLifetime config.authorizationCodeLifetime) events
          st.toState) →
      ∃ events, Server.Run D.toHashing
        (Server.new config.accessTokenLifetime config.authorizationCodeLifetime) events
          st'.toState := by
    rintro st st' (rfl | ⟨e, s', hnow, hstep, rfl⟩) ⟨events, hrun⟩
    · exact ⟨events, hrun⟩
    · exact ⟨e :: events, .operate hrun hnow hstep⟩
  induction h with
  | spawn => exact ⟨[], .start⟩
  | advanceClock duration _ ih =>
    obtain ⟨events, hrun⟩ := ih
    exact ⟨events, .advance duration hrun⟩
  | setUserDecision decision _ ih => exact ih
  | authorize _ hhandler ih => exact hmoves (Authorize.handler_moves hhandler) ih
  | token _ hhandler ih => exact hmoves (Token.handler_moves hhandler) ih

theorem Reachable.storeRun (h : Reachable D config st) :
    ∃ events, Store.Run D.toHashing config.accessTokenLifetime config.authorizationCodeLifetime
      events st.store := by
  obtain ⟨events, hrun⟩ := h.run
  exact ⟨_, hrun.store .new⟩

/-- The lifetimes of the store are those of the configuration. -/
theorem Reachable.lifetimes (h : Reachable D config st) :
    st.store.accessTokenLifetime = config.accessTokenLifetime ∧
      st.store.authorizationCodeLifetime = config.authorizationCodeLifetime := by
  obtain ⟨events, hrun⟩ := h.storeRun
  exact ⟨hrun.recorded.tokenLifetime_eq, hrun.recorded.codeLifetime_eq⟩

/-- The family of the next code is not revoked. -/
theorem Reachable.nextFamily_notMem (h : Reachable D config st) :
    (⟨st.store.nextFamily⟩ : FamilyId) ∉ st.store.revokedFamilies := by
  obtain ⟨events, hrun⟩ := h.storeRun
  intro hmem
  obtain ⟨c, clientId, ⟨code, hlookup, hfamily, -⟩, -⟩ := hrun.recorded.revoked.mp hmem
  have hlt := hrun.wellFormed.family_lt hlookup
  rw [hfamily] at hlt
  exact Nat.lt_irrefl _ hlt

end Rsc.Mock

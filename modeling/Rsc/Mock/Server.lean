import Rsc.Mock.Acceptance

/-!
`rsc-mock/src/server.rs`: the state behind the lock, the mock clock and the store.
The operations run at the time of the clock, which moves only when it is advanced.
-/

namespace Rsc.Mock

open Rsc.Library Rsc.Mock.Pkce Store

/-- `Clock`. -/
structure Clock where
  elapsed : Duration

/-- `Clock::now`. -/
def Clock.now (c : Clock) : Duration := c.elapsed

/-- `Clock::advance`. -/
def Clock.advance (c : Clock) (duration : Duration) : Clock := ⟨c.elapsed.saturatingAdd duration⟩

/-- `State`, without the answer of the user to authorization requests. -/
structure State where
  clock : Clock
  store : Store

namespace Server

/-- `Shared::new`. -/
def new (accessTokenLifetime authorizationCodeLifetime : Duration) : State where
  clock := ⟨.zero⟩
  store := Store.new accessTokenLifetime authorizationCodeLifetime

/-- `MockServer::advance_clock`. -/
def advanceClock (st : State) (duration : Duration) : State :=
  { st with clock := st.clock.advance duration }

/-- `MockServer::token_info`. -/
def tokenInfo (st : State) (accessToken : String) : Option TokenInfo :=
  st.store.accessTokenInfo accessToken st.clock.now

/-- The runs of the server from a state, with the events of the store, the latest first. -/
inductive Run (H : Hashing) (st₀ : State) : List Event → State → Prop
  | start : Run H st₀ [] st₀
  | advance {h : List Event} {st : State} (duration : Duration) :
      Run H st₀ h st → Run H st₀ h (advanceClock st duration)
  | operate {h : List Event} {st : State} {e : Event} {s' : Store} :
      Run H st₀ h st → e.now = st.clock.now → Store.Step H st.store e s' →
      Run H st₀ (e :: h) { st with store := s' }

variable {H : Hashing} {tokenLifetime codeLifetime : Duration}

/-- What the server does to its store is a run of the store. -/
theorem Run.store {st₀ st : State} {h₀ h : List Event} (hrun : Run H st₀ h st)
    (h₀run : Store.Run H tokenLifetime codeLifetime h₀ st₀.store) :
    Store.Run H tokenLifetime codeLifetime (h ++ h₀) st.store := by
  induction hrun with
  | start => exact h₀run
  | advance _ _ ih => exact ih
  | operate _ _ hstep ih => exact .step ih hstep

theorem Run.clock_le {st₀ st : State} {h : List Event} (hrun : Run H st₀ h st) :
    st₀.clock.now ≤ st.clock.now := by
  induction hrun with
  | start => exact Nat.le_refl _
  | advance duration _ ih => exact Nat.le_trans ih (Duration.le_saturatingAdd _ duration)
  | operate _ _ _ ih => exact ih

end Server

end Rsc.Mock

import Rsc.Library.Prog

/-!
`rsc/src/queue.rs` and `rsc/src/session.rs`, with the types of `models.rs` and
`player/mod.rs` that they use: the actions of a `Session` are programs over what they
await of the backend and of the player.
-/

namespace Rsc.Player

open Rsc.Library

/-! ## Tracks and the queue -/

/-- `Access`: whether a track can be streamed. -/
inductive Access
  | playable
  | preview
  | blocked
  deriving DecidableEq

structure Track where
  id : String
  title : String
  artist : String
  permalinkUrl : Option String
  durationMs : Option UInt64
  access : Access
  deriving DecidableEq

/-- `StreamTarget`: what the player needs to start a track. -/
structure StreamTarget where
  url : String
  headers : List (String × String)
  deriving DecidableEq

/-- `Queue`: the playable tracks with a cursor. -/
structure Queue where
  tracks : List Track
  cursor : Nat
  skipped : Nat
  deriving DecidableEq

namespace Queue

/-- `Queue::new`: blocked tracks are dropped. -/
def new (tracks : List Track) : Queue :=
  let kept := tracks.filter fun t => t.access ≠ .blocked
  { tracks := kept, cursor := 0, skipped := tracks.length - kept.length }

def current (q : Queue) : Option Track := q.tracks[q.cursor]?

/-- `Queue::advance`: `false`, and the same queue, on the last track. -/
def advance (q : Queue) : Bool × Queue :=
  if q.cursor + 1 < q.tracks.length then (true, { q with cursor := q.cursor + 1 })
  else (false, q)

/-- `Queue::previous`: on the first track the cursor stays. -/
def previous (q : Queue) : Queue := { q with cursor := q.cursor - 1 }

/-- `Queue::position`: 1-based, and the length. -/
def position (q : Queue) : Nat × Nat := (q.cursor + 1, q.tracks.length)

/-- How many tracks there are from the cursor on. -/
def left (q : Queue) : Nat := q.tracks.length - q.cursor

theorem current_eq_none {q : Queue} (h : q.left = 0) : q.current = none :=
  List.getElem?_eq_none (Nat.le_of_sub_eq_zero h)

theorem left_advance {q : Queue} (h : q.advance.1 = true) : q.advance.2.left + 1 = q.left := by
  rw [advance] at h ⊢
  split at h
  · rename_i hlt
    rw [if_pos hlt]
    simp only [left]
    omega
  · cases h

end Queue

/-! ## The player -/

/-- `EndReason`: why the playback of a file ended. -/
inductive EndReason
  | eof
  | stop
  | quit
  | error
  | other
  deriving DecidableEq

/-- `PlayerEvent`, without the seconds of a position and of a duration. -/
inductive PlayerEvent
  | endFile (reason : EndReason)
  | position
  | duration
  | paused (paused : Bool)
  deriving DecidableEq

/-- What an action awaits: the backend, and the two commands of the player it gives. -/
inductive Op
  | streamTarget (track : Track)
  | load (target : StreamTarget)
  | setPause (paused : Bool)

/-- What an operation gives when it succeeds. -/
abbrev Res : Op → Type
  | .streamTarget _ => StreamTarget
  | .load _ | .setPause _ => Unit

abbrev Ans (op : Op) : Type := Except String (Res op)

/-! ## The session -/

/-- `Session`: its queue, and whether it takes the player to be paused. -/
structure Session where
  queue : Queue
  paused : Bool

inductive Flow
  | continue
  | finished
  deriving DecidableEq

/-- An `async fn(&mut self)`: it keeps the changes of the session when it fails. -/
abbrev Act (α : Type) : Type := ExceptT String (StateT Session (Prog Ans)) α

/-- Await an operation, and look at its error here. -/
def attempt (op : Op) : Act (Ans op) :=
  ExceptT.mk fun s => Prog.perform op fun ans => Prog.ret (.ok ans, s)

/-- Await an operation; `?` passes its error on. -/
def await (op : Op) : Act (Res op) :=
  ExceptT.mk fun s => Prog.perform op fun ans => Prog.ret (ans, s)

namespace Session

/-- `Session::new`. -/
def new (tracks : List Track) : Session := ⟨Queue.new tracks, false⟩

/-- `self.queue.advance()`. -/
def advance : Act Bool := modifyGetThe Session fun s =>
  (s.queue.advance.1, { s with queue := s.queue.advance.2 })

/-- One round of the loop of `play_current`, and what comes after it. -/
def playRound (again : Act Flow) : Act Flow := do
  match (← getThe Session).queue.current with
  | none => return .finished
  | some track =>
      match ← attempt (.streamTarget track) with
      | .ok target =>
          await (.load target)
          if (← getThe Session).paused then
            modifyThe Session fun s => { s with paused := false }
            await (.setPause false)
          return .continue
      | .error _ =>
          if !(← advance) then return .finished
          again

def playLoop : Nat → Act Flow
  | 0 => return .finished
  | n + 1 => playRound (playLoop n)

/-- `Session::play_current`: every round but the last one advances the queue, so the
tracks from the cursor on are rounds enough (`playCurrent_eq`). -/
def playCurrent : Act Flow := do playLoop (← getThe Session).queue.left

/-- `Session::start`. -/
def start : Act Flow := playCurrent

/-- `Session::next`. -/
def next : Act Flow := do
  if ← advance then playCurrent else return .continue

/-- `Session::previous`. -/
def previous : Act Flow := do
  modifyThe Session fun s => { s with queue := s.queue.previous }
  playCurrent

/-- `Session::toggle_pause`. -/
def togglePause : Act Unit := do
  modifyThe Session fun s => { s with paused := !s.paused }
  await (.setPause (← getThe Session).paused)

/-- `Session::advance_after_end`. -/
def advanceAfterEnd : Act Flow := do
  if ← advance then playCurrent else return .finished

/-- `Session::handle_event`. -/
def handleEvent : PlayerEvent → Act Flow
  | .endFile .eof => advanceAfterEnd
  | .endFile .error => advanceAfterEnd
  | .endFile _ => return .continue
  | .paused paused => do
      modifyThe Session fun s => { s with paused := paused }
      return .continue
  | .position | .duration => return .continue

theorem playRound_none {again : Act Flow} {s : Session} (h : s.queue.current = none) :
    playRound again s = Prog.ret (.ok .finished, s) := by
  change (match s.queue.current with | none => _ | some track => _ : Act Flow) s = _
  rw [h]
  rfl

theorem playRound_some {again : Act Flow} {s : Session} {track : Track}
    (h : s.queue.current = some track) :
    playRound again s = Prog.perform (.streamTarget track) fun
      | .ok target => Prog.perform (.load target) fun
          | .ok () =>
              if s.paused then Prog.perform (.setPause false) fun
                | .ok () => Prog.ret (.ok .continue, { s with paused := false })
                | .error err => Prog.ret (.error err, { s with paused := false })
              else Prog.ret (.ok .continue, s)
          | .error err => Prog.ret (.error err, s)
      | .error _ =>
          if s.queue.advance.1 then again { s with queue := s.queue.advance.2 }
          else Prog.ret (.ok .finished, { s with queue := s.queue.advance.2 }) := by
  change (match s.queue.current with | none => _ | some track => _ : Act Flow) s = _
  rw [h]
  refine congrArg (Prog.perform _) (funext fun ans => ?_)
  cases ans with
  | ok target =>
    refine congrArg (Prog.perform _) (funext fun ans => ?_)
    cases ans with
    | ok _ =>
      obtain ⟨queue, paused⟩ := s
      cases paused with
      | false => rfl
      | true => exact congrArg (Prog.perform _) (funext fun ans => by cases ans <;> rfl)
    | error err => rfl
  | error err =>
    change (if (!s.queue.advance.1) = true then (pure .finished : Act Flow) else again)
      { s with queue := s.queue.advance.2 } = _
    cases s.queue.advance.1 <;> rfl

/-- The loop of `play_current`, without a bound on its rounds. -/
theorem playCurrent_eq : playCurrent = playRound playCurrent := by
  funext s
  change playLoop s.queue.left s = _
  cases hleft : s.queue.left with
  | zero =>
    rw [playRound_none (Queue.current_eq_none hleft)]
    rfl
  | succ n =>
    rw [playLoop]
    cases hcurrent : s.queue.current with
    | none => rw [playRound_none hcurrent, playRound_none hcurrent]
    | some track =>
      rw [playRound_some hcurrent, playRound_some hcurrent]
      refine congrArg (Prog.perform _) (funext fun ans => ?_)
      cases ans with
      | ok target => rfl
      | error err =>
        cases hadvance : s.queue.advance.1 with
        | false => rfl
        | true =>
          have hnext := Queue.left_advance hadvance
          have hn : s.queue.advance.2.left = n := by omega
          subst hn
          rfl

/-! ## The protocol of an action -/

/-- How far an action is, with the flag `paused` of the session. -/
inductive Phase
  | choosing (paused : Bool)
  | loaded (paused : Bool)
  | toggling (paused : Bool)
  | settled (paused : Bool)
  | failed

/-- What an action may ask for, and where the answer takes it. -/
inductive Move : Prog.Protocol Ans Phase
  | streamTarget {paused : Bool} {track : Track} {ans : Ans (.streamTarget track)} :
      Move (.choosing paused) (.streamTarget track) ans (.choosing paused)
  | load {paused : Bool} {target : StreamTarget} :
      Move (.choosing paused) (.load target) (.ok ()) (.loaded paused)
  | unpause : Move (.loaded true) (.setPause false) (.ok ()) (.settled false)
  | toggle {paused : Bool} : Move (.toggling paused) (.setPause paused) (.ok ()) (.settled paused)
  | fail {p : Phase} {op : Op} {err : String} (h : ∀ track, op ≠ .streamTarget track) :
      Move p op (.error err) .failed

/-- The flag of the session that an action leaves. -/
def Returns {α : Type} : Phase → Except String α × Session → Prop
  | .choosing paused, (_, s) => s.paused = paused
  | .loaded paused, (_, s) => paused = false ∧ s.paused = false
  | .settled paused, (_, s) => s.paused = paused
  | .failed, (out, _) => ∃ err, out = .error err
  | .toggling _, _ => False

theorem playLoop_follows (n : Nat) (s : Session) :
    Prog.Follows Move Returns (.choosing s.paused) (playLoop n s) := by
  induction n generalizing s with
  | zero => exact rfl
  | succ n ih =>
    rw [playLoop]
    cases hcurrent : s.queue.current with
    | none =>
      rw [playRound_none hcurrent]
      exact rfl
    | some track =>
      rw [playRound_some hcurrent]
      intro ans
      match ans with
      | .error err =>
        refine ⟨_, .streamTarget, ?_⟩
        dsimp only
        split
        · exact ih { s with queue := s.queue.advance.2 }
        · exact rfl
      | .ok target =>
        refine ⟨_, .streamTarget, fun ans => ?_⟩
        match ans with
        | .error err => exact ⟨_, .fail nofun, err, rfl⟩
        | .ok () =>
          obtain ⟨queue, paused⟩ := s
          cases paused with
          | false => exact ⟨_, .load, rfl, rfl⟩
          | true =>
            refine ⟨_, .load, fun ans => ?_⟩
            match ans with
            | .error err => exact ⟨_, .fail nofun, err, rfl⟩
            | .ok () => exact ⟨_, .unpause, rfl⟩

theorem advance_follows {m : Act Flow} {s : Session} {flow : Flow}
    (h : ∀ s, Prog.Follows Move Returns (.choosing s.paused) (m s)) :
    Prog.Follows Move Returns (.choosing s.paused)
      ((do if ← advance then m else return flow : Act Flow) s) := by
  change Prog.Follows Move Returns (.choosing s.paused)
    ((if s.queue.advance.1 = true then m else (pure flow : Act Flow))
      { s with queue := s.queue.advance.2 })
  split
  · exact h { s with queue := s.queue.advance.2 }
  · exact rfl

theorem togglePause_follows (s : Session) :
    Prog.Follows Move Returns (.toggling !s.paused) (togglePause s) := by
  intro ans
  match ans with
  | .error err => exact ⟨_, .fail nofun, err, rfl⟩
  | .ok () => exact ⟨_, .toggle, rfl⟩

/-- The phase in which an event is handled. -/
def eventPhase (s : Session) : PlayerEvent → Phase
  | .endFile .eof | .endFile .error => .choosing s.paused
  | .paused paused => .settled paused
  | _ => .settled s.paused

theorem handleEvent_follows (s : Session) (event : PlayerEvent) :
    Prog.Follows Move Returns (eventPhase s event) (handleEvent event s) := by
  have hadvance : Prog.Follows Move Returns (.choosing s.paused) (advanceAfterEnd s) :=
    advance_follows fun s => playLoop_follows _ s
  cases event with
  | endFile reason => cases reason <;> first | exact hadvance | exact rfl
  | position => exact rfl
  | duration => exact rfl
  | paused paused => exact rfl

end Session

end Rsc.Player

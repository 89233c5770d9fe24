import Rsc.Player.Session
import Mathlib.Data.List.Basic

/-!
What is shown is what plays. A session is started and then used in any way, with any
answers of the backend and of the player. `Plays` says once what `play_current` can do,
and `Does` what each operation can do; the runs are reasoned about with these alone.
-/

namespace Rsc.Player

open Rsc.Library

/-- What was awaited and answered, the first one first. -/
abbrev Log : Type := List (Sigma Ans)

/-! ## What `play_current` can do -/

/-- What follows a load: a session that was paused tells the player that it is not. -/
inductive Unpauses (s : Session) : Log → Except String Flow → Session → Prop
  | playing (h : s.paused = false) : Unpauses s [] (.ok .continue) s
  | unpaused (h : s.paused = true) :
      Unpauses s [⟨.setPause false, .ok ()⟩] (.ok .continue) { s with paused := false }
  | failed {err : String} (h : s.paused = true) :
      Unpauses s [⟨.setPause false, .error err⟩] (.error err) { s with paused := false }

/-- `play_current`, answer by answer. -/
inductive Plays : Session → Log → Except String Flow → Session → Prop
  | empty {s : Session} (h : s.queue.current = none) : Plays s [] (.ok .finished) s
  | skip {s s' : Session} {track : Track} {err : String} {log : Log} {out : Except String Flow}
      (h : s.queue.current = some track) (hadvance : s.queue.advance.1 = true)
      (hrest : Plays { s with queue := s.queue.advance.2 } log out s') :
      Plays s (⟨.streamTarget track, .error err⟩ :: log) out s'
  | last {s : Session} {track : Track} {err : String} (h : s.queue.current = some track)
      (hadvance : s.queue.advance.1 = false) :
      Plays s [⟨.streamTarget track, .error err⟩] (.ok .finished) s
  | refused {s : Session} {track : Track} {target : StreamTarget} {err : String}
      (h : s.queue.current = some track) :
      Plays s [⟨.streamTarget track, .ok target⟩, ⟨.load target, .error err⟩] (.error err) s
  | loaded {s s' : Session} {track : Track} {target : StreamTarget} {log : Log}
      {out : Except String Flow} (h : s.queue.current = some track)
      (hrest : Unpauses s log out s') :
      Plays s (⟨.streamTarget track, .ok target⟩ :: ⟨.load target, .ok ()⟩ :: log) out s'

theorem Queue.advance_false {q : Queue} (h : q.advance.1 = false) : q.advance.2 = q := by
  rw [advance] at h ⊢
  split at h
  · cases h
  · rename_i hlast
    rw [if_neg hlast]

theorem Plays.of_exec {ok : (op : Op) → Ans op → Prop} {s s' : Session} {log : Log}
    {out : Except String Flow} (h : Prog.Exec ok (Session.playCurrent s) log (out, s')) :
    Plays s log out s' := by
  -- the tracks from the cursor on get fewer with every round that fails
  induction hleft : s.queue.left using Nat.strongRecOn generalizing s log with
  | ind n ih =>
    rw [Session.playCurrent_eq] at h
    cases hcurrent : s.queue.current with
    | none =>
      rw [Session.playRound_none hcurrent] at h
      cases h
      exact .empty hcurrent
    | some track =>
      rw [Session.playRound_some hcurrent] at h
      cases h with
      | @perform _ _ ans _ _ _ hround =>
        cases ans with
        | error err =>
          cases hadvance : s.queue.advance.1 with
          | true =>
            simp only [hadvance, if_true] at hround
            have hfewer := Queue.left_advance hadvance
            exact .skip hcurrent hadvance (ih _ (by simp only; omega) hround rfl)
          | false =>
            simp only [hadvance, Bool.false_eq_true, if_false, Queue.advance_false hadvance] at hround
            cases hround
            exact .last hcurrent hadvance
        | ok target =>
          cases hround with
          | @perform _ _ ans _ _ _ hload =>
            cases ans with
            | error err =>
              cases hload
              exact .refused hcurrent
            | ok loaded =>
              cases hpaused : s.paused with
              | false =>
                simp only [hpaused, Bool.false_eq_true, if_false] at hload
                cases hload
                exact .loaded hcurrent (.playing hpaused)
              | true =>
                simp only [hpaused, if_true] at hload
                cases hload with
                | @perform _ _ ans _ _ _ hpause =>
                  cases ans with
                  | error err =>
                    cases hpause
                    exact .loaded hcurrent (.failed hpaused)
                  | ok done =>
                    cases hpause
                    exact .loaded hcurrent (.unpaused hpaused)

/-! ## What an operation can do -/

inductive Operation
  | start
  | next
  | previous
  | togglePause
  | event (event : PlayerEvent)

/-- The operation; `toggle_pause` returns no flow, and counts as `Continue`. -/
def Operation.act : Operation → Act Flow
  | .start => Session.start
  | .next => Session.next
  | .previous => Session.previous
  | .togglePause => do
      Session.togglePause
      return .continue
  | .event e => Session.handleEvent e

/-- The end of a file: it was played, or it could not be. -/
def Operation.IsEnd (op : Operation) : Prop :=
  op = .event (.endFile .eof) ∨ op = .event (.endFile .error)

/-- An operation, answer by answer. -/
inductive Does (s : Session) : Operation → Log → Except String Flow → Session → Prop
  | starts {s' : Session} {log : Log} {out : Except String Flow} (h : Plays s log out s') :
      Does s .start log out s'
  | skips {op : Operation} {s' : Session} {log : Log} {out : Except String Flow}
      (hop : op = .next ∨ op.IsEnd) (hadvance : s.queue.advance.1 = true)
      (h : Plays { s with queue := s.queue.advance.2 } log out s') : Does s op log out s'
  | stays (hadvance : s.queue.advance.1 = false) : Does s .next [] (.ok .continue) s
  | ended {op : Operation} (hop : op.IsEnd) (hadvance : s.queue.advance.1 = false) :
      Does s op [] (.ok .finished) s
  | back {s' : Session} {log : Log} {out : Except String Flow}
      (h : Plays { s with queue := s.queue.previous } log out s') : Does s .previous log out s'
  | toggles (ans : Ans (.setPause !s.paused)) :
      Does s .togglePause [⟨.setPause !s.paused, ans⟩] (ans.map fun _ => .continue)
        { s with paused := !s.paused }
  | ignores {event : PlayerEvent} (hop : ¬ (Operation.event event).IsEnd) (paused : Bool) :
      Does s (.event event) [] (.ok .continue) { s with paused := paused }

variable {ok : (op : Op) → Ans op → Prop} {s s' : Session} {log : Log} {out : Except String Flow}

/-- `advance`, then `play_current` or the flow of the last track. -/
theorem advance_exec {flow : Flow}
    (h : Prog.Exec ok ((do if ← Session.advance then Session.playCurrent else return flow :
      Act Flow) s) log (out, s')) :
    (s.queue.advance.1 = true ∧ Plays { s with queue := s.queue.advance.2 } log out s') ∨
      (s.queue.advance.1 = false ∧ log = [] ∧ out = .ok flow ∧ s' = s) := by
  change Prog.Exec ok ((if s.queue.advance.1 = true then Session.playCurrent
    else (pure flow : Act Flow)) { s with queue := s.queue.advance.2 }) log (out, s') at h
  cases hadvance : s.queue.advance.1 with
  | true =>
    rw [if_pos hadvance] at h
    exact .inl ⟨rfl, Plays.of_exec h⟩
  | false =>
    rw [if_neg (by simp [hadvance]), Queue.advance_false hadvance] at h
    cases h
    exact .inr ⟨rfl, rfl, rfl, rfl⟩

theorem Does.of_end {op : Operation} (hop : op.IsEnd)
    (h : Prog.Exec ok (Session.advanceAfterEnd s) log (out, s')) : Does s op log out s' := by
  rcases advance_exec h with ⟨hadvance, hplays⟩ | ⟨hadvance, rfl, rfl, rfl⟩
  · exact .skips (.inr hop) hadvance hplays
  · exact .ended hop hadvance

theorem Does.of_exec {op : Operation} (h : Prog.Exec ok (op.act s) log (out, s')) :
    Does s op log out s' := by
  cases op with
  | start => exact .starts (Plays.of_exec h)
  | next =>
    rcases advance_exec h with ⟨hadvance, hplays⟩ | ⟨hadvance, rfl, rfl, rfl⟩
    · exact .skips (.inl rfl) hadvance hplays
    · exact .stays hadvance
  | previous => exact .back (Plays.of_exec h)
  | togglePause =>
    cases h with
    | @perform _ _ ans _ _ _ hrest =>
      cases ans <;> cases hrest <;> exact .toggles _
  | event event =>
    cases event with
    | endFile reason =>
      cases reason with
      | eof => exact .of_end (.inl rfl) h
      | error => exact .of_end (.inr rfl) h
      | _ =>
        cases h
        exact .ignores (by simp [Operation.IsEnd]) s.paused
    | paused paused =>
      cases h
      exact .ignores (by simp [Operation.IsEnd]) paused
    | _ =>
      cases h
      exact .ignores (by simp [Operation.IsEnd]) s.paused

/-! ## Runs -/

/-- An operation that has returned, with what it awaited. -/
structure Call where
  op : Operation
  log : Log
  out : Except String Flow

/-- A new session is started and then used; `ok` says which answers there may be. -/
inductive Runs (ok : (op : Op) → Ans op → Prop) (tracks : List Track) : List Call → Session → Prop
  | start {s : Session} {log : Log} {out : Except String Flow}
      (h : Prog.Exec ok (Operation.start.act (Session.new tracks)) log (out, s)) :
      Runs ok tracks [⟨.start, log, out⟩] s
  | step {calls : List Call} {s s' : Session} {op : Operation} {log : Log}
      {out : Except String Flow} (hrun : Runs ok tracks calls s) (hop : op ≠ .start)
      (h : Prog.Exec ok (op.act s) log (out, s')) :
      Runs ok tracks (calls ++ [⟨op, log, out⟩]) s'

/-- All that was awaited in a run. -/
def history (calls : List Call) : Log := calls.flatMap Call.log

theorem history_concat (calls : List Call) (call : Call) :
    history (calls ++ [call]) = history calls ++ call.log := by
  simp [history]

/-! ## What is claimed -/

/-- A track of the list that is not blocked. -/
def Listed (tracks : List Track) (track : Track) : Prop :=
  track ∈ tracks ∧ track.access ≠ .blocked

/-- Only tracks that are not blocked are resolved, and only what a track was resolved to
right before is loaded. -/
inductive Sound (tracks : List Track) : Log → Prop
  | nil : Sound tracks []
  | gone {track : Track} {err : String} {log : Log} (h : Listed tracks track)
      (hrest : Sound tracks log) : Sound tracks (⟨.streamTarget track, .error err⟩ :: log)
  | found {track : Track} {target : StreamTarget} {ans : Ans (.load target)} {log : Log}
      (h : Listed tracks track) (hrest : Sound tracks log) :
      Sound tracks (⟨.streamTarget track, .ok target⟩ :: ⟨.load target, ans⟩ :: log)
  | paused {paused : Bool} {ans : Ans (.setPause paused)} {log : Log}
      (hrest : Sound tracks log) : Sound tracks (⟨.setPause paused, ans⟩ :: log)

/-- Nothing but the flag of the player is set. -/
def Pauses (log : Log) : Prop := ∀ entry ∈ log, ∃ paused, entry.1 = .setPause paused

/-- The track that was resolved last is the one that was loaded last, and it was loaded
as it was resolved. -/
def Playing (track : Track) (log : Log) : Prop :=
  ∃ before target after, Pauses after ∧
    log = before ++ ⟨.streamTarget track, .ok target⟩ :: ⟨.load target, .ok ()⟩ :: after

/-! ## The invariant -/

/-- The queue of a list of tracks, with a cursor inside of it. -/
structure Kept (tracks : List Track) (q : Queue) : Prop where
  kept : q.tracks = tracks.filter fun t => t.access ≠ .blocked
  skipped : q.skipped + q.tracks.length = tracks.length
  inside : q.tracks = [] ∨ q.cursor < q.tracks.length

variable {tracks : List Track}

theorem Kept.new (tracks : List Track) : Kept tracks (Queue.new tracks) := by
  refine ⟨rfl, ?_, ?_⟩
  · have hle := List.length_filter_le (fun t : Track => decide (t.access ≠ .blocked)) tracks
    simp only [Queue.new]
    omega
  · cases hkept : (Queue.new tracks).tracks with
    | nil => exact .inl rfl
    | cons track rest => exact .inr (Nat.succ_pos _)

theorem Kept.advance {q : Queue} (h : Kept tracks q) : Kept tracks q.advance.2 := by
  unfold Queue.advance
  split
  · rename_i hlt
    exact ⟨h.kept, h.skipped, .inr hlt⟩
  · exact h

theorem Kept.previous {q : Queue} (h : Kept tracks q) : Kept tracks q.previous := by
  refine ⟨h.kept, h.skipped, h.inside.imp_right fun hlt => ?_⟩
  simp only [Queue.previous]
  omega

theorem Kept.listed {q : Queue} {track : Track} (h : Kept tracks q)
    (hcurrent : q.current = some track) : Listed tracks track := by
  have hmem : track ∈ q.tracks := List.mem_of_getElem? hcurrent
  rw [h.kept] at hmem
  simpa [Listed] using hmem

theorem Kept.position {q : Queue} {track : Track} (hcurrent : q.current = some track) :
    1 ≤ q.position.1 ∧ q.position.1 ≤ q.position.2 := by
  have hlt : q.cursor < q.tracks.length := (List.getElem?_eq_some_iff.mp hcurrent).1
  simp only [Queue.position]
  omega

theorem Sound.append {log' : Log} (h : Sound tracks log) (h' : Sound tracks log') :
    Sound tracks (log ++ log') := by
  induction h with
  | nil => exact h'
  | gone hlisted _ ih => exact .gone hlisted ih
  | found hlisted _ ih => exact .found hlisted ih
  | paused _ ih => exact .paused ih

theorem Pauses.sound (h : Pauses log) : Sound tracks log := by
  induction log with
  | nil => exact .nil
  | cons entry log ih =>
    obtain ⟨op, ans⟩ := entry
    obtain ⟨paused, rfl⟩ := h _ (.head _)
    exact .paused (ih fun entry hentry => h entry (.tail _ hentry))

theorem Playing.append {track : Track} {log' : Log} (h : Playing track log) (h' : Pauses log') :
    Playing track (log ++ log') := by
  obtain ⟨before, target, after, hafter, rfl⟩ := h
  refine ⟨before, target, after ++ log', fun entry hentry => ?_, by simp⟩
  exact (List.mem_append.mp hentry).elim (hafter entry) (h' entry)

theorem Playing.prepend {track : Track} (before : Log) (h : Playing track log) :
    Playing track (before ++ log) := by
  obtain ⟨before', target, after, hafter, rfl⟩ := h
  exact ⟨before ++ before', target, after, hafter, by simp⟩

theorem Unpauses.queue (h : Unpauses s log out s') : s'.queue = s.queue := by
  cases h <;> rfl

theorem Unpauses.pauses (h : Unpauses s log out s') : Pauses log := by
  cases h <;> simp [Pauses]

/-- What `play_current` awaits, and which track it leaves playing. -/
theorem Plays.spec (h : Plays s log out s') (hkept : Kept tracks s.queue) :
    Kept tracks s'.queue ∧ Sound tracks log ∧
      (out = .ok .continue → ∃ track, s'.queue.current = some track ∧ Playing track log) := by
  induction h with
  | empty _ => exact ⟨hkept, .nil, nofun⟩
  | @skip s s' track err log out hcurrent _ _ ih =>
    obtain ⟨hkept', hsound, hplaying⟩ := ih hkept.advance
    refine ⟨hkept', .gone (hkept.listed hcurrent) hsound, fun hout => ?_⟩
    obtain ⟨track', hcurrent', hplaying⟩ := hplaying hout
    exact ⟨track', hcurrent', hplaying.prepend [⟨.streamTarget track, .error err⟩]⟩
  | last hcurrent _ => exact ⟨hkept, .gone (hkept.listed hcurrent) .nil, nofun⟩
  | refused hcurrent => exact ⟨hkept, .found (hkept.listed hcurrent) .nil, nofun⟩
  | @loaded s s' track target log out hcurrent hrest =>
    rw [hrest.queue]
    refine ⟨hkept, .found (hkept.listed hcurrent) hrest.pauses.sound, fun _ => ?_⟩
    exact ⟨track, hcurrent, [], target, log, hrest.pauses, rfl⟩

/-- An operation either plays a track, or keeps the one that plays. -/
theorem Does.spec {op : Operation} (h : Does s op log out s') (hkept : Kept tracks s.queue) :
    Kept tracks s'.queue ∧ Sound tracks log ∧
      (out = .ok .continue → (∃ track, s'.queue.current = some track ∧ Playing track log) ∨
        (op ≠ .start ∧ s'.queue = s.queue ∧ Pauses log)) := by
  have hplays {s₁ : Session} (hkept : Kept tracks s₁.queue) (h : Plays s₁ log out s') :
      Kept tracks s'.queue ∧ Sound tracks log ∧
        (out = .ok .continue → (∃ track, s'.queue.current = some track ∧ Playing track log) ∨
          (op ≠ .start ∧ s'.queue = s.queue ∧ Pauses log)) := by
    obtain ⟨hkept', hsound, hplaying⟩ := h.spec hkept
    exact ⟨hkept', hsound, fun hout => .inl (hplaying hout)⟩
  cases h with
  | starts h => exact hplays hkept h
  | skips _ _ h => exact hplays hkept.advance h
  | stays _ => exact ⟨hkept, .nil, fun _ => .inr ⟨nofun, rfl, nofun⟩⟩
  | ended _ _ => exact ⟨hkept, .nil, nofun⟩
  | back h => exact hplays hkept.previous h
  | toggles ans =>
    have hpauses : Pauses [⟨.setPause !s.paused, ans⟩] := by simp [Pauses]
    exact ⟨hkept, hpauses.sound, fun _ => .inr ⟨nofun, rfl, hpauses⟩⟩
  | ignores _ _ => exact ⟨hkept, .nil, fun _ => .inr ⟨nofun, rfl, nofun⟩⟩

/-! ## Every run -/

/-- **What is shown is what plays.** As long as every operation continues, the current
track is one of the list that is not blocked, the cursor is inside the queue, and the last
target loaded is the one the current track was resolved to. A blocked track is never
resolved, what is loaded was just resolved, and no track is lost from the count. -/
theorem shown_plays {calls : List Call} (h : Runs ok tracks calls s) :
    s.queue.skipped + s.queue.tracks.length = tracks.length ∧ Sound tracks (history calls) ∧
      ((∀ call ∈ calls, call.out = .ok .continue) →
        ∃ track, s.queue.current = some track ∧ Listed tracks track ∧
          Playing track (history calls) ∧
          1 ≤ s.queue.position.1 ∧ s.queue.position.1 ≤ s.queue.position.2) := by
  suffices hinv : Kept tracks s.queue ∧ Sound tracks (history calls) ∧
      ((∀ call ∈ calls, call.out = .ok .continue) →
        ∃ track, s.queue.current = some track ∧ Playing track (history calls)) by
    obtain ⟨hkept, hsound, hplaying⟩ := hinv
    refine ⟨hkept.skipped, hsound, fun hcalls => ?_⟩
    obtain ⟨track, hcurrent, hplaying⟩ := hplaying hcalls
    exact ⟨track, hcurrent, hkept.listed hcurrent, hplaying, Kept.position hcurrent⟩
  induction h with
  | @start s log out h =>
    obtain ⟨hkept, hsound, hout⟩ := (Does.of_exec h).spec (Kept.new tracks)
    simp only [history, List.flatMap_cons, List.flatMap_nil, List.append_nil]
    refine ⟨hkept, hsound, fun hcalls => ?_⟩
    exact (hout (hcalls _ (.head _))).resolve_right fun hquiet => hquiet.1 rfl
  | @step calls s s' op log out _ _ h ih =>
    obtain ⟨hkept, hsound, hplaying⟩ := ih
    obtain ⟨hkept', hsound', hout⟩ := (Does.of_exec h).spec hkept
    rw [history_concat]
    refine ⟨hkept', hsound.append hsound', fun hcalls => ?_⟩
    have hlast := hcalls ⟨op, log, out⟩ (by simp)
    rcases hout hlast with ⟨track, hcurrent, hnew⟩ | ⟨_, hqueue, hpauses⟩
    · exact ⟨track, hcurrent, hnew.prepend _⟩
    · obtain ⟨track, hcurrent, hold⟩ := hplaying fun call hcall => hcalls call (by simp [hcall])
      exact ⟨track, hqueue ▸ hcurrent, hold.append hpauses⟩

/-- A backend that resolves every track, and a player that does what it is told. -/
def oblige (op : Op) (_ : Unit) : Ans op × Unit :=
  match op with
  | .streamTarget track => (.ok ⟨track.id, []⟩, ())
  | .load _ | .setPause _ => (.ok (), ())

def song (id : String) (access : Access) : Track := ⟨id, id, "artist", none, none, access⟩

/-- Three tracks, the second of which is blocked. -/
def mixed : List Track := [song "a" .playable, song "b" .blocked, song "c" .preview]

/-- The user pauses the first track and skips to the third. -/
theorem shown_plays_next : ∃ calls s, Runs (fun _ _ => True) mixed calls s ∧
    (∀ call ∈ calls, call.out = .ok .continue) ∧ s.queue.current = some (song "c" .preview) ∧
      ∃ track, s.queue.current = some track ∧ Playing track (history calls) := by
  have hexec (m : Prog Ans (Except String Flow × Session)) :=
    Prog.Exec.of_eval (fun _ _ => True) oblige (fun _ _ => trivial) m ()
  obtain ⟨tr₁, h₁⟩ := hexec (Operation.start.act (Session.new mixed))
  have hrun := Runs.start h₁
  obtain ⟨tr₂, h₂⟩ := hexec (Operation.togglePause.act (Session.new mixed))
  have hrun := hrun.step (nofun : Operation.togglePause ≠ .start) h₂
  obtain ⟨tr₃, h₃⟩ := hexec (Operation.next.act ⟨Queue.new mixed, true⟩)
  have hrun := hrun.step (nofun : Operation.next ≠ .start) h₃
  obtain ⟨track, hcurrent, _, hplaying, _⟩ := (shown_plays hrun).2.2 (by simp)
  exact ⟨_, _, hrun, by simp, rfl, track, hcurrent, hplaying⟩

end Rsc.Player

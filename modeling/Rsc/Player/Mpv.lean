import Rsc.Player.Session

/-!
A session and an `mpv` process: `rsc/src/player/mpv.rs` and the loop of `run` in
`rsc/src/main.rs`. Commands go to `mpv` in a queue and its events come back in another
one. The loop runs one action at a time; `mpv` may move between any two steps of it.
-/

namespace Rsc.Player

open Rsc.Library

/-! ## The process -/

/-- The commands that are sent; a loaded file is known by its number. -/
inductive Command
  | observePause
  | loadfile (target : StreamTarget) (file : Nat)
  | setPause (paused : Bool)

/-- The events of `mpv`, where the end of a file says which one. -/
inductive Signal
  | endFile (file : Nat) (reason : EndReason)
  | position
  | duration
  | paused (value : Bool)
  deriving DecidableEq

/-- What `parse_message` keeps of an event. -/
def Signal.event : Signal → PlayerEvent
  | .endFile _ reason => .endFile reason
  | .position => .position
  | .duration => .duration
  | .paused value => .paused value

structure Mpv where
  playing : Option Nat
  paused : Bool
  observed : Bool

/-- Run one command: the state after it, and the events it emits. -/
def Mpv.run (m : Mpv) : Command → Mpv × List Signal
  | .observePause => ({ m with observed := true }, [.paused m.paused])
  | .loadfile _ file =>
      ({ m with playing := some file },
        match m.playing with
        | none => []
        | some old => [.endFile old .stop])
  | .setPause paused =>
      ({ m with paused := paused },
        if m.observed = true ∧ paused ≠ m.paused then [.paused paused] else [])

/-- Run the commands in order. -/
def Mpv.runAll (m : Mpv) : List Command → Mpv × List Signal
  | [] => (m, [])
  | c :: cs => (((m.run c).1.runAll cs).1, (m.run c).2 ++ ((m.run c).1.runAll cs).2)

theorem Mpv.runAll_concat (m : Mpv) (cs : List Command) (c : Command) :
    m.runAll (cs ++ [c]) =
      (((m.runAll cs).1.run c).1, (m.runAll cs).2 ++ ((m.runAll cs).1.run c).2) := by
  induction cs generalizing m with
  | nil => simp [runAll]
  | cons c' cs ih => simp [runAll, ih]

/-! ## The system -/

/-- What the loop of `run` does: start, the keys, and the next event. -/
inductive Action
  | start
  | next
  | previous
  | togglePause
  | event (signal : Signal)

/-- The action on the session. -/
def Action.act : Action → Act Flow
  | .start => Session.start
  | .next => Session.next
  | .previous => Session.previous
  | .togglePause => do
      Session.togglePause
      return .continue
  | .event signal => Session.handleEvent signal.event

/-- An action that runs, with the files loaded and the cursor when it began. -/
structure Running where
  action : Action
  loads : Nat
  cursor : Nat
  rest : Prog Ans (Except String Flow × Session)

/-- An action that has returned. -/
structure Done where
  action : Action
  loads : Nat
  cursor : Nat
  loadsAfter : Nat
  cursorAfter : Nat

/-- `loads` is the number of the file loaded last, `done` the actions that have returned. -/
structure World where
  session : Session
  running : Option Running
  loads : Nat
  commands : List Command
  mpv : Mpv
  events : List Signal
  done : List Done

/-- Who moves: the loop, or `mpv`. -/
inductive Label
  | begin (action : Action)
  | target
  | load
  | pause
  | finish
  | command
  | ended (reason : EndReason)
  | progress

def World.begin (w : World) (action : Action) : World :=
  { w with running := some ⟨action, w.loads, w.session.queue.cursor, action.act w.session⟩ }

/-- `MpvPlayer::send`. -/
def World.send (w : World) (c : Command) : World := { w with commands := w.commands ++ [c] }

/-- The commands of the player are sent, and succeed. -/
inductive Step (w : World) : Label → World → Prop
  | key (action : Action) (hidle : w.running = none) (hkey : ∀ signal, action ≠ .event signal) :
      Step w (.begin action) (w.begin action)
  | event {signal : Signal} {rest : List Signal} (hidle : w.running = none)
      (h : w.events = signal :: rest) :
      Step w (.begin (.event signal)) ({ w with events := rest }.begin (.event signal))
  | target {r : Running} {track : Track}
      {k : Ans (.streamTarget track) → Prog Ans (Except String Flow × Session)}
      (ans : Ans (.streamTarget track)) (h : w.running = some r)
      (hop : r.rest = .perform (.streamTarget track) k) :
      Step w .target { w with running := some { r with rest := k ans } }
  | load {r : Running} {target : StreamTarget}
      {k : Ans (.load target) → Prog Ans (Except String Flow × Session)}
      (h : w.running = some r) (hop : r.rest = .perform (.load target) k) :
      Step w .load { w.send (.loadfile target (w.loads + 1)) with
        running := some { r with rest := k (.ok ()) }
        loads := w.loads + 1 }
  | pause {r : Running} {paused : Bool}
      {k : Ans (.setPause paused) → Prog Ans (Except String Flow × Session)}
      (h : w.running = some r) (hop : r.rest = .perform (.setPause paused) k) :
      Step w .pause { w.send (.setPause paused) with
        running := some { r with rest := k (.ok ()) } }
  | finish {r : Running} {out : Except String Flow} {session : Session}
      (h : w.running = some r) (hret : r.rest = .ret (out, session)) :
      Step w .finish { w with
        session := session
        running := none
        done := ⟨r.action, r.loads, r.cursor, w.loads, session.queue.cursor⟩ :: w.done }
  | command {c : Command} {cs : List Command} (h : w.commands = c :: cs) :
      Step w .command { w with
        commands := cs
        mpv := (w.mpv.run c).1
        events := w.events ++ (w.mpv.run c).2 }
  | ended {file : Nat} (reason : EndReason) (h : w.mpv.playing = some file)
      (hreason : reason = .eof ∨ reason = .error) :
      Step w (.ended reason) { w with
        mpv := { w.mpv with playing := none }
        events := w.events ++ [.endFile file reason] }
  | progress {signal : Signal} (h : signal = .position ∨ signal = .duration) :
      Step w .progress { w with events := w.events ++ [signal] }

/-- The runs whose steps are all allowed, with their labels (the last one first). -/
inductive Run (allowed : World → Label → Prop) (w₀ : World) : List Label → World → Prop
  | start : Run allowed w₀ [] w₀
  | step {tr : List Label} {w w' : World} {l : Label} :
      Run allowed w₀ tr w → Step w l w' → allowed w l → Run allowed w₀ (l :: tr) w'

theorem Run.mono {allowed allowed' : World → Label → Prop} {w₀ w : World} {tr : List Label}
    (h : ∀ w l, allowed w l → allowed' w l) (hrun : Run allowed w₀ tr w) :
    Run allowed' w₀ tr w := by
  induction hrun with
  | start => exact .start
  | step _ hstep hallowed ih => exact ih.step hstep (h _ _ hallowed)

/-- A new session, and an `mpv` that was just spawned. -/
def spawn (tracks : List Track) : World where
  session := Session.new tracks
  running := none
  loads := 0
  commands := [.observePause]
  mpv := ⟨none, false, false⟩
  events := []
  done := []

/-! ## The actions -/

/-- The phase an action begins in. -/
def Action.phase (s : Session) : Action → Session.Phase
  | .togglePause => .toggling !s.paused
  | .event signal => Session.eventPhase s signal.event
  | _ => .choosing s.paused

theorem Action.follows (action : Action) (s : Session) :
    Prog.Follows Session.Move Session.Returns (action.phase s) (action.act s) := by
  cases action with
  | start => exact Session.playLoop_follows _ s
  | next => exact Session.advance_follows fun s => Session.playLoop_follows _ s
  | previous => exact Session.playLoop_follows _ { s with queue := s.queue.previous }
  | togglePause =>
    refine (Session.togglePause_follows s).bind fun p out hout => ?_
    obtain ⟨out, s'⟩ := out
    cases p with
    | failed =>
      obtain ⟨err, rfl⟩ := hout
      exact ⟨err, rfl⟩
    | toggling => exact hout.elim
    | _ => cases out <;> exact hout
  | event signal => exact Session.handleEvent_follows s signal.event

/-! ## A session of three tracks -/

def track (id : String) : Track := ⟨id, id, "artist", none, none, .playable⟩

def target (url : String) : StreamTarget := ⟨url, []⟩

def tracks : List Track := [track "a", track "b", track "c"]

/-- A session of three tracks between two actions. -/
def between (cursor loads : Nat) (commands : List Command) (mpv : Mpv) (events : List Signal)
    (done : List Done) : World :=
  ⟨⟨⟨tracks, cursor, 0⟩, false⟩, none, loads, commands, mpv, events, done⟩

def started : Done := ⟨.start, 0, 0, 1, 0⟩

/-- The first track plays, and `mpv` has done all it was told. -/
theorem plays_first {allowed : World → Label → Prop}
    (h : ∀ w l, (l = .load → w.events = []) → (∀ reason, l ≠ .ended reason) → allowed w l) :
    ∃ tr, Run allowed (spawn tracks) tr
      (between 0 1 [] ⟨some 1, false, true⟩ [.paused false] [started]) := by
  have h₀ : Run allowed (spawn tracks) [] (between 0 0 [.observePause] ⟨none, false, false⟩ [] []) :=
    .start
  have h₁ := h₀.step (.key .start rfl nofun) (h _ _ nofun nofun)
  have h₂ := h₁.step (.target (.ok (target "a")) rfl rfl) (h _ _ nofun nofun)
  have h₃ := h₂.step (.load rfl rfl) (h _ _ (fun _ => rfl) nofun)
  have h₄ := h₃.step (.finish rfl rfl) (h _ _ nofun nofun)
  have h₄ : Run allowed (spawn tracks) _ (between 0 1 [.observePause, .loadfile (target "a") 1]
      ⟨none, false, false⟩ [] [started]) := h₄
  have h₅ := h₄.step (.command rfl) (h _ _ nofun nofun)
  have h₅ : Run allowed (spawn tracks) _ (between 0 1 [.loadfile (target "a") 1]
      ⟨none, false, true⟩ [.paused false] [started]) := h₅
  have h₆ := h₅.step (.command rfl) (h _ _ nofun nofun)
  exact ⟨_, h₆⟩

end Rsc.Player

import Rsc.Backend.Local
import Rsc.Player.NowPlaying

/-!
`rsc/src/main.rs`: the command `play`. The command lists the playlists, spawns `mpv`, and runs a
session in a loop that waits for the next event of the player, the next key and the signals.

What the loop has waited for is a list. The program that is given a list does what the command
does up to the moment when it waits for more, or to its end if it leaves the loop before.
-/

namespace Rsc.App

open Rsc.Library
open Rsc.Player (Act Flow PlayerEvent Session Track Operation)
open Rsc.Backend (Playlist)

/-! ## Keys -/

/-- `KeyCode`: the codes that are looked at, and the others. -/
inductive KeyCode
  | char (c : Char)
  | left
  | right
  | esc
  | other
  deriving DecidableEq

inductive KeyEventKind
  | press
  | «repeat»
  | release
  deriving DecidableEq

/-- `KeyEvent`; of the modifiers, whether they contain `CONTROL`. -/
structure KeyEvent where
  code : KeyCode
  control : Bool
  kind : KeyEventKind

inductive Action
  | togglePause
  | next
  | previous
  | quit
  deriving DecidableEq

/-- `map_key`. -/
def mapKey (key : KeyEvent) : Option Action :=
  if key.kind ≠ .press then none
  else match key.code with
    | .char ' ' => some .togglePause
    | .char 'n' | .right => some .next
    | .char 'p' | .left => some .previous
    | .char 'q' | .esc => some .quit
    -- Raw mode turns Ctrl-C into a plain key event.
    | .char 'c' => if key.control then some .quit else none
    | _ => none

/-- An item of the `EventStream`, or its end. -/
inductive Item
  | key (key : KeyEvent)
  | other
  | error
  | closed

/-- One round of the loop of `next_action`; `none` waits for the next item. -/
def nextAction : Item → Option Action
  | .key key => mapKey key
  | .other => none
  -- Terminal went away.
  | .error | .closed => some .quit

/-- What `select!` gets: `None` from the receiver when `mpv` is gone. -/
inductive Wake
  | event (event : Option PlayerEvent)
  | item (item : Item)
  | signal

/-! ## What the command awaits -/

inductive Stream
  | stdin
  | stdout

inductive Op
  | myPlaylists
  | playlistTracks (id : String)
  | shutdownSignals
  | spawn (extraArgs : List String)
  | player (op : Player.Op)
  | shutdown
  | isTerminal (stream : Stream)
  | enableRawMode
  | disableRawMode
  | print (text : String)
  | eprint (text : String)

abbrev Ans : Op → Type
  | .myPlaylists => Except String (List Playlist)
  | .playlistTracks _ => Except String (List Track)
  | .shutdownSignals | .spawn _ | .enableRawMode => Except String Unit
  | .player op => Player.Ans op
  | .isTerminal _ => Bool
  | .shutdown | .disableRawMode | .print _ | .eprint _ => Unit

/-- What a program was given, the first answer first. -/
abbrev Trace : Type := List (Sigma Ans)

/-- An `async fn` that fails with an `anyhow::Error`. -/
abbrev Task (α : Type) : Type := ExceptT String (Prog Ans) α

/-- An `async fn` that is lent the session. -/
abbrev Main (α : Type) : Type := ExceptT String (StateT Session (Prog Ans)) α

/-- Await an effect that does not fail. -/
def call (op : Op) : Main (Ans op) :=
  ExceptT.mk fun s => Prog.perform op fun ans => Prog.ret (.ok ans, s)

/-- What the session does. -/
def onSession (m : Act Flow) : Main Flow :=
  ExceptT.mk fun s => Prog.embed Op.player (m s)

/-! ## The loop -/

/-- `print_line`. -/
def printLine (text : String) (raw : Bool) : Main Unit :=
  call (.print (text ++ if raw then "\r\n" else "\n"))

/-- The line of the current track. -/
def nowPlaying (position : Nat × Nat) (track : Track) : String :=
  "▶ " ++ toString position.1 ++ "/" ++ toString position.2 ++ "  " ++ track.title ++ " — " ++
    track.artist

/-- `show_now_playing`. -/
def showNowPlaying (raw : Bool) : Main Unit := do
  let queue := (← getThe Session).queue
  match queue.current with
  | some track => printLine (nowPlaying queue.position track) raw
  | none => return ()

theorem showNowPlaying_none {raw : Bool} {s : Session} (h : s.queue.current = none) :
    showNowPlaying raw s = Prog.ret (.ok (), s) := by
  change (match s.queue.current with
    | some track => printLine (nowPlaying s.queue.position track) raw
    | none => (pure () : Main Unit)) s = _
  rw [h]
  rfl

theorem showNowPlaying_some {raw : Bool} {s : Session} {track : Track}
    (h : s.queue.current = some track) :
    showNowPlaying raw s = printLine (nowPlaying s.queue.position track) raw s := by
  change (match s.queue.current with
    | some track => printLine (nowPlaying s.queue.position track) raw
    | none => (pure () : Main Unit)) s = _
  rw [h]

/-- Whether the loop still waits, or was left. -/
inductive Progress
  | waiting
  | left
  deriving DecidableEq

/-- What follows an operation in the body of the loop; `again` is the next round. -/
def afterwards (interactive : Bool) (before : Nat × Nat) (flow : Flow) (again : Main Progress) :
    Main Progress := do
  if (← getThe Session).queue.position ≠ before then showNowPlaying interactive
  if flow = .finished then do
    printLine "Playlist finished." interactive
    return .left
  else again

/-- The arm of the action in `select!`. -/
def perform (interactive : Bool) : Action → Main (Option Flow)
  | .quit => return none
  | .togglePause => do
      let flow ← onSession Operation.togglePause.act
      let state := if (← getThe Session).paused then "⏸ paused" else "▶ resumed"
      printLine state interactive
      return some flow
  | .next => do return some (← onSession Session.next)
  | .previous => do return some (← onSession Session.previous)

/-- What an item of the terminal asks for. Without a terminal there are no keys. -/
def itemAction (interactive : Bool) (item : Item) : Option Action :=
  if interactive then nextAction item else none

/-- The loop of `run`, for what it waits for. -/
def loop (interactive : Bool) : List Wake → Main Progress
  | [] => return .waiting
  | wake :: wakes => do
      let before := (← getThe Session).queue.position
      match wake with
      | .event none => throw "mpv exited unexpectedly"
      | .event (some event) => do
          let flow ← onSession (Session.handleEvent event)
          afterwards interactive before flow (loop interactive wakes)
      | .item item =>
          match itemAction interactive item with
          | none => loop interactive wakes
          | some action => do
              match ← perform interactive action with
              | none => return .left
              | some flow => afterwards interactive before flow (loop interactive wakes)
      | .signal => return .left

theorem loop_ignored {interactive : Bool} {item : Item} (h : itemAction interactive item = none)
    (wakes : List Wake) : loop interactive (.item item :: wakes) = loop interactive wakes := by
  funext s
  change (match itemAction interactive item with
    | none => loop interactive wakes
    | some action => (_ : Main Progress)) s = _
  rw [h]

theorem loop_action {interactive : Bool} {item : Item} {action : Action}
    (h : itemAction interactive item = some action) (wakes : List Wake) (s : Session) :
    loop interactive (.item item :: wakes) s = (do
      match ← perform interactive action with
      | none => return .left
      | some flow => afterwards interactive s.queue.position flow (loop interactive wakes) :
        Main Progress) s := by
  change (match itemAction interactive item with
    | none => loop interactive wakes
    | some action => (_ : Main Progress)) s = _
  rw [h]

/-- The body of `run`, behind its guard. -/
def playback (interactive : Bool) (wakes : List Wake) : Main Progress := do
  if (← onSession Session.start) = .finished then throw "no track could be played"
  else do
    showNowPlaying interactive
    if interactive then printLine "[space] pause  [n]ext  [p]revious  [q]uit" interactive
    loop interactive wakes

/-- `RawMode`: the guard is dropped whenever the body is left. -/
def rawMode (body : Main Progress) : Main Progress :=
  ExceptT.mk fun s => Prog.perform .enableRawMode fun
    | .error err => Prog.ret (.error err, s)
    | .ok () => (body s).bind fun out =>
        if out.1 = .ok .waiting then Prog.ret out
        else Prog.perform .disableRawMode fun _ => Prog.ret out

/-- Without a terminal (pipes, CI) there are no keys. -/
def isInteractive : Main Bool := do
  if ← call (.isTerminal .stdin) then call (.isTerminal .stdout) else return false

/-- `run`. -/
def run (wakes : List Wake) : Main Progress := do
  let interactive ← isInteractive
  if interactive then rawMode (playback interactive wakes) else playback interactive wakes

/-! ## The command -/

/-- Await an effect; `?` passes its error on. -/
def await {α : Type} (op : Op) (result : Ans op → Except String α) : Task α :=
  ExceptT.mk (Prog.perform op fun ans => Prog.ret (result ans))

/-- `find_playlist`: exact id first, then case-insensitive title. `debug` is the format `?`
of a text. -/
def findPlaylist (debug : String → String) (playlists : List Playlist) (query : String) :
    Except String Playlist :=
  match (playlists.find? fun p => p.id = query).or
    (playlists.find? fun p => Text.eqIgnoreAsciiCase p.title.toList query.toList) with
  | some playlist => .ok playlist
  | none => .error ("no playlist named " ++ debug query ++ " (available: " ++
      ", ".intercalate (playlists.map Playlist.title) ++ ")")

theorem findPlaylist_eq_ok {debug : String → String} {playlists : List Playlist} {query : String}
    {playlist : Playlist} (h : (playlists.find? fun p => p.id = query).or
      (playlists.find? fun p => Text.eqIgnoreAsciiCase p.title.toList query.toList) =
        some playlist) : findPlaylist debug playlists query = .ok playlist := by
  rw [findPlaylist, h]

/-- What follows `run`: the player is shut down once the loop is left. -/
def finish (out : Except String Progress) : Task Progress :=
  if out = .ok .waiting then return .waiting
  else ExceptT.mk (Prog.perform .shutdown fun _ => Prog.ret out)

/-- `play`. -/
def play (debug : String → String) (query : String) (mpvArgs : List String)
    (wakes : List Wake) : Task Progress := do
  let playlists ← await .myPlaylists id
  let playlist ← ExceptT.mk (Prog.ret (findPlaylist debug playlists query))
  let tracks ← await (.playlistTracks playlist.id) id
  -- Registered before mpv exists, so no signal can kill us while it is running.
  await .shutdownSignals id
  await (.spawn mpvArgs) id
  let session := Session.new tracks
  if session.queue.tracks.isEmpty then
    finish (.error (debug playlist.title ++ " has no playable track"))
  else do
    if 0 < session.queue.skipped then
      await (.eprint (toString session.queue.skipped ++ " blocked track(s) skipped\n")) .ok
    let out ← ExceptT.mk ((run wakes session).bind fun out => Prog.ret (.ok out.1))
    finish out

end Rsc.App

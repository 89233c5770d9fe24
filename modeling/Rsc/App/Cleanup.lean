import Rsc.App.Turns
import Rsc.Player.Playlist

/-!
What the command `play` takes it gives back: `Holds` says what it holds at each moment and what it
may ask for then, and on every way out nothing is held any more.
-/

namespace Rsc.App

open Rsc.Library
open Rsc.Player (Session Track Log)
open Rsc.Backend (Playlist)

variable {ok : (op : Op) → Ans op → Prop} {α β : Type} {tr : Trace} {debug : String → String}
  {query : String} {mpvArgs : List String} {wakes : List Wake} {out : Except String Progress}

/-! ## The command, step by step -/

theorem await_inv {op : Op} {result : Ans op → Except String α} {a : Except String α}
    (h : Prog.Exec ok (await op result) tr a) :
    ∃ ans, tr = [⟨op, ans⟩] ∧ a = result ans ∧ ok op ans := by
  cases h with
  | @perform _ _ ans _ _ hok h =>
    obtain ⟨rfl, rfl⟩ := h.ret_inv
    exact ⟨ans, rfl, rfl, hok⟩

/-- A step goes on with the next one, or `?` passes its error on. -/
theorem task_bind_inv {m : Task α} {f : α → Task β} {b : Except String β}
    (h : Prog.Exec ok (m >>= f : Task β) tr b) :
    (∃ tr₁ a tr₂, tr = tr₁ ++ tr₂ ∧ Prog.Exec ok m tr₁ (.ok a) ∧ Prog.Exec ok (f a) tr₂ b) ∨
    ∃ err, Prog.Exec ok m tr (.error err) ∧ b = .error err := by
  obtain ⟨tr₁, a, tr₂, rfl, hm, hf⟩ := Prog.Exec.bind_inv h
  cases a with
  | ok a => exact .inl ⟨tr₁, a, tr₂, rfl, hm, hf⟩
  | error err =>
    obtain ⟨rfl, rfl⟩ := hf.ret_inv
    exact .inr ⟨err, by rwa [List.append_nil], rfl⟩

/-- The steps before the session, each with its error. -/
inductive Opens (ok : (op : Op) → Ans op → Prop) (debug : String → String) (query : String)
    (mpvArgs : List String) : Trace → Except String (Playlist × List Track) → Prop
  | unlisted {err : String} (h : ok .myPlaylists (.error err)) :
      Opens ok debug query mpvArgs [⟨.myPlaylists, .error err⟩] (.error err)
  | unknown {playlists : List Playlist} {err : String} (hlisted : ok .myPlaylists (.ok playlists))
      (h : findPlaylist debug playlists query = .error err) :
      Opens ok debug query mpvArgs [⟨.myPlaylists, .ok playlists⟩] (.error err)
  | untracked {playlists : List Playlist} {playlist : Playlist} {err : String}
      (hlisted : ok .myPlaylists (.ok playlists))
      (hfound : findPlaylist debug playlists query = .ok playlist)
      (h : ok (.playlistTracks playlist.id) (.error err)) :
      Opens ok debug query mpvArgs
        [⟨.myPlaylists, .ok playlists⟩, ⟨.playlistTracks playlist.id, .error err⟩] (.error err)
  | unguarded {playlists : List Playlist} {playlist : Playlist} {tracks : List Track} {err : String}
      (hlisted : ok .myPlaylists (.ok playlists))
      (hfound : findPlaylist debug playlists query = .ok playlist)
      (htracks : ok (.playlistTracks playlist.id) (.ok tracks))
      (h : ok .shutdownSignals (.error err)) :
      Opens ok debug query mpvArgs
        [⟨.myPlaylists, .ok playlists⟩, ⟨.playlistTracks playlist.id, .ok tracks⟩,
          ⟨.shutdownSignals, .error err⟩] (.error err)
  | unspawned {playlists : List Playlist} {playlist : Playlist} {tracks : List Track} {err : String}
      (hlisted : ok .myPlaylists (.ok playlists))
      (hfound : findPlaylist debug playlists query = .ok playlist)
      (htracks : ok (.playlistTracks playlist.id) (.ok tracks))
      (h : ok (.spawn mpvArgs) (.error err)) :
      Opens ok debug query mpvArgs
        [⟨.myPlaylists, .ok playlists⟩, ⟨.playlistTracks playlist.id, .ok tracks⟩,
          ⟨.shutdownSignals, .ok ()⟩, ⟨.spawn mpvArgs, .error err⟩] (.error err)
  | opened {playlists : List Playlist} {playlist : Playlist} {tracks : List Track}
      (hlisted : ok .myPlaylists (.ok playlists))
      (hfound : findPlaylist debug playlists query = .ok playlist)
      (htracks : ok (.playlistTracks playlist.id) (.ok tracks)) :
      Opens ok debug query mpvArgs
        [⟨.myPlaylists, .ok playlists⟩, ⟨.playlistTracks playlist.id, .ok tracks⟩,
          ⟨.shutdownSignals, .ok ()⟩, ⟨.spawn mpvArgs, .ok ()⟩] (.ok (playlist, tracks))

/-- What is said of the tracks that are not played. -/
def skippedLine (tracks : List Track) : Trace :=
  let skipped := (Session.new tracks).queue.skipped
  if 0 < skipped then [⟨.eprint (toString skipped ++ " blocked track(s) skipped\n"), ()⟩] else []

/-- The rest of the command, once `mpv` runs. -/
inductive Plays (ok : (op : Op) → Ans op → Prop) (debug : String → String) (wakes : List Wake)
    (playlist : Playlist) (tracks : List Track) : Trace → Except String Progress → Prop
  | empty (h : (Session.new tracks).queue.tracks = []) :
      Plays ok debug wakes playlist tracks [⟨.shutdown, ()⟩]
        (.error (debug playlist.title ++ " has no playable track"))
  | waits {body : Trace} {s : Session} (hplayable : (Session.new tracks).queue.tracks ≠ [])
      (h : Prog.Exec ok (run wakes (Session.new tracks)) body (.ok .waiting, s)) :
      Plays ok debug wakes playlist tracks (skippedLine tracks ++ body) (.ok .waiting)
  | ends {body : Trace} {out : Except String Progress} {s : Session}
      (hplayable : (Session.new tracks).queue.tracks ≠ [])
      (h : Prog.Exec ok (run wakes (Session.new tracks)) body (out, s))
      (hout : out ≠ .ok .waiting) :
      Plays ok debug wakes playlist tracks (skippedLine tracks ++ (body ++ [⟨.shutdown, ()⟩])) out

theorem finish_inv {result : Except String Progress} (h : Prog.Exec ok (finish result) tr out) :
    out = result ∧ ((result = .ok .waiting ∧ tr = []) ∨
      (result ≠ .ok .waiting ∧ tr = [⟨.shutdown, ()⟩])) := by
  rw [finish] at h
  by_cases hwaiting : result = .ok .waiting
  · rw [if_pos hwaiting] at h
    obtain ⟨rfl, rfl⟩ := h.ret_inv
    exact ⟨hwaiting.symm, .inl ⟨hwaiting, rfl⟩⟩
  · rw [if_neg hwaiting] at h
    obtain ⟨_, _, rfl, hret⟩ := h.perform_inv
    obtain ⟨rfl, rfl⟩ := hret.ret_inv
    exact ⟨rfl, .inr ⟨hwaiting, rfl⟩⟩

/-- `run`, and what follows it. -/
theorem Plays.of_run (debug : String → String) (playlist : Playlist) {tracks : List Track}
    (hplayable : (Session.new tracks).queue.tracks ≠ [])
    (h : Prog.Exec ok (do
      let out ← ExceptT.mk ((run wakes (Session.new tracks)).bind fun out => Prog.ret (.ok out.1))
      finish out : Task Progress) tr out) : Plays ok debug wakes playlist tracks
        (skippedLine tracks ++ tr) out := by
  rcases task_bind_inv h with ⟨tr₁, result, tr₂, rfl, hrun, hfinish⟩ | ⟨err, hrun, -⟩
  · obtain ⟨body, ⟨result', s⟩, _, rfl, hbody, hret⟩ := Prog.Exec.bind_inv hrun
    obtain ⟨rfl, hresult⟩ := hret.ret_inv
    cases hresult
    rw [List.append_nil]
    obtain ⟨rfl, ⟨rfl, rfl⟩ | ⟨hout, rfl⟩⟩ := finish_inv hfinish
    · rw [List.append_nil]
      exact .waits hplayable hbody
    · exact .ends hplayable hbody hout
  · obtain ⟨_, _, _, _, _, hret⟩ := Prog.Exec.bind_inv hrun
    cases hret.ret_inv.2

theorem Plays.of_session {playlist : Playlist} {tracks : List Track}
    (h : Prog.Exec ok (do
      let session := Session.new tracks
      if session.queue.tracks.isEmpty then
        finish (.error (debug playlist.title ++ " has no playable track"))
      else do
        if 0 < session.queue.skipped then
          await (.eprint (toString session.queue.skipped ++ " blocked track(s) skipped\n")) .ok
        let out ← ExceptT.mk ((run wakes session).bind fun out => Prog.ret (.ok out.1))
        finish out : Task Progress) tr out) :
    Plays ok debug wakes playlist tracks tr out := by
  dsimp only at h
  split at h
  · next hempty =>
    obtain ⟨rfl, ⟨hwaiting, -⟩ | ⟨-, rfl⟩⟩ := finish_inv h
    · cases hwaiting
    · exact .empty (List.isEmpty_iff.mp hempty)
  · next hplayable =>
    have hplayable := mt List.isEmpty_iff.mpr hplayable
    split at h
    · next hskipped =>
      rcases task_bind_inv h with ⟨_, _, rest, rfl, hline, hrun⟩ | ⟨err, hline, -⟩
      · obtain ⟨_, rfl, -⟩ := await_inv hline
        have hplays := Plays.of_run debug playlist hplayable hrun
        rwa [skippedLine, if_pos hskipped] at hplays
      · obtain ⟨_, _, hans, -⟩ := await_inv hline
        cases hans
    · next hskipped =>
      have hplays := Plays.of_run debug playlist hplayable h
      rwa [skippedLine, if_neg hskipped] at hplays

/-- **The command.** Every run of it is one of these. -/
theorem play_inv (h : Prog.Exec ok (play debug query mpvArgs wakes) tr out) :
    (∃ err, Opens ok debug query mpvArgs tr (.error err) ∧ out = .error err) ∨
    ∃ opened rest playlist tracks, tr = opened ++ rest ∧
      Opens ok debug query mpvArgs opened (.ok (playlist, tracks)) ∧
      Plays ok debug wakes playlist tracks rest out := by
  rcases task_bind_inv h with ⟨_, playlists, tr₁, rfl, hlists, h₁⟩ | ⟨err, hlists, rfl⟩
  rotate_left
  · obtain ⟨_, rfl, hans, hok⟩ := await_inv hlists
    cases hans
    exact .inl ⟨err, .unlisted hok, rfl⟩
  obtain ⟨_, rfl, hans, hlisted⟩ := await_inv hlists
  cases hans
  rcases task_bind_inv h₁ with ⟨_, playlist, tr₂, rfl, hfind, h₂⟩ | ⟨err, hfind, rfl⟩
  rotate_left
  · obtain ⟨rfl, hfound⟩ := hfind.ret_inv
    exact .inl ⟨err, .unknown hlisted hfound.symm, rfl⟩
  obtain ⟨rfl, hfound⟩ := hfind.ret_inv
  have hfound := hfound.symm
  rcases task_bind_inv h₂ with ⟨_, tracks, tr₃, rfl, hlist, h₃⟩ | ⟨err, hlist, rfl⟩
  rotate_left
  · obtain ⟨_, rfl, hans, hok⟩ := await_inv hlist
    cases hans
    exact .inl ⟨err, .untracked hlisted hfound hok, rfl⟩
  obtain ⟨_, rfl, hans, htracks⟩ := await_inv hlist
  cases hans
  rcases task_bind_inv h₃ with ⟨_, _, tr₄, rfl, hsignals, h₄⟩ | ⟨err, hsignals, rfl⟩
  rotate_left
  · obtain ⟨_, rfl, hans, hok⟩ := await_inv hsignals
    cases hans
    exact .inl ⟨err, .unguarded hlisted hfound htracks hok, rfl⟩
  obtain ⟨_, rfl, hans, -⟩ := await_inv hsignals
  cases hans
  rcases task_bind_inv h₄ with ⟨_, _, tr₅, rfl, hspawn, h₅⟩ | ⟨err, hspawn, rfl⟩
  rotate_left
  · obtain ⟨_, rfl, hans, hok⟩ := await_inv hspawn
    cases hans
    exact .inl ⟨err, .unspawned hlisted hfound htracks hok, rfl⟩
  obtain ⟨_, rfl, hans, -⟩ := await_inv hspawn
  cases hans
  exact .inr ⟨_, tr₅, playlist, tracks, rfl, .opened hlisted hfound htracks, .of_session h₅⟩

/-! ## What the command holds -/

inductive Stage
  /-- Nothing is held. -/
  | choosing
  /-- The signals are handled. -/
  | guarded
  /-- `mpv` runs, and the terminal may be in raw mode. -/
  | playing (raw : Bool)
  /-- Everything was given back, and nothing more is asked for. -/
  | finished

/-- The stage after an answer that may be an error. -/
def Stage.unlessFailed {α : Type} (stage : Stage) : Except String α → Stage
  | .ok _ => stage
  | .error _ => .finished

/-- What may be asked for at each stage. The player is used while `mpv` runs, and the line of a
text ends as the mode of the terminal asks for; `mpv` is shut down behind the terminal. -/
inductive May : Prog.Protocol Ans Stage
  | list {ans : Except String (List Playlist)} :
      May .choosing .myPlaylists ans (Stage.choosing.unlessFailed ans)
  | tracks {id : String} {ans : Except String (List Track)} :
      May .choosing (.playlistTracks id) ans (Stage.choosing.unlessFailed ans)
  | signals {ans : Except String Unit} :
      May .choosing .shutdownSignals ans (Stage.guarded.unlessFailed ans)
  | spawn {args : List String} {ans : Except String Unit} :
      May .guarded (.spawn args) ans ((Stage.playing false).unlessFailed ans)
  | player {raw : Bool} {op : Player.Op} {ans : Player.Ans op} :
      May (.playing raw) (.player op) ans (.playing raw)
  | print {raw : Bool} {line : String} :
      May (.playing raw) (.print (line ++ if raw then "\r\n" else "\n")) () (.playing raw)
  | eprint {text : String} : May (.playing false) (.eprint text) () (.playing false)
  | isTerminal {stream : Stream} {ans : Bool} :
      May (.playing false) (.isTerminal stream) ans (.playing false)
  | raw : May (.playing false) .enableRawMode (.ok ()) (.playing true)
  | stays {err : String} : May (.playing false) .enableRawMode (.error err) (.playing false)
  | restore : May (.playing true) .disableRawMode () (.playing false)
  | shutdown : May (.playing false) .shutdown () .finished

/-- Where the command ends: `mpv` runs as long as the loop waits, and not any more when the command
is over or has failed. -/
inductive Ends : Stage → Except String Progress → Prop
  | waiting {raw : Bool} : Ends (.playing raw) (.ok .waiting)
  | unknown {err : String} : Ends .choosing (.error err)
  | finished {out : Except String Progress} (h : out ≠ .ok .waiting) : Ends .finished out

theorem Opens.path {result : Except String (Playlist × List Track)}
    (h : Opens ok debug query mpvArgs tr result) : ∃ stage, Prog.Path May .choosing tr stage ∧
      match result with
      | .ok _ => stage = .playing false
      | .error err => Ends stage (.error err) := by
  cases h with
  | unlisted => exact ⟨.finished, .cons .list .nil, .finished nofun⟩
  | unknown => exact ⟨.choosing, .cons .list .nil, .unknown⟩
  | untracked => exact ⟨.finished, .cons .list (.cons .tracks .nil), .finished nofun⟩
  | unguarded => exact ⟨.finished, .cons .list (.cons .tracks (.cons .signals .nil)), .finished nofun⟩
  | unspawned =>
    exact ⟨.finished, .cons .list (.cons .tracks (.cons .signals (.cons .spawn .nil))), .finished nofun⟩
  | opened =>
    exact ⟨_, .cons .list (.cons .tracks (.cons .signals (.cons .spawn .nil))), rfl⟩

theorem path_ofLog (raw : Bool) (log : Log) :
    Prog.Path May (.playing raw) (ofLog log) (.playing raw) := by
  induction log with
  | nil => exact .nil
  | cons entry log ih => exact .cons .player ih

theorem path_printed (raw : Bool) (lines : List String) :
    Prog.Path May (.playing raw) (printed raw lines) (.playing raw) := by
  induction lines with
  | nil => exact .nil
  | cons line lines ih => exact .cons .print ih

/-- The loop leaves everything as it is. -/
theorem Loops.path {raw : Bool} {s s' : Session} (h : Loops ok raw s wakes tr out s') :
    Prog.Path May (.playing raw) tr (.playing raw) := by
  induction h with
  | waits | gone | leaves => exact .nil
  | ignores _ _ ih => exact ih
  | fails => exact path_ofLog raw _
  | finishes => exact (path_ofLog raw _).append (path_printed raw _)
  | goesOn _ _ _ ih => exact ((path_ofLog raw _).append (path_printed raw _)).append ih

theorem Starts.path {raw : Bool} {s s' : Session} (h : Starts ok raw s wakes tr out s') :
    Prog.Path May (.playing raw) tr (.playing raw) := by
  cases h with
  | fails | nothing => exact path_ofLog raw _
  | plays _ hrest => exact ((path_ofLog raw _).append (path_printed raw _)).append hrest.path

/-- `run` restores the terminal when it is left. -/
theorem run_path {s s' : Session} (h : Prog.Exec ok (run wakes s) tr (out, s')) :
    ∃ raw, Prog.Path May (.playing false) tr (.playing raw) ∧
      (out ≠ .ok .waiting → raw = false) := by
  obtain ⟨interactive, asked, rest, rfl, hasked, hrest⟩ := run_inv h
  have hterminal : Prog.Path May (.playing false) asked (.playing false) := by
    rcases hasked with ⟨-, rfl⟩ | rfl
    · exact .cons .isTerminal .nil
    · exact .cons .isTerminal (.cons .isTerminal .nil)
  rcases hrest with ⟨err, -, rfl, rfl, -⟩ | ⟨body, hstarts, hguards⟩
  · exact ⟨false, hterminal.append (.cons .stays .nil), fun _ => rfl⟩
  · cases hguards with
    | plain => exact ⟨false, hterminal.append hstarts.path, fun _ => rfl⟩
    | waiting => exact ⟨true, hterminal.append (.cons .raw hstarts.path), fun h => absurd rfl h⟩
    | restored =>
      exact ⟨false, hterminal.append ((Prog.Path.cons .raw hstarts.path).append
        (.cons .restore .nil)), fun _ => rfl⟩

theorem Plays.path {playlist : Playlist} {tracks : List Track}
    (h : Plays ok debug wakes playlist tracks tr out) :
    ∃ stage, Prog.Path May (.playing false) tr stage ∧ Ends stage out := by
  have hskipped : Prog.Path May (.playing false) (skippedLine tracks) (.playing false) := by
    rw [skippedLine]
    split
    · exact .cons .eprint .nil
    · exact .nil
  cases h with
  | empty => exact ⟨.finished, .cons .shutdown .nil, .finished nofun⟩
  | waits _ hrun =>
    obtain ⟨raw, hpath, -⟩ := run_path hrun
    exact ⟨.playing raw, hskipped.append hpath, .waiting⟩
  | ends _ hrun hout =>
    obtain ⟨raw, hpath, hraw⟩ := run_path hrun
    rw [hraw hout] at hpath
    exact ⟨.finished, hskipped.append (hpath.append (.cons .shutdown .nil)), .finished hout⟩

def Stage.running : Stage → ℕ
  | .playing _ => 1
  | _ => 0

def Stage.inRaw : Stage → ℕ
  | .playing true => 1
  | _ => 0

/-- A signal came, or `mpv` is gone. -/
def Wake.Stops (wake : Wake) : Prop := wake = .signal ∨ wake = .event none

theorem Loops.stops {interactive : Bool} {s s' : Session}
    (h : Loops ok interactive s wakes tr out s') (hstops : ∃ wake ∈ wakes, wake.Stops) : out ≠ .ok .waiting := by
  induction h with
  | waits =>
    obtain ⟨_, hmem, -⟩ := hstops
    cases hmem
  | gone | leaves | fails | finishes => nofun
  | ignores hignored _ ih =>
    obtain ⟨wake, hmem, hstop⟩ := hstops
    rcases List.mem_cons.mp hmem with rfl | hmem
    · obtain ⟨item, rfl, -⟩ := hignored
      rcases hstop with hstop | hstop <;> cases hstop
    · exact ih ⟨wake, hmem, hstop⟩
  | goesOn hop _ _ ih =>
    obtain ⟨wake, hmem, hstop⟩ := hstops
    rcases List.mem_cons.mp hmem with rfl | hmem
    · rcases hstop with rfl | rfl <;> cases hop
    · exact ih ⟨wake, hmem, hstop⟩

theorem Ends.nothing {stage : Stage} (h : Ends stage out) (hout : out ≠ .ok .waiting) :
    stage.running = 0 ∧ stage.inRaw = 0 := by
  cases h with
  | waiting => exact absurd rfl hout
  | unknown | finished => exact ⟨rfl, rfl⟩

/-- A terminal, a backend that resolves every track, and a player that does what it is told. -/
def attend (op : Op) (_ : Unit) : Ans op × Unit :=
  match op with
  | .myPlaylists => (.ok [⟨"mix", "Mix", 2⟩], ())
  | .playlistTracks _ => (.ok Player.mixed, ())
  | .shutdownSignals | .spawn _ | .enableRawMode => (.ok (), ())
  | .player op => Player.oblige op ()
  | .isTerminal _ => (true, ())
  | .shutdown | .disableRawMode | .print _ | .eprint _ => ((), ())

def pressed (code : KeyCode) : Wake := .item (.key ⟨code, false, .press⟩)

end Rsc.App

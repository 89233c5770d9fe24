import Rsc.App.Cleanup
import Rsc.Backend.Listing

/-!
Playing a folder without a terminal (pipes, CI): `rsc play` loads the audio files of the folder in
the order of their names, one at the end of the other, names each of them, and is over at the end
of the last.
-/

namespace Rsc.EndToEnd.PlayFolder

open Rsc.Library
open Rsc.App (Ans Item Loops Op Plays Progress Starts Task Trace Wake findPlaylist ofLog
  onSession play playerOk printed run said skippedLine trackLine)
open Rsc.Backend (Disk Playlist fileTrack filePath nameKey)
open Rsc.Player (Act Flow Log PlayerEvent Session StreamTarget Track)

/-! ## What is claimed -/

/-- What is seen of the command. -/
inductive Seen
  | loads (url : String)
  | prints (text : String)
  | shutsDown

def seen (tr : Trace) : List Seen := tr.filterMap fun entry => match entry with
  | ⟨.player (.load target), _⟩ => some (.loads target.url)
  | ⟨.print text, _⟩ => some (.prints text)
  | ⟨.shutdown, _⟩ => some .shutsDown
  | _ => none

section

variable (disk : Disk) (root : Path) (render : Backend.Error → String)

/-- The answers when all is well: the local backend over the disk, `mpv` does what it is told,
and there is no terminal. -/
def Answers : (op : Op) → Ans op → Prop
  | .myPlaylists, ans => ∃ log out,
      Prog.Exec disk.Serves (Backend.myPlaylists root) log out ∧ ans = out.mapError render
  | .playlistTracks id, ans => ∃ log out,
      Prog.Exec disk.Serves (Backend.playlistTracks root id) log out ∧ ans = out.mapError render
  | .player (.streamTarget track), ans => ∃ log out,
      Prog.Exec disk.Serves (Backend.streamTarget root track) log out ∧ ans = out.mapError render
  | .player (.load _), ans | .player (.setPause _), ans => ans = .ok ()
  | .shutdownSignals, ans | .spawn _, ans => ans = .ok ()
  | .isTerminal _, ans => ans = false
  | _, _ => True

/-- The folder that the query names: the one of this name, or else the first one, in the order of
the names, that has the name but for the case of ASCII letters. -/
def Names (query name : String) : Prop :=
  name ∈ disk.folders root ∧ (name = query ∨ (query ∉ disk.folders root ∧
    Text.eqIgnoreAsciiCase name.toList query.toList = true ∧
    ∀ other ∈ disk.folders root, Text.eqIgnoreAsciiCase other.toList query.toList = true →
      nameKey name ≤ nameKey other))

/-- What `mpv` is given for a file. -/
def url (name file : String) : String := Utf8.decodeLossy (filePath root name file)

/-- A file, with its place in the folder, is loaded and named. -/
def turn (name : String) (count : ℕ) (file : String × ℕ) : List Seen :=
  [.loads (url root name file.1),
    .prints (App.nowPlaying (file.2 + 1, count) (fileTrack name file.1) ++ "\n")]

/-- The files from a place on, as many of them. -/
def turns (name : String) (files : List String) (start count : ℕ) : List Seen :=
  ((files.zipIdx.drop start).take count).flatMap (turn root name files.length)

end

/-- A file ended: it was played, or it could not be. -/
def isEnd : Wake → Bool
  | .event (some (.endFile .eof)) | .event (some (.endFile .error)) => true
  | _ => false

/-- What is seen of the command, and how it ends, after so many files have ended. -/
structure PlaysThrough (disk : Disk) (root : Path) (debug : String → String) (name : String)
    (files : List String) (ends : ℕ) (tr : Trace) (out : Except String Progress) : Prop where
  empty : files = [] → seen tr = [.shutsDown] ∧
    out = .error (debug name ++ " has no playable track")
  playing : ends < files.length → seen tr = turns root name files 0 (ends + 1) ∧ out = .ok .waiting
  finished : files ≠ [] → files.length ≤ ends → seen tr = turns root name files 0 files.length ++
    [.prints "Playlist finished.\n", .shutsDown] ∧ out = .ok .left
  located : ∀ file ∈ files, Utf8.encode (url root name file) = filePath root name file

/-! ## What is seen -/

theorem seen_append (tr tr' : Trace) : seen (tr ++ tr') = seen tr ++ seen tr' :=
  List.filterMap_append

theorem seen_printed (lines : List String) :
    seen (printed false lines) = lines.map fun line => .prints (line ++ "\n") := by
  induction lines with
  | nil => rfl
  | cons line lines ih => exact congrArg (Seen.prints (line ++ "\n") :: ·) ih

variable {disk : Disk} {root : Path} {render : Backend.Error → String} {debug : String → String}
  {query name file : String} {files : List String} {mpvArgs : List String} {wakes : List Wake}
  {tr : Trace} {out : Except String Progress} {s s' : Session} {log : Log}
  {flow : Except String Flow}

/-! ## The playlist -/

/-- Of the folders, the one that is looked for is the first one that fits. -/
theorem find?_folders {fits : String → Bool} (hname : name ∈ disk.folders root) (hfits : fits name)
    (hfirst : ∀ other ∈ disk.folders root, fits other → nameKey name ≤ nameKey other) :
    (disk.folders root).find? fits = some name := by
  cases hfind : (disk.folders root).find? fits with
  | none => exact absurd hfits (List.find?_eq_none.mp hfind name hname)
  | some found =>
    obtain ⟨hfound, before, rest, hsplit, hbefore⟩ := List.find?_eq_some_iff_append.mp hfind
    have hsorted : (disk.folders root).Pairwise fun a b => nameKey a < nameKey b :=
      Backend.increasing_folders
    have hle := hfirst found (by rw [hsplit]; simp) hfound
    rw [hsplit] at hsorted hname
    -- the name is not before the one that is found, and no name is smaller than it
    rcases List.mem_append.mp hname with hmem | hmem
    · exact absurd hfits (by simpa using hbefore name hmem)
    · rcases List.mem_cons.mp hmem with rfl | hmem
      · rfl
      · have hlt := (List.pairwise_cons.mp (List.pairwise_append.mp hsorted).2.1).1 name hmem
        exact absurd hlt (not_lt.mpr hle)

theorem findPlaylist_of_names (h : Names disk root query name) :
    findPlaylist debug ((disk.folders root).map (disk.playlist root)) query =
      .ok (disk.playlist root name) := by
  obtain ⟨hname, hquery⟩ := h
  have hfound : ((disk.folders root).find? fun text => decide (text = query)).or
      ((disk.folders root).find? fun text => Text.eqIgnoreAsciiCase text.toList query.toList) =
        some name := by
    rcases hquery with rfl | ⟨hnone, hfits, hfirst⟩
    · rw [find?_folders hname (by simp) fun other _ hother => by rw [of_decide_eq_true hother]]
      rfl
    · have hexact : (disk.folders root).find? (fun text => decide (text = query)) = none := by
        refine List.find?_eq_none.mpr fun text htext heq => hnone ?_
        rwa [← of_decide_eq_true heq]
      rw [hexact]
      exact find?_folders hname hfits hfirst
  refine App.findPlaylist_eq_ok ?_
  rw [List.find?_map, List.find?_map, ← Option.map_or]
  exact congrArg (Option.map (disk.playlist root)) hfound

/-! ## The answers -/

theorem answer_eq {α : Type} {m : Backend.Io α} {a : α} (hgives : disk.Gives m (.ok a))
    {ans : Except String α}
    (h : ∃ log out, Prog.Exec disk.Serves m log out ∧ ans = out.mapError render) : ans = .ok a := by
  obtain ⟨log, out, hexec, rfl⟩ := h
  rw [hgives log out hexec]
  rfl

theorem answer_streamTarget (hfile : disk.Lists root name file)
    {ans : Player.Ans (.streamTarget (fileTrack name file))}
    (h : Answers disk root render (.player (.streamTarget (fileTrack name file))) ans) :
    ans = .ok ⟨url root name file, []⟩ := by
  obtain ⟨-, entry, -, -, hid, -⟩ := hfile.folder
  obtain ⟨-, entry', -, -, hfile, hdir⟩ := hfile.stored
  exact answer_eq (Backend.gives_streamTarget hid hfile hdir) h

/-! ## One turn -/

/-- The folder plays from a place on. -/
structure Folder (disk : Disk) (root : Path) (name : String) (files : List String) (s : Session)
    (place : ℕ) : Prop where
  tracks : s.queue.tracks = files.map (fileTrack name)
  cursor : s.queue.cursor = place
  inside : place < files.length
  listed : ∀ file ∈ files, disk.Lists root name file

variable {place : ℕ}

theorem Folder.current (h : Folder disk root name files s place) : ∃ file,
    files[place]? = some file ∧ s.queue.current = some (fileTrack name file) ∧
      disk.Lists root name file := by
  have hfile := List.getElem?_eq_getElem h.inside
  refine ⟨_, hfile, ?_, h.listed _ (List.mem_of_getElem? hfile)⟩
  rw [Player.Queue.current, h.tracks, h.cursor, List.getElem?_map, hfile]
  rfl

/-- The next turn, at its place. -/
theorem turns_succ (hfile : files[place]? = some file) (count : ℕ) :
    turns root name files place (count + 1) =
      turn root name files.length (file, place) ++ turns root name files (place + 1) count := by
  obtain ⟨hlt, rfl⟩ := List.getElem?_eq_some_iff.mp hfile
  rw [turns, turns, List.drop_eq_getElem_cons (by simpa using hlt), List.take_succ_cons,
    List.flatMap_cons, List.getElem_zipIdx]
  simp

/-- The file at the place is loaded. -/
theorem Folder.loads (h : Folder disk root name files s place) (hplays : Player.Plays s log flow s')
    (hans : ∀ entry ∈ log, playerOk (Answers disk root render) entry.1 entry.2) :
    ∃ file, files[place]? = some file ∧ seen (ofLog log) = [.loads (url root name file)] ∧
      flow = .ok .continue ∧ s'.queue = s.queue := by
  obtain ⟨file, hfile, hcurrent, hlists⟩ := h.current
  refine ⟨file, hfile, ?_⟩
  cases hplays with
  | empty hnone =>
    rw [hcurrent] at hnone
    cases hnone
  | skip hcurrent' | last hcurrent' =>
    cases hcurrent.symm.trans hcurrent'
    cases answer_streamTarget hlists (hans _ (.head _))
  | refused hcurrent' =>
    have hload : _ = Except.ok () := hans _ (.tail _ (.head _))
    cases hload
  | loaded hcurrent' hrest =>
    cases hcurrent.symm.trans hcurrent'
    cases answer_streamTarget hlists (hans _ (.head _))
    cases hrest with
    | playing | unpaused => exact ⟨rfl, rfl, rfl⟩
    | failed =>
      have hpause : _ = Except.ok () := hans _ (.tail _ (.tail _ (.head _)))
      cases hpause

theorem isEnd_iff {event : PlayerEvent} : isEnd (.event (some event)) = true ↔
    (Player.Operation.event event).IsEnd := by
  cases event with
  | endFile reason => cases reason <;> simp [isEnd, Player.Operation.IsEnd]
  | _ => simp [isEnd, Player.Operation.IsEnd]

/-- Without a terminal the loop does nothing but handle events. -/
theorem operation_eq_some {wake : Wake} {op : Player.Operation}
    (h : App.operation false wake = some op) :
    ∃ event, wake = .event (some event) ∧ op = .event event := by
  match wake with
  | .event none | .signal | .item _ => cases h
  | .event (some event) => exact ⟨event, rfl, (Option.some.inj h).symm⟩

/-- An event that is not the end of a file changes nothing that is seen. -/
theorem Folder.ignores {event : PlayerEvent} (h : Folder disk root name files s place)
    (hdoes : Player.Does s (.event event) log flow s')
    (hend : ¬ (Player.Operation.event event).IsEnd) :
    log = [] ∧ flow = .ok .continue ∧ Folder disk root name files s' place ∧
      said (.event event) s s' = [] := by
  cases hdoes with
  | skips hop => exact absurd (hop.resolve_left nofun) hend
  | ended hop => exact absurd hop hend
  | ignores _ paused =>
    exact ⟨rfl, rfl, ⟨h.tracks, h.cursor, h.inside, h.listed⟩, by simp [said, App.pauseLine]⟩

/-- At the end of a file the next one is loaded and named, or the folder is finished. -/
theorem Folder.ends {event : PlayerEvent} (h : Folder disk root name files s place)
    (hdoes : Player.Does s (.event event) log flow s')
    (hans : ∀ entry ∈ log, playerOk (Answers disk root render) entry.1 entry.2)
    (hend : (Player.Operation.event event).IsEnd) :
    (flow = .ok .continue ∧ Folder disk root name files s' (place + 1) ∧
      ∃ file, files[place + 1]? = some file ∧
        seen (ofLog log ++ printed false (said (.event event) s s')) =
          turn root name files.length (file, place + 1)) ∨
    (flow = .ok .finished ∧ log = [] ∧ s' = s ∧ files.length = place + 1) := by
  have hlength : s.queue.tracks.length = files.length := by rw [h.tracks, List.length_map]
  have hinside := h.inside
  cases hdoes with
  | ignores hop => exact absurd hend hop
  | ended _ hadvance =>
    refine .inr ⟨rfl, rfl, rfl, ?_⟩
    rw [Player.Queue.advance, hlength, h.cursor] at hadvance
    split at hadvance
    · cases hadvance
    · omega
  | skips _ hadvance hplays =>
    have hmore : place + 1 < files.length := by
      rw [Player.Queue.advance, hlength, h.cursor] at hadvance
      split at hadvance
      · assumption
      · cases hadvance
    rw [Player.Queue.advance_true hadvance] at hplays
    have hnext : Folder disk root name files
        { s with queue := { s.queue with cursor := s.queue.cursor + 1 } } (place + 1) :=
      ⟨h.tracks, congrArg (· + 1) h.cursor, hmore, h.listed⟩
    obtain ⟨file, hfile, hseen, rfl, hqueue⟩ := hnext.loads hplays hans
    have hfolder : Folder disk root name files s' (place + 1) :=
      ⟨hqueue ▸ hnext.tracks, hqueue ▸ hnext.cursor, hmore, h.listed⟩
    refine .inl ⟨rfl, hfolder, file, hfile, ?_⟩
    obtain ⟨file', hfile', hcurrent, -⟩ := hfolder.current
    obtain rfl := Option.some.inj (hfile.symm.trans hfile')
    have hposition : s'.queue.position = (place + 1 + 1, files.length) := by
      rw [Player.Queue.position, hfolder.cursor, hfolder.tracks, List.length_map]
    have hmoved : s'.queue.position ≠ s.queue.position := by
      rw [hposition, Player.Queue.position, h.cursor]
      simp
    rw [seen_append, hseen, seen_printed, said, if_pos hmoved, trackLine, hcurrent, hposition]
    rfl

/-! ## Every run -/

/-- What is seen after the files before a place were loaded, while so many files end. -/
structure Continues (root : Path) (name : String) (files : List String) (start ends : ℕ)
    (tr : Trace) (out : Except String Progress) : Prop where
  playing : start + ends ≤ files.length →
    seen tr = turns root name files start ends ∧ out = .ok .waiting
  finished : files.length < start + ends →
    seen tr = turns root name files start files.length ++ [.prints "Playlist finished.\n"] ∧
      out = .ok .left

theorem turns_of_length_le {start : ℕ} (h : files.length ≤ start) (count : ℕ) :
    turns root name files start count = [] := by
  rw [turns, List.drop_eq_nil_of_le (by simpa using h), List.take_nil]
  rfl

/-- As many turns as there are files are all of them. -/
theorem turns_of_le {start count : ℕ} (h : files.length ≤ start + count) :
    turns root name files start count = turns root name files start files.length := by
  rw [turns, turns, List.take_of_length_le (by simp; omega), List.take_of_length_le (by simp)]

/-- A turn that is seen, and the turns after it. -/
theorem Continues.cons {start ends : ℕ} {tr' : Trace} (hfile : files[start]? = some file)
    (hturn : seen tr = turn root name files.length (file, start))
    (h : Continues root name files (start + 1) ends tr' out) :
    Continues root name files start (ends + 1) (tr ++ tr') out := by
  have hinside : start < files.length := (List.getElem?_eq_some_iff.mp hfile).1
  constructor
  · intro hle
    obtain ⟨hseen, hout⟩ := h.playing (by omega)
    exact ⟨by rw [seen_append, hturn, hseen, turns_succ hfile], hout⟩
  · intro hlt
    obtain ⟨hseen, hout⟩ := h.finished (by omega)
    have hall : turns root name files start (files.length + 1) =
        turns root name files start files.length := turns_of_le (by omega)
    exact ⟨by rw [seen_append, hturn, hseen, ← hall, turns_succ hfile, List.append_assoc], hout⟩

theorem Folder.runs (h : Loops (Answers disk root render) false s wakes tr out s')
    (hfolder : Folder disk root name files s place) (hwakes : ∀ wake ∈ wakes, ¬ wake.Stops) :
    Continues root name files (place + 1) (wakes.countP isEnd) tr out := by
  have hinside := hfolder.inside
  induction h generalizing place with
  | waits =>
    refine ⟨fun _ => ⟨rfl, rfl⟩, fun hlt => ?_⟩
    rw [List.countP_nil] at hlt
    omega
  | gone => exact absurd (.inr rfl) (hwakes _ (.head _))
  | leaves hleaves =>
    rcases hleaves with rfl | ⟨_, -, hinteractive, -⟩
    · exact absurd (.inl rfl) (hwakes _ (.head _))
    · cases hinteractive
  | ignores hignored _ ih =>
    obtain ⟨item, rfl, -⟩ := hignored
    rw [List.countP_cons_of_neg (by simp [isEnd])]
    exact ih hfolder (fun wake hwake => hwakes wake (.tail _ hwake)) hinside
  | fails hop hexec =>
    obtain ⟨event, rfl, rfl⟩ := operation_eq_some hop
    have hdoes := Player.Does.of_exec hexec
    by_cases hend : (Player.Operation.event event).IsEnd
    · rcases hfolder.ends hdoes hexec.allowed hend with ⟨hflow, -⟩ | ⟨hflow, -⟩ <;> cases hflow
    · cases (hfolder.ignores hdoes hend).2.1
  | finishes hop hexec =>
    obtain ⟨event, rfl, rfl⟩ := operation_eq_some hop
    have hdoes := Player.Does.of_exec hexec
    by_cases hend : (Player.Operation.event event).IsEnd
    · rcases hfolder.ends hdoes hexec.allowed hend with ⟨hflow, -⟩ | ⟨-, rfl, rfl, hlast⟩
      · cases hflow
      · rw [List.countP_cons_of_pos (isEnd_iff.mpr hend)]
        refine ⟨fun hle => absurd hle (by omega), fun _ => ⟨?_, rfl⟩⟩
        rw [turns_of_length_le (by omega), said, if_neg (by simp)]
        rfl
    · cases (hfolder.ignores hdoes hend).2.1
  | @goesOn s s₁ s' wake wakes op log tr out hop hexec _ ih =>
    obtain ⟨event, rfl, rfl⟩ := operation_eq_some hop
    have hdoes := Player.Does.of_exec hexec
    have hrest : ∀ wake ∈ wakes, ¬ wake.Stops := fun wake hwake => hwakes wake (.tail _ hwake)
    by_cases hend : (Player.Operation.event event).IsEnd
    · rcases hfolder.ends hdoes hexec.allowed hend with ⟨-, hnext, file, hfile, hseen⟩ | ⟨hflow, -⟩
      · rw [List.countP_cons_of_pos (isEnd_iff.mpr hend)]
        exact .cons hfile hseen (ih hnext hrest hnext.inside)
      · cases hflow
    · obtain ⟨rfl, -, hsame, hsaid⟩ := hfolder.ignores hdoes hend
      rw [List.countP_cons_of_neg (by simpa [isEnd_iff] using hend), hsaid]
      exact ih hsame hrest hinside

/-- The first file is loaded and named, and then the ends of the files go on. -/
theorem Folder.starts (h : Starts (Answers disk root render) false s wakes tr out s')
    (hfolder : Folder disk root name files s 0) (hwakes : ∀ wake ∈ wakes, ¬ wake.Stops) :
    Continues root name files 0 (wakes.countP isEnd + 1) tr out := by
  have hplays {log : Log} {flow : Except String Flow} {s₁ : Session}
      (h : Prog.Exec (playerOk (Answers disk root render)) (Player.Operation.start.act s) log
        (flow, s₁)) := hfolder.loads (Player.Plays.of_exec h) h.allowed
  cases h with
  | fails hexec | nothing hexec =>
    obtain ⟨_, -, -, hflow, -⟩ := hplays hexec
    cases hflow
  | plays hexec hrest =>
    obtain ⟨file, hfile, hseen, -, hqueue⟩ := hplays hexec
    have hfolder : Folder disk root name files _ 0 :=
      ⟨hqueue ▸ hfolder.tracks, hqueue ▸ hfolder.cursor, hfolder.inside, hfolder.listed⟩
    refine .cons hfile ?_ (hfolder.runs hrest hwakes)
    obtain ⟨file', hfile', hcurrent, -⟩ := hfolder.current
    obtain rfl := Option.some.inj (hfile.symm.trans hfile')
    rw [seen_append, hseen, seen_printed, trackLine, hcurrent, Player.Queue.position,
      hfolder.cursor, hfolder.tracks, List.length_map]
    rfl

theorem run_continues (h : Prog.Exec (Answers disk root render) (run wakes s) tr (out, s'))
    (hfolder : Folder disk root name files s 0) (hwakes : ∀ wake ∈ wakes, ¬ wake.Stops) :
    Continues root name files 0 (wakes.countP isEnd + 1) tr out := by
  have hallowed := h.allowed
  obtain ⟨interactive, asked, rest, rfl, hasked, hrest⟩ := App.run_inv h
  -- there is no terminal
  have hplain : interactive = false ∧ asked = [⟨.isTerminal .stdin, false⟩] := by
    rcases hasked with hplain | rfl
    · exact hplain
    · have hstdin : true = false := hallowed ⟨.isTerminal .stdin, true⟩ (.head _)
      cases hstdin
  obtain ⟨rfl, rfl⟩ := hplain
  rcases hrest with ⟨_, hinteractive, -⟩ | ⟨body, hstarts, hguards⟩
  · cases hinteractive
  · cases hguards with
    | plain =>
      have hruns := hfolder.starts hstarts hwakes
      exact ⟨hruns.playing, hruns.finished⟩

/-! ## The command -/

/-- All goes well until `mpv` runs. -/
theorem opens_folder {result : Except String (Playlist × List Track)}
    (hlibrary : disk.IsLibrary root) (hname : Names disk root query name)
    (h : App.Opens (Answers disk root render) debug query mpvArgs tr result) :
    seen tr = [] ∧ result = .ok (disk.playlist root name,
      (disk.audioFiles (root.join (Utf8.encode name))).map (fileTrack name)) := by
  have hlists {ans : Except String (List Playlist)}
      (h : Answers disk root render .myPlaylists ans) :
      ans = .ok ((disk.folders root).map (disk.playlist root)) :=
    answer_eq (Backend.gives_myPlaylists hlibrary) h
  have hfinds {playlist : Except String Playlist} (h : findPlaylist debug
      ((disk.folders root).map (disk.playlist root)) query = playlist) :
      playlist = .ok (disk.playlist root name) := h.symm.trans (findPlaylist_of_names hname)
  have hcontains := Backend.mem_folders.mp hname.1
  have htracks {ans : Except String (List Track)}
      (h : Answers disk root render (.playlistTracks name) ans) :
      ans = .ok ((disk.audioFiles (root.join (Utf8.encode name))).map (fileTrack name)) := by
    obtain ⟨-, entry, -, -, hvisible, -⟩ := id hcontains
    exact answer_eq (Backend.gives_playlistTracks hvisible (hlibrary.folders name hcontains)) h
  cases h with
  | unlisted h => cases hlists h
  | unknown hlisted h =>
    cases hlists hlisted
    cases hfinds h
  | untracked hlisted hfound h =>
    cases hlists hlisted
    cases hfinds hfound
    cases htracks h
  | unguarded _ _ _ h | unspawned _ _ _ h => cases h
  | opened hlisted hfound h =>
    cases hlists hlisted
    cases hfinds hfound
    cases htracks h
    exact ⟨rfl, rfl⟩

/-- What is seen of the session, over the files of a folder. -/
theorem plays_through (hlisted : ∀ file ∈ files, disk.Lists root name file)
    (hlocated : ∀ file ∈ files, Utf8.encode (url root name file) = filePath root name file)
    (hwakes : ∀ wake ∈ wakes, ¬ wake.Stops)
    (h : Plays (Answers disk root render) debug wakes (disk.playlist root name)
      (files.map (fileTrack name)) tr out) :
    PlaysThrough disk root debug name files (wakes.countP isEnd) tr out := by
  have hqueue : (Session.new (files.map (fileTrack name))).queue.tracks =
      files.map (fileTrack name) := by
    refine List.filter_eq_self.mpr fun track htrack => ?_
    obtain ⟨file, -, rfl⟩ := List.mem_map.mp htrack
    rfl
  have hskipped : seen (skippedLine (files.map (fileTrack name))) = [] := by
    rw [skippedLine]
    split <;> rfl
  have hstarts (hplayable : (Session.new (files.map (fileTrack name))).queue.tracks ≠ []) :
      files ≠ [] ∧ Folder disk root name files (Session.new (files.map (fileTrack name))) 0 := by
    have hfiles : files ≠ [] := fun hnil => hplayable (by rw [hqueue, hnil]; rfl)
    exact ⟨hfiles, hqueue, rfl, List.length_pos_iff.mpr hfiles, hlisted⟩
  cases h with
  | empty hempty =>
    have hfiles : files = [] := List.map_eq_nil_iff.mp (hqueue.symm.trans hempty)
    subst hfiles
    exact ⟨fun _ => ⟨rfl, rfl⟩, fun hlt => absurd hlt (by simp), fun hnil => absurd rfl hnil,
      hlocated⟩
  | waits hplayable hrun =>
    obtain ⟨hfiles, hfolder⟩ := hstarts hplayable
    have hruns := run_continues hrun hfolder hwakes
    refine ⟨fun hnil => absurd hnil hfiles, fun hlt => ?_, fun _ hle => ?_, hlocated⟩
    · rw [seen_append, hskipped]
      exact hruns.playing (by omega)
    · cases (hruns.finished (by omega)).2
  | ends hplayable hrun hout =>
    obtain ⟨hfiles, hfolder⟩ := hstarts hplayable
    have hruns := run_continues hrun hfolder hwakes
    refine ⟨fun hnil => absurd hnil hfiles, fun hlt => ?_, fun _ hle => ?_, hlocated⟩
    · exact absurd (hruns.playing (by omega)).2 hout
    · obtain ⟨hseen, rfl⟩ := hruns.finished (by omega)
      refine ⟨?_, rfl⟩
      rw [seen_append, seen_append, hskipped, hseen]
      exact List.append_assoc ..

/-- **A folder plays to its end.** With a library that does not change, an `mpv` that does what it
is told and no terminal: `rsc play` finds the folder by its name, or else by its name in any ASCII
case; after so many ends of files it has loaded one file more, in the order of the names and each
one by its own path, and named each with its place; and at the end of the last file it says so,
shuts `mpv` down and succeeds. A folder without an audio file is an error. -/
theorem plays_folder {rootText : String} (hlibrary : disk.IsLibrary (Utf8.encode rootText))
    (hname : Names disk (Utf8.encode rootText) query name)
    (hwakes : ∀ wake ∈ wakes, ¬ wake.Stops)
    (h : Prog.Exec (Answers disk (Utf8.encode rootText) render) (play debug query mpvArgs wakes)
      tr out) : PlaysThrough disk (Utf8.encode rootText) debug name
        (disk.audioFiles (Path.join (Utf8.encode rootText) (Utf8.encode name)))
        (wakes.countP isEnd) tr out := by
  have hlisted : ∀ file ∈ disk.audioFiles (Path.join (Utf8.encode rootText) (Utf8.encode name)),
      disk.Lists (Utf8.encode rootText) name file := by
    intro file hfile
    obtain ⟨hstored, haudio⟩ := Backend.mem_audioFiles.mp hfile
    exact ⟨Backend.mem_folders.mp hname.1, hstored, haudio⟩
  have hlocated : ∀ file ∈ disk.audioFiles (Path.join (Utf8.encode rootText) (Utf8.encode name)),
      Utf8.encode (url (Utf8.encode rootText) name file) =
        filePath (Utf8.encode rootText) name file := by
    intro file hfile
    obtain ⟨text, -, htext⟩ := (hlisted file hfile).target
    rw [url, ← htext, Utf8.decodeLossy_encode]
  rcases App.play_inv h with
    ⟨err, hopens, -⟩ | ⟨opened, rest, playlist, tracks, rfl, hopens, hplays⟩
  · cases (opens_folder hlibrary hname hopens).2
  · obtain ⟨hopened, hresult⟩ := opens_folder hlibrary hname hopens
    cases hresult
    have hthrough := plays_through hlisted hlocated hwakes hplays
    have hseen : seen (opened ++ rest) = seen rest := by rw [seen_append, hopened, List.nil_append]
    constructor
    · rw [hseen]
      exact hthrough.empty
    · rw [hseen]
      exact hthrough.playing
    · rw [hseen]
      exact hthrough.finished
    · exact hthrough.located

theorem answers_total (disk : Disk) (root : Path) (render : Backend.Error → String) (op : Op) :
    ∃ ans, Answers disk root render op ans := by
  have hruns {α : Type} (m : Backend.Io α) : ∃ ans : Except String α, ∃ log out,
      Prog.Exec disk.Serves m log out ∧ ans = out.mapError render := by
    obtain ⟨log, out, h⟩ := Prog.Exec.exists_of_total (Backend.serves_total disk) m
    exact ⟨_, log, out, h, rfl⟩
  match op with
  | .myPlaylists | .playlistTracks _ | .player (.streamTarget _) => exact hruns _
  | .player (.load _) | .player (.setPause _) | .shutdownSignals | .spawn _ | .isTerminal _ =>
    exact ⟨_, rfl⟩
  | .enableRawMode => exact ⟨.ok (), trivial⟩
  | .shutdown | .disableRawMode | .print _ | .eprint _ => exact ⟨(), trivial⟩

/-- The folder of two files is found beside one of the same name in another case: the first file
ends, and then the second one. -/
theorem plays_folder_mix :
    let first : List Seen := [.loads "/music/mix/01-a.MP3", .prints "▶ 1/2  01-a — local\n",
      .loads "/music/mix/02-b.flac", .prints "▶ 2/2  02-b — local\n"]
    (∃ tr, Prog.Exec (Answers Backend.music (Utf8.encode "/music") fun _ => "")
      (play id "mix" [] [.event (some .position), .event (some (.endFile .eof))])
      tr (.ok .waiting) ∧ seen tr = first) ∧
    ∃ tr, Prog.Exec (Answers Backend.music (Utf8.encode "/music") fun _ => "")
      (play id "mix" [] [.event (some (.endFile .eof)), .event (some (.endFile .error))])
      tr (.ok .left) ∧ seen tr = first ++ [.prints "Playlist finished.\n", .shutsDown] := by
  have hname : Names Backend.music (Utf8.encode "/music") "mix" "mix" := by
    refine ⟨?_, .inl rfl⟩
    rw [Backend.folders_music]
    exact .tail _ (.head _)
  have hplays (wakes : List Wake) (hwakes : ∀ wake ∈ wakes, ¬ wake.Stops) : ∃ tr out,
      Prog.Exec (Answers Backend.music (Utf8.encode "/music") fun _ => "")
        (play id "mix" [] wakes) tr out ∧
      PlaysThrough Backend.music (Utf8.encode "/music") id "mix" ["01-a.MP3", "02-b.flac"]
        (wakes.countP isEnd) tr out := by
    obtain ⟨tr, out, h⟩ := Prog.Exec.exists_of_total
      (answers_total Backend.music (Utf8.encode "/music") fun _ => "") (play id "mix" [] wakes)
    have hthrough := plays_folder Backend.isLibrary_music hname hwakes h
    rw [Backend.audioFiles_music] at hthrough
    exact ⟨tr, out, h, hthrough⟩
  have hturns : turns (Utf8.encode "/music") "mix" ["01-a.MP3", "02-b.flac"] 0 2 =
      [.loads "/music/mix/01-a.MP3", .prints "▶ 1/2  01-a — local\n",
        .loads "/music/mix/02-b.flac", .prints "▶ 2/2  02-b — local\n"] := rfl
  intro first
  constructor
  · obtain ⟨tr, out, h, hthrough⟩ :=
      hplays [.event (some .position), .event (some (.endFile .eof))] (by simp [Wake.Stops])
    obtain ⟨hseen, rfl⟩ := hthrough.playing (by decide)
    exact ⟨tr, h, hseen.trans hturns⟩
  · obtain ⟨tr, out, h, hthrough⟩ :=
      hplays [.event (some (.endFile .eof)), .event (some (.endFile .error))] (by simp [Wake.Stops])
    obtain ⟨hseen, rfl⟩ := hthrough.finished (List.cons_ne_nil _ _) (by decide)
    exact ⟨tr, h, hseen.trans (congrArg (· ++ _) hturns)⟩

end Rsc.EndToEnd.PlayFolder

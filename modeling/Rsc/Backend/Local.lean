import Rsc.Library.Path
import Rsc.Library.Prog
import Rsc.Library.Utf8
import Rsc.Player.Session
import Mathlib.Data.List.Lex
import Mathlib.Data.Prod.Lex

/-!
The local-folder backend, `rsc/src/backend/local.rs`: every sub-directory of the library root is
a playlist, and every audio file in it a track. The calls are programs over what they ask of the
file system; an id that could lead out of the library is refused (`confined`).
-/

namespace Rsc.Backend

open Rsc.Library
open Rsc.Player (Access StreamTarget Track)

/-! ## The file system -/

inductive Op
  | readDir (dir : Path)
  | metadata (path : Path)

/-- What is opened. -/
def Op.path : Op → Path
  | .readDir dir => dir
  | .metadata path => path

/-- A directory is read entry by entry; the metadata say whether it is a directory. -/
abbrev Ans : Op → Type
  | .readDir _ => Except String (List (Except String Path.Name))
  | .metadata _ => Except String Bool

/-- The errors, with their causes. -/
inductive Error
  | invalidId (id : String)
  | cannotRead (dir : Path) (cause : String)
  | cannotOpen (path : Path) (cause : String)
  | io (cause : String)

abbrev Io (α : Type) : Type := ExceptT Error (Prog Ans) α

/-- Await one effect; what failed is an error. -/
def Io.await {α : Type} (op : Op) (ok : Ans op → Except Error α) : Io α :=
  ExceptT.mk (Prog.perform op fun ans => Prog.ret (ok ans))

def readDir (dir : Path) : Io (List (Except String Path.Name)) :=
  .await (.readDir dir) fun ans => ans.mapError (.cannotRead dir)

def metadata (error : String → Error) (path : Path) : Io Bool :=
  .await (.metadata path) fun ans => ans.mapError error

/-! ## Ids -/

/-- Joins an id onto the root, unless it could escape it. -/
def safeJoin (root : Path) (relative : String) : Except Error Path :=
  let rel : Path := Utf8.encode relative
  if relative = "" ∨ rel.components.all Path.Component.isNormal = false then
    .error (.invalidId relative)
  else .ok (root.join rel)

/-! ## Entries -/

def audioExtensions : List String := ["mp3", "flac", "ogg", "opus", "wav", "m4a", "aac"]

def isAudio (name : String) : Bool :=
  match (Path.extension (Utf8.encode name)).bind fun ext => String.fromUTF8? ⟨ext.toArray⟩ with
  | none => false
  | some ext => audioExtensions.any fun known => Text.eqIgnoreAsciiCase known.toList ext.toList

/-- `OsString::into_string`. -/
def intoString (name : Path.Name) : Option String := String.fromUTF8? ⟨name.bytes.toArray⟩

def isHidden (name : String) : Bool := name.toList.head? = some '.'

/-- Strings are compared by their bytes, and the entries of a directory by name first. -/
def nameKey (name : String) : List Nat := (Utf8.encode name).map UInt8.toNat

def entryKey (entry : String × Bool) : List Nat ×ₗ Bool := toLex (nameKey entry.1, entry.2)

def sortEntries (entries : List (String × Bool)) : List (String × Bool) :=
  entries.mergeSort fun a b => decide (entryKey a ≤ entryKey b)

/-- The loop of `sorted_entries`. -/
def readEntries (dir : Path) : List (Except String Path.Name) → Io (List (String × Bool))
  | [] => return []
  | .error cause :: _ => throw (.io cause)
  | .ok entry :: rest =>
      match intoString entry with
      | none => readEntries dir rest
      | some name =>
          if isHidden name then readEntries dir rest
          else do
            let isDir ← metadata .io (dir.join entry.bytes)
            let entries ← readEntries dir rest
            return (name, isDir) :: entries

/-- The visible entries of the directory, sorted by name. -/
def sortedEntries (dir : Path) : Io (List (String × Bool)) := do
  let entries ← readEntries dir (← readDir dir)
  return sortEntries entries

def audioFiles (dir : Path) : Io (List String) := do
  let entries ← sortedEntries dir
  return (entries.filter fun entry => !entry.2 && isAudio entry.1).map Prod.fst

/-! ## The backend -/

structure Playlist where
  id : String
  title : String
  trackCount : Nat

/-- The loop of `my_playlists`. -/
def listPlaylists (root : Path) : List (String × Bool) → Io (List Playlist)
  | [] => return []
  | (_, false) :: rest => listPlaylists root rest
  | (name, true) :: rest => do
      let files ← audioFiles (root.join (Utf8.encode name))
      let playlists ← listPlaylists root rest
      return ⟨name, name, files.length⟩ :: playlists

def myPlaylists (root : Path) : Io (List Playlist) := do
  listPlaylists root (← sortedEntries root)

/-- The track of a file of the playlist. -/
def fileTrack (id file : String) : Track where
  title := ((Path.fileStem (Utf8.encode file)).map Utf8.decodeLossy).getD file
  id := id ++ "/" ++ file
  artist := "local"
  permalinkUrl := none
  durationMs := none
  access := .playable

def playlistTracks (root : Path) (id : String) : Io (List Track) := do
  let dir ← ExceptT.mk (Prog.ret (safeJoin root id))
  return (← audioFiles dir).map (fileTrack id)

def streamTarget (root : Path) (track : Track) : Io StreamTarget := do
  let path ← ExceptT.mk (Prog.ret (safeJoin root track.id))
  let _ ← metadata (.cannotOpen path) path
  return ⟨Utf8.decodeLossy path, []⟩

/-! ## Confinement -/

variable {root path : Path} {id : String}

/-- Lexically the path is below the root: names follow its components. -/
def StrictlyBelow (root path : Path) : Prop :=
  ∃ names : List Path.Name, names ≠ [] ∧
    path.components = root.components ++ names.map fun name => .normal name.bytes

/-- What may be opened for an id: what `safe_join` makes of it, and the entries of that. -/
def MayOpen (root : Path) (id : String) (path : Path) : Prop :=
  ∃ joined, safeJoin root id = .ok joined ∧
    (path = joined ∨ ∃ name : Path.Name, path = joined.join name.bytes)

/-- No call for the id leaves the library. -/
structure Confined (root : Path) (id : String) : Prop where
  below : ∀ path, safeJoin root id = .ok path → StrictlyBelow root path
  refused : (∃ err, safeJoin root id = .error err) ↔
    id = "" ∨ Path.IsAbsolute (Utf8.encode id) ∨
      (Path.segments (Utf8.encode id)).head? = some [Path.dot] ∨
      [Path.dot, Path.dot] ∈ Path.segments (Utf8.encode id)
  tracks : ∀ log out, Prog.Exec Prog.anyAnswer (playlistTracks root id) log out →
    ∀ entry ∈ log, MayOpen root id entry.1.path ∧ StrictlyBelow root entry.1.path
  target : ∀ track log out, track.id = id →
    Prog.Exec Prog.anyAnswer (streamTarget root track) log out →
    ∀ entry ∈ log, MayOpen root id entry.1.path ∧ StrictlyBelow root entry.1.path

theorem safeJoin_eq_ok : safeJoin root id = .ok path ↔ id ≠ "" ∧
    (Path.components (Utf8.encode id)).all Path.Component.isNormal = true ∧
    path = root.join (Utf8.encode id) := by
  rw [safeJoin]
  split
  · rename_i h
    constructor
    · intro herror
      cases herror
    · rintro ⟨hid, hall, -⟩
      rcases h with h | h
      · exact (hid h).elim
      · rw [h] at hall
        cases hall
  · rename_i h
    rw [not_or, Bool.not_eq_false] at h
    constructor
    · intro hok
      cases hok
      exact ⟨h.1, h.2, rfl⟩
    · rintro ⟨-, -, rfl⟩
      rfl

theorem safeJoin_eq_error : (∃ err, safeJoin root id = .error err) ↔ id = "" ∨
    (Path.components (Utf8.encode id)).all Path.Component.isNormal = false := by
  rw [safeJoin]
  split
  · rename_i h
    exact iff_of_true ⟨_, rfl⟩ h
  · rename_i h
    refine iff_of_false ?_ h
    rintro ⟨err, herror⟩
    cases herror

theorem StrictlyBelow.entry (h : StrictlyBelow root path) (name : Path.Name) :
    StrictlyBelow root (path.join name.bytes) := by
  obtain ⟨names, -, hcomponents⟩ := h
  refine ⟨names ++ [name], by simp, ?_⟩
  rw [name.components_join, hcomponents, List.append_assoc, List.map_append]
  rfl

/-- The components of an id that is accepted follow those of the root. -/
theorem strictlyBelow_of_safeJoin (h : safeJoin root id = .ok path) : StrictlyBelow root path := by
  obtain ⟨hid, hall, rfl⟩ := safeJoin_eq_ok.mp h
  have hne : Utf8.encode id ≠ [] := by
    intro hnil
    exact hid (Utf8.encode_inj.mp hnil)
  obtain ⟨names, hnames⟩ := Path.exists_names hall
  have hcomponents := Path.components_ne_nil hne hall
  refine ⟨names, fun hnil => hcomponents ?_, ?_⟩
  · rw [hnames, hnil]
    rfl
  · obtain ⟨hrelative, hdot, -⟩ := Path.all_isNormal.mp hall
    rw [Path.components_join (Path.startDir_eq_nil.mpr ⟨hrelative, hdot⟩), hnames]

theorem MayOpen.strictlyBelow (h : MayOpen root id path) : StrictlyBelow root path := by
  obtain ⟨joined, hjoined, rfl | ⟨name, rfl⟩⟩ := h
  · exact strictlyBelow_of_safeJoin hjoined
  · exact (strictlyBelow_of_safeJoin hjoined).entry name

/-! ### What is asked for -/

section

variable {P : Op → Prop} {α β : Type}

theorem asks_bind {m : Io α} {f : α → Io β} (hm : Prog.Asks P m) (hf : ∀ a, Prog.Asks P (f a)) :
    Prog.Asks P (m >>= f : Io β) := by
  refine Prog.Asks.bind hm fun out => ?_
  cases out with
  | ok a => exact hf a
  | error err => trivial

theorem asks_map {m : Io α} {f : α → β} (hm : Prog.Asks P m) :
    Prog.Asks P (do return f (← m) : Io β) := asks_bind hm fun _ => trivial

/-- A program that begins with a value. -/
theorem ok_bind (a : α) (f : α → Io β) : (ExceptT.mk (Prog.ret (.ok a)) >>= f : Io β) = f a := rfl

theorem asks_await {op : Op} {ok : Ans op → Except Error α} (h : P op) :
    Prog.Asks P (Io.await op ok) := ⟨h, fun _ => trivial⟩

end

theorem asks_readEntries (dir : Path) (listed : List (Except String Path.Name)) :
    Prog.Asks (fun op => ∃ name : Path.Name, op.path = dir.join name.bytes)
      (readEntries dir listed) := by
  induction listed with
  | nil => trivial
  | cons entry rest ih =>
    cases entry with
    | error cause => trivial
    | ok entry =>
      rw [readEntries]
      split
      · exact ih
      · split
        · exact ih
        · exact asks_bind (asks_await ⟨entry, rfl⟩) fun _ => asks_map ih

/-- Reading a directory opens the directory and its entries. -/
theorem asks_audioFiles (dir : Path) :
    Prog.Asks (fun op => op.path = dir ∨ ∃ name : Path.Name, op.path = dir.join name.bytes)
      (audioFiles dir) := by
  refine asks_map (asks_bind (asks_await (.inl rfl)) fun listed => asks_map ?_)
  exact (asks_readEntries dir listed).mono fun _ h => .inr h

theorem asks_playlistTracks (root : Path) (id : String) :
    Prog.Asks (fun op => MayOpen root id op.path) (playlistTracks root id) := by
  rw [playlistTracks]
  cases hjoined : safeJoin root id with
  | error err => trivial
  | ok dir =>
    rw [ok_bind]
    exact asks_map ((asks_audioFiles dir).mono fun op hop => ⟨dir, hjoined, hop⟩)

theorem asks_streamTarget (root : Path) (track : Track) :
    Prog.Asks (fun op => MayOpen root track.id op.path) (streamTarget root track) := by
  rw [streamTarget]
  cases hjoined : safeJoin root track.id with
  | error err => trivial
  | ok path =>
    rw [ok_bind]
    exact asks_bind (asks_await ⟨path, hjoined, .inl rfl⟩) fun _ => trivial

/-- Ids cannot escape the library. -/
theorem confined (root : Path) (id : String) : Confined root id := by
  constructor
  · exact fun path => strictlyBelow_of_safeJoin
  · rw [safeJoin_eq_error, ← Bool.not_eq_true, Path.all_isNormal]
    simp only [not_and_or, not_not]
  · intro log out hexec entry hentry
    have hopen := (asks_playlistTracks root id).exec hexec entry hentry
    exact ⟨hopen, hopen.strictlyBelow⟩
  · rintro track log out rfl hexec entry hentry
    have hopen := (asks_streamTarget root track).exec hexec entry hentry
    exact ⟨hopen, hopen.strictlyBelow⟩

example : ["../etc", "/etc", "a/../..", "", "./a"].all fun id =>
    !(safeJoin [] id).toBool := by decide

end Rsc.Backend

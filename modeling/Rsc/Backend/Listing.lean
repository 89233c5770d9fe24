import Rsc.Backend.Local

/-!
Listings of the local-folder backend over a file system that does not change. Every call may
enumerate a directory in another order; the results are the same (`listings`).
-/

namespace Rsc.Backend

open Rsc.Library
open Rsc.Player (StreamTarget Track)

/-! ## A library -/

/-- What a file system has: the names in each directory that can be read, and whether each path
that has metadata is a directory. -/
structure Disk where
  entries : Path → Option (List Path.Name)
  isDir : Path → Option Bool
  nodup : ∀ dir names, entries dir = some names → names.Nodup

/-- The answers of the file system. A directory is enumerated in any order. -/
def Disk.Serves (disk : Disk) : (op : Op) → Ans op → Prop
  | .readDir dir, ans =>
      match disk.entries dir with
      | some names => ∃ listed : List Path.Name, listed.Perm names ∧ ans = .ok (listed.map .ok)
      | none => ∃ cause, ans = .error cause
  | .metadata path, ans =>
      match disk.isDir path with
      | some isDir => ans = .ok isDir
      | none => ∃ cause, ans = .error cause

/-- The text of a name that is UTF-8 and not hidden. -/
def visible (name : Path.Name) : Option String :=
  (intoString name).filter fun text => !isHidden text

/-- The directory has a visible entry of this name. -/
def Disk.Contains (disk : Disk) (dir : Path) (text : String) (isDir : Bool) : Prop :=
  ∃ names name, disk.entries dir = some names ∧ name ∈ names ∧ visible name = some text ∧
    disk.isDir (dir.join (Utf8.encode text)) = some isDir

/-- The directory can be read, and its visible entries have metadata. -/
def Disk.Listable (disk : Disk) (dir : Path) : Prop :=
  ∃ names, disk.entries dir = some names ∧ ∀ name ∈ names, ∀ text, visible name = some text →
    ∃ isDir, disk.isDir (dir.join (Utf8.encode text)) = some isDir

/-- The root and its visible sub-directories can be listed. -/
structure Disk.IsLibrary (disk : Disk) (root : Path) : Prop where
  listable : disk.Listable root
  folders : ∀ name, disk.Contains root name true → disk.Listable (root.join (Utf8.encode name))

/-! ## Results -/

section

variable {disk : Disk} {α β : Type}

/-- Whatever the file system answers, the call has this result. -/
def Disk.Gives (disk : Disk) (m : Io α) (out : Except Error α) : Prop :=
  Prog.Yields disk.Serves m out

theorem gives_bind {m : Io α} {f : α → Io β} {a : α} {out : Except Error β}
    (hm : disk.Gives m (.ok a)) (hf : disk.Gives (f a) out) : disk.Gives (m >>= f) out :=
  Prog.Yields.bind hm hf

theorem gives_map {m : Io α} {f : α → β} {a : α} (hm : disk.Gives m (.ok a)) :
    disk.Gives (do return f (← m)) (.ok (f a)) := gives_bind hm (.ret _)

theorem gives_metadata {error : String → Error} {path : Path} {isDir : Bool}
    (h : disk.isDir path = some isDir) : disk.Gives (metadata error path) (.ok isDir) := by
  refine Prog.Yields.perform fun ans hans => ?_
  simp only [Disk.Serves, h] at hans
  rw [hans]
  exact .ret _

end

theorem serves_total (disk : Disk) (op : Op) : ∃ ans, disk.Serves op ans := by
  cases op with
  | readDir dir =>
    cases h : disk.entries dir with
    | none => exact ⟨.error "", by simp [Disk.Serves, h]⟩
    | some names => exact ⟨.ok (names.map .ok), by simpa [Disk.Serves, h] using ⟨names, .refl _, rfl⟩⟩
  | metadata path =>
    cases h : disk.isDir path with
    | none => exact ⟨.error "", by simp [Disk.Serves, h]⟩
    | some isDir => exact ⟨.ok isDir, by simp [Disk.Serves, h]⟩

/-! ## Names -/

theorem visible_eq_some {name : Path.Name} {text : String} : visible name = some text ↔
    name.bytes = Utf8.encode text ∧ isHidden text = false := by
  rw [visible, Option.filter_eq_some_iff, intoString, Utf8.fromUTF8?_eq_some, Bool.not_eq_true']

theorem nameKey_inj {a b : String} : nameKey a = nameKey b ↔ a = b := by
  rw [nameKey, nameKey, List.map_inj_right fun _ _ => UInt8.toNat.inj, Utf8.encode_inj]

/-! ## Sorted entries -/

theorem entryKey_inj {a b : String × Bool} (h : entryKey a = entryKey b) : a = b := by
  have hpair := toLex_inj.mp h
  rw [Prod.mk.injEq, nameKey_inj] at hpair
  exact Prod.ext hpair.1 hpair.2

theorem pairwise_sortEntries (entries : List (String × Bool)) :
    (sortEntries entries).Pairwise fun a b => entryKey a ≤ entryKey b := by
  have hsorted : (sortEntries entries).Pairwise fun a b =>
      decide (entryKey a ≤ entryKey b) = true := by
    refine List.pairwise_mergeSort (fun a b c hab hbc => ?_) (fun a b => ?_) entries
    · rw [decide_eq_true_iff] at hab hbc ⊢
      exact hab.trans hbc
    · simpa using le_total (entryKey a) (entryKey b)
  exact hsorted.imp fun h => of_decide_eq_true h

theorem mem_sortEntries {entries : List (String × Bool)} {entry : String × Bool} :
    entry ∈ sortEntries entries ↔ entry ∈ entries :=
  (List.mergeSort_perm entries _).mem_iff

/-- There is one way to sort entries. -/
theorem sortEntries_eq {entries sorted : List (String × Bool)} (hperm : sorted.Perm entries)
    (hsorted : sorted.Pairwise fun a b => entryKey a ≤ entryKey b) :
    sortEntries entries = sorted := by
  refine List.Perm.eq_of_pairwise (fun a b _ _ hab hba => entryKey_inj (hab.antisymm hba))
    (pairwise_sortEntries entries) hsorted ?_
  exact (List.mergeSort_perm _ _).trans hperm.symm

/-- The order of enumeration does not matter. -/
theorem sortEntries_perm {entries entries' : List (String × Bool)} (h : entries.Perm entries') :
    sortEntries entries = sortEntries entries' :=
  sortEntries_eq ((List.mergeSort_perm _ _).trans h.symm) (pairwise_sortEntries entries')

/-- Names that increase are determined by which they are. -/
theorem eq_of_increasing {names names' : List String}
    (h : names.Pairwise fun a b => nameKey a < nameKey b)
    (h' : names'.Pairwise fun a b => nameKey a < nameKey b)
    (hmem : ∀ name, name ∈ names ↔ name ∈ names') : names = names' := by
  have hnodup {names : List String} (h : names.Pairwise fun a b => nameKey a < nameKey b) :
      names.Nodup := h.imp fun hlt heq => ne_of_lt hlt (congrArg nameKey heq)
  refine List.Perm.eq_of_pairwise (fun a b _ _ hab hba => absurd hba (lt_asymm hab)) h h' ?_
  exact (List.perm_ext_iff_of_nodup (hnodup h) (hnodup h')).mpr hmem

/-! ## Directories -/

section

variable (disk : Disk) (dir : Path)

/-- What is listed for a name, if it is visible. -/
def Disk.entry (name : Path.Name) : Option (String × Bool) :=
  (visible name).bind fun text =>
    (disk.isDir (dir.join (Utf8.encode text))).map fun isDir => (text, isDir)

/-- The visible entries of the directory, sorted by name. -/
def Disk.listing : List (String × Bool) :=
  match disk.entries dir with
  | some names => sortEntries (names.filterMap (disk.entry dir))
  | none => []

/-- The audio files of the directory, sorted by name. -/
def Disk.audioFiles : List String :=
  ((disk.listing dir).filter fun entry => !entry.2 && isAudio entry.1).map Prod.fst

/-- The sub-directories of the directory, sorted by name. -/
def Disk.folders : List String := ((disk.listing dir).filter Prod.snd).map Prod.fst

/-- The playlist of a sub-directory. -/
def Disk.playlist (name : String) : Playlist :=
  ⟨name, name, (disk.audioFiles (dir.join (Utf8.encode name))).length⟩

end

variable {disk : Disk} {dir : Path} {name : Path.Name} {text : String} {isDir : Bool}

theorem entry_eq_some : disk.entry dir name = some (text, isDir) ↔
    visible name = some text ∧ disk.isDir (dir.join (Utf8.encode text)) = some isDir := by
  rw [Disk.entry]
  cases visible name with
  | none => simp
  | some text' =>
    simp only [Option.bind_some, Option.map_eq_some_iff, Prod.mk.injEq, Option.some.injEq]
    constructor
    · rintro ⟨b, hdir, rfl, rfl⟩
      exact ⟨rfl, hdir⟩
    · rintro ⟨rfl, hdir⟩
      exact ⟨isDir, hdir, rfl, rfl⟩

theorem mem_listing : (text, isDir) ∈ disk.listing dir ↔ disk.Contains dir text isDir := by
  rw [Disk.listing, Disk.Contains]
  cases hnames : disk.entries dir with
  | none => simp
  | some names =>
    rw [mem_sortEntries, List.mem_filterMap]
    constructor
    · rintro ⟨name, hmem, hentry⟩
      obtain ⟨hvisible, hdir⟩ := entry_eq_some.mp hentry
      exact ⟨names, name, rfl, hmem, hvisible, hdir⟩
    · rintro ⟨names', name, hnames', hmem, hvisible, hdir⟩
      cases hnames'
      exact ⟨name, hmem, entry_eq_some.mpr ⟨hvisible, hdir⟩⟩

/-- Different names have different texts. -/
theorem nodup_entries (disk : Disk) (dir : Path) {names : List Path.Name} (h : names.Nodup) :
    ((names.filterMap (disk.entry dir)).map Prod.fst).Nodup := by
  rw [List.Nodup, List.pairwise_map, List.pairwise_filterMap]
  refine h.imp fun {a b} hne x hx y hy heq => hne ?_
  obtain ⟨ha, -⟩ := visible_eq_some.mp (entry_eq_some.mp hx).1
  obtain ⟨hb, -⟩ := visible_eq_some.mp (entry_eq_some.mp hy).1
  rw [Path.Name.mk.injEq, ha, hb, heq]

/-- The names of a listing increase. -/
theorem increasing_listing :
    ((disk.listing dir).map Prod.fst).Pairwise fun a b => nameKey a < nameKey b := by
  rw [Disk.listing]
  cases hnames : disk.entries dir with
  | none => exact .nil
  | some names =>
    have hnodup := nodup_entries disk dir (disk.nodup dir names hnames)
    have hsorted := pairwise_sortEntries (names.filterMap (disk.entry dir))
    have hdistinct : ((sortEntries (names.filterMap (disk.entry dir))).map Prod.fst).Nodup :=
      ((List.mergeSort_perm _ _).map Prod.fst).nodup_iff.mpr hnodup
    rw [List.Nodup, List.pairwise_map] at hdistinct
    rw [List.pairwise_map]
    refine (hsorted.and hdistinct).imp fun {a b} hle => ?_
    obtain ⟨hle, hne⟩ := hle
    obtain hlt | ⟨heq, -⟩ := Prod.Lex.toLex_le_toLex.mp hle
    · exact hlt
    · exact (hne (nameKey_inj.mp heq)).elim

theorem increasing_audioFiles :
    (disk.audioFiles dir).Pairwise fun a b => nameKey a < nameKey b :=
  List.pairwise_map.mpr ((List.pairwise_map.mp increasing_listing).filter _)

theorem increasing_folders :
    (disk.folders dir).Pairwise fun a b => nameKey a < nameKey b :=
  List.pairwise_map.mpr ((List.pairwise_map.mp increasing_listing).filter _)

theorem mem_folders : text ∈ disk.folders dir ↔ disk.Contains dir text true := by
  rw [Disk.folders, List.mem_map, ← mem_listing]
  constructor
  · rintro ⟨⟨text', isDir⟩, hmem, rfl⟩
    obtain ⟨hlisted, rfl⟩ := List.mem_filter.mp hmem
    exact hlisted
  · exact fun hlisted => ⟨(text, true), List.mem_filter.mpr ⟨hlisted, rfl⟩, rfl⟩

theorem gives_readEntries {listed : List Path.Name}
    (h : ∀ name ∈ listed, ∀ text, visible name = some text →
      ∃ isDir, disk.isDir (dir.join (Utf8.encode text)) = some isDir) :
    disk.Gives (readEntries dir (listed.map .ok)) (.ok (listed.filterMap (disk.entry dir))) := by
  induction listed with
  | nil => exact .ret _
  | cons name listed ih =>
    have hrest := ih fun other hother => h other (List.mem_cons_of_mem _ hother)
    rw [List.map_cons, readEntries]
    cases htext : intoString name with
    | none =>
      have hnone : disk.entry dir name = none := by simp [Disk.entry, visible, htext]
      rw [List.filterMap_cons_none hnone]
      exact hrest
    | some text =>
      cases hhidden : isHidden text with
      | true =>
        have hnone : disk.entry dir name = none := by
          simp [Disk.entry, visible, htext, Option.filter, hhidden]
        rw [List.filterMap_cons_none hnone]
        simp only [hhidden, if_true]
        exact hrest
      | false =>
        have hvisible : visible name = some text := by
          simp [visible, htext, Option.filter, hhidden]
        obtain ⟨isDir, hdir⟩ := h name (.head _) text hvisible
        rw [List.filterMap_cons_some (entry_eq_some.mpr ⟨hvisible, hdir⟩)]
        rw [← (visible_eq_some.mp hvisible).1] at hdir
        simp only [hhidden, Bool.false_eq_true, if_false]
        exact gives_bind (gives_metadata hdir) (gives_map hrest)

theorem gives_sortedEntries (h : disk.Listable dir) :
    disk.Gives (sortedEntries dir) (.ok (disk.listing dir)) := by
  obtain ⟨names, hnames, hstat⟩ := h
  refine Prog.Yields.perform fun ans hans => ?_
  simp only [Disk.Serves, hnames] at hans
  obtain ⟨listed, hperm, rfl⟩ := hans
  have hlisting : disk.listing dir = sortEntries (listed.filterMap (disk.entry dir)) := by
    rw [Disk.listing, hnames]
    exact sortEntries_perm (hperm.symm.filterMap _)
  rw [hlisting]
  exact gives_map (gives_readEntries fun name hname => hstat name (hperm.mem_iff.mp hname))

theorem gives_audioFiles (h : disk.Listable dir) :
    disk.Gives (audioFiles dir) (.ok (disk.audioFiles dir)) := gives_map (gives_sortedEntries h)

/-! ## Audio files -/

/-- The name ends in a known extension, in any ASCII case. -/
def HasAudioExtension (name : String) : Prop :=
  ∃ stem ext known, name = stem ++ "." ++ ext ∧ stem ≠ "" ∧ known ∈ audioExtensions ∧
    Text.eqIgnoreAsciiCase known.toList ext.toList = true

theorem encode_dot (stem ext : String) :
    Utf8.encode (stem ++ "." ++ ext) = Utf8.encode stem ++ Path.dot :: Utf8.encode ext := by
  rw [Utf8.encode_append, Utf8.encode_append, List.append_assoc]
  rfl

theorem dot_notMem {text : String} (h : '.' ∉ text.toList) : Path.dot ∉ Utf8.encode text :=
  Utf8.notMem_encode (by decide) h

/-- A name is split at its last dot, if anything is before it. -/
theorem rsplitFileAtDot_of_dot {stem ext : String} (hext : '.' ∉ ext.toList)
    (hname : name.bytes = Utf8.encode (stem ++ "." ++ ext)) :
    Path.rsplitFileAtDot name.bytes = if stem = "" then (some name.bytes, none)
      else (some (Utf8.encode stem), some (Utf8.encode ext)) := by
  have hsplit : Path.rsplitOnce Path.dot name.bytes = some (Utf8.encode stem, Utf8.encode ext) := by
    rw [hname, encode_dot]
    exact Path.rsplitOnce_append (dot_notMem hext)
  have hempty : Utf8.encode stem = [] ↔ stem = "" := Utf8.encode_inj (t := "")
  rw [Path.rsplitFileAtDot, if_neg name.notDots, hsplit]
  simp only [hempty]

theorem extension_of_dot {stem ext : String} (hext : '.' ∉ ext.toList)
    (hname : name.bytes = Utf8.encode (stem ++ "." ++ ext)) :
    Path.extension name.bytes = if stem = "" then none else some (Utf8.encode ext) := by
  rw [Path.extension, name.fileName_bytes, Option.bind_eq_bind, Option.bind_some,
    rsplitFileAtDot_of_dot hext hname]
  by_cases h : stem = "" <;> simp [h]

/-- The title of a track is the name of its file without the extension. -/
theorem title_fileTrack {stem ext id : String} (hstem : stem ≠ "") (hext : '.' ∉ ext.toList)
    (hname : name.bytes = Utf8.encode (stem ++ "." ++ ext)) :
    (fileTrack id (stem ++ "." ++ ext)).title = stem := by
  have hfile : Path.fileStem name.bytes = some (Utf8.encode stem) := by
    rw [Path.fileStem, name.fileName_bytes, Option.bind_eq_bind, Option.bind_some,
      rsplitFileAtDot_of_dot hext hname, if_neg hstem]
    rfl
  rw [fileTrack, ← hname, hfile, Option.map_some, Option.getD_some, Utf8.decodeLossy_encode]

theorem extension_of_notMem (htext : '.' ∉ text.toList) (hname : name.bytes = Utf8.encode text) :
    Path.extension name.bytes = none := by
  have hsplit : Path.rsplitOnce Path.dot name.bytes = none := by
    rw [hname]
    exact Path.rsplitOnce_of_notMem (dot_notMem htext)
  rw [Path.extension, name.fileName_bytes, Option.bind_eq_bind, Option.bind_some,
    Path.rsplitFileAtDot, if_neg name.notDots, hsplit]
  rfl

/-- No known extension has a dot. -/
theorem notMem_of_known {known ext : String} (hknown : known ∈ audioExtensions)
    (h : Text.eqIgnoreAsciiCase known.toList ext.toList = true) : '.' ∉ ext.toList := by
  intro hdot
  have hmap : '.' ∈ known.toList.map Char.toLower := by
    rw [Text.eqIgnoreAsciiCase, beq_iff_eq] at h
    rw [h]
    exact List.mem_map.mpr ⟨'.', hdot, rfl⟩
  have hall : ∀ known ∈ audioExtensions, '.' ∉ known.toList.map Char.toLower := by decide
  exact hall known hknown hmap

theorem isAudio_iff (hname : name.bytes = Utf8.encode text) :
    isAudio text = true ↔ HasAudioExtension text := by
  constructor
  · intro haudio
    rw [isAudio, ← hname] at haudio
    by_cases hdot : '.' ∈ text.toList
    · obtain ⟨before, after, hlist, hafter⟩ := Path.exists_last hdot
      have htext : text = .ofList before ++ "." ++ .ofList after := by
        rw [← String.toList_inj, hlist]
        simp
      rw [htext] at hname
      rw [extension_of_dot (by simpa using hafter) hname] at haudio
      split at haudio
      · cases haudio
      · rename_i ext hext
        split at hext
        · cases hext
        · rename_i hstem
          rw [Option.bind_some, Utf8.fromUTF8?_eq_some, Utf8.encode_inj] at hext
          obtain ⟨known, hknown, heq⟩ := List.any_eq_true.mp haudio
          exact ⟨_, _, known, htext, hstem, hknown, hext ▸ heq⟩
    · rw [extension_of_notMem hdot hname] at haudio
      cases haudio
  · rintro ⟨stem, ext, known, rfl, hstem, hknown, heq⟩
    rw [isAudio, ← hname, extension_of_dot (notMem_of_known hknown heq) hname, if_neg hstem,
      Option.bind_some, Utf8.fromUTF8?_eq_some.mpr rfl]
    exact List.any_eq_true.mpr ⟨known, hknown, heq⟩

theorem mem_audioFiles : text ∈ disk.audioFiles dir ↔
    disk.Contains dir text false ∧ HasAudioExtension text := by
  rw [Disk.audioFiles, List.mem_map]
  constructor
  · rintro ⟨⟨text', isDir⟩, hmem, rfl⟩
    obtain ⟨hlisted, hkept⟩ := List.mem_filter.mp hmem
    rw [Bool.and_eq_true, Bool.not_eq_true'] at hkept
    obtain ⟨rfl, haudio⟩ := hkept
    have hcontains := mem_listing.mp hlisted
    obtain ⟨names, name, -, -, hvisible, -⟩ := hcontains
    exact ⟨mem_listing.mp hlisted, (isAudio_iff (visible_eq_some.mp hvisible).1).mp haudio⟩
  · rintro ⟨hcontains, hext⟩
    obtain ⟨names, name, -, -, hvisible, -⟩ := id hcontains
    have haudio := (isAudio_iff (visible_eq_some.mp hvisible).1).mpr hext
    exact ⟨(text, false), List.mem_filter.mpr ⟨mem_listing.mpr hcontains, by simpa using haudio⟩, rfl⟩

/-! ## The calls -/

variable {root : Path} {id file : String}

/-- A visible name is an id. -/
theorem safeJoin_of_visible (h : visible name = some text) :
    safeJoin root text = .ok (root.join (Utf8.encode text)) := by
  obtain ⟨hname, -⟩ := visible_eq_some.mp h
  refine safeJoin_eq_ok.mpr ⟨?_, ?_, rfl⟩
  · rintro rfl
    exact name.nonempty hname
  · rw [← hname, name.components_bytes]
    rfl

/-- The id of a track leads to the entry of the directory of its playlist. -/
theorem safeJoin_of_entry {name' : Path.Name} (hid : visible name = some id)
    (hfile : visible name' = some file) : safeJoin root (id ++ "/" ++ file) =
      .ok ((root.join (Utf8.encode id)).join (Utf8.encode file)) := by
  obtain ⟨hname, -⟩ := visible_eq_some.mp hid
  obtain ⟨hname', -⟩ := visible_eq_some.mp hfile
  have hencode : Utf8.encode (id ++ "/" ++ file) =
      name.bytes ++ Path.separator :: name'.bytes := by
    rw [Utf8.encode_append, Utf8.encode_append, List.append_assoc, hname, hname']
    rfl
  refine safeJoin_eq_ok.mpr ⟨?_, ?_, ?_⟩
  · intro hnil
    rw [hnil] at hencode
    cases hbytes : name.bytes with
    | nil => exact name.nonempty hbytes
    | cons b bytes =>
      rw [hbytes] at hencode
      cases hencode
  · rw [hencode, name.components_two]
    rfl
  · rw [hencode, ← hname, ← hname', name.join_join root name'.isAbsolute_bytes]

theorem gives_listPlaylists {entries : List (String × Bool)}
    (h : ∀ name, (name, true) ∈ entries → disk.Listable (root.join (Utf8.encode name))) :
    disk.Gives (listPlaylists root entries)
      (.ok (((entries.filter Prod.snd).map Prod.fst).map (disk.playlist root))) := by
  induction entries with
  | nil => exact .ret _
  | cons entry entries ih =>
    have hrest := ih fun name hname => h name (List.mem_cons_of_mem _ hname)
    obtain ⟨name, isDir⟩ := entry
    cases isDir with
    | false => exact hrest
    | true => exact gives_bind (gives_audioFiles (h name (.head _))) (gives_map hrest)

theorem gives_playlistTracks (hid : visible name = some id)
    (h : disk.Listable (root.join (Utf8.encode id))) :
    disk.Gives (playlistTracks root id)
      (.ok ((disk.audioFiles (root.join (Utf8.encode id))).map (fileTrack id))) := by
  rw [playlistTracks, safeJoin_of_visible hid, ok_bind]
  exact gives_map (gives_audioFiles h)

theorem gives_streamTarget {name' : Path.Name} (hid : visible name = some id)
    (hfile : visible name' = some file)
    (h : disk.isDir ((root.join (Utf8.encode id)).join (Utf8.encode file)) = some isDir) :
    disk.Gives (streamTarget root (fileTrack id file))
      (.ok ⟨Utf8.decodeLossy ((root.join (Utf8.encode id)).join (Utf8.encode file)), []⟩) := by
  rw [streamTarget, fileTrack, safeJoin_of_entry hid hfile, ok_bind]
  exact gives_bind (gives_metadata h) (.ret _)

/-- What is joined of texts is a text. -/
theorem exists_text_join (a b : String) :
    ∃ url, Path.join (Utf8.encode a) (Utf8.encode b) = Utf8.encode url := by
  rw [Path.join]
  split
  · exact ⟨b, rfl⟩
  · split
    · exact ⟨a ++ b, (Utf8.encode_append a b).symm⟩
    · refine ⟨a ++ "/" ++ b, ?_⟩
      rw [Utf8.encode_append, Utf8.encode_append, List.append_assoc]
      rfl

/-! ## Listings -/

/-- The file is a track of the playlist. -/
structure Disk.Lists (disk : Disk) (root : Path) (id file : String) : Prop where
  folder : disk.Contains root id true
  stored : disk.Contains (root.join (Utf8.encode id)) file false
  audio : HasAudioExtension file

/-- The path of the file. -/
def filePath (root : Path) (id file : String) : Path :=
  (root.join (Utf8.encode id)).join (Utf8.encode file)

/-- The files of a playlist, and what the backend does for them. -/
structure Disk.ListsTracks (disk : Disk) (root : Path) (playlist : Playlist)
    (files : List String) : Prop where
  returned : Prog.Returns disk.Serves (playlistTracks root playlist.id)
    (.ok (files.map (fileTrack playlist.id)))
  increasing : files.Pairwise fun a b => nameKey a < nameKey b
  mem_iff : ∀ file, file ∈ files ↔
    disk.Contains (root.join (Utf8.encode playlist.id)) file false ∧ HasAudioExtension file
  count : files.length = playlist.trackCount

/-- The playlists and what the backend does for them, whatever the orders of enumeration. -/
structure Disk.Listings (disk : Disk) (root : Path) (playlists : List Playlist) : Prop where
  returned : Prog.Returns disk.Serves (myPlaylists root) (.ok playlists)
  increasing : (playlists.map Playlist.id).Pairwise fun a b => nameKey a < nameKey b
  mem_iff : ∀ name, name ∈ playlists.map Playlist.id ↔ disk.Contains root name true
  titled : ∀ playlist ∈ playlists, playlist.title = playlist.id
  tracks : ∀ playlist ∈ playlists, ∃ files, disk.ListsTracks root playlist files
  targets : ∀ id file, disk.Lists root id file → ∃ url,
    Prog.Returns disk.Serves (streamTarget root (fileTrack id file)) (.ok ⟨url, []⟩) ∧
      Utf8.encode url = filePath root id file
  distinct : ∀ id file id' file', disk.Lists root id file → disk.Lists root id' file' →
    fileTrack id file ≠ fileTrack id' file' → filePath root id file ≠ filePath root id' file'

theorem Disk.Lists.components (h : disk.Lists root id file) :
    (filePath root id file).components =
      root.components ++ [.normal (Utf8.encode id)] ++ [.normal (Utf8.encode file)] := by
  obtain ⟨-, name, -, -, hid, -⟩ := h.folder
  obtain ⟨-, name', -, -, hfile, -⟩ := h.stored
  rw [filePath, ← (visible_eq_some.mp hid).1, ← (visible_eq_some.mp hfile).1,
    name'.components_join, name.components_join]

theorem gives_myPlaylists (hlibrary : disk.IsLibrary root) :
    disk.Gives (myPlaylists root) (.ok ((disk.folders root).map (disk.playlist root))) :=
  gives_bind (gives_sortedEntries hlibrary.listable)
    (gives_listPlaylists fun name hname => hlibrary.folders name (mem_listing.mp hname))

theorem Disk.IsLibrary.listsTracks (hlibrary : disk.IsLibrary root)
    (h : disk.Contains root text true) : disk.ListsTracks root (disk.playlist root text)
      (disk.audioFiles (root.join (Utf8.encode text))) := by
  obtain ⟨names, name, -, -, hvisible, -⟩ := id h
  constructor
  · exact (gives_playlistTracks hvisible (hlibrary.folders text h)).returns (serves_total disk)
  · exact increasing_audioFiles
  · exact fun file => mem_audioFiles
  · rfl

/-- A listed file can be played, from its own path. -/
theorem Disk.Lists.target {rootText : String} (h : disk.Lists (Utf8.encode rootText) id file) :
    ∃ url, Prog.Returns disk.Serves (streamTarget (Utf8.encode rootText) (fileTrack id file))
      (.ok ⟨url, []⟩) ∧ Utf8.encode url = filePath (Utf8.encode rootText) id file := by
  obtain ⟨-, name, -, -, hid, -⟩ := h.folder
  obtain ⟨-, name', -, -, hfile, hdir⟩ := h.stored
  have hgives := gives_streamTarget hid hfile hdir
  obtain ⟨folder, hfolder⟩ := exists_text_join rootText id
  obtain ⟨url, hurl⟩ := exists_text_join folder file
  rw [hfolder, hurl, Utf8.decodeLossy_encode] at hgives
  exact ⟨url, hgives.returns (serves_total disk), by rw [filePath, hfolder, hurl]⟩

/-- **Listings are complete, ordered and playable.** -/
theorem listings (disk : Disk) (rootText : String)
    (hlibrary : disk.IsLibrary (Utf8.encode rootText)) :
    ∃ playlists, disk.Listings (Utf8.encode rootText) playlists := by
  have hids : ((disk.folders (Utf8.encode rootText)).map
      (disk.playlist (Utf8.encode rootText))).map Playlist.id =
        disk.folders (Utf8.encode rootText) := by
    rw [List.map_map]
    exact List.map_id _
  refine ⟨(disk.folders (Utf8.encode rootText)).map (disk.playlist (Utf8.encode rootText)), ?_⟩
  constructor
  · exact (gives_myPlaylists hlibrary).returns (serves_total disk)
  · rw [hids]
    exact increasing_folders
  · intro name
    rw [hids]
    exact mem_folders
  · intro playlist hplaylist
    obtain ⟨name, -, rfl⟩ := List.mem_map.mp hplaylist
    rfl
  · intro playlist hplaylist
    obtain ⟨name, hname, rfl⟩ := List.mem_map.mp hplaylist
    exact ⟨_, hlibrary.listsTracks (mem_folders.mp hname)⟩
  · exact fun id file h => h.target
  · intro id file id' file' h h' hne hpath
    have hcomponents := h.components.symm.trans (hpath ▸ h'.components)
    simp only [List.append_assoc, List.append_cancel_left_eq, List.singleton_append,
      List.cons.injEq, Path.Component.normal.injEq, Utf8.encode_inj] at hcomponents
    exact hne (by rw [hcomponents.1, hcomponents.2.1])

/-- The listings of a library are the ones of its folders. -/
theorem Disk.Listings.ids_eq {playlists : List Playlist} (h : disk.Listings root playlists) :
    playlists.map Playlist.id = disk.folders root :=
  eq_of_increasing h.increasing increasing_folders fun name =>
    (h.mem_iff name).trans mem_folders.symm

theorem Disk.ListsTracks.files_eq {playlist : Playlist} {files : List String}
    (h : disk.ListsTracks root playlist files) :
    files = disk.audioFiles (root.join (Utf8.encode playlist.id)) :=
  eq_of_increasing h.increasing increasing_audioFiles fun file =>
    (h.mem_iff file).trans mem_audioFiles.symm

/-- The name of an entry. -/
def named (text : String) (h : Utf8.encode text ≠ [] ∧ Path.separator ∉ Utf8.encode text ∧
    Utf8.encode text ≠ [Path.dot] ∧ Utf8.encode text ≠ [Path.dot, Path.dot]) : Path.Name :=
  ⟨Utf8.encode text, h.1, h.2.1, h.2.2.1, h.2.2.2⟩

/-- A library of two folders whose names differ in one case, with a file beside them. -/
def music : Disk where
  entries dir :=
    if dir = Utf8.encode "/music" then
      some [named "mix" (by decide), named "loose.mp3" (by decide), named "Mix" (by decide)]
    else if dir = Utf8.encode "/music/mix" then
      some [named "02-b.flac" (by decide), named "cover.jpg" (by decide),
        named ".part.mp3" (by decide), named "01-a.MP3" (by decide)]
    else if dir = Utf8.encode "/music/Mix" then
      some [named "b.ogg" (by decide), named "a.opus" (by decide)]
    else none
  isDir path := some (path ∈ [Utf8.encode "/music/mix", Utf8.encode "/music/Mix"])
  nodup dir names h := by
    split_ifs at h <;> cases h <;> decide

theorem isLibrary_music : music.IsLibrary (Utf8.encode "/music") := by
  refine ⟨⟨_, rfl, fun _ _ _ _ => ⟨_, rfl⟩⟩, fun name hname => ?_⟩
  obtain ⟨-, -, -, -, -, hdir⟩ := hname
  have hmem := of_decide_eq_true (Option.some.inj hdir)
  generalize Path.join _ _ = dir at hmem
  obtain rfl | hmem := List.mem_cons.mp hmem
  · exact ⟨_, rfl, fun _ _ _ _ => ⟨_, rfl⟩⟩
  · obtain rfl := List.mem_singleton.mp hmem
    exact ⟨_, rfl, fun _ _ _ _ => ⟨_, rfl⟩⟩

theorem folders_music : music.folders (Utf8.encode "/music") = ["Mix", "mix"] := by
  have hlisting : music.listing (Utf8.encode "/music") =
      [("Mix", true), ("loose.mp3", false), ("mix", true)] :=
    sortEntries_eq (by decide +kernel) (by decide +kernel)
  rw [Disk.folders, hlisting]
  rfl

theorem audioFiles_music :
    music.audioFiles (Path.join (Utf8.encode "/music") (Utf8.encode "mix")) =
      ["01-a.MP3", "02-b.flac"] := by
  have hjoin : Path.join (Utf8.encode "/music") (Utf8.encode "mix") = Utf8.encode "/music/mix" := by
    decide
  have hlisting : music.listing (Utf8.encode "/music/mix") =
      [("01-a.MP3", false), ("02-b.flac", false), ("cover.jpg", false)] :=
    sortEntries_eq (by decide +kernel) (by decide +kernel)
  rw [Disk.audioFiles, hjoin, hlisting]
  decide +kernel

/-- Two playlists, and the two tracks of one of them. -/
theorem listings_music : ∃ playlists playlist files,
    music.Listings (Utf8.encode "/music") playlists ∧
    playlists.map Playlist.id = ["Mix", "mix"] ∧ playlist ∈ playlists ∧ playlist.id = "mix" ∧
    music.ListsTracks (Utf8.encode "/music") playlist files ∧
    files = ["01-a.MP3", "02-b.flac"] ∧ playlist.trackCount = 2 := by
  obtain ⟨playlists, hlistings⟩ := listings music "/music" isLibrary_music
  have hids := hlistings.ids_eq.trans folders_music
  obtain ⟨playlist, hplaylist, hid⟩ : ∃ playlist ∈ playlists, playlist.id = "mix" := by
    rw [← List.mem_map, hids]
    exact .tail _ (.head _)
  obtain ⟨files, htracks⟩ := hlistings.tracks playlist hplaylist
  have hfiles := htracks.files_eq
  rw [hid, audioFiles_music] at hfiles
  refine ⟨playlists, playlist, files, hlistings, hids, hplaylist, hid, htracks, hfiles, ?_⟩
  rw [← htracks.count, hfiles]
  rfl

end Rsc.Backend

import Mathlib.Logic.Function.Basic
import Mathlib.Data.List.Basic

/-!
One directory of a POSIX file system, and what a crash may leave of it. Names refer to
inodes, open handles are inodes, and no two names are links to one file.

The data of an inode survives a crash when it was synced after the last write to it.
A directory entry survives when the directory was synced; otherwise the crash brings
back any value the entry has had since.
-/

namespace Rsc.Library

abbrev Inode := Nat

/-- The contents of an inode, and whether they are known to be on disk. -/
structure File where
  data : List UInt8
  synced : Bool

/-- `since` lists the values an entry has had since the directory was last synced. -/
structure FileSystem (Name : Type) where
  entries : Name → Option Inode
  since : Name → List (Option Inode)
  files : Inode → File
  nextInode : Inode

namespace FileSystem

variable {Name : Type}

/-- What a crash may leave: of every entry a value since the last sync of the directory,
of every synced file its data, of the others anything. -/
structure Crash (fs fs' : FileSystem Name) : Prop where
  entries : ∀ name, fs'.entries name ∈ fs.since name
  since : ∀ name, fs'.since name = [fs'.entries name]
  data : ∀ inode, (fs.files inode).synced = true → (fs'.files inode).data = (fs.files inode).data
  synced : ∀ inode, (fs'.files inode).synced = true
  nextInode : fs'.nextInode = fs.nextInode

/-- Entries are among the values since the last sync, and all of these are in use. -/
structure Valid (fs : FileSystem Name) : Prop where
  current : ∀ name, fs.entries name ∈ fs.since name
  bounded : ∀ name inode, some inode ∈ fs.since name → inode < fs.nextInode

theorem Valid.lt {fs : FileSystem Name} (h : fs.Valid) {name : Name} {inode : Inode}
    (hentry : fs.entries name = some inode) : inode < fs.nextInode :=
  h.bounded name inode (hentry ▸ h.current name)

theorem Crash.valid {fs fs' : FileSystem Name} (hcrash : Crash fs fs') (h : fs.Valid) :
    fs'.Valid := by
  constructor
  · intro name
    rw [hcrash.since]
    exact .head _
  · intro name inode hmem
    rw [hcrash.since, List.mem_singleton] at hmem
    rw [hcrash.nextInode]
    exact h.bounded name inode (hmem ▸ hcrash.entries name)

/-! ## Files -/

/-- The contents of the file under the name. -/
def read (fs : FileSystem Name) (name : Name) : Option (List UInt8) :=
  (fs.entries name).map fun inode => (fs.files inode).data

def append (fs : FileSystem Name) (inode : Inode) (bytes : List UInt8) : FileSystem Name :=
  { fs with files := Function.update fs.files inode ⟨(fs.files inode).data ++ bytes, false⟩ }

/-- `fsync` of a file. -/
def sync (fs : FileSystem Name) (inode : Inode) : FileSystem Name :=
  { fs with files := Function.update fs.files inode ⟨(fs.files inode).data, true⟩ }

/-- `fsync` of the directory. -/
def syncDir (fs : FileSystem Name) : FileSystem Name :=
  { fs with since := fun name => [fs.entries name] }

section

variable {fs : FileSystem Name} {inode other : Inode} {bytes : List UInt8}

@[simp] theorem files_append :
    (fs.append inode bytes).files inode = ⟨(fs.files inode).data ++ bytes, false⟩ :=
  Function.update_self ..

@[simp] theorem files_append_of_ne (h : other ≠ inode) :
    (fs.append inode bytes).files other = fs.files other := Function.update_of_ne h ..

@[simp] theorem files_sync : (fs.sync inode).files inode = ⟨(fs.files inode).data, true⟩ :=
  Function.update_self ..

@[simp] theorem files_sync_of_ne (h : other ≠ inode) :
    (fs.sync inode).files other = fs.files other := Function.update_of_ne h ..

theorem data_sync : ((fs.sync inode).files other).data = (fs.files other).data := by
  by_cases h : other = inode
  · rw [h, files_sync]
  · rw [files_sync_of_ne h]

theorem read_sync {name : Name} : (fs.sync inode).read name = fs.read name := by
  simp only [read, data_sync]
  rfl

theorem Valid.append (h : fs.Valid) : (fs.append inode bytes).Valid := ⟨h.current, h.bounded⟩

theorem Valid.sync (h : fs.Valid) : (fs.sync inode).Valid := ⟨h.current, h.bounded⟩

theorem Valid.syncDir (h : fs.Valid) : fs.syncDir.Valid := by
  constructor
  · exact fun name => .head _
  · intro name inode hmem
    rw [FileSystem.syncDir, List.mem_singleton] at hmem
    exact h.lt hmem.symm

end

/-! ## Entries -/

variable [DecidableEq Name]

def setEntry (fs : FileSystem Name) (name : Name) (entry : Option Inode) : FileSystem Name :=
  { fs with
    entries := Function.update fs.entries name entry
    since := Function.update fs.since name (entry :: fs.since name) }

def unlink (fs : FileSystem Name) (name : Name) : FileSystem Name := fs.setEntry name none

/-- A new empty file under the name; its inode is `fs.nextInode`. -/
def create (fs : FileSystem Name) (name : Name) : FileSystem Name :=
  { fs.setEntry name (some fs.nextInode) with
    files := Function.update fs.files fs.nextInode ⟨[], false⟩
    nextInode := fs.nextInode + 1 }

/-- The target refers to the inode of the source, and the source to nothing. -/
def rename (fs : FileSystem Name) (source target : Name) : FileSystem Name :=
  (fs.setEntry target (fs.entries source)).setEntry source none

variable {fs : FileSystem Name} {name other source target : Name} {entry : Option Inode}
  {inode : Inode}

@[simp] theorem entries_setEntry : (fs.setEntry name entry).entries name = entry :=
  Function.update_self ..

@[simp] theorem entries_setEntry_of_ne (h : other ≠ name) :
    (fs.setEntry name entry).entries other = fs.entries other := Function.update_of_ne h ..

@[simp] theorem since_setEntry : (fs.setEntry name entry).since name = entry :: fs.since name :=
  Function.update_self ..

@[simp] theorem since_setEntry_of_ne (h : other ≠ name) :
    (fs.setEntry name entry).since other = fs.since other := Function.update_of_ne h ..

@[simp] theorem files_create : (fs.create name).files fs.nextInode = ⟨[], false⟩ :=
  Function.update_self ..

@[simp] theorem files_create_of_ne (h : inode ≠ fs.nextInode) :
    (fs.create name).files inode = fs.files inode := Function.update_of_ne h ..

@[simp] theorem entries_rename_target (h : target ≠ source) :
    (fs.rename source target).entries target = fs.entries source := by
  rw [rename, entries_setEntry_of_ne h, entries_setEntry]

@[simp] theorem since_rename_target (h : target ≠ source) :
    (fs.rename source target).since target = fs.entries source :: fs.since target := by
  rw [rename, since_setEntry_of_ne h, since_setEntry]

theorem Valid.setEntry (h : fs.Valid) (hentry : ∀ inode, entry = some inode → inode < fs.nextInode) :
    (fs.setEntry name entry).Valid := by
  constructor
  · intro other
    by_cases ho : other = name
    · subst ho
      simp
    · simpa [ho] using h.current other
  · intro other inode hmem
    by_cases ho : other = name
    · subst ho
      rw [since_setEntry] at hmem
      rcases List.mem_cons.mp hmem with heq | hmem
      · exact hentry inode heq.symm
      · exact h.bounded other inode hmem
    · rw [since_setEntry_of_ne ho] at hmem
      exact h.bounded other inode hmem

theorem Valid.unlink (h : fs.Valid) : (fs.unlink name).Valid := h.setEntry nofun

theorem Valid.create (h : fs.Valid) : (fs.create name).Valid := by
  have hgrown : ({ fs with nextInode := fs.nextInode + 1 } : FileSystem Name).Valid :=
    ⟨h.current, fun other inode hmem => Nat.lt_succ_of_lt (h.bounded other inode hmem)⟩
  have hset := @Valid.setEntry _ _ _ name (some fs.nextInode) hgrown
    (fun inode heq => Option.some.inj heq ▸ Nat.lt_succ_self _)
  exact ⟨hset.current, hset.bounded⟩

theorem Valid.rename (h : fs.Valid) : (fs.rename source target).Valid := by
  have hset : (fs.setEntry target (fs.entries source)).Valid := h.setEntry fun _ heq => h.lt heq
  exact hset.setEntry nofun

end FileSystem

end Rsc.Library

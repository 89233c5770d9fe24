import Rsc.Auth.TokenStore
import Mathlib.Logic.Relation

/-!
Saves one after the other, calls that fail, and crashes at any moment. The tokens found
after a crash are those of the last save that returned `Ok`, or of one begun since. A
background write may be late, and lost in a crash, but does not fail by itself: that is
the subject of `SaveFailures`.
-/

namespace Rsc.Auth.TokenStore

open Rsc.Library

namespace Crashes

/-! ## The system -/

/-- The save that runs, the tokens of the last one that returned `Ok`, and those of the
saves begun since. -/
structure State where
  disk : Disk
  running : Option (Tokens × Prog Ans (Except Error Unit))
  acked : Option Tokens
  begun : List Tokens

section

variable (store : TokenStore) (codec : Codec) (split : List UInt8 → List (List UInt8))

inductive Step (s : State) : State → Prop
  | begin (tokens : Tokens) (h : s.running = none) :
      Step s { s with
        running := some (tokens, save store codec split tokens)
        begun := tokens :: s.begun }
  | call {tokens : Tokens} {op : Op} {k : Ans op → Prog Ans (Except Error Unit)} {ans : Ans op}
      {disk : Disk} (h : s.running = some (tokens, .perform op k))
      (hcall : Syscall s.disk op ans disk) :
      Step s { s with disk := disk, running := some (tokens, k ans) }
  /-- A call fails and does nothing. -/
  | fault {tokens : Tokens} {op : Op} {k : Ans op → Prog Ans (Except Error Unit)}
      (err : IoError) (h : s.running = some (tokens, .perform op k)) :
      Step s { s with running := some (tokens, k (.error err)) }
  | write {disk : Disk} (h : Background s.disk disk) : Step s { s with disk := disk }
  | returnOk {tokens : Tokens} (h : s.running = some (tokens, .ret (.ok ()))) :
      Step s { s with running := none, acked := some tokens, begun := [] }
  | returnErr {tokens : Tokens} {err : Error} (h : s.running = some (tokens, .ret (.error err))) :
      Step s { s with running := none }
  /-- The process ends, and the system goes on. -/
  | kill : Step s { s with running := none }
  /-- The system crashes. -/
  | crash {fs : FileSystem Name} (h : FileSystem.Crash s.disk.fs fs) :
      Step s { s with disk := ⟨fs, fun _ => []⟩, running := none }

/-- The file at the path is on disk, whatever the temporary name refers to. -/
structure Durable (d : Disk) : Prop where
  valid : d.fs.Valid
  entry : d.fs.since .path = [d.fs.entries .path]
  synced : ∀ file, d.fs.entries .path = some file → (d.fs.files file).synced = true
  idle : ∀ file, d.pending file = []

def start (d : Disk) : State := ⟨d, none, none, []⟩

/-- What a load gives when no save has begun since the last one that returned `Ok`. -/
def settled (initial : Disk) (s : State) : Except String (Option Tokens) :=
  match s.acked with
  | none => load store codec (contents initial.fs)
  | some tokens => .ok (some tokens)

/-- A load gives the tokens of the last save that returned `Ok`, or of one begun since. -/
def Recovers (initial : Disk) (s : State) (d : Disk) : Prop :=
  load store codec (contents d.fs) = settled store codec initial s ∨
    ∃ tokens ∈ s.begun, load store codec (contents d.fs) = .ok (some tokens)

end

/-! ## The invariant -/

section

variable (codec : Codec) (last : Option (List UInt8)) (begun : List Tokens)

/-- A crash may bring this entry of the path back: its file is safe, and complete. -/
structure Kept (d : Disk) (entry : Option Inode) : Prop where
  data : (entry.map fun file => (d.fs.files file).data) = last ∨
    ∃ tokens ∈ begun, (entry.map fun file => (d.fs.files file).data) = codec.toVecPretty tokens
  synced : ∀ file, entry = some file → (d.fs.files file).synced = true
  idle : ∀ file, entry = some file → d.pending file = []

structure Sound (d : Disk) : Prop where
  valid : d.fs.Valid
  quiet : ∀ file, d.fs.nextInode ≤ file → d.pending file = []
  kept : ∀ entry ∈ d.fs.since .path, Kept codec last begun d entry

/-- What is known of a save of `bytes` in a phase. -/
def Progress (bytes : List UInt8) (d : Disk) : Phase → Prop
  | .starting b | .cleaning b | .creating b => b = bytes
  | .writing b file rest => b = bytes ∧ file < d.fs.nextInode ∧ some file ∉ d.fs.since .path ∧
      d.fs.entries .tmp = some file ∧ (d.fs.files file).data ++ d.pending file ++ rest = b
  | .synced b file => b = bytes ∧ d.fs.entries .tmp = some file ∧
      d.fs.files file = ⟨b, true⟩ ∧ d.pending file = []
  | .renamed b | .opened b => b = bytes ∧ d.fs.read .path = some b
  | .saved b => b = bytes ∧ d.fs.read .path = some b ∧ d.fs.since .path = [d.fs.entries .path]
  | .failed => True

variable {codec last begun} {d d' : Disk} {bytes : List UInt8}

/-- A call or a write that leaves the path and its files alone. -/
theorem Sound.frame (h : Sound codec last begun d) (hvalid : d'.fs.Valid)
    (hquiet : ∀ file, d'.fs.nextInode ≤ file → d'.pending file = [])
    (hsince : d'.fs.since .path = d.fs.since .path)
    (hfiles : ∀ file, some file ∈ d.fs.since .path →
      (d'.fs.files file).data = (d.fs.files file).data ∧
        ((d.fs.files file).synced = true → (d'.fs.files file).synced = true) ∧
        d'.pending file = d.pending file) :
    Sound codec last begun d' := by
  refine ⟨hvalid, hquiet, fun entry hentry => ?_⟩
  rw [hsince] at hentry
  have hkept := h.kept entry hentry
  cases entry with
  | none => exact ⟨hkept.data, nofun, nofun⟩
  | some file =>
    obtain ⟨hdata, hsynced, hidle⟩ := hfiles file hentry
    refine ⟨?_, ?_, ?_⟩
    · simpa only [Option.map_some, hdata] using hkept.data
    · rintro _ ⟨⟩
      exact hsynced (hkept.synced file rfl)
    · rintro _ ⟨⟩
      exact hidle.trans (hkept.idle file rfl)

theorem Sound.createNew (h : Sound codec last begun d) :
    Sound codec last begun ⟨d.fs.create .tmp, d.pending⟩ ∧
      Progress bytes ⟨d.fs.create .tmp, d.pending⟩ (.writing bytes d.fs.nextInode bytes) := by
  have hnew : some d.fs.nextInode ∉ d.fs.since .path :=
    fun hmem => Nat.lt_irrefl _ (h.valid.bounded _ _ hmem)
  refine ⟨h.frame h.valid.create (fun file hle => h.quiet file (Nat.le_of_succ_le hle)) rfl
    fun file hfile => ?_, rfl, Nat.lt_succ_self _, hnew, rfl, ?_⟩
  · have hne : file ≠ d.fs.nextInode := Nat.ne_of_lt (h.valid.bounded _ _ hfile)
    rw [FileSystem.files_create_of_ne hne]
    exact ⟨rfl, id, rfl⟩
  · simp [h.quiet _ (Nat.le_refl _)]

theorem Sound.write {file : Inode} {b chunk rest : List UInt8} (h : Sound codec last begun d)
    (hprogress : Progress bytes d (.writing b file (chunk ++ rest))) (hidle : d.pending file = []) :
    Sound codec last begun ⟨d.fs, Function.update d.pending file chunk⟩ ∧
      Progress bytes ⟨d.fs, Function.update d.pending file chunk⟩ (.writing b file rest) := by
  obtain ⟨hb, hlt, hnew, htmp, hdata⟩ := hprogress
  have hkept : ∀ other, other ≠ file → Function.update d.pending file chunk other = d.pending other :=
    fun other hne => Function.update_of_ne hne _ _
  refine ⟨h.frame h.valid (fun other hle => ?_) rfl fun other hother => ⟨rfl, id, hkept other ?_⟩,
    hb, hlt, hnew, htmp, ?_⟩
  · exact (hkept other (Nat.ne_of_gt (Nat.lt_of_lt_of_le hlt hle))).trans (h.quiet other hle)
  · rintro rfl
    exact hnew hother
  · rw [hidle] at hdata
    simpa using hdata

theorem Sound.sync {file : Inode} (h : Sound codec last begun d) :
    Sound codec last begun ⟨d.fs.sync file, d.pending⟩ := by
  refine h.frame h.valid.sync h.quiet rfl fun other _ => ⟨FileSystem.data_sync, fun hsynced => ?_, rfl⟩
  by_cases hother : other = file
  · rw [hother, FileSystem.files_sync]
  · rwa [FileSystem.files_sync_of_ne hother]

theorem Sound.rename {file : Inode} {b : List UInt8} {tokens : Tokens}
    (h : Sound codec last begun d) (hbegun : tokens ∈ begun)
    (hprogress : Progress (codec.toVecPretty tokens) d (.synced b file)) :
    Sound codec last begun ⟨d.fs.rename .tmp .path, d.pending⟩ ∧
      Progress (codec.toVecPretty tokens) ⟨d.fs.rename .tmp .path, d.pending⟩ (.renamed b) := by
  obtain ⟨rfl, htmp, hfile, hidle⟩ := hprogress
  have hdata : (d.fs.files file).data = codec.toVecPretty tokens := by rw [hfile]
  refine ⟨⟨h.valid.rename, h.quiet, fun entry hentry => ?_⟩, rfl, ?_⟩
  · rw [FileSystem.since_rename_target (by decide), htmp] at hentry
    rcases List.mem_cons.mp hentry with rfl | hentry
    · refine ⟨.inr ⟨tokens, hbegun, congrArg some hdata⟩, ?_, ?_⟩
      · rintro _ ⟨⟩
        exact congrArg File.synced hfile
      · rintro _ ⟨⟩
        exact hidle
    · have hkept := h.kept entry hentry
      exact ⟨hkept.data, hkept.synced, hkept.idle⟩
  · rw [FileSystem.read, FileSystem.entries_rename_target (by decide), htmp]
    exact congrArg some hdata

theorem Sound.syncDir (h : Sound codec last begun d) :
    Sound codec last begun ⟨d.fs.syncDir, d.pending⟩ := by
  refine ⟨h.valid.syncDir, h.quiet, fun entry hentry => ?_⟩
  rw [List.mem_singleton.mp hentry]
  have hkept := h.kept _ (h.valid.current .path)
  exact ⟨hkept.data, hkept.synced, hkept.idle⟩

/-- What one call of a save keeps. -/
theorem Sound.call {tokens : Tokens} {q q' : Phase} {op : Op} {ans : Ans op}
    (h : Sound codec last begun d) (hbegun : tokens ∈ begun)
    (hprogress : Progress (codec.toVecPretty tokens) d q) (hmove : Move q op ans q')
    (hcall : Syscall d op ans d') :
    Sound codec last begun d' ∧ Progress (codec.toVecPretty tokens) d' q' := by
  cases hmove with
  | createDirAll =>
    cases hcall
    exact ⟨h, hprogress⟩
  | removeFile =>
    cases hcall
    exact ⟨h.frame h.valid.unlink h.quiet rfl fun _ _ => ⟨rfl, id, rfl⟩, hprogress⟩
  | removeMissing =>
    cases hcall
    exact ⟨h, hprogress⟩
  | createNew =>
    cases hcall
    cases hprogress
    exact h.createNew
  | write =>
    cases hcall with
    | write hidle => exact h.write hprogress hidle
  | syncAll =>
    cases hcall with
    | syncAll hidle =>
      obtain ⟨hb, _, _, htmp, hdata⟩ := hprogress
      refine ⟨h.sync, hb, htmp, ?_, hidle⟩
      rw [hidle, List.append_nil, List.append_nil] at hdata
      rw [FileSystem.files_sync, hdata]
  | rename =>
    cases hcall with
    | rename _ => exact h.rename hbegun hprogress
  | openDir =>
    cases hcall
    exact ⟨h, hprogress⟩
  | syncDir =>
    cases hcall
    exact ⟨h.syncDir, hprogress.1, hprogress.2, rfl⟩
  | fail => cases hcall <;> exact ⟨h, trivial⟩

/-- A background write does not go to a file that the path may come to refer to. -/
theorem Sound.flush (h : Sound codec last begun d) (hwrite : Background d d') :
    Sound codec last begun d' ∧ ∀ bytes q, Progress bytes d q → Progress bytes d' q := by
  obtain ⟨hne, hpending⟩ := hwrite
  rename_i file chunk rest
  have hkept : ∀ other, other ≠ file → Function.update d.pending file rest other = d.pending other :=
    fun other hne => Function.update_of_ne hne _ _
  have hidle : ∀ other, d.pending other = [] → other ≠ file := by
    rintro other hother rfl
    rw [hother] at hpending
    exact hne (List.append_eq_nil_iff.mp hpending.symm).1
  have hpath : ∀ other, some other ∈ d.fs.since .path → other ≠ file :=
    fun other hother => hidle other ((h.kept _ hother).idle other rfl)
  have hread : (d.fs.append file chunk).read .path = d.fs.read .path := by
    simp only [FileSystem.read]
    refine Option.map_congr fun other hother => ?_
    rw [FileSystem.files_append_of_ne (hpath other (hother ▸ h.valid.current .path))]
  refine ⟨h.frame h.valid.append (fun other hle => ?_) rfl fun other hother => ?_,
    fun bytes q hq => ?_⟩
  · have hquiet := h.quiet other hle
    exact (hkept other (hidle other hquiet)).trans hquiet
  · rw [FileSystem.files_append_of_ne (hpath other hother)]
    exact ⟨rfl, id, hkept other (hpath other hother)⟩
  · cases q with
    | writing b other rest' =>
      obtain ⟨hb, hlt, hnew, htmp, hdata⟩ := hq
      refine ⟨hb, hlt, hnew, htmp, ?_⟩
      by_cases hother : other = file
      · subst hother
        rw [hpending] at hdata
        simpa using hdata
      · rw [← hkept other hother, ← FileSystem.files_append_of_ne hother] at hdata
        exact hdata
    | synced b other =>
      obtain ⟨hb, htmp, hfile, hother⟩ := hq
      have hne := hidle other hother
      exact ⟨hb, htmp, (FileSystem.files_append_of_ne hne).trans hfile,
        (hkept other hne).trans hother⟩
    | renamed b => exact ⟨hq.1, hread.trans hq.2⟩
    | opened b => exact ⟨hq.1, hread.trans hq.2⟩
    | saved b => exact ⟨hq.1, hread.trans hq.2.1, hq.2.2⟩
    | _ => exact hq

theorem Sound.crash {fs : FileSystem Name} (h : Sound codec last begun d)
    (hcrash : FileSystem.Crash d.fs fs) : Sound codec last begun ⟨fs, fun _ => []⟩ := by
  refine ⟨hcrash.valid h.valid, fun _ _ => rfl, fun entry hentry => ?_⟩
  rw [hcrash.since, List.mem_singleton] at hentry
  have hkept := h.kept entry (hentry ▸ hcrash.entries .path)
  refine ⟨?_, fun file _ => hcrash.synced file, fun _ _ => rfl⟩
  cases entry with
  | none => exact hkept.data
  | some file =>
    have hdata := hcrash.data file (hkept.synced file rfl)
    simpa only [Option.map_some, hdata] using hkept.data

end

section

variable {store : TokenStore} {codec : Codec} {split : List UInt8 → List (List UInt8)}
  {initial : Option (List UInt8)} {s s' : State}

/-- The contents of the file when no save has begun since the last one that returned `Ok`. -/
def State.lastSaved (codec : Codec) (initial : Option (List UInt8)) (s : State) :
    Option (List UInt8) :=
  match s.acked with
  | none => initial
  | some tokens => some (codec.toVecPretty tokens)

/-- The disk is sound, and the save that runs follows its protocol. -/
structure Inv (codec : Codec) (initial : Option (List UInt8)) (s : State) : Prop where
  sound : Sound codec (s.lastSaved codec initial) s.begun s.disk
  running : ∀ tokens m, s.running = some (tokens, m) → tokens ∈ s.begun ∧
    ∃ q, Prog.Follows Move Returns q m ∧ Progress (codec.toVecPretty tokens) s.disk q

theorem Sound.begin {last : Option (List UInt8)} {begun : List Tokens} {d : Disk}
    (h : Sound codec last begun d) (tokens : Tokens) : Sound codec last (tokens :: begun) d := by
  refine ⟨h.valid, h.quiet, fun entry hentry => ?_⟩
  obtain ⟨hdata, hsynced, hidle⟩ := h.kept entry hentry
  refine ⟨hdata.imp_right ?_, hsynced, hidle⟩
  rintro ⟨t, ht, hbytes⟩
  exact ⟨t, .tail _ ht, hbytes⟩

/-- A save that returns `Ok` leaves nothing else for a crash to bring back. -/
theorem Sound.returnOk {last : Option (List UInt8)} {begun : List Tokens} {d : Disk}
    {bytes b : List UInt8} (h : Sound codec last begun d)
    (hprogress : Progress bytes d (.saved b)) : Sound codec (some bytes) [] d := by
  obtain ⟨rfl, hread, hsince⟩ := hprogress
  refine ⟨h.valid, h.quiet, fun entry hentry => ?_⟩
  obtain ⟨_, hsynced, hidle⟩ := h.kept entry hentry
  rw [hsince, List.mem_singleton] at hentry
  subst hentry
  exact ⟨.inl hread, hsynced, hidle⟩

theorem Inv.step (hsplit : ∀ bytes, (split bytes).flatten = bytes) (h : Inv codec initial s)
    (hstep : Step store codec split s s') : Inv codec initial s' := by
  cases hstep with
  | begin tokens _ =>
    refine ⟨h.sound.begin tokens, fun t m hrunning => ?_⟩
    cases hrunning
    exact ⟨.head _, _, save_follows store codec hsplit tokens, rfl⟩
  | call hrunning hcall =>
    obtain ⟨hbegun, q, hfollows, hprogress⟩ := h.running _ _ hrunning
    obtain ⟨q', hmove, hk⟩ := hfollows _
    obtain ⟨hsound, hprogress⟩ := h.sound.call hbegun hprogress hmove hcall
    refine ⟨hsound, fun t m hnext => ?_⟩
    cases hnext
    exact ⟨hbegun, q', hk, hprogress⟩
  | fault err hrunning =>
    obtain ⟨hbegun, q, hfollows, hprogress⟩ := h.running _ _ hrunning
    obtain ⟨q', hmove, hk⟩ := hfollows (.error err)
    refine ⟨h.sound, fun t m hnext => ?_⟩
    cases hnext
    refine ⟨hbegun, q', hk, ?_⟩
    cases hmove with
    | removeMissing => exact hprogress
    | fail => exact trivial
  | write hwrite =>
    refine ⟨(h.sound.flush hwrite).1, fun t m hrunning => ?_⟩
    obtain ⟨hbegun, q, hfollows, hprogress⟩ := h.running t m hrunning
    exact ⟨hbegun, q, hfollows, (h.sound.flush hwrite).2 _ q hprogress⟩
  | returnOk hrunning =>
    obtain ⟨_, q, hfollows, hprogress⟩ := h.running _ _ hrunning
    refine ⟨?_, nofun⟩
    cases q with
    | saved b => exact h.sound.returnOk hprogress
    | _ => exact hfollows.elim
  | returnErr _ => exact ⟨h.sound, nofun⟩
  | kill => exact ⟨h.sound, nofun⟩
  | crash hcrash => exact ⟨h.sound.crash hcrash, nofun⟩

theorem Durable.inv {d : Disk} (h : Durable d) : Inv codec (d.fs.read .path) (start d) := by
  refine ⟨⟨h.valid, fun file _ => h.idle file, fun entry hentry => ?_⟩, nofun⟩
  rw [show (start d).disk = d from rfl, h.entry, List.mem_singleton] at hentry
  subst hentry
  exact ⟨.inl rfl, h.synced, fun file _ => h.idle file⟩

theorem Inv.recovers {d : Disk} (hreads : ∀ tokens, s.acked = some tokens ∨ tokens ∈ s.begun →
    codec.ReadsBack tokens) (h : Inv codec (d.fs.read .path) s) :
    Recovers store codec d s s.disk := by
  have hload : ∀ {t}, s.disk.fs.read .path = some (codec.toVecPretty t) → codec.ReadsBack t →
      load store codec (contents s.disk.fs) = .ok (some t) := by
    intro t hread hback
    rw [contents, hread, load, hback]
  obtain ⟨hdata, _, _⟩ := h.sound.kept _ (h.sound.valid.current .path)
  rcases hdata with hdata | ⟨tokens, hbegun, hdata⟩
  · left
    cases hacked : s.acked with
    | none =>
      rw [State.lastSaved, hacked] at hdata
      rw [settled, hacked, contents, contents, FileSystem.read, hdata]
    | some tokens =>
      rw [State.lastSaved, hacked] at hdata
      rw [settled, hacked]
      exact hload hdata (hreads tokens (.inl hacked))
  · exact .inr ⟨tokens, hbegun, hload hdata (hreads tokens (.inr hbegun))⟩

/-- **Crash atomicity and durability.** In every reachable state, and after a crash in it,
a load gives exactly the tokens of the last save that returned `Ok` (at first what the file
held) or of a save begun since. -/
theorem crash_recovers {d : Disk} (hdurable : Durable d)
    (hsplit : ∀ bytes, (split bytes).flatten = bytes)
    (hreach : Relation.ReflTransGen (Step store codec split) (start d) s)
    (hreads : ∀ tokens, s.acked = some tokens ∨ tokens ∈ s.begun → codec.ReadsBack tokens) :
    Recovers store codec d s s.disk ∧
      ∀ fs, FileSystem.Crash s.disk.fs fs → Recovers store codec d s ⟨fs, fun _ => []⟩ := by
  have hinv : ∀ {t}, Relation.ReflTransGen (Step store codec split) (start d) t →
      Inv codec (d.fs.read .path) t := by
    intro t ht
    induction ht with
    | refl => exact hdurable.inv
    | tail _ hstep ih => exact ih.step hsplit hstep
  refine ⟨(hinv hreach).recovers hreads, fun fs hcrash => ?_⟩
  have hcrashed := hinv (hreach.tail (.crash hcrash))
  exact Inv.recovers (s := ⟨⟨fs, fun _ => []⟩, none, s.acked, s.begun⟩) hreads hcrashed

/-- A crash has left one byte of the new file, and the old entries on disk. -/
def crashedFs : FileSystem Name where
  entries
    | .path => some 0
    | .tmp => some 1
  since
    | .path => [some 0]
    | .tmp => [some 1]
  files := Function.update (fun _ => ⟨prettyJson initialTokens, true⟩) 1 ⟨[123], true⟩
  nextInode := 2

theorem crashedFs_files {file : Inode} (h : file ≠ 1) :
    crashedFs.files file = ⟨prettyJson initialTokens, true⟩ := by
  simp [crashedFs, h]

theorem crashedFs_crash :
    FileSystem.Crash ((Disk.holding initialTokens).fs.create .tmp) crashedFs := by
  refine ⟨?_, ?_, fun file hsynced => ?_, fun file => ?_, rfl⟩
  · rintro (_ | _)
    · exact .head _
    · exact .head _
  · rintro (_ | _) <;> rfl
  · by_cases hfile : file = 1
    · subst hfile
      cases hsynced
    · rw [FileSystem.files_create_of_ne hfile, crashedFs_files hfile]
      rfl
  · by_cases hfile : file = 1
    · subst hfile
      rfl
    · rw [crashedFs_files hfile]

/-- A crash in the middle of a save; then a save over its temporary file, which returns
`Ok`. Whatever crashes after it, its tokens are loaded. -/
theorem crash_recovers_stale : ∃ s,
    Relation.ReflTransGen (Step sampleStore sampleCodec fun bytes => [bytes])
      (start (Disk.holding initialTokens)) s ∧
    s.acked = some loginTokens ∧ s.begun = [] ∧
    Recovers sampleStore sampleCodec (Disk.holding initialTokens) s s.disk ∧
      ∀ fs, FileSystem.Crash s.disk.fs fs →
        Recovers sampleStore sampleCodec (Disk.holding initialTokens) s ⟨fs, fun _ => []⟩ := by
  have h₀ : Relation.ReflTransGen (Step sampleStore sampleCodec fun bytes => [bytes])
      (start (Disk.holding initialTokens)) _ := .refl
  have h₁ := h₀.tail (.begin refreshedTokens rfl)
  have h₂ := h₁.tail (.call rfl .createDirAll)
  have h₃ := h₂.tail (.call rfl (.removeMissing rfl))
  have h₄ := h₃.tail (.call rfl (.createNew rfl))
  have h₅ := h₄.tail (.call rfl (.write rfl))
  have h₆ := h₅.tail (.crash crashedFs_crash)
  have h₇ := h₆.tail (.begin loginTokens rfl)
  have h₈ := h₇.tail (.call rfl .createDirAll)
  have h₉ := h₈.tail (.call rfl (.removeFile nofun))
  have h₁₀ := h₉.tail (.call rfl (.createNew rfl))
  have h₁₁ := h₁₀.tail (.call rfl (.write rfl))
  have h₁₂ := h₁₁.tail (.write (.all 2 (prettyJson_ne_nil loginTokens)))
  have h₁₃ := h₁₂.tail (.call rfl (.syncAll rfl))
  have h₁₄ := h₁₃.tail (.call rfl (.rename nofun))
  have h₁₅ := h₁₄.tail (.call rfl .openDir)
  have h₁₆ := h₁₅.tail (.call rfl .syncDir)
  have h₁₇ := h₁₆.tail (.returnOk rfl)
  refine ⟨_, h₁₇, rfl, rfl, crash_recovers ⟨Disk.holding_valid _, rfl, fun _ _ => rfl,
    fun _ => rfl⟩ (fun _ => List.append_nil _) h₁₇ fun tokens htokens => ?_⟩
  rcases htokens with htokens | htokens
  · cases htokens
    exact readsBack_sample loginTokens (by simp)
  · cases htokens

end

end Crashes

end Rsc.Auth.TokenStore

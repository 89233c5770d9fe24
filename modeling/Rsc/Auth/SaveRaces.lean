import Rsc.Auth.TokenStore
import Rsc.Library.Pool

/-!
Any number of saves to one path at once. They share the temporary name, so a save may
rename the half-written file of another one onto the token file (`save_truncates`). The
token file stays complete as long as every rename finds the temporary name missing or
still on the file that the same save created.
-/

namespace Rsc.Auth.TokenStore

open Rsc.Library

namespace Races

/-! ## The system -/

/-- The disk, the file each save created, and what the renames put at the path. -/
structure World (ι : Type) where
  disk : Disk
  own : ι → Option Inode
  seen : List (List UInt8)

variable {ι : Type} [DecidableEq ι]

/-- The file a save created, after a call. -/
def created (own : ι → Option Inode) (i : ι) : (op : Op) → Ans op → ι → Option Inode
  | .createNew _, .ok file => Function.update own i (some file)
  | _, _ => own

/-- The contents of the path, after a call. -/
def shown (d : Disk) (seen : List (List UInt8)) : (op : Op) → Ans op → List (List UInt8)
  | .rename _ _, .ok _ => (d.fs.read .path).toList ++ seen
  | _, _ => seen

/-- A call of one save. -/
structure Effect (i : ι) (w : World ι) (op : Op) (ans : Ans op) (w' : World ι) : Prop where
  call : Syscall w.disk op ans w'.disk
  own : w'.own = created w.own i op ans
  seen : w'.seen = shown w'.disk w.seen op ans

theorem Effect.ofCall {i : ι} {w : World ι} {op : Op} {ans : Ans op} {d : Disk}
    (hcall : Syscall w.disk op ans d) :
    Effect i w op ans ⟨d, created w.own i op ans, shown d w.seen op ans⟩ := ⟨hcall, rfl, rfl⟩

/-- The background writes of all saves. -/
def Writes (w w' : World ι) : Prop := ∃ disk, Background w.disk disk ∧ w' = { w with disk := disk }

omit [DecidableEq ι] in
theorem Writes.all {w : World ι} (file : Inode) (hne : w.disk.pending file ≠ []) :
    Writes w { w with
      disk := ⟨w.disk.fs.append file (w.disk.pending file),
        Function.update w.disk.pending file []⟩ } :=
  ⟨_, .all file hne, rfl⟩

/-- A rename finds the temporary name missing, or on the file its own save created. -/
def InTurn (i : ι) (w : World ι) : Op → Prop
  | .rename _ _ => w.disk.fs.entries .tmp = none ∨ w.disk.fs.entries .tmp = w.own i
  | _ => True

section

variable (store : TokenStore) (codec : Codec) (split : List UInt8 → List (List UInt8))
  (init : Option Tokens) (tokens : ι → Tokens)

/-- No save has begun: the path holds the initial tokens, the temporary name anything. -/
structure Start (w : World ι) : Prop where
  valid : w.disk.fs.Valid
  path : w.disk.fs.read .path = init.map codec.toVecPretty
  idle : ∀ file, w.disk.pending file = []
  own : ∀ i, w.own i = none
  seen : w.seen = []

/-- The file at the path is complete; it is missing only until the first rename. -/
def Intact (w : World ι) : Prop :=
  match w.disk.fs.read .path with
  | none => init = none ∧ w.seen = []
  | some bytes => init.map codec.toVecPretty = some bytes ∨ ∃ i, codec.toVecPretty (tokens i) = bytes

/-- A load gives the initial tokens, or those of a save. -/
def Loads (w : World ι) : Prop :=
  ∃ loaded, load store codec (contents w.disk.fs) = .ok loaded ∧
    (loaded = init ∨ ∃ i, loaded = some (tokens i))

/-- The file is intact, loads give the tokens in it, and every save that returned `Ok` had
its own tokens there. -/
def Safe (p : Pool (World ι) ι Ans (Except Error Unit)) : Prop :=
  Intact codec init tokens p.shared ∧ Loads store codec init tokens p.shared ∧
    ∀ i, p.tasks i = .ret (.ok ()) → codec.toVecPretty (tokens i) ∈ p.shared.seen

end

/-! ## The truncated file -/

/-- Two saves: one of a refresh and one of a login. -/
def sampleTokens : Bool → Tokens
  | true => refreshedTokens
  | false => loginTokens

def sampleWorld : World Bool := ⟨Disk.holding initialTokens, fun _ => none, []⟩

/-- A save that writes its data in one chunk. -/
def sampleSave (i : Bool) : Prog Ans (Except Error Unit) :=
  save sampleStore sampleCodec (fun bytes => [bytes]) (sampleTokens i)

/-- **The truncated file.** One save has written its data; the other removes that file and
creates its own; the first one renames the new empty file onto the path and returns `Ok`. -/
theorem save_truncates : ∃ tr p,
    Pool.Run Effect Writes ⟨sampleWorld, sampleSave⟩ tr p ∧
      p.tasks true = .ret (.ok ()) ∧ p.shared.disk.fs.read .path = some [] ∧
      load sampleStore sampleCodec (contents p.shared.disk.fs) =
        .error "tokens.json is not a valid token file: EOF while parsing a value at line 1 column 0" ∧
      ¬ Safe sampleStore sampleCodec (some initialTokens) sampleTokens p := by
  have h₀ : Pool.Run Effect Writes ⟨sampleWorld, sampleSave⟩ [] _ := .start
  have h₁ := h₀.step (.task (i := true) rfl (.ofCall .createDirAll))
  have h₂ := h₁.step (.task (i := true) rfl (.ofCall (.removeMissing rfl)))
  have h₃ := h₂.step (.task (i := true) rfl (.ofCall (.createNew rfl)))
  have h₄ := h₃.step (.task (i := true) rfl (.ofCall (.write rfl)))
  have h₅ := h₄.step (.env (.all 1 (prettyJson_ne_nil refreshedTokens)))
  have h₆ := h₅.step (.task (i := true) rfl (.ofCall (.syncAll rfl)))
  have h₇ := h₆.step (.task (i := false) rfl (.ofCall .createDirAll))
  have h₈ := h₇.step (.task (i := false) rfl (.ofCall (.removeFile nofun)))
  have h₉ := h₈.step (.task (i := false) rfl (.ofCall (.createNew rfl)))
  have h₁₀ := h₉.step (.task (i := true) rfl (.ofCall (.rename nofun)))
  have h₁₁ := h₁₀.step (.task (i := true) rfl (.ofCall .openDir))
  have h₁₂ := h₁₁.step (.task (i := true) rfl (.ofCall .syncDir))
  refine ⟨_, _, h₁₂, rfl, rfl, ?_, fun hsafe => ?_⟩
  · change load sampleStore sampleCodec (.ok []) = _
    exact load_truncated (by decide)
  · obtain ⟨hinit | ⟨i, hi⟩, _⟩ := hsafe
    · exact prettyJson_ne_nil initialTokens (Option.some.inj hinit)
    · exact prettyJson_ne_nil (sampleTokens i) hi

/-! ## The invariant -/

section

variable (codec : Codec) (init : Option Tokens) (tokens : ι → Tokens)

/-- What is known of the save of `bytes` in a phase. -/
def Progress (bytes : List UInt8) (w : World ι) (i : ι) : Phase → Prop
  | .starting b | .cleaning b | .creating b => b = bytes ∧ w.own i = none
  | .writing b file rest => b = bytes ∧ w.own i = some file ∧
      (w.disk.fs.files file).data ++ w.disk.pending file ++ rest = b
  | .synced b file => b = bytes ∧ w.own i = some file ∧ (w.disk.fs.files file).data = b ∧
      w.disk.pending file = []
  | .renamed b | .opened b | .saved b => b = bytes ∧ b ∈ w.seen
  | .failed => True

def Writing : Phase → Prop
  | .writing .. => True
  | _ => False

/-- A complete file that is no longer written to: the initial one, or one of a save. -/
def Complete (w : World ι) (g : ι → Phase) (file : Inode) : Prop :=
  w.disk.pending file = [] ∧
    ((init.map codec.toVecPretty = some (w.disk.fs.files file).data ∧ ∀ i, w.own i ≠ some file) ∨
      ∃ i, w.own i = some file ∧ codec.toVecPretty (tokens i) = (w.disk.fs.files file).data ∧
        ¬ Writing (g i))

structure Inv (w : World ι) (g : ι → Phase) : Prop where
  valid : w.disk.fs.Valid
  quiet : ∀ file, w.disk.fs.nextInode ≤ file → w.disk.pending file = []
  fresh : ∀ i file, w.own i = some file → file < w.disk.fs.nextInode
  apart : ∀ i j file, w.own i = some file → w.own j = some file → i = j
  unseen : w.disk.fs.entries .path = none → init = none ∧ w.seen = []
  path : ∀ file, w.disk.fs.entries .path = some file → Complete codec init tokens w g file
  tasks : ∀ i, Progress (codec.toVecPretty (tokens i)) w i (g i)

variable {codec init tokens} {w : World ι} {g : ι → Phase} {i : ι} {p : Phase}

theorem Inv.tasks_update {disk : Disk} {own : ι → Option Inode} {seen : List (List UInt8)}
    (h : Inv codec init tokens w g)
    (hother : ∀ j, j ≠ i → Progress (codec.toVecPretty (tokens j)) w j (g j) →
      Progress (codec.toVecPretty (tokens j)) ⟨disk, own, seen⟩ j (g j))
    (hself : Progress (codec.toVecPretty (tokens i)) ⟨disk, own, seen⟩ i p) (j : ι) :
    Progress (codec.toVecPretty (tokens j)) ⟨disk, own, seen⟩ j (Function.update g i p j) := by
  by_cases hj : j = i
  · subst hj
    rwa [Function.update_self]
  · rw [Function.update_of_ne hj]
    exact hother j hj (h.tasks j)

/-- A call that leaves the path, the contents of the files and the handles alone. -/
theorem Inv.keep {fs : FileSystem Name} (h : Inv codec init tokens w g) (hvalid : fs.Valid)
    (hpath : fs.entries .path = w.disk.fs.entries .path)
    (hdata : ∀ file, (fs.files file).data = (w.disk.fs.files file).data)
    (hnext : fs.nextInode = w.disk.fs.nextInode) (hp : ¬ Writing p)
    (hself : Progress (codec.toVecPretty (tokens i)) w i p) :
    Inv codec init tokens ⟨⟨fs, w.disk.pending⟩, w.own, w.seen⟩ (Function.update g i p) := by
  have hsame : ∀ j q, Progress (codec.toVecPretty (tokens j)) w j q →
      Progress (codec.toVecPretty (tokens j)) ⟨⟨fs, w.disk.pending⟩, w.own, w.seen⟩ j q := by
    intro j q hq
    cases q <;> simp only [Progress, hdata] at hq ⊢ <;> exact hq
  refine ⟨hvalid, ?_, ?_, h.apart, ?_, ?_, ?_⟩
  · exact fun file hfile => h.quiet file (hnext ▸ hfile)
  · exact fun j file hfile => hnext ▸ h.fresh j file hfile
  · exact fun hnone => h.unseen (hpath ▸ hnone)
  · intro file hfile
    obtain ⟨hpending, hfile⟩ := h.path file (hpath ▸ hfile)
    refine ⟨hpending, ?_⟩
    simp only [hdata]
    apply hfile.imp_right
    rintro ⟨j, hown, hbytes, hj⟩
    refine ⟨j, hown, hbytes, ?_⟩
    by_cases hji : j = i
    · subst hji
      rwa [Function.update_self]
    · rwa [Function.update_of_ne hji]
  · exact h.tasks_update (fun j _ => hsame j _) (hsame i p hself)

omit [DecidableEq ι] in
/-- The file at the path is not one that a save still writes to. -/
theorem Inv.path_ne (h : Inv codec init tokens w g) {at_path file : Inode} {bytes rest : List UInt8}
    (hpath : w.disk.fs.entries .path = some at_path) (hwriting : g i = .writing bytes file rest) :
    at_path ≠ file := by
  rintro rfl
  have hprogress := h.tasks i
  rw [hwriting] at hprogress
  obtain ⟨_, hother | ⟨j, hj, _, hdone⟩⟩ := h.path _ hpath
  · exact hother.2 i hprogress.2.1
  · obtain rfl := h.apart i j _ hprogress.2.1 hj
    rw [hwriting] at hdone
    exact hdone trivial

theorem Inv.createNew {bytes : List UInt8} (h : Inv codec init tokens w g)
    (hcreating : g i = .creating bytes) :
    Inv codec init tokens
      ⟨⟨w.disk.fs.create .tmp, w.disk.pending⟩,
        Function.update w.own i (some w.disk.fs.nextInode), w.seen⟩
      (Function.update g i (.writing bytes w.disk.fs.nextInode bytes)) := by
  have hprogress := h.tasks i
  rw [hcreating] at hprogress
  obtain ⟨rfl, hnone⟩ := hprogress
  have hold : ∀ file, file < w.disk.fs.nextInode →
      (w.disk.fs.create .tmp).files file = w.disk.fs.files file :=
    fun file hlt => FileSystem.files_create_of_ne (Nat.ne_of_lt hlt)
  have hkept : ∀ j, j ≠ i →
      Function.update w.own i (some w.disk.fs.nextInode) j = w.own j :=
    fun j hj => Function.update_of_ne hj _ _
  -- a file is either the new one or was owned before
  have howned : ∀ j file, Function.update w.own i (some w.disk.fs.nextInode) j = some file →
      (j = i ∧ file = w.disk.fs.nextInode) ∨
        (j ≠ i ∧ w.own j = some file ∧ file < w.disk.fs.nextInode) := by
    intro j file hown
    by_cases hj : j = i
    · subst hj
      rw [Function.update_self] at hown
      exact .inl ⟨rfl, (Option.some.inj hown).symm⟩
    · rw [hkept j hj] at hown
      exact .inr ⟨hj, hown, h.fresh j file hown⟩
  refine ⟨h.valid.create, fun file hle => h.quiet file (Nat.le_of_succ_le hle), ?_, ?_, h.unseen,
    ?_, ?_⟩
  · intro j file hown
    rcases howned j file hown with ⟨_, rfl⟩ | ⟨_, _, hlt⟩
    · exact Nat.lt_succ_self _
    · exact Nat.lt_succ_of_lt hlt
  · intro j k file hj hk
    rcases howned j file hj with ⟨rfl, rfl⟩ | ⟨_, hj, hlt⟩ <;>
      rcases howned k _ hk with ⟨rfl, hfile⟩ | ⟨_, hk, hlt'⟩
    · rfl
    · exact absurd hlt' (Nat.lt_irrefl _)
    · exact absurd hfile (Nat.ne_of_lt hlt)
    · exact h.apart j k file hj hk
  · intro file hfile
    have hlt : file < w.disk.fs.nextInode := h.valid.lt hfile
    obtain ⟨hpending, hcomplete⟩ := h.path file hfile
    refine ⟨hpending, ?_⟩
    simp only [hold file hlt]
    rcases hcomplete with ⟨hbytes, hother⟩ | ⟨j, hown, hbytes, hdone⟩
    · refine .inl ⟨hbytes, fun j hown => ?_⟩
      rcases howned j file hown with ⟨_, hfile⟩ | ⟨_, hown, _⟩
      · exact Nat.ne_of_lt hlt hfile
      · exact hother j hown
    · have hj : j ≠ i := by
        rintro rfl
        rw [hnone] at hown
        cases hown
      exact .inr ⟨j, (hkept j hj).trans hown, hbytes, by rwa [Function.update_of_ne hj]⟩
  · refine h.tasks_update (fun j hj hq => ?_) ?_
    · generalize g j = q at hq
      cases q with
      | writing b file rest =>
        obtain ⟨hb, hown, hdata⟩ := hq
        rw [← hold file (h.fresh j file hown)] at hdata
        exact ⟨hb, (hkept j hj).trans hown, hdata⟩
      | synced b file =>
        obtain ⟨hb, hown, hdata, hpending⟩ := hq
        rw [← hold file (h.fresh j file hown)] at hdata
        exact ⟨hb, (hkept j hj).trans hown, hdata, hpending⟩
      | starting b => exact ⟨hq.1, (hkept j hj).trans hq.2⟩
      | cleaning b => exact ⟨hq.1, (hkept j hj).trans hq.2⟩
      | creating b => exact ⟨hq.1, (hkept j hj).trans hq.2⟩
      | _ => exact hq
    · refine ⟨rfl, Function.update_self .., ?_⟩
      simp [h.quiet _ (Nat.le_refl _)]

/-- A chunk is handed over: it goes to a file that is not at the path. -/
theorem Inv.write {bytes chunk rest : List UInt8} {file : Inode} (h : Inv codec init tokens w g)
    (hwriting : g i = .writing bytes file (chunk ++ rest)) (hidle : w.disk.pending file = []) :
    Inv codec init tokens
      ⟨⟨w.disk.fs, Function.update w.disk.pending file chunk⟩, w.own, w.seen⟩
      (Function.update g i (.writing bytes file rest)) := by
  have hprogress := h.tasks i
  rw [hwriting] at hprogress
  obtain ⟨rfl, hown, hdata⟩ := hprogress
  have hkept : ∀ other, other ≠ file →
      Function.update w.disk.pending file chunk other = w.disk.pending other :=
    fun other hne => Function.update_of_ne hne _ _
  refine ⟨h.valid, fun other hle => ?_, h.fresh, h.apart, h.unseen, fun other hpath => ?_, ?_⟩
  · have hlt := h.fresh i file hown
    exact (hkept other (Nat.ne_of_gt (Nat.lt_of_lt_of_le hlt hle))).trans (h.quiet other hle)
  · obtain ⟨hpending, hcomplete⟩ := h.path other hpath
    refine ⟨(hkept other (h.path_ne hpath hwriting)).trans hpending, hcomplete.imp_right ?_⟩
    rintro ⟨j, hj, hbytes, hdone⟩
    have hji : j ≠ i := by
      rintro rfl
      rw [hwriting] at hdone
      exact hdone trivial
    exact ⟨j, hj, hbytes, by rwa [Function.update_of_ne hji]⟩
  · refine h.tasks_update (fun j hj hq => ?_) ?_
    · have hne : ∀ other, w.own j = some other → other ≠ file := by
        rintro other hother rfl
        exact hj (h.apart j i _ hother hown)
      generalize g j = q at hq
      cases q with
      | writing b other rest' =>
        obtain ⟨hb, hother, hbytes⟩ := hq
        rw [← hkept other (hne other hother)] at hbytes
        exact ⟨hb, hother, hbytes⟩
      | synced b other =>
        obtain ⟨hb, hother, hbytes, hpending⟩ := hq
        exact ⟨hb, hother, hbytes, (hkept other (hne other hother)).trans hpending⟩
      | _ => exact hq
    · refine ⟨rfl, hown, ?_⟩
      rw [hidle] at hdata
      simpa using hdata

/-- A rename in turn puts the complete file of its own save at the path. -/
theorem Inv.rename {bytes : List UInt8} {file : Inode} (h : Inv codec init tokens w g)
    (hsynced : g i = .synced bytes file) (htmp : w.disk.fs.entries .tmp = w.own i) :
    Inv codec init tokens
      ⟨⟨w.disk.fs.rename .tmp .path, w.disk.pending⟩, w.own,
        ((w.disk.fs.rename .tmp .path).read .path).toList ++ w.seen⟩
      (Function.update g i (.renamed bytes)) := by
  have hprogress := h.tasks i
  rw [hsynced] at hprogress
  obtain ⟨rfl, hown, hdata, hpending⟩ := hprogress
  have hentry : (w.disk.fs.rename .tmp .path).entries .path = some file := by
    rw [FileSystem.entries_rename_target (by decide), htmp, hown]
  have hread : (w.disk.fs.rename .tmp .path).read .path = some (codec.toVecPretty (tokens i)) := by
    rw [FileSystem.read, hentry, ← hdata]
    rfl
  rw [hread]
  refine ⟨h.valid.rename, h.quiet, h.fresh, h.apart, fun hnone => ?_, fun other hother => ?_, ?_⟩
  · rw [hentry] at hnone
    cases hnone
  · rw [hentry] at hother
    cases hother
    exact ⟨hpending, .inr ⟨i, hown, hdata.symm, by rw [Function.update_self]; exact id⟩⟩
  · refine h.tasks_update (fun j hj hq => ?_) ⟨rfl, .head _⟩
    generalize g j = q at hq
    cases q with
    | renamed b => exact ⟨hq.1, .tail _ hq.2⟩
    | opened b => exact ⟨hq.1, .tail _ hq.2⟩
    | saved b => exact ⟨hq.1, .tail _ hq.2⟩
    | _ => exact hq

omit [DecidableEq ι] in
/-- A background write goes to a file that is not at the path. -/
theorem Inv.flush {w' : World ι} (h : Inv codec init tokens w g) (hwrites : Writes w w') :
    Inv codec init tokens w' g := by
  obtain ⟨_, ⟨hne, hbytes⟩, rfl⟩ := hwrites
  rename_i file bytes rest
  have hbusy : w.disk.pending file ≠ [] := by simp [hbytes, hne]
  have hkept : ∀ other, other ≠ file →
      Function.update w.disk.pending file rest other = w.disk.pending other :=
    fun other hne => Function.update_of_ne hne _ _
  have hidle : ∀ other, w.disk.pending other = [] → other ≠ file := by
    rintro other hother rfl
    exact hbusy hother
  refine ⟨h.valid.append, fun other hle => ?_, h.fresh, h.apart, h.unseen, fun other hpath => ?_, ?_⟩
  · have hquiet := h.quiet other hle
    exact (hkept other (hidle other hquiet)).trans hquiet
  · have hcomplete := h.path other hpath
    have hother := hidle other hcomplete.1
    simp only [Complete, hkept other hother, FileSystem.files_append_of_ne hother]
    exact hcomplete
  · intro j
    have hq := h.tasks j
    generalize g j = q at hq
    cases q with
    | writing b other rest' =>
      obtain ⟨hb, hown, hdata⟩ := hq
      refine ⟨hb, hown, ?_⟩
      by_cases hother : other = file
      · subst hother
        rw [hbytes] at hdata
        simpa using hdata
      · rw [← hkept other hother, ← FileSystem.files_append_of_ne hother] at hdata
        exact hdata
    | synced b other =>
      obtain ⟨hb, hown, hdata, hpending⟩ := hq
      have hother := hidle other hpending
      rw [← FileSystem.files_append_of_ne hother] at hdata
      exact ⟨hb, hown, hdata, (hkept other hother).trans hpending⟩
    | _ => exact hq

theorem Inv.step {w' : World ι} {op : Op} {ans : Ans op} (h : Inv codec init tokens w g)
    (hmove : Move (g i) op ans p) (heffect : Effect i w op ans w') (hturn : InTurn i w op) :
    Inv codec init tokens w' (Function.update g i p) := by
  obtain ⟨disk', own', seen'⟩ := w'
  obtain ⟨hcall, hown, hseen⟩ := heffect
  dsimp only at hcall hown hseen
  subst hown hseen
  have hprogress := h.tasks i
  generalize hphase : g i = q at hmove hprogress
  cases hmove with
  | createDirAll =>
    cases hcall
    exact h.keep h.valid rfl (fun _ => rfl) rfl id hprogress
  | removeFile =>
    cases hcall
    exact h.keep h.valid.unlink rfl (fun _ => rfl) rfl id hprogress
  | removeMissing =>
    cases hcall
    exact h.keep h.valid rfl (fun _ => rfl) rfl id hprogress
  | createNew =>
    cases hcall
    exact h.createNew hphase
  | write =>
    cases hcall with
    | write hidle => exact h.write hphase hidle
  | syncAll =>
    cases hcall with
    | syncAll hidle =>
      obtain ⟨hb, hown, hdata⟩ := hprogress
      exact h.keep h.valid.sync rfl (fun _ => FileSystem.data_sync) rfl id
        ⟨hb, hown, by simpa [hidle] using hdata, hidle⟩
  | rename =>
    cases hcall with
    | rename htmp => exact h.rename hphase (hturn.resolve_left htmp)
  | openDir =>
    cases hcall
    exact h.keep h.valid rfl (fun _ => rfl) rfl id hprogress
  | syncDir =>
    cases hcall
    exact h.keep h.valid.syncDir rfl (fun _ => rfl) rfl id hprogress
  | fail =>
    cases hcall <;> exact h.keep h.valid rfl (fun _ => rfl) rfl id trivial

variable {store : TokenStore} {split : List UInt8 → List (List UInt8)}

omit [DecidableEq ι] in
theorem Inv.intact (h : Inv codec init tokens w g) : Intact codec init tokens w := by
  rw [Intact, FileSystem.read]
  cases hpath : w.disk.fs.entries .path with
  | none => exact h.unseen hpath
  | some file =>
    obtain ⟨_, ⟨hbytes, _⟩ | ⟨i, _, hbytes, _⟩⟩ := h.path file hpath
    · exact .inl hbytes
    · exact .inr ⟨i, hbytes⟩

omit [DecidableEq ι] in
theorem Intact.loads (hinit : ∀ t, init = some t → codec.ReadsBack t)
    (hreads : ∀ i, codec.ReadsBack (tokens i)) (h : Intact codec init tokens w) :
    Loads store codec init tokens w := by
  have hload : ∀ bytes t, codec.toVecPretty t = bytes → codec.ReadsBack t →
      load store codec (.ok bytes) = .ok (some t) := by
    rintro _ t rfl hback
    rw [load, hback]
  rw [Intact] at h
  rw [Loads, contents]
  cases hread : w.disk.fs.read .path with
  | none =>
    rw [hread] at h
    exact ⟨none, rfl, .inl h.1.symm⟩
  | some bytes =>
    rw [hread] at h
    rcases h with h | ⟨i, hbytes⟩
    · obtain ⟨t, rfl, hbytes⟩ := Option.map_eq_some_iff.mp h
      exact ⟨some t, hload _ _ hbytes (hinit t rfl), .inl rfl⟩
    · exact ⟨_, hload _ _ hbytes (hreads i), .inr ⟨i, rfl⟩⟩

omit [DecidableEq ι] in
theorem Start.inv (h : Start codec init w) :
    Inv codec init tokens w fun i => .starting (codec.toVecPretty (tokens i)) := by
  have hnone : ∀ i file, w.own i ≠ some file := fun i file hown => by
    rw [h.own i] at hown
    cases hown
  have hpath := h.path
  refine ⟨h.valid, fun file _ => h.idle file, fun i file hown => absurd hown (hnone i file),
    fun i _ file hown => absurd hown (hnone i file), fun hentry => ⟨?_, h.seen⟩,
    fun file hentry => ⟨h.idle file, .inl ⟨?_, fun i => hnone i file⟩⟩, fun i => ⟨rfl, h.own i⟩⟩
  · rw [FileSystem.read, hentry] at hpath
    exact Option.map_eq_none_iff.mp hpath.symm
  · rw [FileSystem.read, hentry] at hpath
    exact hpath.symm

/-- **Safe saves.** In every run whose renames are in turn, the file at the path is
complete at every moment, it is loaded, and a save that returns `Ok` had its tokens there. -/
theorem saves_safe (hsplit : ∀ bytes, (split bytes).flatten = bytes)
    (hinit : ∀ t, init = some t → codec.ReadsBack t) (hreads : ∀ i, codec.ReadsBack (tokens i))
    (hstart : Start codec init w) {tr : List (Option ι)}
    {p : Pool (World ι) ι Ans (Except Error Unit)}
    (hrun : Pool.Run (fun i w op ans w' => Effect i w op ans w' ∧ InTurn i w op) Writes
      ⟨w, fun i => save store codec split (tokens i)⟩ tr p) :
    Safe store codec init tokens p := by
  obtain ⟨g, hfollows, hinv⟩ := hrun.invariant (Q := Returns) (I := Inv codec init tokens)
    (fun i => save_follows store codec hsplit (tokens i)) hstart.inv
    (fun _ _ _ _ _ _ _ hI hmove heffect => hI.step hmove heffect.1 heffect.2)
    (fun _ _ _ hI hwrites => hI.flush hwrites)
  refine ⟨hinv.intact, hinv.intact.loads hinit hreads, fun i hreturned => ?_⟩
  have hf := hfollows i
  have hprogress := hinv.tasks i
  rw [hreturned] at hf
  generalize g i = q at hf hprogress
  cases q with
  | saved b => exact hprogress.1 ▸ hprogress.2
  | _ => exact hf.elim

/-- Two saves, the second of which begins to write before the first one has returned. -/
theorem saves_safe_inTurn : ∃ tr p,
    Pool.Run (fun i w op ans w' => Effect i w op ans w' ∧ InTurn i w op) Writes
      ⟨sampleWorld, sampleSave⟩ tr p ∧
      p.tasks true = .ret (.ok ()) ∧ p.shared.disk.fs.entries .tmp ≠ none ∧
      Safe sampleStore sampleCodec (some initialTokens) sampleTokens p := by
  have h₀ : Pool.Run (fun i w op ans w' => Effect i w op ans w' ∧ InTurn i w op) Writes
      ⟨sampleWorld, sampleSave⟩ [] _ := .start
  have h₁ := h₀.step (.task (i := true) rfl ⟨.ofCall .createDirAll, trivial⟩)
  have h₂ := h₁.step (.task (i := true) rfl ⟨.ofCall (.removeMissing rfl), trivial⟩)
  have h₃ := h₂.step (.task (i := true) rfl ⟨.ofCall (.createNew rfl), trivial⟩)
  have h₄ := h₃.step (.task (i := true) rfl ⟨.ofCall (.write rfl), trivial⟩)
  have h₅ := h₄.step (.env (.all 1 (prettyJson_ne_nil refreshedTokens)))
  have h₆ := h₅.step (.task (i := true) rfl ⟨.ofCall (.syncAll rfl), trivial⟩)
  have h₇ := h₆.step (.task (i := true) rfl ⟨.ofCall (.rename nofun), .inr rfl⟩)
  have h₈ := h₇.step (.task (i := false) rfl ⟨.ofCall .createDirAll, trivial⟩)
  have h₉ := h₈.step (.task (i := false) rfl ⟨.ofCall (.removeMissing rfl), trivial⟩)
  have h₁₀ := h₉.step (.task (i := false) rfl ⟨.ofCall (.createNew rfl), trivial⟩)
  have h₁₁ := h₁₀.step (.task (i := true) rfl ⟨.ofCall .openDir, trivial⟩)
  have h₁₂ := h₁₁.step (.task (i := true) rfl ⟨.ofCall .syncDir, trivial⟩)
  refine ⟨_, _, h₁₂, rfl, nofun, saves_safe (fun _ => List.append_nil _) (fun t ht => ?_)
    (fun i => ?_) ⟨Disk.holding_valid _, rfl, fun _ => rfl, fun _ => rfl, rfl⟩ h₁₂⟩
  · cases ht
    exact readsBack_sample initialTokens (by simp)
  · cases i with
    | true => exact readsBack_sample refreshedTokens (by simp)
    | false => exact readsBack_sample loginTokens (by simp)

end

end Races

end Rsc.Auth.TokenStore

import Rsc.Auth.Manager
import Rsc.Auth.TokenStore
import Mathlib.Data.Nat.Find

/-!
One save alone, with calls that fail. A failure of the last background write is reported
by nobody: the save renames the truncated file onto the token file and returns `Ok`
(`save_truncated`). Every other failure is returned, and leaves the token file as it was.
-/

namespace Rsc.Auth

open Rsc.Library

/-! ## Failed saves in the manager -/

/-- A failed save takes the protocol to its message; after it only the lock is dropped. -/
inductive SaveFails : Prog.Protocol Ans (Option String)
  | failed {tokens : Tokens} {msg : String} :
      SaveFails none (.save tokens) (.error msg) (some msg)
  | saved {tokens : Tokens} : SaveFails none (.save tokens) (.ok ()) none
  | other {op : Op} {ans : Ans op} (h : ∀ tokens, op ≠ .save tokens) : SaveFails none op ans none
  | unlock {msg : String} : SaveFails (some msg) .unlock () (some msg)

/-- After a failed save a call returns `Storage`. -/
def ReturnsStorage {α : Type} (failed : Option String) (out : Outcome α) : Prop :=
  ∀ msg, failed = some msg → out = .err (.storage msg)

/-- The lock is dropped after a failed save too. -/
theorem withLock_saveFails {α : Type} {body : Call α}
    (h : Prog.Follows SaveFails ReturnsStorage none body) :
    Prog.Follows SaveFails ReturnsStorage none (Call.withLock body) := by
  refine fun _ => ⟨_, .other nofun, h.bind fun failed out hout _ => ?_⟩
  cases failed with
  | none => exact ⟨_, .other nofun, hout⟩
  | some msg => exact ⟨_, .unlock, hout⟩

/-- The save with which a call ends. -/
theorem saves_saveFails {α : Type} {fresh : Tokens} {a : α}
    {k : Except String Unit → Prog Ans (Outcome α)}
    (herror : ∀ err, k (.error err) = .ret (.err (.storage err)))
    (hok : k (.ok ()) = .ret (.ok a)) :
    Prog.Follows SaveFails ReturnsStorage none (.perform (.save fresh) k) := by
  intro saved
  cases saved with
  | error msg =>
    refine ⟨_, .failed, ?_⟩
    rw [herror]
    rintro _ ⟨⟩
    rfl
  | ok _ =>
    refine ⟨_, .saved, ?_⟩
    rw [hok]
    exact nofun

theorem stores_saveFails {α : Type} (overflowChecks : Bool) (response : TokenResponse)
    {finish : Tokens → Call α}
    (hfinish : ∀ fresh, Prog.Follows SaveFails ReturnsStorage none (finish fresh)) :
    Prog.Follows SaveFails ReturnsStorage none (do
      let fresh ← tokensFromResponse overflowChecks response
      finish fresh : Call α) := by
  refine fun now => ⟨_, .other nofun, ?_⟩
  cases hfresh : Tokens.fromResponse overflowChecks response now with
  | none =>
    simp only [Prog.ret_bind, hfresh]
    exact fun _ => ⟨_, .other nofun, nofun⟩
  | some fresh =>
    simp only [Prog.ret_bind, hfresh]
    exact hfinish fresh

theorem refreshIf_saveFails (overflowChecks : Bool) (needsRefresh : Tokens → UInt64 → Bool) :
    Prog.Follows SaveFails ReturnsStorage none (refreshIf overflowChecks needsRefresh) := by
  refine withLock_saveFails fun stored => ⟨_, .other nofun, ?_⟩
  match stored with
  | .error _ => exact nofun
  | .ok none => exact nofun
  | .ok (some tokens) =>
    refine fun now => ⟨_, .other nofun, ?_⟩
    cases hneeds : needsRefresh tokens now with
    | false =>
      simp only [Prog.ret_bind, hneeds, Bool.not_false, if_true]
      exact nofun
    | true =>
      simp only [Prog.ret_bind, hneeds, Bool.not_true, Bool.false_eq_true, if_false]
      refine fun _ => ⟨_, .other nofun, fun answer => ⟨_, .other nofun, ?_⟩⟩
      match answer with
      | .error err => cases err <;> exact nofun
      | .ok response =>
        exact stores_saveFails overflowChecks response fun _ => saves_saveFails (fun _ => rfl) rfl

theorem completeLogin_saveFails (overflowChecks : Bool) (code codeVerifier redirectUri : String) :
    Prog.Follows SaveFails ReturnsStorage none
      (completeLogin overflowChecks code codeVerifier redirectUri) := by
  refine fun _ => ⟨_, .other nofun, fun answer => ⟨_, .other nofun, ?_⟩⟩
  match answer with
  | .error err => exact nofun
  | .ok response =>
    exact stores_saveFails overflowChecks response fun _ => saves_saveFails (fun _ => rfl) rfl

theorem SaveFails.path {tr : List (Sigma Ans)} {p p' : Option String} {tokens : Tokens}
    {msg : String} (h : Prog.Path SaveFails p tr p') :
    (∀ m, p = some m → p' = some m) ∧
      ((⟨.save tokens, .error msg⟩ : Sigma Ans) ∈ tr → p' = some msg) := by
  induction h with
  | nil => exact ⟨fun _ => id, nofun⟩
  | cons hmove _ ih =>
    refine ⟨fun m hm => ?_, fun hmem => ?_⟩
    · subst hm
      cases hmove
      exact ih.1 m rfl
    · rcases List.mem_cons.mp hmem with heq | hmem
      · cases heq
        cases hmove with
        | failed => exact ih.1 msg rfl
        | other hop => exact absurd rfl (hop tokens)
      · exact ih.2 hmem

/-- In every run, a refresh and a login that get this error from their save return it as
`Storage`. -/
def Reported (msg : String) : Prop :=
  ∀ (overflowChecks : Bool) (ok : (op : Op) → Ans op → Prop) (tokens : Tokens)
    (tr : List (Sigma Ans)), (⟨.save tokens, .error msg⟩ : Sigma Ans) ∈ tr →
    (∀ needsRefresh out, Prog.Exec ok (refreshIf overflowChecks needsRefresh) tr out →
      out = .err (.storage msg)) ∧
    ∀ code codeVerifier redirectUri out,
      Prog.Exec ok (completeLogin overflowChecks code codeVerifier redirectUri) tr out →
      out = .err (.storage msg)

theorem reported (msg : String) : Reported msg := by
  refine fun overflowChecks ok tokens tr hmem => ⟨fun needsRefresh out hexec => ?_,
    fun code codeVerifier redirectUri out hexec => ?_⟩
  · obtain ⟨p, hpath, hout⟩ := (refreshIf_saveFails overflowChecks needsRefresh).exec hexec
    exact hout msg ((SaveFails.path hpath).2 hmem)
  · obtain ⟨p, hpath, hout⟩ :=
      (completeLogin_saveFails overflowChecks code codeVerifier redirectUri).exec hexec
    exact hout msg ((SaveFails.path hpath).2 hmem)

namespace TokenStore

namespace Failing

/-! ## The calls of one save -/

/-- Which calls fail, and with which message. -/
structure Failures where
  createDirAll : Option String
  removeFile : Option String
  createNew : Option String
  /-- The length of the prefix that the `i`-th background write leaves when it fails. -/
  write : Nat → Option (Nat × String)
  syncAll : Option String
  rename : Option String
  openDir : Option String
  syncDir : Option String

/-- `late` is the failure of a background write that no call has reported yet. -/
structure World where
  fs : FileSystem Name
  writes : Nat
  late : Option String

variable (f : Failures)

/-- A background write, and its failure for the next write to report. -/
def World.write (w : World) (file : Inode) (chunk : List UInt8) : World :=
  match f.write w.writes with
  | none => ⟨w.fs.append file chunk, w.writes + 1, none⟩
  | some (n, msg) => ⟨w.fs.append file (chunk.take n), w.writes + 1, some msg⟩

/-- A call that fails, with nothing done, or else does this. -/
def orFail {α : Type} (err : Option String) (w : World) (done : Except IoError α × World) :
    Except IoError α × World :=
  match err with
  | some msg => (.error (.other msg), w)
  | none => done

/-- The calls. `write` reports the background write before it; `syncAll` waits for the
last one, and reports only its own failure: the other is kept for the next write. -/
def handle : (op : Op) → World → Ans op × World
  | .createDirAll, w => orFail f.createDirAll w (.ok (), w)
  | .removeFile name, w => orFail f.removeFile w
      (if w.fs.entries name = none then (.error .notFound, w)
      else (.ok (), { w with fs := w.fs.unlink name }))
  | .createNew name, w => orFail f.createNew w
      (if w.fs.entries name = none then (.ok w.fs.nextInode, { w with fs := w.fs.create name })
      else (.error .alreadyExists, w))
  | .write file chunk, w => orFail w.late { w with late := none } (.ok (), w.write f file chunk)
  | .syncAll file, w => orFail f.syncAll w (.ok (), { w with fs := w.fs.sync file })
  | .rename source target, w => orFail f.rename w
      (if w.fs.entries source = none then (.error .notFound, w)
      else (.ok (), { w with fs := w.fs.rename source target }))
  | .openDir, w => orFail f.openDir w (.ok (), w)
  | .syncDir, w => orFail f.syncDir w (.ok (), { w with fs := w.fs.syncDir })

/-- What a function returns alone, and the world it leaves. -/
def eval {α : Type} (m : Io α) (w : World) : Except Error α × World :=
  Prog.eval (handle f) (ExceptT.run m) w

def start (fs : FileSystem Name) : World := ⟨fs, 0, none⟩

/-- Some call before the rename fails; the data is written in these chunks. -/
def FailsBeforeRename (chunks : List (List UInt8)) : Prop :=
  f.createDirAll ≠ none ∨ f.removeFile ≠ none ∨ f.createNew ≠ none ∨
    (∃ i < chunks.length, f.write i ≠ none) ∨ f.syncAll ≠ none

/-- Nothing fails up to the rename but the last background write, after this prefix of
the data. -/
structure Unreported (chunks : List (List UInt8)) (data : List UInt8) : Prop where
  createDirAll : f.createDirAll = none
  removeFile : f.removeFile = none
  createNew : f.createNew = none
  syncAll : f.syncAll = none
  rename : f.rename = none
  write : ∃ before last n msg, chunks = before ++ [last] ∧
    (∀ i < before.length, f.write i = none) ∧ f.write before.length = some (n, msg) ∧
    data = before.flatten ++ last.take n

section

variable (store : TokenStore) (codec : Codec) (split : List UInt8 → List (List UInt8))
  (fs : FileSystem Name) (tokens : Tokens)

/-- A save alone. -/
def run : Except Error Unit × World := eval f (save store codec split tokens) (start fs)

/-- A failure before the rename is returned, and reported as `Storage`, and loads give what
they gave before; after `Ok` they give the saved tokens. -/
structure KeepsGood : Prop where
  failed : FailsBeforeRename f (split (codec.toVecPretty tokens)) →
    (∃ err, (run f store codec split fs tokens).1 = .error err ∧ Reported err.message) ∧
      load store codec (contents (run f store codec split fs tokens).2.fs) =
        load store codec (contents fs)
  saved : (run f store codec split fs tokens).1 = .ok () →
    load store codec (contents (run f store codec split fs tokens).2.fs) = .ok (some tokens)

end

/-! ## The unreported failure -/

/-- No call fails. -/
def noFailures : Failures := ⟨none, none, none, fun _ => none, none, none, none, none⟩

/-- The disk is full after the first byte. -/
def fullDisk : Failures :=
  { noFailures with write := fun _ => some (1, "No space left on device (os error 28)") }

/-- **The unreported failure.** The background write of the whole file fails after one
byte; the save renames that byte onto the token file, and returns `Ok`. -/
theorem save_truncated :
    (run fullDisk sampleStore sampleCodec (fun bytes => [bytes]) (Disk.holding initialTokens).fs
      refreshedTokens).1 = .ok () ∧
    load sampleStore sampleCodec (contents (run fullDisk sampleStore sampleCodec
      (fun bytes => [bytes]) (Disk.holding initialTokens).fs refreshedTokens).2.fs) =
        .error "tokens.json is not a valid token file: EOF while parsing a value at line 1 column 0" ∧
    ¬ KeepsGood fullDisk sampleStore sampleCodec (fun bytes => [bytes])
      (Disk.holding initialTokens).fs refreshedTokens := by
  refine ⟨rfl, load_truncated (by decide), fun h => ?_⟩
  have hsaved := h.saved rfl
  cases hsaved

/-! ## The parts of a save -/

variable {f}

/-- The end of a save, from `sync_all` on. -/
def finish (file : Inode) : Io Unit := do
  await (.syncAll file)
  await (.rename .tmp .path)
  await .openDir
  await .syncDir

section

variable {w : World} {file : Inode}

theorem eval_bind {α β : Type} {m : Io α} {k : α → Io β} {a : α} {w' : World}
    (h : eval f m w = (.ok a, w')) : eval f (m >>= k) w = eval f (k a) w' := by
  refine (Prog.eval_bind ..).trans ?_
  change Prog.eval (handle f) (ExceptT.bindCont k (eval f m w).1) (eval f m w).2 = _
  rw [h]
  rfl

theorem eval_bind_error {α β : Type} {m : Io α} {k : α → Io β} {err : Error} {w' : World}
    (h : eval f m w = (.error err, w')) : eval f (m >>= k) w = (.error err, w') := by
  refine (Prog.eval_bind ..).trans ?_
  change Prog.eval (handle f) (ExceptT.bindCont k (eval f m w).1) (eval f m w).2 = _
  rw [h]
  rfl

theorem eval_await (context : Option String) {op : Op} {res : Res op} {w' : World}
    (h : handle f op w = (.ok res, w')) : eval f (awaitWith context op) w = (.ok res, w') := by
  change Prog.eval (handle f) _ (handle f op w).2 = _
  rw [h]
  rfl

theorem eval_await_error (context : Option String) {op : Op} {err : IoError} {w' : World}
    (h : handle f op w = (.error err, w')) :
    eval f (awaitWith context op) w = (.error ⟨context, err⟩, w') := by
  change Prog.eval (handle f) _ (handle f op w).2 = _
  rw [h]
  rfl

/-- A call whose error the function looks at itself. -/
theorem eval_call {op : Op} {ans : Ans op} {w' : World} (h : handle f op w = (ans, w')) :
    eval f (ExceptT.lift (Prog.call op)) w = (.ok ans, w') := by
  change (Except.ok (handle f op w).1, (handle f op w).2) = _
  rw [h]

theorem finish_fails (w : World) (file : Inode) (h : f.syncAll ≠ none ∨ f.rename ≠ none) :
    ∃ err w', eval f (finish file) w = (.error err, w') ∧ w'.fs.read .path = w.fs.read .path := by
  cases hsync : f.syncAll with
  | some msg =>
    have hfailed : handle f (.syncAll file) w = (.error (.other msg), w) := by
      rw [handle, hsync, orFail]
    exact ⟨_, _, eval_bind_error (eval_await_error none hfailed), rfl⟩
  | none =>
    obtain ⟨msg, hmsg⟩ := Option.ne_none_iff_exists'.mp (h.resolve_left (· hsync))
    have hsynced : handle f (.syncAll file) w = (.ok (), { w with fs := w.fs.sync file }) := by
      rw [handle, hsync, orFail]
    have hfailed : handle f (.rename .tmp .path) { w with fs := w.fs.sync file } =
        (.error (.other msg), { w with fs := w.fs.sync file }) := by
      rw [handle, hmsg, orFail]
    exact ⟨_, _, (eval_bind (eval_await none hsynced)).trans
      (eval_bind_error (eval_await_error none hfailed)), FileSystem.read_sync⟩

theorem finish_renames (hsync : f.syncAll = none) (hrename : f.rename = none)
    (htmp : w.fs.entries .tmp = some file) :
    ∃ out w', eval f (finish file) w = (out, w') ∧
      w'.fs.read .path = some (w.fs.files file).data ∧
      (out = .ok () ↔ f.openDir = none ∧ f.syncDir = none) := by
  have hsynced : handle f (.syncAll file) w = (.ok (), { w with fs := w.fs.sync file }) := by
    rw [handle, hsync, orFail]
  have hrenamed : handle f (.rename .tmp .path) { w with fs := w.fs.sync file } =
      (.ok (), { w with fs := (w.fs.sync file).rename .tmp .path }) := by
    have hsource : (w.fs.sync file).entries .tmp ≠ none := by simp [FileSystem.sync, htmp]
    rw [handle, hrename, orFail, if_neg hsource]
  have hread : ((w.fs.sync file).rename .tmp .path).read .path = some (w.fs.files file).data := by
    have hentry : (w.fs.sync file).entries .tmp = some file := htmp
    rw [FileSystem.read, FileSystem.entries_rename_target (by decide), hentry]
    exact congrArg some FileSystem.data_sync
  have heval : eval f (finish file) w = eval f (do await .openDir; await .syncDir)
      { w with fs := (w.fs.sync file).rename .tmp .path } :=
    (eval_bind (eval_await none hsynced)).trans (eval_bind (eval_await none hrenamed))
  cases hopen : f.openDir with
  | some msg =>
    have hfailed : ∀ w, handle f .openDir w = (.error (.other msg), w) := fun w => by
      rw [handle, hopen, orFail]
    exact ⟨_, _, heval.trans (eval_bind_error (eval_await_error none (hfailed _))), hread, by simp⟩
  | none =>
    have hopened : ∀ w, handle f .openDir w = (.ok (), w) := fun w => by
      rw [handle, hopen, orFail]
    cases hdir : f.syncDir with
    | some msg =>
      have hfailed : ∀ w, handle f .syncDir w = (.error (.other msg), w) := fun w => by
        rw [handle, hdir, orFail]
      exact ⟨_, _, heval.trans ((eval_bind (eval_await none (hopened _))).trans
        (eval_await_error none (hfailed _))), hread, by simp⟩
    | none =>
      have hsaved : ∀ w, handle f .syncDir w = (.ok (), { w with fs := w.fs.syncDir }) := fun w => by
        rw [handle, hdir, orFail]
      exact ⟨_, _, heval.trans ((eval_bind (eval_await none (hopened _))).trans
        (eval_await none (hsaved _))), hread, by simp⟩

/-- Only one file has changed: these bytes were appended to it. -/
structure Appended (w w' : World) (file : Inode) (bytes : List UInt8) : Prop where
  entries : w'.fs.entries = w.fs.entries
  files : ∀ other, other ≠ file → w'.fs.files other = w.fs.files other
  data : (w'.fs.files file).data = (w.fs.files file).data ++ bytes

theorem Appended.trans {w₁ w₂ w₃ : World} {a b : List UInt8} (h₁ : Appended w₁ w₂ file a)
    (h₂ : Appended w₂ w₃ file b) : Appended w₁ w₃ file (a ++ b) := by
  refine ⟨h₂.entries.trans h₁.entries, fun other hne => ?_, ?_⟩
  · exact (h₂.files other hne).trans (h₁.files other hne)
  · rw [h₂.data, h₁.data, List.append_assoc]

theorem appended_append {bytes : List UInt8} {n : Nat} {late : Option String} :
    Appended w ⟨w.fs.append file bytes, n, late⟩ file bytes :=
  ⟨rfl, fun _ hne => FileSystem.files_append_of_ne hne, congrArg File.data FileSystem.files_append⟩

theorem handle_write {chunk : List UInt8} (hlate : w.late = none) :
    handle f (.write file chunk) w = (.ok (), w.write f file chunk) := by
  rw [handle, hlate, orFail]

/-- Writes that all succeed, before others. -/
theorem writeAll_done {chunks : List (List UInt8)} (hlate : w.late = none)
    (h : ∀ i < chunks.length, f.write (w.writes + i) = none) :
    ∃ w', (∀ rest, eval f (writeAll file (chunks ++ rest)) w = eval f (writeAll file rest) w') ∧
      Appended w w' file chunks.flatten ∧ w'.late = none ∧ w'.writes = w.writes + chunks.length := by
  induction chunks generalizing w with
  | nil => exact ⟨w, fun _ => rfl, ⟨rfl, fun _ _ => rfl, (List.append_nil _).symm⟩, hlate, rfl⟩
  | cons chunk chunks ih =>
    have hfirst : f.write w.writes = none := h 0 (Nat.zero_lt_succ _)
    have hwrite : w.write f file chunk = ⟨w.fs.append file chunk, w.writes + 1, none⟩ := by
      rw [World.write, hfirst]
    obtain ⟨w', heval, happended, hlate', hwrites⟩ :=
      @ih ⟨w.fs.append file chunk, w.writes + 1, none⟩ rfl fun i hi => by
        have hnext := h (i + 1) (Nat.succ_lt_succ hi)
        rwa [Nat.add_assoc, Nat.add_comm 1 i]
    refine ⟨w', fun rest => ?_, appended_append.trans happended, hlate', ?_⟩
    · have hhanded := @handle_write f w file chunk hlate
      rw [hwrite] at hhanded
      exact (eval_bind (eval_await none hhanded)).trans (heval rest)
    · rw [hwrites, List.length_cons, Nat.add_assoc, Nat.add_comm 1]

/-- A write that fails, after writes that succeed: the next one reports it. -/
theorem writeAll_fails {before rest : List (List UInt8)} {last : List UInt8} {n : Nat}
    {msg : String} (hlate : w.late = none)
    (h : ∀ i < before.length, f.write (w.writes + i) = none)
    (hfail : f.write (w.writes + before.length) = some (n, msg)) :
    ∃ out w' bytes, eval f (writeAll file (before ++ last :: rest)) w = (out, w') ∧
      Appended w w' file bytes ∧ (rest ≠ [] → ∃ err, out = .error err) ∧
      (rest = [] → out = .ok () ∧ bytes = before.flatten ++ last.take n) := by
  obtain ⟨w₁, heval, happended, hlate₁, hwrites⟩ := @writeAll_done f w file _ hlate h
  have hwrite : handle f (.write file last) w₁ =
      (.ok (), ⟨w₁.fs.append file (last.take n), w₁.writes + 1, some msg⟩) := by
    rw [handle_write hlate₁, World.write, hwrites, hfail]
  have hlast := (heval (last :: rest)).trans (eval_bind (eval_await none hwrite))
  cases rest with
  | nil => exact ⟨_, _, _, hlast, happended.trans appended_append, nofun, fun _ => ⟨rfl, rfl⟩⟩
  | cons next rest =>
    have hreported : handle f (.write file next)
        ⟨w₁.fs.append file (last.take n), w₁.writes + 1, some msg⟩ =
        (.error (.other msg), ⟨w₁.fs.append file (last.take n), w₁.writes + 1, none⟩) := by
      rw [handle, orFail]
    exact ⟨_, _, _, hlast.trans (eval_bind_error (eval_await_error none hreported)),
      happended.trans appended_append, fun _ => ⟨_, rfl⟩, nofun⟩

end

section

variable (store : TokenStore) (codec : Codec) (split : List UInt8 → List (List UInt8))
  (tokens : Tokens) {fs : FileSystem Name} {w w' : World} {file : Inode}

/-- A new empty file is under the temporary name, and the path is as it was. -/
structure Prepared (fs : FileSystem Name) (w : World) (file : Inode) : Prop where
  late : w.late = none
  writes : w.writes = 0
  tmp : w.fs.entries .tmp = some file
  path : w.fs.entries .path = fs.entries .path
  apart : fs.entries .path ≠ some file
  files : ∀ other, other ≠ file → w.fs.files other = fs.files other
  empty : (w.fs.files file).data = []

theorem Prepared.read {bytes : List UInt8} (h : Prepared fs w file)
    (happended : Appended w w' file bytes) : w'.fs.read .path = fs.read .path := by
  simp only [FileSystem.read, happended.entries, h.path]
  refine Option.map_congr fun other hother => ?_
  have hne : other ≠ file := by
    rintro rfl
    exact h.apart hother
  rw [happended.files other hne, h.files other hne]

/-- The temporary name is free after its removal, and the path is as it was. -/
theorem handle_removeFile (fs : FileSystem Name) (hremove : f.removeFile = none) : ∃ ans cleaned,
    handle f (.removeFile .tmp) (start fs) = (ans, ⟨cleaned, 0, none⟩) ∧
      (ans = .ok () ∨ ans = .error .notFound) ∧ cleaned.entries .tmp = none ∧
      cleaned.entries .path = fs.entries .path ∧ cleaned.files = fs.files ∧
      cleaned.nextInode = fs.nextInode := by
  rw [handle, hremove, orFail]
  by_cases htmp : fs.entries .tmp = none
  · exact ⟨.error .notFound, fs, if_pos htmp, .inr rfl, htmp, rfl, rfl, rfl⟩
  · exact ⟨.ok (), fs.unlink .tmp, if_neg htmp, .inl rfl, rfl, rfl, rfl, rfl⟩

theorem run_prepared (hvalid : fs.Valid) (hdir : f.createDirAll = none)
    (hremove : f.removeFile = none) (hnew : f.createNew = none) :
    ∃ w file, run f store codec split fs tokens =
      eval f (do writeAll file (split (codec.toVecPretty tokens)); finish file) w ∧
      Prepared fs w file := by
  have hmade : handle f .createDirAll (start fs) = (.ok (), start fs) := by
    rw [handle, hdir, orFail]
  obtain ⟨ans, cleaned, hremoved, hans, htmp, hpath, hfiles, hnext⟩ :=
    handle_removeFile fs hremove
  have hcreated : handle f (.createNew .tmp) ⟨cleaned, 0, none⟩ =
      (.ok cleaned.nextInode, ⟨cleaned.create .tmp, 0, none⟩) := by
    rw [handle, hnew, orFail, if_pos htmp]
  refine ⟨⟨cleaned.create .tmp, 0, none⟩, cleaned.nextInode, ?_, rfl, rfl, rfl, hpath, ?_, ?_, ?_⟩
  · refine (eval_bind (eval_await none hmade)).trans ((eval_bind (eval_call hremoved)).trans ?_)
    rcases hans with rfl | rfl
    · exact eval_bind (eval_await _ hcreated)
    · exact eval_bind (eval_await _ hcreated)
  · intro hentry
    have hlt := hvalid.lt hentry
    rw [hnext] at hlt
    exact Nat.lt_irrefl _ hlt
  · intro other hne
    exact (FileSystem.files_create_of_ne hne).trans (congrFun hfiles other)
  · exact congrArg File.data FileSystem.files_create

theorem run_unprepared (fs : FileSystem Name)
    (h : f.createDirAll ≠ none ∨ f.removeFile ≠ none ∨ f.createNew ≠ none) :
    ∃ err w', run f store codec split fs tokens = (.error err, w') ∧
      w'.fs.read .path = fs.read .path := by
  cases hdir : f.createDirAll with
  | some msg =>
    have hfailed : handle f .createDirAll (start fs) = (.error (.other msg), start fs) := by
      rw [handle, hdir, orFail]
    exact ⟨_, _, eval_bind_error (eval_await_error none hfailed), rfl⟩
  | none =>
    have hmade : handle f .createDirAll (start fs) = (.ok (), start fs) := by
      rw [handle, hdir, orFail]
    cases hremove : f.removeFile with
    | some msg =>
      have hfailed : handle f (.removeFile .tmp) (start fs) = (.error (.other msg), start fs) := by
        rw [handle, hremove, orFail]
      exact ⟨_, _, (eval_bind (eval_await none hmade)).trans (eval_bind (eval_call hfailed)), rfl⟩
    | none =>
      obtain ⟨msg, hmsg⟩ :=
        Option.ne_none_iff_exists'.mp ((h.resolve_left (· hdir)).resolve_left (· hremove))
      obtain ⟨ans, cleaned, hremoved, hans, htmp, hpath, hfiles, hnext⟩ :=
        handle_removeFile fs hremove
      have hfailed : handle f (.createNew .tmp) ⟨cleaned, 0, none⟩ =
          (.error (.other msg), ⟨cleaned, 0, none⟩) := by
        rw [handle, hmsg, orFail]
      refine ⟨⟨some ("cannot create " ++ store.tmp), .other msg⟩, ⟨cleaned, 0, none⟩,
        (eval_bind (eval_await none hmade)).trans ((eval_bind (eval_call hremoved)).trans ?_), ?_⟩
      · rcases hans with rfl | rfl
        · exact eval_bind_error (eval_await_error _ hfailed)
        · exact eval_bind_error (eval_await_error _ hfailed)
      · simp only [FileSystem.read, hpath, hfiles]

variable {store codec split tokens}

/-- The end of a save whose writes return `Ok`, and leave this data. -/
theorem run_written {data : List UInt8} {before : World} (hprepared : Prepared fs before file)
    (happended : Appended before w file data)
    (hrun : run f store codec split fs tokens = eval f (finish file) w) :
    (f.syncAll ≠ none ∨ f.rename ≠ none →
      (∃ err, (run f store codec split fs tokens).1 = .error err) ∧
        contents (run f store codec split fs tokens).2.fs = contents fs) ∧
    (f.syncAll = none → f.rename = none →
      contents (run f store codec split fs tokens).2.fs = .ok data ∧
        ((run f store codec split fs tokens).1 = .ok () ↔ f.openDir = none ∧ f.syncDir = none)) := by
  rw [hrun]
  refine ⟨fun hfails => ?_, fun hsync hrename => ?_⟩
  · obtain ⟨err, w', hfinish, hread⟩ := finish_fails w file hfails
    rw [hfinish, contents, contents, hread, hprepared.read happended]
    exact ⟨⟨err, rfl⟩, rfl⟩
  · have htmp : w.fs.entries .tmp = some file := by rw [happended.entries, hprepared.tmp]
    obtain ⟨out, w', hfinish, hread, hout⟩ := finish_renames hsync hrename htmp
    rw [happended.data, hprepared.empty, List.nil_append] at hread
    rw [hfinish, contents, hread]
    exact ⟨rfl, hout⟩

theorem run_unreported (store : TokenStore) {data : List UInt8} (hvalid : fs.Valid)
    (h : Unreported f (split (codec.toVecPretty tokens)) data) :
    contents (run f store codec split fs tokens).2.fs = .ok data ∧
      ((run f store codec split fs tokens).1 = .ok () ↔ f.openDir = none ∧ f.syncDir = none) := by
  obtain ⟨before, last, n, msg, hchunks, hbefore, hlast, rfl⟩ := h.write
  obtain ⟨w, file, hrun, hprepared⟩ :=
    run_prepared store codec split tokens hvalid h.createDirAll h.removeFile h.createNew
  obtain ⟨out, w', bytes, heval, happended, _, hdone⟩ := @writeAll_fails f w file before [] last n msg
    hprepared.late (by simpa [hprepared.writes] using hbefore) (by simpa [hprepared.writes] using hlast)
  obtain ⟨rfl, rfl⟩ := hdone rfl
  rw [← hchunks] at heval
  exact (run_written hprepared happended (hrun.trans (eval_bind heval))).2 h.syncAll h.rename

theorem run_reported (store : TokenStore) (hvalid : fs.Valid)
    (h : ∀ data, ¬ Unreported f (split (codec.toVecPretty tokens)) data) :
    ((∃ err, (run f store codec split fs tokens).1 = .error err) ∧
      contents (run f store codec split fs tokens).2.fs = contents fs) ∨
    (¬ FailsBeforeRename f (split (codec.toVecPretty tokens)) ∧
      contents (run f store codec split fs tokens).2.fs =
        .ok (split (codec.toVecPretty tokens)).flatten) := by
  by_cases hunprepared : f.createDirAll ≠ none ∨ f.removeFile ≠ none ∨ f.createNew ≠ none
  · obtain ⟨err, w', hrun, hread⟩ := run_unprepared store codec split tokens fs hunprepared
    rw [hrun, contents, contents, hread]
    exact .inl ⟨⟨err, rfl⟩, rfl⟩
  simp only [not_or, not_not] at hunprepared
  obtain ⟨hdir, hremove, hnew⟩ := hunprepared
  obtain ⟨w, file, hrun, hprepared⟩ :=
    run_prepared store codec split tokens hvalid hdir hremove hnew
  generalize hchunks : split (codec.toVecPretty tokens) = chunks at h hrun ⊢
  by_cases hwrites : ∃ i, i < chunks.length ∧ f.write i ≠ none
  · -- the first write that fails
    have hfind := Nat.find_spec hwrites
    have hbefore := fun j (hj : j < Nat.find hwrites) => Nat.find_min hwrites hj
    generalize Nat.find hwrites = i at hfind hbefore
    obtain ⟨hi, hfail⟩ := hfind
    obtain ⟨⟨n, msg⟩, hfail⟩ := Option.ne_none_iff_exists'.mp hfail
    have hbefore : ∀ j < i, f.write j = none := fun j hj =>
      not_not.mp fun hne => hbefore j hj ⟨Nat.lt_trans hj hi, hne⟩
    have hlength : (chunks.take i).length = i := List.length_take_of_le (Nat.le_of_lt hi)
    have hcut : chunks.take i ++ chunks[i] :: chunks.drop (i + 1) = chunks := by
      rw [List.getElem_cons_drop hi, List.take_append_drop]
    obtain ⟨out, w', bytes, heval, happended, hreported, hdone⟩ :=
      @writeAll_fails f w file (chunks.take i) (chunks.drop (i + 1)) chunks[i] n msg hprepared.late
        (by simpa [hprepared.writes, hlength] using hbefore)
        (by simpa [hprepared.writes, hlength] using hfail)
    rw [hcut] at heval
    by_cases hrest : chunks.drop (i + 1) = []
    · obtain ⟨rfl, rfl⟩ := hdone hrest
      by_cases hend : f.syncAll ≠ none ∨ f.rename ≠ none
      · exact .inl ((run_written hprepared happended (hrun.trans (eval_bind heval))).1 hend)
      · simp only [not_or, not_not] at hend
        refine absurd ⟨hdir, hremove, hnew, hend.1, hend.2, chunks.take i, chunks[i], n, msg, ?_,
          ?_, ?_, rfl⟩ (h _)
        · rw [← hrest, hcut]
        · rwa [hlength]
        · rwa [hlength]
    · obtain ⟨err, rfl⟩ := hreported hrest
      rw [hrun, eval_bind_error heval, contents, contents, hprepared.read happended]
      exact .inl ⟨⟨err, rfl⟩, rfl⟩
  · have hwrites : ∀ i < chunks.length, f.write i = none := fun i hi =>
      not_not.mp fun hne => hwrites ⟨i, hi, hne⟩
    obtain ⟨w', heval, happended, _⟩ := @writeAll_done f w file chunks hprepared.late
      (by simpa [hprepared.writes] using hwrites)
    have heval := heval []
    rw [List.append_nil] at heval
    have hwritten := run_written hprepared happended (hrun.trans (eval_bind (heval.trans rfl)))
    by_cases hend : f.syncAll ≠ none ∨ f.rename ≠ none
    · exact .inl (hwritten.1 hend)
    · simp only [not_or, not_not] at hend
      refine .inr ⟨?_, (hwritten.2 hend.1 hend.2).1⟩
      rintro (hne | hne | hne | ⟨i, hi, hne⟩ | hne)
      · exact hne hdir
      · exact hne hremove
      · exact hne hnew
      · exact hne (hwrites i hi)
      · exact hne hend.1

theorem Unreported.fails {chunks : List (List UInt8)} {data : List UInt8}
    (h : Unreported f chunks data) : FailsBeforeRename f chunks := by
  obtain ⟨before, last, n, msg, hchunks, _, hlast, _⟩ := h.write
  refine .inr (.inr (.inr (.inl ⟨before.length, ?_, ?_⟩)))
  · simp [hchunks]
  · simp [hlast]

/-- **Failing saves.** A save alone keeps the good tokens exactly when the last background
write does not fail unreported; or when it does, the call fails at the directory and the
truncated data loads as the file did before. -/
theorem keepsGood_iff (hvalid : fs.Valid) (hsplit : ∀ bytes, (split bytes).flatten = bytes)
    (hreads : codec.ReadsBack tokens) :
    KeepsGood f store codec split fs tokens ↔
      ∀ data, Unreported f (split (codec.toVecPretty tokens)) data →
        (f.openDir ≠ none ∨ f.syncDir ≠ none) ∧
          load store codec (.ok data) = load store codec (contents fs) := by
  constructor
  · rintro ⟨hfailed, _⟩ data h
    obtain ⟨⟨err, herr, _⟩, hload⟩ := hfailed h.fails
    obtain ⟨hcontents, hok⟩ := run_unreported store hvalid h
    rw [hcontents] at hload
    refine ⟨?_, hload⟩
    by_contra hdir
    simp only [not_or, not_not] at hdir
    rw [hok.mpr hdir] at herr
    cases herr
  · intro h
    by_cases hunreported : ∃ data, Unreported f (split (codec.toVecPretty tokens)) data
    · obtain ⟨data, hdata⟩ := hunreported
      obtain ⟨hdir, hload⟩ := h data hdata
      obtain ⟨hcontents, hok⟩ := run_unreported store hvalid hdata
      have hnot : (run f store codec split fs tokens).1 ≠ .ok () := by
        intro hout
        obtain ⟨hopen, hsync⟩ := hok.mp hout
        exact hdir.elim (· hopen) (· hsync)
      refine ⟨fun _ => ⟨?_, by rw [hcontents, hload]⟩, fun hout => absurd hout hnot⟩
      generalize (run f store codec split fs tokens).1 = out at hnot
      cases out with
      | ok => exact absurd rfl hnot
      | error err => exact ⟨err, rfl, reported _⟩
    · rcases run_reported store hvalid fun data hdata => hunreported ⟨data, hdata⟩ with
        ⟨⟨err, herr⟩, hcontents⟩ | ⟨hfine, hcontents⟩
      · refine ⟨fun _ => ⟨⟨err, herr, reported _⟩, by rw [hcontents]⟩, fun hout => ?_⟩
        rw [herr] at hout
        cases hout
      · refine ⟨fun hfails => absurd hfails hfine, fun _ => ?_⟩
        rw [hcontents, hsplit, load, hreads]

/-- A full disk that `fsync` reports: the save fails, and the old tokens are loaded. -/
theorem keepsGood_fsync : KeepsGood { fullDisk with syncAll := some "Input/output error (os error 5)" }
    sampleStore sampleCodec (fun bytes => [bytes]) (Disk.holding initialTokens).fs refreshedTokens :=
  (keepsGood_iff (Disk.holding_valid _) (fun _ => List.append_nil _)
    (readsBack_sample refreshedTokens (by simp))).mpr
    fun _ h => nomatch h.syncAll

end

end Failing

end TokenStore

end Rsc.Auth

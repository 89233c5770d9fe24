import Rsc.Auth.Tokens
import Rsc.Library.FileSystem
import Rsc.Library.Prog

/-!
`rsc/src/auth/store.rs`: loading and saving the token file. `save` is a program over the
calls it makes, in their order; `Syscall` and `Background` are what the calls do.

A `tokio` file writes in the background: `write` hands a chunk over and returns, after
the chunk before it was written; `syncAll` waits for the last chunk. How the data is cut
into chunks, and the JSON encoding, are parameters.
-/

namespace Rsc.Auth

open Rsc.Library

/-- `TokenStore`: the path of the token file, and the path with the extension `json.tmp`. -/
structure TokenStore where
  path : String
  tmp : String

namespace TokenStore

/-- The two names in the directory of the token file. -/
inductive Name
  | path
  | tmp
  deriving DecidableEq

/-- `io::Error`, by its kind. -/
inductive IoError
  | notFound
  | alreadyExists
  | other (message : String)
  deriving DecidableEq

def IoError.message : IoError → String
  | .notFound => "No such file or directory (os error 2)"
  | .alreadyExists => "File exists (os error 17)"
  | .other message => message

/-- `anyhow::Error`: an error and what was being done. -/
structure Error where
  context : Option String
  cause : IoError

/-- The text of an error, on one line with its cause. -/
def Error.message (err : Error) : String :=
  match err.context with
  | some context => context ++ ": " ++ err.cause.message
  | none => err.cause.message

/-- The functions of `serde_json` that are used. -/
structure Codec where
  toVecPretty : Tokens → List UInt8
  fromSlice : List UInt8 → Except String Tokens

/-- The encoding of these tokens is read back. -/
def Codec.ReadsBack (codec : Codec) (tokens : Tokens) : Prop :=
  codec.fromSlice (codec.toVecPretty tokens) = .ok tokens

/-- `TokenStore::load`, from what `fs::read` gives. -/
def load (store : TokenStore) (codec : Codec) : Except IoError (List UInt8) →
    Except String (Option Tokens)
  | .ok bytes =>
      match codec.fromSlice bytes with
      | .ok tokens => .ok (some tokens)
      | .error err => .error (store.path ++ " is not a valid token file: " ++ err)
  | .error .notFound => .ok none
  | .error err => .error ("cannot read " ++ store.path ++ ": " ++ err.message)

/-- The calls of `save`. An open file is its inode. -/
inductive Op
  | createDirAll
  | removeFile (name : Name)
  | createNew (name : Name)
  | write (file : Inode) (chunk : List UInt8)
  | syncAll (file : Inode)
  | rename (source target : Name)
  | openDir
  | syncDir

/-- What a call gives when it succeeds. -/
abbrev Res : Op → Type
  | .createNew _ => Inode
  | _ => Unit

abbrev Ans (op : Op) : Type := Except IoError (Res op)

/-- A function that fails with an `anyhow::Error`. -/
abbrev Io (α : Type) : Type := ExceptT Error (Prog Ans) α

/-- Await a call; `?` passes its error on, with the context if there is one. -/
def awaitWith (context : Option String) (op : Op) : Io (Res op) :=
  ExceptT.mk (Prog.perform op fun
    | .ok res => Prog.ret (.ok res)
    | .error err => Prog.ret (.error ⟨context, err⟩))

def await (op : Op) : Io (Res op) := awaitWith none op

/-- `write_all`, one chunk after the other. -/
def writeAll (file : Inode) : List (List UInt8) → Io Unit
  | [] => pure ()
  | chunk :: chunks => do
      await (.write file chunk)
      writeAll file chunks

/-- `TokenStore::save`. -/
def save (store : TokenStore) (codec : Codec) (split : List UInt8 → List (List UInt8))
    (tokens : Tokens) : Io Unit := do
  await .createDirAll
  match ← ExceptT.lift (Prog.call (.removeFile .tmp)) with
  | .error .notFound => pure ()
  | .error err => throw ⟨none, err⟩
  | .ok _ => pure ()
  let file ← awaitWith (some ("cannot create " ++ store.tmp)) (.createNew .tmp)
  writeAll file (split (codec.toVecPretty tokens))
  await (.syncAll file)
  await (.rename .tmp .path)
  await .openDir
  await .syncDir

/-! ## The calls -/

/-- `fs::read` of the token file. -/
def contents (fs : FileSystem Name) : Except IoError (List UInt8) :=
  match fs.read .path with
  | some bytes => .ok bytes
  | none => .error .notFound

/-- The file system, and what was handed to background writes and is not written yet. -/
structure Disk where
  fs : FileSystem Name
  pending : Inode → List UInt8

/-- What a call does when nothing is wrong with the disk. -/
inductive Syscall (d : Disk) : (op : Op) → Ans op → Disk → Prop
  | createDirAll : Syscall d .createDirAll (.ok ()) d
  | removeFile {name : Name} (h : d.fs.entries name ≠ none) :
      Syscall d (.removeFile name) (.ok ()) { d with fs := d.fs.unlink name }
  | removeMissing {name : Name} (h : d.fs.entries name = none) :
      Syscall d (.removeFile name) (.error .notFound) d
  | createNew {name : Name} (h : d.fs.entries name = none) :
      Syscall d (.createNew name) (.ok d.fs.nextInode) { d with fs := d.fs.create name }
  | createExisting {name : Name} (h : d.fs.entries name ≠ none) :
      Syscall d (.createNew name) (.error .alreadyExists) d
  | write {file : Inode} {chunk : List UInt8} (h : d.pending file = []) :
      Syscall d (.write file chunk) (.ok ())
        { d with pending := Function.update d.pending file chunk }
  | syncAll {file : Inode} (h : d.pending file = []) :
      Syscall d (.syncAll file) (.ok ()) { d with fs := d.fs.sync file }
  | rename {source target : Name} (h : d.fs.entries source ≠ none) :
      Syscall d (.rename source target) (.ok ()) { d with fs := d.fs.rename source target }
  | renameMissing {source target : Name} (h : d.fs.entries source = none) :
      Syscall d (.rename source target) (.error .notFound) d
  | openDir : Syscall d .openDir (.ok ()) d
  | syncDir : Syscall d .syncDir (.ok ()) { d with fs := d.fs.syncDir }

/-- A background write puts some bytes of what it was handed into the file. -/
inductive Background (d : Disk) : Disk → Prop
  | flush {file : Inode} {bytes rest : List UInt8} (hne : bytes ≠ [])
      (h : d.pending file = bytes ++ rest) :
      Background d ⟨d.fs.append file bytes, Function.update d.pending file rest⟩

theorem Background.all {d : Disk} (file : Inode) (hne : d.pending file ≠ []) :
    Background d ⟨d.fs.append file (d.pending file), Function.update d.pending file []⟩ :=
  .flush hne (List.append_nil _).symm

/-! ## Concrete token files -/

/-- `serde_json::to_vec_pretty` of tokens whose texts need no escapes. -/
def prettyJson (tokens : Tokens) : List UInt8 :=
  ("\x7b\n  \"access_token\": \"" ++ tokens.accessToken ++ "\",\n  \"refresh_token\": \"" ++
    tokens.refreshToken ++ "\",\n  \"expires_at\": " ++ toString tokens.expiresAt.toNat ++
    "\n\x7d").toList.map fun c => c.toNat.toUInt8

/-- A codec that reads the given tokens, and that finds everything else cut short. -/
def codecOf (known : List Tokens) : Codec where
  toVecPretty := prettyJson
  fromSlice bytes :=
    match known.find? fun tokens => prettyJson tokens = bytes with
    | some tokens => .ok tokens
    | none => .error "EOF while parsing a value at line 1 column 0"

/-- A disk with the tokens at the path, and no temporary file. -/
def Disk.holding (tokens : Tokens) : Disk where
  fs :=
    { entries := fun
        | .path => some 0
        | .tmp => none
      since := fun
        | .path => [some 0]
        | .tmp => [none]
      files := fun _ => ⟨prettyJson tokens, true⟩
      nextInode := 1 }
  pending _ := []

theorem Disk.holding_valid (tokens : Tokens) : (Disk.holding tokens).fs.Valid := by
  constructor
  · rintro (_ | _) <;> exact .head _
  · rintro (_ | _) file hmem
    · cases List.mem_singleton.mp hmem
      exact Nat.zero_lt_one
    · cases List.mem_singleton.mp hmem

def sampleStore : TokenStore := ⟨"tokens.json", "tokens.json.tmp"⟩

def initialTokens : Tokens := ⟨"access₀", "refresh₀", 0⟩

def refreshedTokens : Tokens := ⟨"access₁", "refresh₁", 1⟩

def loginTokens : Tokens := ⟨"access₂", "refresh₂", 2⟩

def sampleCodec : Codec := codecOf [initialTokens, refreshedTokens, loginTokens]

theorem length_prettyJson (tokens : Tokens) : 2 ≤ (prettyJson tokens).length := by
  simp [prettyJson]

theorem prettyJson_ne_nil (tokens : Tokens) : prettyJson tokens ≠ [] := by
  have hlength := length_prettyJson tokens
  rintro h
  rw [h] at hlength
  simp at hlength

theorem fromSlice_truncated {known : List Tokens} {bytes : List UInt8} (h : bytes.length < 2) :
    (codecOf known).fromSlice bytes = .error "EOF while parsing a value at line 1 column 0" := by
  have hnone : known.find? (fun tokens => prettyJson tokens = bytes) = none := by
    rw [List.find?_eq_none]
    intro tokens _ heq
    have hlength := length_prettyJson tokens
    rw [of_decide_eq_true heq] at hlength
    omega
  simp only [codecOf, hnone]

/-- A file that is cut short is not loaded. -/
theorem load_truncated {bytes : List UInt8} (h : bytes.length < 2) :
    load sampleStore sampleCodec (.ok bytes) =
      .error "tokens.json is not a valid token file: EOF while parsing a value at line 1 column 0" := by
  rw [load, sampleCodec, fromSlice_truncated h]
  rfl

theorem readsBack_sample (tokens : Tokens)
    (h : tokens ∈ [initialTokens, refreshedTokens, loginTokens]) : sampleCodec.ReadsBack tokens := by
  simp only [List.mem_cons, List.not_mem_nil, or_false] at h
  rcases h with rfl | rfl | rfl <;> rfl

/-! ## The protocol of a save -/

/-- How far a save of `bytes` is. -/
inductive Phase
  | starting (bytes : List UInt8)
  | cleaning (bytes : List UInt8)
  | creating (bytes : List UInt8)
  | writing (bytes : List UInt8) (file : Inode) (rest : List UInt8)
  | synced (bytes : List UInt8) (file : Inode)
  | renamed (bytes : List UInt8)
  | opened (bytes : List UInt8)
  | saved (bytes : List UInt8)
  | failed

/-- What a save may ask for, and where the answer takes it. -/
inductive Move : Prog.Protocol Ans Phase
  | createDirAll {bytes : List UInt8} :
      Move (.starting bytes) .createDirAll (.ok ()) (.cleaning bytes)
  | removeFile {bytes : List UInt8} :
      Move (.cleaning bytes) (.removeFile .tmp) (.ok ()) (.creating bytes)
  | removeMissing {bytes : List UInt8} :
      Move (.cleaning bytes) (.removeFile .tmp) (.error .notFound) (.creating bytes)
  | createNew {bytes : List UInt8} {file : Inode} :
      Move (.creating bytes) (.createNew .tmp) (.ok file) (.writing bytes file bytes)
  | write {bytes chunk rest : List UInt8} {file : Inode} :
      Move (.writing bytes file (chunk ++ rest)) (.write file chunk) (.ok ())
        (.writing bytes file rest)
  | syncAll {bytes : List UInt8} {file : Inode} :
      Move (.writing bytes file []) (.syncAll file) (.ok ()) (.synced bytes file)
  | rename {bytes : List UInt8} {file : Inode} :
      Move (.synced bytes file) (.rename .tmp .path) (.ok ()) (.renamed bytes)
  | openDir {bytes : List UInt8} : Move (.renamed bytes) .openDir (.ok ()) (.opened bytes)
  | syncDir {bytes : List UInt8} : Move (.opened bytes) .syncDir (.ok ()) (.saved bytes)
  | fail {p : Phase} {op : Op} {err : IoError} : Move p op (.error err) .failed

/-- A save returns `Ok` at its end only. -/
def Returns : Phase → Except Error Unit → Prop
  | .saved _, .ok _ => True
  | .failed, .error _ => True
  | _, _ => False

theorem writeAll_follows (bytes : List UInt8) (file : Inode) (chunks : List (List UInt8)) :
    Prog.Follows Move
      (fun p out => (p = .writing bytes file [] ∧ out = .ok ()) ∨ (p = .failed ∧ ∃ e, out = .error e))
      (.writing bytes file chunks.flatten) (writeAll file chunks) := by
  induction chunks with
  | nil => exact .inl ⟨rfl, rfl⟩
  | cons chunk chunks ih =>
    intro ans
    match ans with
    | .ok () => exact ⟨_, .write, ih⟩
    | .error err => exact ⟨_, .fail, .inr ⟨rfl, _, rfl⟩⟩

theorem syncAndRename_follows {bytes : List UInt8} {file : Inode} :
    Prog.Follows Move Returns (.writing bytes file []) (do
      await (.syncAll file)
      await (.rename .tmp .path)
      await .openDir
      await .syncDir : Io Unit) := by
  intro ans
  match ans with
  | .error err => exact ⟨_, .fail, trivial⟩
  | .ok () =>
    refine ⟨_, .syncAll, fun ans => ?_⟩
    match ans with
    | .error err => exact ⟨_, .fail, trivial⟩
    | .ok () =>
      refine ⟨_, .rename, fun ans => ?_⟩
      match ans with
      | .error err => exact ⟨_, .fail, trivial⟩
      | .ok () =>
        refine ⟨_, .openDir, fun ans => ?_⟩
        match ans with
        | .error err => exact ⟨_, .fail, trivial⟩
        | .ok () => exact ⟨_, .syncDir, trivial⟩

/-- **Protocol of `save`.** Whatever the answers, a save makes its calls in the order of
`Move`, as long as the chunks are the data. -/
theorem save_follows (store : TokenStore) (codec : Codec) {split : List UInt8 → List (List UInt8)}
    (hsplit : ∀ bytes, (split bytes).flatten = bytes) (tokens : Tokens) :
    Prog.Follows Move Returns (.starting (codec.toVecPretty tokens))
      (save store codec split tokens) := by
  intro ans
  match ans with
  | .error err => exact ⟨_, .fail, trivial⟩
  | .ok () =>
    refine ⟨_, .createDirAll, fun ans => ?_⟩
    -- a missing temporary file is as good as a removed one
    have hrest : Prog.Follows Move Returns (.creating (codec.toVecPretty tokens)) (do
        let file ← awaitWith (some ("cannot create " ++ store.tmp)) (.createNew .tmp)
        writeAll file (split (codec.toVecPretty tokens))
        await (.syncAll file)
        await (.rename .tmp .path)
        await .openDir
        await .syncDir : Io Unit) := by
      intro ans
      match ans with
      | .error err => exact ⟨_, .fail, trivial⟩
      | .ok file =>
        refine ⟨_, .createNew, ?_⟩
        have hwrite := writeAll_follows (codec.toVecPretty tokens) file
          (split (codec.toVecPretty tokens))
        rw [hsplit] at hwrite
        refine hwrite.bind fun p out hout => ?_
        rcases hout with ⟨rfl, rfl⟩ | ⟨rfl, err, rfl⟩
        · exact syncAndRename_follows
        · exact trivial
    match ans with
    | .ok () => exact ⟨_, .removeFile, hrest⟩
    | .error .notFound => exact ⟨_, .removeMissing, hrest⟩
    | .error .alreadyExists => exact ⟨_, .fail, trivial⟩
    | .error (.other _) => exact ⟨_, .fail, trivial⟩

end TokenStore

end Rsc.Auth

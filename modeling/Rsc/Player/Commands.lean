import Rsc.Library.JsonLines
import Rsc.Player.Session

/-!
The commands of `rsc/src/player/mpv.rs`, one JSON object a line. `mpv` can tell them apart
(`Sends.unique`), but for a header that holds the comma of the list it is sent in.
-/

namespace Rsc.Player.Commands

open Rsc.Library Rsc.Library.Json

/-! ## The lines -/

/-- What `MpvPlayer` sends a command for. -/
inductive Request
  | observeProperty (id : Nat) (property : String)
  | load (target : StreamTarget)
  | setPause (paused : Bool)
  | stop
  | quit
  deriving DecidableEq

/-- `format!("{name}: {value}")` -/
def headerField (header : String × String) : String := header.1 ++ ": " ++ header.2

/-- `loadfile_command`. -/
def loadfileCommand (target : StreamTarget) : Value String :=
  if target.headers = [] then
    .array [.string "loadfile", .string target.url, .string "replace"]
  else
    let fields := ",".intercalate (target.headers.map headerField)
    .array [.string "loadfile", .string target.url, .string "replace", .number "-1",
      .object [("http-header-fields", .string fields)]]

/-- The argument of `send`. -/
def Request.command : Request → Value String
  | .observeProperty id property => .array [.string "observe_property", .ofNat id, .string property]
  | .load target => loadfileCommand target
  | .setPause paused => .array [.string "set_property", .string "pause", .bool paused]
  | .stop => .array [.string "stop"]
  | .quit => .array [.string "quit"]

/-- What `send` makes of a command. -/
def message (command : Value String) (requestId : UInt64) : Value String :=
  .object [("command", command), ("request_id", .ofNat requestId.toNat)]

/-- The bytes that `send` writes. -/
def line (command : Value String) (requestId : UInt64) : List UInt8 :=
  (message command requestId).toVec ++ [10]

/-! ## What is written is JSON -/

theorem loadfileCommand_wellFormed (target : StreamTarget) :
    (loadfileCommand target).WellFormed := by
  unfold loadfileCommand
  split
  · exact ⟨trivial, trivial, trivial, trivial⟩
  · have hminusOne : Numeral "-1" := ⟨by decide, List.all_eq_true.mp (by decide)⟩
    exact ⟨trivial, trivial, trivial, hminusOne, ⟨trivial, trivial⟩, trivial⟩

theorem Request.command_wellFormed (r : Request) : r.command.WellFormed := by
  cases r with
  | observeProperty id property => exact ⟨trivial, Value.ofNat_wellFormed id, trivial, trivial⟩
  | load target => exact loadfileCommand_wellFormed target
  | setPause paused => exact ⟨trivial, trivial, trivial, trivial⟩
  | stop | quit => exact ⟨trivial, trivial⟩

theorem message_wellFormed {command : Value String} (h : command.WellFormed) (requestId : UInt64) :
    (message command requestId).WellFormed :=
  ⟨h, Value.ofNat_wellFormed requestId.toNat, trivial⟩

/-! ## What is written can be told apart -/

/-- The headers of a target are read back from the list they are sent in. -/
def Listable (headers : List (String × String)) : Prop :=
  ∀ header ∈ headers, ',' ∉ header.1.toList ∧ ':' ∉ header.1.toList ∧ ',' ∉ header.2.toList

def Request.Sendable : Request → Prop
  | .load target => Listable target.headers
  | _ => True

theorem toList_headerField (header : String × String) :
    (headerField header).toList = header.1.toList ++ ':' :: ' ' :: header.2.toList := by
  rw [headerField, String.toList_append, String.toList_append, List.append_assoc]
  rfl

theorem headerField_injective {header header' : String × String} (h : ':' ∉ header.1.toList)
    (h' : ':' ∉ header'.1.toList) (heq : headerField header = headerField header') :
    header = header' := by
  have hsplit := congrArg (Text.splitOnce ':' ∘ String.toList) heq
  dsimp only [Function.comp] at hsplit
  rw [toList_headerField, toList_headerField, Text.splitOnce_append h, Text.splitOnce_append h',
    Option.some.injEq, Prod.mk.injEq, List.cons.injEq] at hsplit
  exact Prod.ext (String.toList_injective hsplit.1) (String.toList_injective hsplit.2.2)

theorem notMem_headerField {header : String × String} (h : ',' ∉ header.1.toList)
    (h' : ',' ∉ header.2.toList) : ',' ∉ (headerField header).toList := by
  rw [toList_headerField, List.mem_append, List.mem_cons, List.mem_cons]
  rintro (hmem | hmem | hmem | hmem)
  · exact h hmem
  · cases hmem
  · cases hmem
  · exact h' hmem

/-- The list of the fields is split at its commas. -/
theorem splitOn_fields {headers : List (String × String)} (h : Listable headers)
    (hne : headers ≠ []) :
    (",".intercalate (headers.map headerField)).toList.splitOn ',' =
      (headers.map headerField).map String.toList := by
  rw [String.toList_intercalate]
  refine List.splitOn_intercalate ',' ?_ (by simpa using hne)
  intro text htext
  simp only [List.map_map, List.mem_map, Function.comp] at htext
  obtain ⟨header, hmem, rfl⟩ := htext
  exact notMem_headerField (h header hmem).1 (h header hmem).2.2

theorem map_headerField_injective {headers headers' : List (String × String)}
    (h : Listable headers) (h' : Listable headers')
    (heq : headers.map headerField = headers'.map headerField) : headers = headers' := by
  induction headers generalizing headers' with
  | nil => exact (List.map_eq_nil_iff.mp heq.symm).symm
  | cons header headers ih =>
    cases headers' with
    | nil => cases heq
    | cons header' headers' =>
      rw [Listable, List.forall_mem_cons] at h h'
      rw [List.map_cons, List.map_cons, List.cons.injEq] at heq
      rw [headerField_injective h.1.2.1 h'.1.2.1 heq.1, ih h.2 h'.2 heq.2]

theorem loadfileCommand_injective {target target' : StreamTarget} (h : Listable target.headers)
    (h' : Listable target'.headers) (heq : loadfileCommand target = loadfileCommand target') :
    target = target' := by
  obtain ⟨url, headers⟩ := target
  obtain ⟨url', headers'⟩ := target'
  unfold loadfileCommand at heq
  dsimp only at h h' heq
  split at heq
  · next hnil =>
    split at heq
    · next hnil' =>
      cases heq
      rw [hnil, hnil']
    · cases heq
  · next hne =>
    split at heq
    · cases heq
    · next hne' =>
      simp only [Value.array.injEq, List.cons.injEq, Value.string.injEq, Value.object.injEq,
        Prod.mk.injEq, true_and, and_true] at heq
      have hsplit := congrArg (fun text => text.toList.splitOn ',') heq.2
      rw [splitOn_fields h hne, splitOn_fields h' hne'] at hsplit
      have hfields := List.map_injective_iff.mpr (fun _ _ => String.toList_injective) hsplit
      rw [heq.1, map_headerField_injective h h' hfields]

theorem Request.command_injective {r r' : Request} (h : r.Sendable) (h' : r'.Sendable)
    (heq : r.command = r'.command) : r = r' := by
  have hname : ∀ {target : StreamTarget} {name : String} {arguments : List (Value String)},
      name ≠ "loadfile" → loadfileCommand target ≠ .array (.string name :: arguments) := by
    intro target name arguments hne hcommand
    unfold loadfileCommand at hcommand
    split at hcommand
    all_goals
      cases hcommand
      exact hne rfl
  cases r <;> cases r'
  case observeProperty.observeProperty id property id' property' =>
    simp only [command, Value.array.injEq, List.cons.injEq, Value.string.injEq, true_and,
      and_true] at heq
    rw [Value.ofNat_injective heq.1, heq.2]
  case load.load target target' => rw [loadfileCommand_injective h h' heq]
  case load.observeProperty | load.setPause | load.stop | load.quit =>
    exact absurd heq (hname (by decide))
  case observeProperty.load | setPause.load | stop.load | quit.load =>
    exact absurd heq.symm (hname (by decide))
  case setPause.setPause => cases heq; rfl
  case stop.stop | quit.quit => rfl
  all_goals simp [command] at heq

theorem message_injective {command command' : Value String} {requestId requestId' : UInt64}
    (h : message command requestId = message command' requestId') :
    command = command' ∧ requestId = requestId' := by
  simp only [message, Value.object.injEq, List.cons.injEq, Prod.mk.injEq, true_and, and_true] at h
  exact ⟨h.1, UInt64.toNat_inj.mp (Value.ofNat_injective h.2)⟩

/-- The bytes are these requests, each with its number, one a line; the line that has not ended is
not looked at. -/
def Sends (bytes : List UInt8) (calls : List (Request × UInt64)) : Prop :=
  (completeLines bytes).map Value.fromSlice = calls.map fun c => some (message c.1.command c.2)

theorem notMem_message (r : Request) (requestId : UInt64) :
    10 ∉ (message r.command requestId).toVec :=
  Value.notMem_toVec (message_wellFormed r.command_wellFormed requestId)

theorem Sends.of_flatMap (calls : List (Request × UInt64)) {rest : List UInt8} (h : 10 ∉ rest) :
    Sends (calls.flatMap (fun c => line c.1.command c.2) ++ rest) calls := by
  have hmessages : ∀ text ∈ calls.map fun c => (message c.1.command c.2).toVec, 10 ∉ text := by
    intro text htext
    obtain ⟨c, -, rfl⟩ := List.mem_map.mp htext
    exact notMem_message c.1 c.2
  have hlines : completeLines (calls.flatMap (fun c => line c.1.command c.2) ++ rest) =
      calls.map fun c => (message c.1.command c.2).toVec := by
    have hmap := completeLines_flatMap hmessages h
    rwa [List.flatMap_map] at hmap
  rw [Sends, hlines, List.map_map]
  refine List.map_congr_left fun c _ => ?_
  rw [Function.comp, Value.fromSlice_toVec (message_wellFormed c.1.command_wellFormed c.2)]

/-- The bytes say what was sent. -/
theorem Sends.unique {bytes : List UInt8} {calls calls' : List (Request × UInt64)}
    (hcalls : Sends bytes calls) (hcalls' : Sends bytes calls')
    (h : ∀ c ∈ calls, c.1.Sendable) (h' : ∀ c ∈ calls', c.1.Sendable) : calls = calls' := by
  have heq := hcalls.symm.trans hcalls'
  clear hcalls hcalls'
  induction calls generalizing calls' with
  | nil => exact (List.map_eq_nil_iff.mp heq.symm).symm
  | cons c calls ih =>
    cases calls' with
    | nil => cases heq
    | cons c' calls' =>
      rw [List.forall_mem_cons] at h h'
      rw [List.map_cons, List.map_cons, List.cons.injEq, Option.some.injEq] at heq
      obtain ⟨hcommand, hid⟩ := message_injective heq.1
      rw [Prod.ext (Request.command_injective h.1 h'.1 hcommand) hid, ih h.2 h'.2 heq.2]

/-- A comma in the value of a header is read as the end of the header. -/
example : (Request.load ⟨"https://x/stream", [("A", "1,B: 2")]⟩).command =
    (Request.load ⟨"https://x/stream", [("A", "1"), ("B", "2")]⟩).command := rfl

end Rsc.Player.Commands

import Rsc.Library.Channel
import Rsc.Library.Fair
import Rsc.Library.Json
import Rsc.Player.Session

/-!
The events of `mpv`: `read_events` and `parse_message` in `rsc/src/player/mpv.rs`. A task reads
the lines that `mpv` writes and sends the events among them over a bounded channel. A position
is dropped when the channel is full; the task waits to send anything else.
-/

namespace Rsc.Player

open Rsc.Library
open Rsc.Library.Json (Value)

/-! ## Messages -/

variable {N F : Type}

/-- What is used of `serde_json`: its parser, and the `f64` of a number. -/
structure SerdeJson (N F : Type) where
  fromStr : String → Option (Value N)
  numberAsF64 : N → Option F

def SerdeJson.asF64 (json : SerdeJson N F) : Value N → Option F
  | .number n => json.numberAsF64 n
  | _ => none

/-- `PlayerEvent`, with the seconds. -/
inductive TimedEvent (F : Type)
  | endFile (reason : EndReason)
  | position (seconds : F)
  | duration (seconds : F)
  | paused (paused : Bool)

def TimedEvent.isPosition : TimedEvent F → Bool
  | .position _ => true
  | _ => false

inductive Message (F : Type)
  | event (event : TimedEvent F)
  | reply (error : String)

def endReason : String → EndReason
  | "eof" => .eof
  | "stop" => .stop
  | "quit" => .quit
  | "error" => .error
  | _ => .other

def parseMessage (json : SerdeJson N F) (line : String) : Option (Message F) := do
  let value ← json.fromStr line
  match (value.get "event").bind Value.asStr with
  | none =>
      let error ← (← value.get "error").asStr
      return .reply error
  | some "end-file" =>
      let reason := ((value.get "reason").bind Value.asStr).getD ""
      return .event (.endFile (endReason reason))
  | some "property-change" =>
      let data ← value.get "data"
      match ← (← value.get "name").asStr with
      | "time-pos" => return .event (.position (← json.asF64 data))
      | "duration" => return .event (.duration (← json.asF64 data))
      | "pause" => return .event (.paused (← data.asBool))
      | _ => none
  | some _ => none

def eventOf : Message F → Option (TimedEvent F)
  | .event event => some event
  | .reply _ => none

/-- A line that `mpv` writes, without its end. -/
structure Line where
  text : String
  whole : '\n' ∉ text.toList

/-- What `next_line` makes of it: a carriage return before the end is not part of the line. -/
def Line.content (line : Line) : String :=
  match line.text.toList.reverse with
  | '\r' :: rest => .ofList rest.reverse
  | _ => line.text

/-- The events among the lines. -/
def events (json : SerdeJson N F) (lines : List Line) : List (TimedEvent F) :=
  lines.filterMap fun line => (parseMessage json line.content).bind eventOf

theorem events_append (json : SerdeJson N F) (lines lines' : List Line) :
    events json (lines ++ lines') = events json lines ++ events json lines' :=
  List.filterMap_append

/-! ## The task and its channel -/

/-- Where the task is: at `next_line`, at `send`, or behind its loop. -/
inductive Task (F : Type)
  | reading
  | sending (event : TimedEvent F)
  | stopped

abbrev capacity : Nat := 64

/-- `read` and `unread` are the lines that `mpv` has written, `closed` says that the receiver is
gone, and `warnings` are the errors that were logged. -/
structure Feed (F : Type) where
  read : List Line
  unread : List Line
  exited : Bool
  task : Task F
  channel : Channel (TimedEvent F) capacity
  closed : Bool
  received : List (TimedEvent F)
  warnings : List String

/-- `mpv` writes and exits, the task reads and sends, and the consumer receives and drops its
receiver. -/
inductive Feed.Label
  | write (line : Line)
  | exit
  | read
  | send
  | receive
  | hangUp

/-- One round of `read_events`, up to a `send`. -/
def Feed.handle (w : Feed F) : Option (Message F) → Feed F
  | some (.event (.position seconds)) =>
      if w.closed then w else { w with channel := w.channel.trySend (.position seconds) }
  | some (.event event) => { w with task := .sending event }
  | some (.reply error) =>
      if error ≠ "success" then { w with warnings := w.warnings ++ [error] } else w
  | none => w

inductive Feed.Step (json : SerdeJson N F) (w : Feed F) : Feed.Label → Feed F → Prop
  | write (line : Line) (h : w.exited = false) :
      Step json w (.write line) { w with unread := w.unread ++ [line] }
  | exit : Step json w .exit { w with exited := true }
  | read {line : Line} {lines : List Line} (htask : w.task = .reading)
      (h : w.unread = line :: lines) :
      Step json w .read (Feed.handle { w with read := w.read ++ [line], unread := lines }
        (parseMessage json line.content))
  | eof (htask : w.task = .reading) (h : w.unread = []) (hexited : w.exited = true) :
      Step json w .read { w with task := .stopped }
  | send {event : TimedEvent F} (htask : w.task = .sending event) (hopen : w.closed = false)
      (hroom : w.channel.HasRoom) :
      Step json w .send { w with task := .reading, channel := w.channel.send event hroom }
  | refused {event : TimedEvent F} (htask : w.task = .sending event) (hclosed : w.closed = true) :
      Step json w .send { w with task := .stopped }
  | receive {event : TimedEvent F} {queue : List (TimedEvent F)} (hopen : w.closed = false)
      (h : w.channel.queue = event :: queue) :
      Step json w .receive { w with
        channel := w.channel.tail
        received := w.received ++ [event] }
  | hangUp : Step json w .hangUp { w with closed := true }

/-- `mpv` was just spawned. -/
def Feed.spawn : Feed F where
  read := []
  unread := []
  exited := false
  task := .reading
  channel := .empty
  closed := false
  received := []
  warnings := []

namespace Feed

variable {json : SerdeJson N F} {w w' : Feed F} {l : Label}

def written (w : Feed F) : List Line := w.read ++ w.unread

def pending (w : Feed F) : List (TimedEvent F) :=
  match w.task with
  | .sending event => [event]
  | _ => []

/-- What was received, and what is on its way. -/
def stream (w : Feed F) : List (TimedEvent F) := w.received ++ (w.channel.queue ++ w.pending)

/-- What one round does: the event of the line is dropped, queued, or sent next. -/
theorem handle_spec (hopen : w.closed = false) (htask : w.task = .reading)
    (message : Option (Message F)) : ∃ task channel warnings,
      w.handle message = { w with task := task, channel := channel, warnings := warnings } ∧
      ((task = .reading ∧ channel.queue = w.channel.queue ∧
          Thinned TimedEvent.isPosition (message.bind eventOf).toList []) ∨
        (task = .reading ∧ ∃ event, channel.queue = w.channel.queue ++ [event] ∧
          message.bind eventOf = some event) ∨
        ∃ event, task = .sending event ∧ channel = w.channel ∧
          message.bind eventOf = some event) := by
  match message with
  | none => exact ⟨_, _, _, rfl, .inl ⟨htask, rfl, .refl _⟩⟩
  | some (.reply error) =>
    rw [handle]
    split
    · exact ⟨_, _, _, rfl, .inl ⟨htask, rfl, .refl _⟩⟩
    · exact ⟨_, _, _, rfl, .inl ⟨htask, rfl, .refl _⟩⟩
  | some (.event (.position seconds)) =>
    refine ⟨w.task, w.channel.trySend (.position seconds), w.warnings, by simp [handle, hopen], ?_⟩
    obtain hsent | hfull := Channel.queue_trySend (c := w.channel) (a := .position seconds)
    · exact .inr (.inl ⟨htask, _, hsent, rfl⟩)
    · exact .inl ⟨htask, hfull, .dropped rfl⟩
  | some (.event (.endFile _)) | some (.event (.duration _)) | some (.event (.paused _)) =>
    exact ⟨_, _, _, rfl, .inr (.inr ⟨_, rfl, rfl, rfl⟩)⟩

/-- The receiver is there, and the task stops at the end of the file only. -/
structure Live (w : Feed F) : Prop where
  listens : w.closed = false
  stopped : w.task = .stopped → w.exited = true ∧ w.unread = []

/-- What may happen to a feed: the events that are read reach the stream, some positions
apart. -/
structure Extends (json : SerdeJson N F) (w w' : Feed F) : Prop where
  written : w.written <+: w'.written
  stream : ∃ new sent, Thinned TimedEvent.isPosition new sent ∧
    events json w'.read = events json w.read ++ new ∧ w'.stream = w.stream ++ sent

theorem Extends.refl (w : Feed F) : Extends json w w :=
  ⟨List.prefix_rfl, [], [], .refl [], by simp, by simp⟩

theorem Extends.trans {w'' : Feed F} (h : Extends json w w') (h' : Extends json w' w'') :
    Extends json w w'' := by
  obtain ⟨hwritten, new, sent, hthinned, hread, hstream⟩ := h
  obtain ⟨hwritten', new', sent', hthinned', hread', hstream'⟩ := h'
  refine ⟨hwritten.trans hwritten', new ++ new', sent ++ sent', hthinned.append hthinned', ?_, ?_⟩
  · rw [hread', hread, List.append_assoc]
  · rw [hstream', hstream, List.append_assoc]

theorem Step.live (h : Step json w l w') (hl : l ≠ .hangUp) (hlive : w.Live) : w'.Live := by
  cases h with
  | write line hexited =>
    refine ⟨hlive.listens, fun hstopped => ?_⟩
    rw [(hlive.stopped hstopped).1] at hexited
    cases hexited
  | exit => exact ⟨hlive.listens, fun hstopped => ⟨rfl, (hlive.stopped hstopped).2⟩⟩
  | @read line lines htask hunread =>
    obtain ⟨task, channel, warnings, heq, hcases⟩ :=
      handle_spec (w := { w with read := w.read ++ [line], unread := lines }) hlive.listens htask
        (parseMessage json line.content)
    rw [heq]
    refine ⟨hlive.listens, fun hstopped => ?_⟩
    obtain ⟨rfl, -⟩ | ⟨rfl, -⟩ | ⟨event, rfl, -⟩ := hcases <;> cases hstopped
  | eof htask hunread hexited => exact ⟨hlive.listens, fun _ => ⟨hexited, hunread⟩⟩
  | send htask hopen hroom => exact ⟨hopen, fun hstopped => by cases hstopped⟩
  | refused htask hclosed =>
    rw [hlive.listens] at hclosed
    cases hclosed
  | receive hopen hqueue => exact ⟨hopen, hlive.stopped⟩
  | hangUp => exact (hl rfl).elim

/-- What one step does. -/
theorem Step.extended (h : Step json w l w') (hl : l ≠ .hangUp) (hlive : w.Live) :
    Extends json w w' := by
  cases h with
  | write line hexited =>
    refine ⟨⟨[line], by simp [Feed.written]⟩, [], [], .refl [], by simp, ?_⟩
    simp [Feed.stream, pending]
  | exit => exact ⟨List.prefix_rfl, [], [], .refl [], by simp, by simp [Feed.stream, pending]⟩
  | @read line lines htask hunread =>
    obtain ⟨task, channel, warnings, heq, hcases⟩ :=
      handle_spec (w := { w with read := w.read ++ [line], unread := lines }) hlive.listens htask
        (parseMessage json line.content)
    rw [heq]
    refine ⟨by simp [Feed.written, hunread], ?_⟩
    have hevents : events json (w.read ++ [line]) = events json w.read ++
        ((parseMessage json line.content).bind eventOf).toList := by
      rw [events_append]
      cases hevent : (parseMessage json line.content).bind eventOf <;> simp [events, hevent]
    obtain ⟨rfl, hqueue, hthinned⟩ | ⟨rfl, event, hqueue, hevent⟩ | ⟨event, rfl, rfl, hevent⟩ :=
      hcases
    · refine ⟨_, [], hthinned, hevents, ?_⟩
      simp [Feed.stream, hqueue, pending, htask]
    · refine ⟨_, [event], .refl _, by rw [hevents, hevent]; rfl, ?_⟩
      simp [Feed.stream, hqueue, pending, htask]
    · refine ⟨_, [event], .refl _, by rw [hevents, hevent]; rfl, ?_⟩
      simp [Feed.stream, pending, htask]
  | eof htask hunread hexited =>
    refine ⟨List.prefix_rfl, [], [], .refl [], by simp, ?_⟩
    simp [Feed.stream, pending, htask]
  | send htask hopen hroom =>
    refine ⟨List.prefix_rfl, [], [], .refl [], by simp, ?_⟩
    simp [Feed.stream, pending, htask, Channel.send]
  | refused htask hclosed =>
    rw [hlive.listens] at hclosed
    cases hclosed
  | receive hopen hqueue =>
    refine ⟨List.prefix_rfl, [], [], .refl [], by simp, ?_⟩
    simp [Feed.stream, pending, hqueue, Channel.tail]
  | hangUp => exact (hl rfl).elim

/-! ## Fair schedules -/

inductive Agent
  | task
  | consumer

def Label.agent : Label → Option Agent
  | .read | .send => some .task
  | .receive => some .consumer
  | _ => none

/-! ### The lines are read -/

/-- How far the task is from `next_line`: two steps if the channel is full. -/
def waiting (w : Feed F) : Nat :=
  match w.task with
  | .sending _ => if w.channel.HasRoom then 1 else 2
  | _ => 0

def readRank (count : Nat) (w : Feed F) : Nat := 3 * (count - w.read.length) + w.waiting

/-- Who must move for the next line to be read. -/
def readHelper (w : Feed F) : Agent :=
  match w.task with
  | .sending _ => if w.channel.HasRoom then .task else .consumer
  | _ => .task

theorem waiting_le (w : Feed F) : w.waiting ≤ 2 := by
  rw [waiting]
  split
  · split <;> omega
  · omega

/-- Short of the lines that are written, the helper has a step. -/
theorem readHelper_enabled {count : Nat} (hlive : w.Live) (hwritten : count ≤ w.written.length)
    (hshort : w.read.length < count) : Enabled (Step json) Label.agent w.readHelper w := by
  rw [Feed.written, List.length_append] at hwritten
  have hunread : w.unread ≠ [] := by
    intro hnil
    rw [hnil, List.length_nil] at hwritten
    omega
  cases htask : w.task with
  | stopped => exact (hunread (hlive.stopped htask).2).elim
  | reading =>
    obtain ⟨line, lines, hcons⟩ := List.exists_cons_of_ne_nil hunread
    exact ⟨.read, _, by rw [readHelper, htask]; rfl, .read htask hcons⟩
  | sending event =>
    by_cases hroom : w.channel.HasRoom
    · exact ⟨.send, _, by simp [readHelper, htask, hroom, Label.agent],
        .send htask hlive.listens hroom⟩
    · have hqueue : w.channel.queue ≠ [] := fun hnil =>
        hroom (Channel.hasRoom_of_nil (by decide) hnil)
      obtain ⟨event, queue, hcons⟩ := List.exists_cons_of_ne_nil hqueue
      exact ⟨.receive, _, by simp [readHelper, htask, hroom, Label.agent],
        .receive hlive.listens hcons⟩

/-- The task and the consumer together read the lines that are written. -/
theorem ranking_read (json : SerdeJson N F) (count : Nat) : Ranking (Step json) Label.agent
    (fun w => w.Live ∧ count ≤ w.written.length) (fun w => count ≤ w.read.length)
    (readRank count) readHelper := by
  constructor
  · exact fun w hw hnot => readHelper_enabled hw.1 hw.2 (Nat.lt_of_not_le hnot)
  · rintro w l w' ⟨hlive, hwritten⟩ hnot hstep
    rw [Feed.written, List.length_append] at hwritten
    cases hstep with
    | write line hexited => exact .inr ⟨rfl, rfl, by simp [Label.agent]⟩
    | exit | hangUp => exact .inr ⟨rfl, rfl, by simp [Label.agent]⟩
    | @read line lines htask hunread =>
      obtain ⟨task, channel, warnings, heq, -⟩ :=
        handle_spec (w := { w with read := w.read ++ [line], unread := lines }) hlive.listens
          htask (parseMessage json line.content)
      rw [heq]
      left
      refine Nat.lt_of_le_of_lt (Nat.add_le_add_left (waiting_le _) _) ?_
      simp only [readRank, List.length_append, List.length_singleton]
      omega
    | eof htask hunread hexited =>
      rw [hunread, List.length_nil] at hwritten
      exact (hnot (by omega)).elim
    | send htask hopen hroom =>
      left
      simp [readRank, waiting, htask, hroom]
    | refused htask hclosed =>
      rw [hlive.listens] at hclosed
      cases hclosed
    | receive hopen hqueue =>
      have htail := Channel.hasRoom_tail hqueue
      cases htask : w.task with
      | reading | stopped =>
        exact .inr ⟨by simp [readRank, waiting, htask], by simp [readHelper, htask],
          by simp [readHelper, htask, Label.agent]⟩
      | sending event =>
        by_cases hroom : w.channel.HasRoom
        · exact .inr ⟨by simp [readRank, waiting, htask, hroom, htail],
            by simp [readHelper, htask, hroom, htail],
            by simp [readHelper, htask, hroom, Label.agent]⟩
        · left
          simp [readRank, waiting, htask, hroom, htail]

/-! ### The stream is received -/

/-- An event in the channel is one step away, and an event that is sent two. -/
def receiveRank (count : Nat) (w : Feed F) : Nat :=
  2 * (count - w.received.length) + if w.channel.queue = [] then 1 else 0

/-- Who must move for the next event to be received. -/
def receiveHelper (w : Feed F) : Agent := if w.channel.queue = [] then .task else .consumer

/-- If there is more to receive and the channel is empty, the task sends. -/
theorem sending_of_short {count : Nat} (hshort : w.received.length < count)
    (hcount : count ≤ w.stream.length) (hqueue : w.channel.queue = []) :
    ∃ event, w.task = .sending event := by
  rw [Feed.stream, hqueue, List.nil_append, List.length_append] at hcount
  cases htask : w.task with
  | sending event => exact ⟨event, rfl⟩
  | reading | stopped =>
    rw [pending, htask, List.length_nil] at hcount
    omega

/-- If there is more to receive and the task reads, it is in the channel. -/
theorem queued_of_short {count : Nat} (hshort : w.received.length < count)
    (hcount : count ≤ w.stream.length) (htask : w.task = .reading) : w.channel.queue ≠ [] := by
  intro hqueue
  obtain ⟨event, hsending⟩ := sending_of_short hshort hcount hqueue
  cases htask.symm.trans hsending

/-- Short of the stream, the helper has a step. -/
theorem receiveHelper_enabled {count : Nat} (hlive : w.Live)
    (hshort : w.received.length < count) (hcount : count ≤ w.stream.length) :
    Enabled (Step json) Label.agent w.receiveHelper w := by
  cases hqueue : w.channel.queue with
  | nil =>
    obtain ⟨event, htask⟩ := sending_of_short hshort hcount hqueue
    exact ⟨.send, _, by simp [receiveHelper, hqueue, Label.agent],
      .send htask hlive.listens (Channel.hasRoom_of_nil (by decide) hqueue)⟩
  | cons event queue =>
    exact ⟨.receive, _, by simp [receiveHelper, hqueue, Label.agent],
      .receive hlive.listens hqueue⟩

/-- The task and the consumer together bring the stream to the consumer. -/
theorem ranking_receive (json : SerdeJson N F) (count : Nat) : Ranking (Step json) Label.agent
    (fun w => w.Live ∧ count ≤ w.stream.length) (fun w => count ≤ w.received.length)
    (receiveRank count) receiveHelper := by
  constructor
  · exact fun w hw hnot => receiveHelper_enabled hw.1 (Nat.lt_of_not_le hnot) hw.2
  · rintro w l w' ⟨hlive, hcount⟩ hnot hstep
    have hqueued := queued_of_short (Nat.lt_of_not_le hnot) hcount
    cases hstep with
    | write line hexited => exact .inr ⟨rfl, rfl, by simp [Label.agent]⟩
    | exit | hangUp => exact .inr ⟨rfl, rfl, by simp [Label.agent]⟩
    | @read line lines htask hunread =>
      have hqueue := hqueued htask
      obtain ⟨task, channel, warnings, heq, hcases⟩ :=
        handle_spec (w := { w with read := w.read ++ [line], unread := lines }) hlive.listens
          htask (parseMessage json line.content)
      have hqueue' : channel.queue ≠ [] := by
        obtain ⟨-, hsame, -⟩ | ⟨-, event, hsame, -⟩ | ⟨event, -, hsame, -⟩ := hcases
        · simp [hsame, hqueue]
        · simp [hsame]
        · simp [hsame, hqueue]
      rw [heq]
      exact .inr ⟨by simp [receiveRank, hqueue, hqueue'], by simp [receiveHelper, hqueue, hqueue'],
        by simp [receiveHelper, hqueue, Label.agent]⟩
    | eof htask hunread hexited =>
      exact .inr ⟨rfl, rfl, by simp [receiveHelper, hqueued htask, Label.agent]⟩
    | send htask hopen hroom =>
      cases hqueue : w.channel.queue with
      | nil =>
        left
        simp [receiveRank, Channel.send, hqueue]
      | cons event queue =>
        exact .inr ⟨by simp [receiveRank, Channel.send, hqueue],
          by simp [receiveHelper, Channel.send, hqueue],
          by simp [receiveHelper, hqueue, Label.agent]⟩
    | refused htask hclosed =>
      rw [hlive.listens] at hclosed
      cases hclosed
    | receive hopen hqueue =>
      left
      simp only [receiveRank, List.length_append, List.length_singleton, hqueue]
      split <;> simp <;> omega

/-! ### Runs -/

variable {run : Schedule (Step json)}

theorem live (hstart : run.state 0 = spawn) (hopen : ∀ n, run.label n ≠ some .hangUp) (n : Nat) :
    (run.state n).Live := by
  refine run.relates (R := fun w w' => w.Live → w'.Live) (fun _ h => h)
    (fun _ _ _ h h' hlive => h' (h hlive)) (fun n _ hlabel => ?_) (Nat.zero_le n) ?_
  · exact (Schedule.step_of_label hlabel).live fun h => hopen n (h ▸ hlabel)
  · rw [hstart]
    exact ⟨rfl, fun h => by cases h⟩

theorem extended (hstart : run.state 0 = spawn) (hopen : ∀ n, run.label n ≠ some .hangUp)
    {n m : Nat} (hle : n ≤ m) : Extends json (run.state n) (run.state m) :=
  run.relates Extends.refl (fun _ _ _ => Extends.trans)
    (fun n _ hlabel => (Schedule.step_of_label hlabel).extended (fun h => hopen n (h ▸ hlabel))
      (live hstart hopen n)) hle

/-- Everything but positions arrives, in order and once. `handled` are the events that were
received or dropped. -/
structure Delivers (run : Schedule (Step json)) : Prop where
  ordered : ∀ n, ∃ handled, handled <+: events json (run.state n).written ∧
    Thinned TimedEvent.isPosition handled (run.state n).received
  arrives : (∀ agent, run.Fair Label.agent agent) → ∀ n, ∃ m handled, n ≤ m ∧
    events json (run.state n).written <+: handled ∧
    handled <+: events json (run.state m).written ∧
    Thinned TimedEvent.isPosition handled (run.state m).received

theorem events_mono (json : SerdeJson N F) {lines lines' : List Line} (h : lines <+: lines') :
    events json lines <+: events json lines' := by
  obtain ⟨rest, rfl⟩ := h
  rw [events_append]
  exact List.prefix_append _ _

/-- Of the events that were read, the stream lacks positions at most. -/
theorem thinned_stream (hstart : run.state 0 = spawn) (hopen : ∀ n, run.label n ≠ some .hangUp)
    (n : Nat) : Thinned TimedEvent.isPosition (events json (run.state n).read)
      (run.state n).stream := by
  obtain ⟨-, new, sent, hthinned, hread, hstream⟩ := extended hstart hopen (Nat.zero_le n)
  rw [hstart] at hread hstream
  rw [hread, hstream]
  exact (Thinned.refl []).append hthinned

/-- Nothing but positions is lost on the way to a consumer that does not hang up, and nothing is
reordered. -/
theorem delivers (hstart : run.state 0 = spawn) (hopen : ∀ n, run.label n ≠ some .hangUp) :
    Delivers run := by
  constructor
  · intro n
    obtain ⟨handled, rest, hsplit, hhandled, -⟩ := (thinned_stream hstart hopen n).split
    refine ⟨handled, ?_, hhandled⟩
    rw [Feed.written, events_append, hsplit, List.append_assoc]
    exact List.prefix_append _ _
  · intro hfair n
    have hlive := live hstart hopen
    -- the lines written so far are read, and then what is in the stream is received
    obtain ⟨m, hm, hread⟩ := run.eventually
      (ranking_read json (run.state n).written.length) hfair (n := n) fun m hm =>
        ⟨hlive m, (extended hstart hopen hm).written.length_le⟩
    obtain ⟨k, hk, hreceived⟩ := run.eventually
      (ranking_receive json (run.state m).stream.length) hfair (n := m) fun k hk => by
        obtain ⟨-, new, sent, -, -, hstream⟩ := extended hstart hopen hk
        exact ⟨hlive k, by simp [hstream]⟩
    obtain ⟨-, new, sent, hthinned, hnew, hsent⟩ := extended hstart hopen hk
    obtain ⟨later, hlater⟩ : (run.state m).stream <+: (run.state k).received :=
      List.prefix_of_prefix_length_le ⟨sent, hsent.symm⟩ (List.prefix_append _ _) hreceived
    -- what was sent after that is received in part
    rw [Feed.stream, ← hlater, List.append_assoc] at hsent
    have hsent := List.append_cancel_left hsent
    rw [← hsent] at hthinned
    obtain ⟨handled, rest, hsplit, hhandled, -⟩ := hthinned.split
    have hwritten : (run.state n).written <+: (run.state m).read :=
      List.prefix_of_prefix_length_le (extended hstart hopen hm).written (List.prefix_append _ _)
        hread
    refine ⟨k, events json (run.state m).read ++ handled, Nat.le_trans hm hk, ?_, ?_, ?_⟩
    · exact (events_mono json hwritten).trans (List.prefix_append _ _)
    · rw [Feed.written, events_append, hnew, hsplit]
      simp only [List.append_assoc]
      exact List.prefix_append_right_inj _ |>.mpr (List.prefix_append _ _)
    · rw [← hlater]
      exact (thinned_stream hstart hopen m).append hhandled

/-! ### A full channel -/

def pauseLine : Line :=
  ⟨"\x7b\"event\":\"property-change\",\"name\":\"pause\",\"data\":true\x7d", by decide⟩

def replyLine : Line := ⟨"\x7b\"request_id\":1,\"error\":\"success\"\x7d", by decide⟩

def tickLine : Line :=
  ⟨"\x7b\"event\":\"property-change\",\"name\":\"time-pos\",\"data\":1\x7d", by decide⟩

def endLine : Line := ⟨"\x7b\"event\":\"end-file\",\"reason\":\"eof\"\x7d", by decide⟩

/-- The parser, on these lines. -/
def sampleJson : SerdeJson Nat Nat where
  fromStr text := List.lookup text
    [(pauseLine.text, .object [("event", .string "property-change"), ("name", .string "pause"),
        ("data", .bool true)]),
      (replyLine.text, .object [("request_id", .number 1), ("error", .string "success")]),
      (tickLine.text, .object [("event", .string "property-change"), ("name", .string "time-pos"),
        ("data", .number 1)]),
      (endLine.text, .object [("event", .string "end-file"), ("reason", .string "eof")])]
  numberAsF64 := some

/-- The consumer empties the channel. -/
theorem steps_receive (hopen : w.closed = false) :
    Steps (Step json) w (List.replicate w.channel.queue.length .receive)
      { w with channel := .empty, received := w.received ++ w.channel.queue } := by
  generalize hqueue : w.channel.queue = queue
  induction queue generalizing w with
  | nil =>
    have hempty : w.channel = .empty := Channel.ext hqueue
    rw [List.append_nil, ← hempty]
    exact .nil
  | cons event queue ih =>
    have htail : w.channel.tail.queue = queue := congrArg List.tail hqueue
    have hrest := ih (w := { w with
      channel := w.channel.tail
      received := w.received ++ [event] }) hopen htail
    rw [List.append_assoc] at hrest
    exact .cons (.receive hopen hqueue) hrest

/-- A position that comes is tried. -/
theorem steps_tick {line : Line} {seconds : F}
    (hline : parseMessage json line.content = some (.event (.position seconds)))
    (hopen : w.closed = false) (htask : w.task = .reading) (hunread : w.unread = [])
    (hrunning : w.exited = false) : Steps (Step json) w [.write line, .read] { w with
      read := w.read ++ [line]
      channel := w.channel.trySend (.position seconds) } := by
  have hnext : w.unread ++ [line] = line :: w.unread := by
    rw [hunread]
    rfl
  have hread : Step json { w with unread := w.unread ++ [line] } .read _ := .read htask hnext
  rw [hline, handle, if_neg (ne_true_of_eq_false hopen)] at hread
  exact .cons (.write line hrunning) (.cons hread .nil)

/-- Positions come while the consumer sleeps: the channel takes what it has room for. -/
theorem steps_ticks {line : Line} {seconds : F}
    (hline : parseMessage json line.content = some (.event (.position seconds)))
    (hopen : w.closed = false) (htask : w.task = .reading) (hunread : w.unread = [])
    (hrunning : w.exited = false) (hempty : w.channel.queue = []) (count : Nat) :
    ∃ channel, Steps (Step json) w (List.replicate count [.write line, .read]).flatten
        { w with read := w.read ++ List.replicate count line, channel := channel } ∧
      channel.queue = List.replicate (min count capacity) (.position seconds) := by
  induction count with
  | zero =>
    refine ⟨w.channel, ?_, hempty⟩
    rw [List.replicate_zero, List.replicate_zero, List.append_nil, List.flatten_nil]
    exact .nil
  | succ count ih =>
    obtain ⟨channel, hsteps, hqueue⟩ := ih
    refine ⟨channel.trySend (.position seconds), ?_, ?_⟩
    · rw [List.replicate_succ', List.flatten_concat, List.replicate_succ', ← List.append_assoc]
      exact hsteps.append (steps_tick hline hopen htask hunread hrunning)
    · by_cases hroom : channel.HasRoom
      · rw [Channel.trySend_of_hasRoom hroom, hqueue]
        rw [Channel.HasRoom, hqueue, List.length_replicate] at hroom
        rw [Nat.min_eq_left (by omega), Nat.min_eq_left (by omega), ← List.replicate_succ']
      · rw [Channel.trySend_of_full hroom, hqueue]
        rw [Channel.HasRoom, hqueue, List.length_replicate] at hroom
        rw [Nat.min_eq_right (by omega), Nat.min_eq_right (by omega)]

/-- The pause was received, and the reply was ignored. -/
def paused : Feed Nat :=
  { spawn with read := [pauseLine, replyLine], received := [.paused true] }

/-- Everything has happened: one position more came than the channel has room for. -/
def crowded : Feed Nat where
  read := [pauseLine, replyLine] ++ List.replicate (capacity + 1) tickLine ++ [endLine]
  unread := []
  exited := true
  task := .stopped
  channel := .empty
  closed := false
  received := .paused true :: List.replicate capacity (.position 1) ++ [.endFile .eof]
  warnings := []

theorem events_crowded : events sampleJson crowded.written =
    .paused true :: List.replicate (capacity + 1) (.position 1) ++ [.endFile .eof] := by
  have hticks : events sampleJson (List.replicate (capacity + 1) tickLine) =
      List.replicate (capacity + 1) (.position 1) := List.filterMap_replicate_of_some rfl
  have hwritten : crowded.written =
      [pauseLine, replyLine] ++ List.replicate (capacity + 1) tickLine ++ [endLine] :=
    List.append_nil _
  rw [hwritten, events_append, events_append, hticks]
  rfl

/-- A pause, a reply, positions while the consumer sleeps, and the end of a file. -/
theorem steps_crowded : ∃ ls, Steps (Step sampleJson) spawn ls crowded ∧ .hangUp ∉ ls := by
  have hpause : Steps (Step sampleJson) spawn
      [.write pauseLine, .write replyLine, .read, .send, .read, .receive] paused :=
    .cons (.write _ rfl) (.cons (.write _ rfl) (.cons (.read rfl rfl)
      (.cons (.send rfl rfl (by decide)) (.cons (.read rfl rfl) (.cons (.receive rfl rfl) .nil)))))
  have htick : parseMessage sampleJson tickLine.content = some (.event (.position 1)) := rfl
  obtain ⟨channel, hticks, hqueue⟩ :=
    steps_ticks (w := paused) htick rfl rfl rfl rfl rfl (capacity + 1)
  -- the task waits for room to send the end of the file
  have hend : ∃ w, Steps (Step sampleJson) paused ((List.replicate (capacity + 1)
      [.write tickLine, .read]).flatten ++ [.write endLine, .read, .receive, .send]) w ∧
      w.closed = false ∧ w.received ++ w.channel.queue = crowded.received ∧
      { w with channel := .empty, received := crowded.received } =
        { crowded with task := .reading, exited := false } := by
    refine ⟨_, hticks.append (.cons (.write endLine rfl) (.cons (.read rfl rfl)
      (.cons (.receive rfl hqueue) (.cons (.send rfl rfl (Channel.hasRoom_tail hqueue)) .nil)))),
      rfl, ?_, rfl⟩
    show [.paused true] ++ [.position 1] ++ (channel.queue.tail ++ [.endFile .eof]) = _
    rw [hqueue]
    rfl
  obtain ⟨w, hend, hopen, hreceived, hlast⟩ := hend
  have hdrain : Steps (Step sampleJson) w _ _ := steps_receive hopen
  rw [hreceived, hlast] at hdrain
  have hexit : Steps (Step sampleJson) { crowded with task := .reading, exited := false }
      [.exit, .read] crowded := .cons .exit (.cons (.eof rfl rfl rfl) .nil)
  refine ⟨_, hpause.append (hend.append (hdrain.append hexit)), ?_⟩
  simp

theorem exists_crowded : ∃ (run : Schedule (Step sampleJson)) (n : Nat),
    run.state 0 = spawn ∧ (∀ m, run.label m ≠ some .hangUp) ∧
    (∀ agent, run.Fair Label.agent agent) ∧ run.state n = crowded := by
  obtain ⟨ls, hsteps, hopen⟩ := steps_crowded
  obtain ⟨run, hstart, hrest, hlabel⟩ :=
    Schedule.exists_prepended (.idle crowded) hsteps rfl
  refine ⟨run, ls.length, hstart, fun n hn => ?_, fun agent n henabled => ?_, hrest 0⟩
  · obtain hmem | ⟨_, hidle⟩ := hlabel n _ hn
    · exact hopen hmem
    · cases hidle
  · obtain ⟨l, w, hagent, hstep⟩ := henabled (ls.length + n) (Nat.le_add_left n _)
    rw [hrest n] at hstep
    have hstep : Step sampleJson crowded l w := hstep
    cases hstep with
    | write | exit | hangUp => cases hagent
    | read htask => cases htask
    | eof htask => cases htask
    | send htask => cases htask
    | refused htask => cases htask
    | receive hopen hqueue => cases hqueue

/-- Nothing is lost but the position that the channel had no room for. -/
theorem delivers_crowded : ∃ (run : Schedule (Step sampleJson)) (n : Nat), Delivers run ∧
    (∀ agent, run.Fair Label.agent agent) ∧
    events sampleJson (run.state n).written =
      .paused true :: List.replicate (capacity + 1) (.position 1) ++ [.endFile .eof] ∧
    (run.state n).received =
      .paused true :: List.replicate capacity (.position 1) ++ [.endFile .eof] := by
  obtain ⟨run, n, hstart, hopen, hfair, hn⟩ := exists_crowded
  refine ⟨run, n, delivers hstart hopen, hfair, ?_, ?_⟩
  · rw [hn, events_crowded]
  · rw [hn]
    rfl

end Feed

end Rsc.Player

import Rsc.App.Main
import Rsc.Player.Reader

/-!
Positions are disposable: the task that reads the events of `mpv` drops a position when the
channel is full, and the command does what it would do if every event had reached it.
-/

namespace Rsc.Player

/-- What a session is given of an event: not its seconds. -/
def TimedEvent.event {F : Type} : TimedEvent F → PlayerEvent
  | .endFile reason => .endFile reason
  | .position _ => .position
  | .duration _ => .duration
  | .paused value => .paused value

end Rsc.Player

namespace Rsc.App

open Rsc.Library
open Rsc.Player (PlayerEvent Session TimedEvent SerdeJson Feed events)

/-! ## A loop without positions -/

def isTick : PlayerEvent → Bool
  | .position => true
  | _ => false

/-- The event that the loop got. -/
def Wake.got : Wake → Option PlayerEvent
  | .event got => got
  | .item _ | .signal => none

def Wake.isTick (wake : Wake) : Bool := wake.got.any App.isTick

variable {wakes wakes' : List Wake}

/-- A position changes nothing, and nothing is printed. -/
theorem loop_tick (interactive : Bool) (wakes : List Wake) :
    loop interactive (.event (some .position) :: wakes) = loop interactive wakes := by
  funext s
  change (if s.queue.position ≠ s.queue.position then (_ : Main Progress)
    else loop interactive wakes) s = _
  rw [if_neg (not_not.mpr rfl)]

theorem eq_tick {wake : Wake} (h : wake.isTick = true) : wake = .event (some .position) := by
  cases wake with
  | item | signal => simp [Wake.isTick, Wake.got] at h
  | event event =>
    match event with
    | some .position => rfl
    | none | some (.endFile _) | some .duration | some (.paused _) =>
      simp [Wake.isTick, Wake.got, App.isTick] at h

theorem loop_cons (interactive : Bool) (wake : Wake)
    (h : loop interactive wakes = loop interactive wakes') :
    loop interactive (wake :: wakes) = loop interactive (wake :: wakes') := by
  simp only [loop, h]

theorem loop_filter (interactive : Bool) (wakes : List Wake) :
    loop interactive (wakes.filter (!Wake.isTick ·)) = loop interactive wakes := by
  induction wakes with
  | nil => rfl
  | cons wake wakes ih =>
    by_cases htick : wake.isTick = true
    · rw [List.filter_cons_of_neg (by simp [htick]), eq_tick htick, loop_tick, ih]
    · rw [List.filter_cons_of_pos (by simp [htick])]
      exact loop_cons interactive wake ih

/-- Whatever positions are left out, the command does the same. -/
theorem play_thinned (h : Thinned Wake.isTick wakes wakes') (debug : String → String)
    (query : String) (mpvArgs : List String) :
    play debug query mpvArgs wakes = play debug query mpvArgs wakes' := by
  have hloop : ∀ interactive, loop interactive wakes = loop interactive wakes' :=
    fun interactive => by rw [← loop_filter, ← h.kept, loop_filter]
  simp only [play, run, playback, hloop]

/-! ## What the task delivers -/

/-- The task has seen the end of the file, and the consumer the end of the channel. -/
def Drained {F : Type} (w : Feed F) : Prop := w.task = .stopped ∧ w.channel.queue = []

/-- What was handled of the events that `mpv` has written: they are the first ones, the consumer
received all but positions of them, and all of them once the channel is drained. -/
structure Handled {N F : Type} (json : SerdeJson N F) (w : Feed F)
    (handled : List (TimedEvent F)) : Prop where
  first : handled <+: events json w.written
  thinned : Thinned TimedEvent.isPosition handled w.received
  drained : Drained w → handled = events json w.written

variable {N F : Type} {json : SerdeJson N F} {feed : Schedule (Feed.Step json)}

theorem Handled.exists (hstart : feed.state 0 = Feed.spawn)
    (hopen : ∀ n, feed.label n ≠ some .hangUp) (n : ℕ) :
    ∃ handled, Handled json (feed.state n) handled := by
  have hstream := Feed.thinned_stream hstart hopen n
  by_cases hdrained : Drained (feed.state n)
  · obtain ⟨hstopped, hqueue⟩ := hdrained
    have hread : (feed.state n).written = (feed.state n).read := by
      rw [Feed.written, ((Feed.live hstart hopen n).stopped hstopped).2, List.append_nil]
    refine ⟨events json (feed.state n).read, by rw [hread], ?_, fun _ => by rw [hread]⟩
    rwa [Feed.stream, Feed.pending, hstopped, hqueue, List.append_nil, List.append_nil] at hstream
  · obtain ⟨handled, rest, hsplit, hhandled, -⟩ := hstream.split
    refine ⟨handled, ?_, hhandled, fun h => absurd h hdrained⟩
    rw [Feed.written, Player.events_append, hsplit, List.append_assoc]
    exact List.prefix_append _ _

/-- **Progress ticks are disposable.** Whatever `mpv` writes and however the task, the channel and
the command are scheduled: what the command does with the events it receives, among keys and
signals, is what it does with all the events that `mpv` wrote up to there, the dropped positions
put back. -/
theorem ticks_disposable (hstart : feed.state 0 = Feed.spawn)
    (hopen : ∀ n, feed.label n ≠ some .hangUp) (n : ℕ)
    (hwakes : wakes.filterMap Wake.got = (feed.state n).received.map TimedEvent.event) :
    ∃ handled all, Handled json (feed.state n) handled ∧
      all.filterMap Wake.got = handled.map TimedEvent.event ∧ Thinned Wake.isTick all wakes ∧
      ∀ debug query mpvArgs, play debug query mpvArgs all = play debug query mpvArgs wakes := by
  obtain ⟨handled, hhandled⟩ := Handled.exists hstart hopen n
  have hthinned : Thinned isTick (handled.map TimedEvent.event) (wakes.filterMap Wake.got) := by
    rw [hwakes]
    refine hhandled.thinned.map fun event => ?_
    cases event <;> rfl
  obtain ⟨all, hall, hlost⟩ := hthinned.lift (g := fun event => .event (some event)) fun _ => rfl
  exact ⟨handled, all, hhandled, hall, hlost, play_thinned hlost⟩

/-- The user takes the pause back before the positions come, and hangs up after the file. -/
def crowdedWakes : List Wake :=
  [.event (some (.paused true)), .item (.key ⟨.char ' ', false, .press⟩)] ++
    List.replicate Player.capacity (.event (some .position)) ++
    [.event (some (.endFile .eof)), .signal]

/-- The position that the channel had no room for is put back. -/
theorem ticks_disposable_crowded :
    ∃ (feed : Schedule (Feed.Step Feed.sampleJson)) (n : ℕ) (handled : List (TimedEvent ℕ))
      (all : List Wake), Handled Feed.sampleJson (feed.state n) handled ∧
      all.filterMap Wake.got = .paused true ::
        List.replicate (Player.capacity + 1) PlayerEvent.position ++ [.endFile .eof] ∧
      Thinned Wake.isTick all crowdedWakes ∧
      ∀ debug query mpvArgs, play debug query mpvArgs all =
        play debug query mpvArgs crowdedWakes := by
  obtain ⟨feed, n, hstart, hopen, -, hn⟩ := Feed.exists_crowded
  have hwakes : crowdedWakes.filterMap Wake.got =
      (feed.state n).received.map TimedEvent.event := by
    rw [hn]
    rfl
  obtain ⟨handled, all, hhandled, hall, hthinned, hplay⟩ :=
    ticks_disposable hstart hopen n hwakes
  have hevents := hhandled.drained (hn ▸ ⟨rfl, rfl⟩)
  rw [hn, Feed.events_crowded] at hevents
  refine ⟨feed, n, handled, all, hhandled, ?_, hthinned, hplay⟩
  rw [hall, hevents]
  rfl

end Rsc.App

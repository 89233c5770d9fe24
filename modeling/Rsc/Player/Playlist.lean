import Rsc.Player.NowPlaying

/-!
Playing a list in order. A session is started and then only moved on by the ends of its
files, with a player that does what it is told. Every track that is not blocked is asked
for once, in the order of the list, and what was asked for and found is loaded.
-/

namespace Rsc.Player

open Rsc.Library

/-! ## What is claimed -/

/-- The player does what it is told; the backend may answer anything. -/
def Obeys : (op : Op) → Ans op → Prop
  | .streamTarget _, _ => True
  | .load _, ans => ans = .ok ()
  | .setPause _, ans => ans = .ok ()

/-- The tracks of a list that are not blocked. -/
def playable (tracks : List Track) : List Track := tracks.filter fun t => t.access ≠ .blocked

/-- The tracks asked for, each with its target when it was found. -/
def asks (log : Log) : List (Track × Option StreamTarget) :=
  log.filterMap fun entry => match entry with
    | ⟨.streamTarget track, ans⟩ => some (track, ans.toOption)
    | _ => none

/-- The targets loaded. -/
def loads (log : Log) : List StreamTarget :=
  log.filterMap fun entry => match entry with
    | ⟨.load target, _⟩ => some target
    | _ => none

/-- The playable tracks that a run has not asked for. -/
def unasked (tracks : List Track) (calls : List Call) : List Track :=
  (playable tracks).drop (asks (history calls)).length

/-- Of the tracks left, the first one that is found is loaded, and the ones before it are
gone; when all are gone, the list is finished. -/
def PlaysNext (left : List Track) (log : Log) (out : Except String Flow) : Prop :=
  (∃ gone track target rest, left = gone ++ track :: rest ∧
    asks log = gone.map (·, none) ++ [(track, some target)] ∧ loads log = [target] ∧
      out = .ok .continue) ∨
  (asks log = left.map (·, none) ∧ loads log = [] ∧ out = .ok .finished)

/-- A call that starts the session or handles the end of a file plays the next track;
any other call asks for nothing and loads nothing. -/
structure InTurn (left : List Track) (call : Call) : Prop where
  next : call.op = .start ∨ call.op.IsEnd → PlaysNext left call.log call.out
  other : ¬ (call.op = .start ∨ call.op.IsEnd) →
    asks call.log = [] ∧ loads call.log = [] ∧ call.out = .ok .continue

/-! ## Logs -/

variable {tracks left : List Track} {s s' : Session} {log : Log} {out : Except String Flow}

theorem asks_append (log log' : Log) : asks (log ++ log') = asks log ++ asks log' :=
  List.filterMap_append

theorem loads_append (log log' : Log) : loads (log ++ log') = loads log ++ loads log' :=
  List.filterMap_append

theorem Pauses.silent (h : Pauses log) : asks log = [] ∧ loads log = [] := by
  constructor <;> refine List.filterMap_eq_nil_iff.mpr fun entry hentry => ?_
  all_goals
    obtain ⟨op, ans⟩ := entry
    obtain ⟨paused, rfl⟩ := h _ hentry
    rfl

/-! ## One call -/

theorem PlaysNext.inOrder (h : PlaysNext left log out) : (asks log).map Prod.fst <+: left := by
  rcases h with ⟨gone, track, target, rest, rfl, hasks, _, _⟩ | ⟨hasks, _, _⟩
  · exact ⟨rest, by simp [hasks, Function.comp_def]⟩
  · simp [hasks, Function.comp_def]

theorem PlaysNext.loads (h : PlaysNext left log out) :
    loads log = (asks log).filterMap Prod.snd := by
  rcases h with ⟨gone, track, target, rest, rfl, hasks, hloads, _⟩ | ⟨hasks, hloads, _⟩
  · simp [hasks, hloads, List.filterMap_map]
  · simp [hasks, hloads, List.filterMap_map]

theorem PlaysNext.cons {track : Track} {err : String} (h : PlaysNext left log out) :
    PlaysNext (track :: left) (⟨.streamTarget track, .error err⟩ :: log) out := by
  have hasks : asks (⟨.streamTarget track, .error err⟩ :: log) = (track, none) :: asks log := rfl
  have hloads : Player.loads (⟨.streamTarget track, .error err⟩ :: log) = Player.loads log := rfl
  rcases h with ⟨gone, found, target, rest, rfl, h⟩ | h
  · exact .inl ⟨track :: gone, found, target, rest, rfl, by simpa [hasks, hloads] using h⟩
  · exact .inr (by simpa [hasks, hloads] using h)

theorem Queue.drop_cursor {q : Queue} {track : Track} (h : q.current = some track) :
    q.tracks.drop q.cursor = track :: q.tracks.drop (q.cursor + 1) := by
  obtain ⟨hlt, rfl⟩ := List.getElem?_eq_some_iff.mp h
  exact List.drop_eq_getElem_cons hlt

theorem Queue.advance_true {q : Queue} (h : q.advance.1 = true) :
    q.advance.2 = { q with cursor := q.cursor + 1 } := by
  rw [advance] at h ⊢
  split at h
  · rename_i hlt
    rw [if_pos hlt]
  · cases h

theorem Queue.advance_last {q : Queue} (h : q.advance.1 = false) :
    q.tracks.drop (q.cursor + 1) = [] := by
  rw [advance] at h
  split at h
  · cases h
  · rename_i hlast
    exact List.drop_eq_nil_of_le (by omega)

/-- `play_current` plays the next track from the cursor on, and the tracks that are left
are those after the cursor. -/
theorem Plays.next (h : Plays s log out s') (hobeys : ∀ entry ∈ log, Obeys entry.1 entry.2) :
    PlaysNext (s.queue.tracks.drop s.queue.cursor) log out ∧
      s'.queue.tracks = s.queue.tracks ∧
      s'.queue.tracks.drop (s'.queue.cursor + 1) =
        (s.queue.tracks.drop s.queue.cursor).drop (asks log).length := by
  induction h with
  | @empty s hcurrent =>
    have hleft : s.queue.tracks.drop s.queue.cursor = [] :=
      List.drop_eq_nil_of_le (List.getElem?_eq_none_iff.mp hcurrent)
    refine ⟨.inr ⟨by rw [hleft]; rfl, rfl, rfl⟩, rfl, ?_⟩
    rw [← List.drop_drop, hleft]
    rfl
  | @skip s s' track err log out hcurrent hadvance _ ih =>
    obtain ⟨hnext, htracks, hleft⟩ := ih fun entry hentry => hobeys entry (.tail _ hentry)
    rw [Queue.advance_true hadvance] at hnext htracks hleft
    rw [Queue.drop_cursor hcurrent]
    exact ⟨hnext.cons, htracks, hleft⟩
  | @last s track err hcurrent hadvance =>
    rw [Queue.drop_cursor hcurrent, Queue.advance_last hadvance]
    exact ⟨.inr ⟨rfl, rfl, rfl⟩, rfl, rfl⟩
  | refused _ => cases hobeys _ (.tail _ (.head _))
  | @loaded s s' track target log out hcurrent hrest =>
    obtain ⟨hasks, hloads⟩ := hrest.pauses.silent
    have hout : out = .ok .continue := by
      cases hrest with
      | failed _ => cases hobeys _ (.tail _ (.tail _ (.head _)))
      | _ => rfl
    have hasks : asks (⟨.streamTarget track, .ok target⟩ :: ⟨.load target, .ok ()⟩ :: log) =
        [(track, some target)] := congrArg (_ :: ·) hasks
    have hloads : loads (⟨.streamTarget track, .ok target⟩ :: ⟨.load target, .ok ()⟩ :: log) =
        [target] := congrArg (_ :: ·) hloads
    rw [hrest.queue, Queue.drop_cursor hcurrent, hasks]
    exact ⟨.inl ⟨[], track, target, _, rfl, hasks, hloads, hout⟩, rfl, rfl⟩

/-- What a call leaves of the tracks that were left before it. -/
structure Leaves (left : List Track) (call : Call) (s s' : Session) : Prop where
  inTurn : InTurn left call
  tracks : s'.queue.tracks = s.queue.tracks
  left : s'.queue.tracks.drop (s'.queue.cursor + 1) = left.drop (asks call.log).length

theorem Leaves.of_silent {op : Operation} (hop : ¬ (op = .start ∨ op.IsEnd))
    (hleft : s.queue.tracks.drop (s.queue.cursor + 1) = left) (hpauses : Pauses log)
    (hout : out = .ok .continue) (hqueue : s'.queue = s.queue) : Leaves left ⟨op, log, out⟩ s s' := by
  obtain ⟨hasks, hloads⟩ := hpauses.silent
  refine ⟨⟨fun hend => absurd hend hop, fun _ => ⟨hasks, hloads, hout⟩⟩, by rw [hqueue], ?_⟩
  simp only [hqueue, hleft, hasks, List.length_nil, List.drop_zero]

/-- After the start, a call that does not skip by hand takes from the tracks after the cursor. -/
theorem Does.leaves {op : Operation} (h : Does s op log out s') (hstart : op ≠ .start)
    (hnext : op ≠ .next) (hprevious : op ≠ .previous)
    (hobeys : ∀ entry ∈ log, Obeys entry.1 entry.2)
    (hleft : s.queue.tracks.drop (s.queue.cursor + 1) = left) :
    Leaves left ⟨op, log, out⟩ s s' := by
  cases h with
  | starts _ => exact absurd rfl hstart
  | back _ => exact absurd rfl hprevious
  | stays _ => exact absurd rfl hnext
  | skips hop hadvance hplays =>
    have hend : op.IsEnd := hop.resolve_left hnext
    have hnext := hplays.next hobeys
    rw [Queue.advance_true hadvance] at hnext
    obtain ⟨hplaysNext, htracks, hleft'⟩ := hnext
    exact ⟨⟨fun _ => hleft ▸ hplaysNext, fun hother => absurd (.inr hend) hother⟩, htracks,
      hleft'.trans (by rw [← hleft])⟩
  | ended hop hadvance =>
    obtain rfl : [] = left := (Queue.advance_last hadvance).symm.trans hleft
    exact ⟨⟨fun _ => .inr ⟨rfl, rfl, rfl⟩, fun hother => absurd (.inr hop) hother⟩, rfl, hleft⟩
  | toggles ans =>
    have hans : ans = .ok () := hobeys _ (.head _)
    refine .of_silent (by simp [Operation.IsEnd]) hleft (by simp [Pauses]) ?_ rfl
    rw [hans]
    rfl
  | ignores hop paused => exact .of_silent (by simpa using hop) hleft (List.forall_mem_nil _) rfl rfl

/-! ## Every run -/

/-- The tracks asked for are the first ones of the list, and the cursor is at the last of them. -/
structure Ordered (tracks : List Track) (calls : List Call) (s : Session) : Prop where
  asks : (asks (history calls)).map Prod.fst <+: playable tracks
  loads : loads (history calls) = (Player.asks (history calls)).filterMap Prod.snd
  queue : s.queue.tracks = playable tracks
  left : s.queue.tracks.drop (s.queue.cursor + 1) = unasked tracks calls

theorem InTurn.asks_inOrder {call : Call} (h : InTurn left call) :
    (asks call.log).map Prod.fst <+: left := by
  by_cases hop : call.op = .start ∨ call.op.IsEnd
  · exact (h.next hop).inOrder
  · rw [(h.other hop).1]
    exact List.nil_prefix

theorem InTurn.loads {call : Call} (h : InTurn left call) :
    loads call.log = (asks call.log).filterMap Prod.snd := by
  by_cases hop : call.op = .start ∨ call.op.IsEnd
  · exact (h.next hop).loads
  · rw [(h.other hop).1, (h.other hop).2.1]
    rfl

theorem prefix_append_drop {α : Type} {xs ys zs : List α} (hxs : xs <+: zs)
    (hys : ys <+: zs.drop xs.length) : xs ++ ys <+: zs := by
  obtain ⟨rest, rfl⟩ := hxs
  rw [List.drop_left] at hys
  exact List.prefix_append_right_inj xs |>.mpr hys

/-- A call after an ordered run. -/
theorem Ordered.call {calls : List Call} {call : Call} (h : Ordered tracks calls s)
    (hleaves : Leaves (unasked tracks calls) call s s') :
    Ordered tracks (calls ++ [call]) s' := by
  have hinTurn := hleaves.inTurn
  refine ⟨?_, ?_, hleaves.tracks.trans h.queue, ?_⟩
  · rw [history_concat, asks_append, List.map_append]
    apply prefix_append_drop h.asks
    rw [List.length_map]
    exact hinTurn.asks_inOrder
  · rw [history_concat, loads_append, asks_append, List.filterMap_append, h.loads, hinTurn.loads]
  · rw [hleaves.left, unasked, unasked, history_concat, asks_append, List.length_append,
      List.drop_drop]

/-- Every call of a run is in turn: it takes from what the calls before it did not ask for. -/
def AllInTurn (tracks : List Track) (calls : List Call) : Prop :=
  ∀ before call after, calls = before ++ call :: after → InTurn (unasked tracks before) call

theorem AllInTurn.nil : AllInTurn tracks [] := by
  intro before call after hsplit
  simp at hsplit

theorem AllInTurn.concat {calls : List Call} {call : Call} (h : AllInTurn tracks calls)
    (hcall : InTurn (unasked tracks calls) call) : AllInTurn tracks (calls ++ [call]) := by
  intro before call' after hsplit
  rcases List.eq_nil_or_concat after with rfl | ⟨after, last, rfl⟩
  · obtain ⟨rfl, hlast⟩ := List.append_inj' hsplit rfl
    obtain rfl := (List.cons.inj hlast).1
    exact hcall
  · have hsplit : calls ++ [call] = (before ++ call' :: after) ++ [last] := by simpa using hsplit
    exact h before call' after (List.append_inj' hsplit rfl).1

/-- Every run that does not skip by hand is in turn. -/
theorem Runs.ordered {calls : List Call} (h : Runs Obeys tracks calls s)
    (hops : ∀ call ∈ calls, call.op ≠ .next ∧ call.op ≠ .previous) :
    Ordered tracks calls s ∧ AllInTurn tracks calls := by
  induction h with
  | @start s log out h =>
    obtain ⟨hnext, htracks, hleft⟩ := (Plays.of_exec h).next h.allowed
    have hinTurn : InTurn (playable tracks) ⟨.start, log, out⟩ :=
      ⟨fun _ => hnext, fun hother => absurd (.inl rfl) hother⟩
    have hall : AllInTurn tracks [⟨.start, log, out⟩] := AllInTurn.nil.concat hinTurn
    have hhistory : history [⟨.start, log, out⟩] = log := by simp [history]
    refine ⟨⟨?_, ?_, htracks, ?_⟩, hall⟩
    · rw [hhistory]
      exact hnext.inOrder
    · rw [hhistory]
      exact hnext.loads
    · rw [hleft, unasked, hhistory]
      rfl
  | @step calls s s' op log out _ hstart h ih =>
    obtain ⟨hordered, hall⟩ := ih fun call hcall => hops call (List.mem_append_left _ hcall)
    obtain ⟨hnext, hprevious⟩ := hops ⟨op, log, out⟩ (by simp)
    have hleaves := (Does.of_exec h).leaves hstart hnext hprevious h.allowed hordered.left
    exact ⟨hordered.call hleaves, hall.concat hleaves.inTurn⟩

/-- After the call that finishes a list, no track of it is left. -/
theorem InTurn.finished {before mid : List Call} {call : Call}
    (h : InTurn (unasked tracks before) call) (hout : call.out = .ok .finished) :
    unasked tracks (before ++ call :: mid) = [] := by
  have hnext : PlaysNext (unasked tracks before) call.log call.out := by
    refine h.next (Classical.byContradiction fun hop => ?_)
    rw [(h.other hop).2.2] at hout
    cases hout
  rcases hnext with ⟨_, _, _, _, _, _, _, hcontinue⟩ | ⟨hasks, _, _⟩
  · rw [hout] at hcontinue
    cases hcontinue
  · have hlength := congrArg List.length hasks
    rw [List.length_map, unasked, List.length_drop] at hlength
    apply List.drop_eq_nil_of_le
    simp only [history, List.flatMap_append, List.flatMap_cons, asks_append, List.length_append]
    rw [history] at hlength
    omega

/-- **In-order playback.** The tracks asked for are the first playable ones of the list, each
asked for once; those that were found are loaded, each once, in that order. The start and the
end of a file load the next one that is found and ask for none after it, and the list is
finished exactly when none is found; from then on nothing is asked for and nothing is loaded,
and the end of a file finishes again. -/
theorem plays_inOrder {calls : List Call} (h : Runs Obeys tracks calls s)
    (hops : ∀ call ∈ calls, call.op ≠ .next ∧ call.op ≠ .previous) :
    (asks (history calls)).map Prod.fst <+: playable tracks ∧
      loads (history calls) = (asks (history calls)).filterMap Prod.snd ∧
      ∀ before call after, calls = before ++ call :: after →
        InTurn (unasked tracks before) call ∧
          (call.out = .ok .finished → ∀ later ∈ after, asks later.log = [] ∧
            loads later.log = [] ∧ (later.op.IsEnd → later.out = .ok .finished)) := by
  obtain ⟨hordered, hall⟩ := h.ordered hops
  refine ⟨hordered.asks, hordered.loads, fun before call after hsplit => ?_⟩
  have hcall := hall before call after hsplit
  refine ⟨hcall, fun hout later hlater => ?_⟩
  obtain ⟨mid, rest, rfl⟩ := List.append_of_mem hlater
  have hlater := hall (before ++ call :: mid) later rest (by simp [hsplit])
  rw [hcall.finished hout] at hlater
  by_cases hop : later.op = .start ∨ later.op.IsEnd
  · rcases hlater.next hop with ⟨gone, _, _, _, hleft, _⟩ | ⟨hasks, hloads, hout⟩
    · simp at hleft
    · exact ⟨hasks, hloads, fun _ => hout⟩
  · obtain ⟨hasks, hloads, _⟩ := hlater.other hop
    exact ⟨hasks, hloads, fun hend => absurd (.inr hend) hop⟩

/-- A backend that does not find the first and the last of the tracks. -/
def lose (op : Op) (_ : Unit) : Ans op × Unit :=
  match op with
  | .streamTarget track =>
      (if track.id = "c" then .ok ⟨track.id, []⟩ else .error "gone", ())
  | .load _ | .setPause _ => (.ok (), ())

/-- Four tracks, the second of which is blocked. -/
def lossy : List Track :=
  [song "a" .playable, song "b" .blocked, song "c" .preview, song "d" .playable]

/-- The third track is the only one that plays. -/
theorem plays_inOrder_lossy : ∃ calls s, Runs Obeys lossy calls s ∧
    calls.map Call.out = [.ok .continue, .ok .finished, .ok .finished] ∧
      (asks (history calls)).map Prod.fst <+: playable lossy ∧
        loads (history calls) = (asks (history calls)).filterMap Prod.snd := by
  have hexec (m : Prog Ans (Except String Flow × Session)) :=
    Prog.Exec.of_eval Obeys lose (fun op _ => by cases op <;> trivial) m ()
  obtain ⟨tr₁, h₁⟩ := hexec (Operation.start.act (Session.new lossy))
  have hrun := Runs.start h₁
  obtain ⟨tr₂, h₂⟩ := hexec ((Operation.event (.endFile .eof)).act ⟨⟨playable lossy, 1, 1⟩, false⟩)
  have hrun := hrun.step (nofun : Operation.event (.endFile .eof) ≠ .start) h₂
  obtain ⟨tr₃, h₃⟩ := hexec ((Operation.event (.endFile .error)).act ⟨⟨playable lossy, 2, 1⟩, false⟩)
  have hrun := hrun.step (nofun : Operation.event (.endFile .error) ≠ .start) h₃
  obtain ⟨hasks, hloads, _⟩ := plays_inOrder hrun (by simp)
  exact ⟨_, _, hrun, rfl, hasks, hloads⟩

end Rsc.Player

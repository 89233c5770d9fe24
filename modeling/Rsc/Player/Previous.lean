import Rsc.Player.Playlist

/-!
Skipping backward. `previous` moves the cursor back by one and then plays the current track; a
track that cannot be resolved is skipped by `play_current`, which only moves forward.
-/

namespace Rsc.Player

open Rsc.Library

/-- What the backend has for each track during one call. -/
abbrev Backend : Type := Track → Except String StreamTarget

/-- The answers of this backend; the player may answer anything. -/
def Answers (backend : Backend) : (op : Op) → Ans op → Prop
  | .streamTarget track, ans => ans = backend track
  | .load _, _ => True
  | .setPause _, _ => True

/-- The track at the position has a stream. -/
def Resolves (backend : Backend) (q : Queue) (position : Nat) (target : StreamTarget) : Prop :=
  ∃ track, q.tracks[position]? = some track ∧ backend track = .ok target

/-- The nearest track before the cursor that has a stream. -/
structure NearestBefore (backend : Backend) (q : Queue) (position : Nat) (target : StreamTarget) :
    Prop where
  before : position < q.cursor
  resolves : Resolves backend q position target
  nearest : ∀ between target', position < between → between < q.cursor →
    ¬ Resolves backend q between target'

/-- The nearest track before the cursor is loaded and becomes the current one, and the first
track is restarted. -/
structure SkipsBack (backend : Backend) (q q' : Queue) (log : Log) : Prop where
  nearest : ∀ position target, NearestBefore backend q position target →
    loads log = [target] ∧ q'.cursor = position
  restarts : ∀ target, q.cursor = 0 → Resolves backend q 0 target →
    loads log = [target] ∧ q'.cursor = 0

/-- Every call of `previous` skips back. -/
def PreviousGoesBack (backend : Backend) (s : Session) : Prop :=
  ∀ log out s', Prog.Exec (Answers backend) (Session.previous s) log (out, s') →
    SkipsBack backend s.queue s'.queue log

/-- The track right before the cursor has a stream, if any track before it has. -/
def NeighbourResolves (backend : Backend) (q : Queue) : Prop :=
  ∀ position target, position < q.cursor → Resolves backend q position target →
    ∃ target', Resolves backend q (q.cursor - 1) target'

variable {backend : Backend} {s s' : Session} {log : Log} {out : Except String Flow}
  {target : StreamTarget}

/-- `play_current` never moves the cursor back. -/
theorem Plays.cursor_le (h : Plays s log out s') : s.queue.cursor ≤ s'.queue.cursor := by
  induction h with
  | empty _ | last _ _ | refused _ => exact Nat.le_refl _
  | skip _ hadvance _ ih =>
    rw [Queue.advance_true hadvance] at ih
    exact Nat.le_of_succ_le ih
  | loaded _ hrest => exact Nat.le_of_eq (congrArg Queue.cursor hrest.queue).symm

/-- A current track that has a stream is loaded. -/
theorem Plays.loads_current (h : Plays s log out s')
    (hanswers : ∀ entry ∈ log, Answers backend entry.1 entry.2)
    (hresolves : Resolves backend s.queue s.queue.cursor target) :
    loads log = [target] ∧ s'.queue.cursor = s.queue.cursor := by
  obtain ⟨track, hcurrent, hbackend⟩ := hresolves
  have hcurrent : s.queue.current = some track := hcurrent
  -- the only track that is asked for is the current one, and it is found
  have hfound : ∀ {track' ans}, s.queue.current = some track' →
      Answers backend (.streamTarget track') ans → ans = .ok target := by
    rintro track' ans hother rfl
    obtain rfl := Option.some.inj (hcurrent.symm.trans hother)
    exact hbackend
  cases h with
  | empty hnone =>
    rw [hcurrent] at hnone
    cases hnone
  | skip hother | last hother => cases hfound hother (hanswers _ (.head _))
  | refused hother =>
    cases hfound hother (hanswers _ (.head _))
    exact ⟨rfl, rfl⟩
  | loaded hother hrest =>
    cases hfound hother (hanswers _ (.head _))
    exact ⟨congrArg (_ :: ·) hrest.pauses.silent.2, congrArg Queue.cursor hrest.queue⟩

/-- Some track before the cursor is the nearest one with a stream, if there is one. -/
theorem exists_nearestBefore {q : Queue} {position : Nat} (hposition : position < q.cursor)
    (hresolves : Resolves backend q position target) :
    ∃ nearest target', NearestBefore backend q nearest target' := by
  induction hleft : q.cursor - position using Nat.strongRecOn generalizing position target with
  | ind n ih =>
    by_cases hlater : ∃ between target', position < between ∧ between < q.cursor ∧
        Resolves backend q between target'
    · obtain ⟨between, target', hlt, hbetween, hresolves'⟩ := hlater
      exact ih (q.cursor - between) (by omega) hbetween hresolves' rfl
    · refine ⟨position, target, hposition, hresolves, fun between target' hlt hbetween h => ?_⟩
      exact hlater ⟨between, target', hlt, hbetween, h⟩

/-- The answers of the backend, from a player that does what it is told. -/
def replies (backend : Backend) (op : Op) (_ : Unit) : Ans op × Unit :=
  match op with
  | .streamTarget track => (backend track, ())
  | .load _ | .setPause _ => (.ok (), ())

theorem answers_replies (backend : Backend) (op : Op) (u : Unit) :
    Answers backend op (replies backend op u).1 := by
  cases op with
  | streamTarget track => rfl
  | load _ | setPause _ => trivial

/-- `previous` goes back if and only if the track right before the cursor has a stream, or none
before it has. -/
theorem previous_goesBack_iff (backend : Backend) (s : Session) :
    PreviousGoesBack backend s ↔ NeighbourResolves backend s.queue := by
  constructor
  · intro hback position target hposition hresolves
    obtain ⟨nearest, target', hnearest⟩ := exists_nearestBefore hposition hresolves
    obtain ⟨log, hexec⟩ := Prog.Exec.of_eval (Answers backend) (replies backend)
      (answers_replies backend) (Session.previous s) ()
    obtain ⟨-, hcursor⟩ := (hback log _ _ hexec).nearest nearest target' hnearest
    have hle : s.queue.cursor - 1 ≤ nearest := by
      rw [← hcursor]
      exact (Plays.of_exec hexec).cursor_le
    have hlt := hnearest.before
    obtain rfl : nearest = s.queue.cursor - 1 := by omega
    exact ⟨target', hnearest.resolves⟩
  · intro hneighbour log out s' hexec
    have hplays : Plays { s with queue := s.queue.previous } log out s' := Plays.of_exec hexec
    refine ⟨fun position target hnearest => ?_, fun target hfirst hresolves => ?_⟩
    · obtain ⟨target', hresolves'⟩ := hneighbour _ _ hnearest.before hnearest.resolves
      have hlt := hnearest.before
      -- nothing between the nearest one and the cursor has a stream
      obtain rfl : position = s.queue.cursor - 1 := by
        by_contra hne
        exact hnearest.nearest _ target' (by omega) (by omega) hresolves'
      exact hplays.loads_current hexec.allowed hnearest.resolves
    · have hcursor : s.queue.cursor - 1 = 0 := by omega
      have hresolves : Resolves backend s.queue (s.queue.cursor - 1) target := by rwa [hcursor]
      rw [← hcursor]
      exact hplays.loads_current hexec.allowed hresolves

/-- A backend without the second of three tracks. -/
def withoutSecond : Backend := fun track =>
  if track.id = "b" then .error "no stream" else .ok ⟨track.id, []⟩

/-- The third of three tracks plays. -/
def thirdPlays : Session := ⟨⟨["a", "b", "c"].map (song · .playable), 2, 0⟩, false⟩

/-- The third track is replayed, though the first one has a stream. -/
theorem previous_replays : NearestBefore withoutSecond thirdPlays.queue 0 ⟨"a", []⟩ ∧
    ∃ log, Prog.Exec (Answers withoutSecond) (Session.previous thirdPlays) log
      (.ok .continue, thirdPlays) ∧ loads log = [⟨"c", []⟩] := by
  refine ⟨⟨by decide, ⟨_, rfl, rfl⟩, fun between target hlt hbetween => ?_⟩,
    [⟨.streamTarget (song "b" .playable), .error "no stream"⟩,
      ⟨.streamTarget (song "c" .playable), .ok ⟨"c", []⟩⟩, ⟨.load ⟨"c", []⟩, .ok ()⟩], ?_, rfl⟩
  · obtain rfl : between = 1 := by
      have hlt' : between < 2 := hbetween
      omega
    rintro ⟨track, htrack, hresolves⟩
    cases htrack
    cases hresolves
  · exact .perform rfl (.perform rfl (.perform trivial (.ret _)))

end Rsc.Player

import Rsc.App.Cleanup
import Rsc.Library.Text

/-!
What the terminal shows is what plays: whenever the loop of `run` waits, the line printed last
that names a track names the one that was loaded last, with its place in the list.
-/

namespace Rsc.App

open Rsc.Library
open Rsc.Player (Act Flow PlayerEvent Session Track Operation Log Kept Playing Listed playable)

/-! ## What is claimed -/

/-- What was awaited of the backend and of the player. -/
def playerLog (tr : Trace) : Log :=
  tr.filterMap fun entry => match entry with
    | ⟨.player op, ans⟩ => some ⟨op, ans⟩
    | _ => none

/-- The text names a track. -/
def Names (text : String) : Prop :=
  ∃ position track newline, text = nowPlaying position track ++ newline

/-- Of the lines that name a track, this one was printed last. -/
def NamedLast (text : String) (tr : Trace) : Prop :=
  ∃ before after, tr = before ++ ⟨.print text, ()⟩ :: after ∧
    ∀ later, (⟨.print later, ()⟩ : Sigma Ans) ∈ after → ¬ Names later

/-- The track at this place of the list plays, and is the one that is shown. -/
structure Shows (interactive : Bool) (s : Session) (track : Track) (tr : Trace) : Prop where
  current : s.queue.current = some track
  playing : Playing track (playerLog tr)
  named : NamedLast (nowPlaying s.queue.position track ++ if interactive then "\r\n" else "\n") tr

/-! ## Traces -/

theorem playerLog_append (tr tr' : Trace) : playerLog (tr ++ tr') = playerLog tr ++ playerLog tr' :=
  List.filterMap_append

@[simp] theorem playerLog_ofLog (log : Log) : playerLog (ofLog log) = log := by
  induction log with
  | nil => rfl
  | cons entry log ih =>
    change (⟨entry.1, entry.2⟩ : Sigma Player.Ans) :: playerLog (ofLog log) = _
    rw [ih]

@[simp] theorem playerLog_printed (interactive : Bool) (lines : List String) :
    playerLog (printed interactive lines) = [] := by
  induction lines with
  | nil => rfl
  | cons line lines ih => exact ih

/-- Nothing that the session does is printed. -/
theorem print_notMem_ofLog {log : Log} {text : String} :
    (⟨.print text, ()⟩ : Sigma Ans) ∉ ofLog log := by
  intro hmem
  obtain ⟨entry, -, heq⟩ := List.mem_map.mp hmem
  cases heq

theorem print_mem_printed {interactive : Bool} {lines : List String} {text : String}
    (h : (⟨.print text, ()⟩ : Sigma Ans) ∈ printed interactive lines) :
    ∃ line ∈ lines, text = line ++ if interactive then "\r\n" else "\n" := by
  obtain ⟨line, hline, heq⟩ := List.mem_map.mp h
  cases heq
  exact ⟨line, hline, rfl⟩

/-! ## Lines that name no track -/

/-- A line that names a track goes on with a number, or with the slash after it. -/
theorem Names.third {text : String} (h : Names text) : ∃ c rest,
    text.toList = '▶' :: ' ' :: c :: rest ∧ (c.isDigit = true ∨ c = '/') := by
  obtain ⟨position, track, newline, rfl⟩ := h
  have hdigits : (toString position.1).toList = Nat.toDigits 10 position.1 := by
    rw [Nat.toString_eq_ofList_toDigits, String.toList_ofList]
  simp only [nowPlaying, String.toList_append, hdigits]
  cases h : Nat.toDigits 10 position.1 with
  | nil => exact ⟨'/', _, rfl, .inr rfl⟩
  | cons c digits =>
    refine ⟨c, _, rfl, .inl (Text.isDigit_of_mem (n := position.1) ?_)⟩
    rw [h]
    exact List.mem_cons_self

theorem not_names_of_third {text : String} {a b c : Char} {rest : List Char}
    (h : text.toList = a :: b :: c :: rest)
    (hthird : a ≠ '▶' ∨ (c.isDigit = false ∧ c ≠ '/')) : ¬ Names text := by
  intro hnames
  obtain ⟨c', rest', htext, hc⟩ := hnames.third
  rw [h, List.cons.injEq, List.cons.injEq, List.cons.injEq] at htext
  obtain ⟨rfl, -, rfl, -⟩ := htext
  rcases hthird with ha | ⟨hdigit, hslash⟩
  · exact ha rfl
  · rcases hc with hc | hc
    · rw [hdigit] at hc
      cases hc
    · exact hslash hc

theorem not_names_pauseLine {op : Operation} {s : Session} {line newline : String}
    (h : line ∈ pauseLine op s) : ¬ Names (line ++ newline) := by
  cases op with
  | togglePause =>
    rw [pauseLine, List.mem_singleton] at h
    subst h
    cases s.paused with
    | true => exact not_names_of_third (by rw [String.toList_append]; rfl) (.inl (by decide))
    | false => exact not_names_of_third (by rw [String.toList_append]; rfl) (.inr (by decide))
  | _ => cases h

theorem not_names_keys (newline : String) :
    ¬ Names ("[space] pause  [n]ext  [p]revious  [q]uit" ++ newline) :=
  not_names_of_third (by rw [String.toList_append]; rfl) (.inl (by decide))

theorem NamedLast.append {text : String} {tr tr' : Trace} (h : NamedLast text tr)
    (hnot : ∀ later, (⟨.print later, ()⟩ : Sigma Ans) ∈ tr' → ¬ Names later) :
    NamedLast text (tr ++ tr') := by
  obtain ⟨before, after, rfl, hafter⟩ := h
  refine ⟨before, after ++ tr', by simp, fun later hlater => ?_⟩
  exact (List.mem_append.mp hlater).elim (hafter later) (hnot later)

theorem NamedLast.prepend {text : String} {tr : Trace} (before : Trace) (h : NamedLast text tr) :
    NamedLast text (before ++ tr) := by
  obtain ⟨before', after, rfl, hafter⟩ := h
  exact ⟨before ++ before', after, by simp, hafter⟩

/-! ## One turn -/

variable {ok : (op : Op) → Ans op → Prop} {tracks : List Track} {s s' : Session} {tr : Trace}
  {track : Track} {log : Log} {interactive : Bool}

/-- The line of the current track was just printed. -/
theorem named_trackLine (hcurrent : s.queue.current = some track) (before : Trace) :
    NamedLast (nowPlaying s.queue.position track ++ if interactive then "\r\n" else "\n")
      (before ++ printed interactive (trackLine s)) := by
  rw [trackLine, hcurrent]
  exact ⟨before, [], rfl, fun _ h => absurd h List.not_mem_nil⟩

/-- A queue is known by its position. -/
theorem current_of_position (hkept : Kept tracks s.queue) (hkept' : Kept tracks s'.queue)
    (hposition : s'.queue.position = s.queue.position) : s'.queue.current = s.queue.current := by
  have hcursor : s'.queue.cursor = s.queue.cursor := by
    have := congrArg Prod.fst hposition
    simpa [Player.Queue.position] using this
  rw [Player.Queue.current, Player.Queue.current, hkept.kept, hkept'.kept, hcursor]

/-- **One turn.** After an operation that continues, the track that plays is shown. -/
theorem Shows.turn {op : Operation} (h : Shows interactive s track tr) (hkept : Kept tracks s.queue)
    (hop : Prog.Exec (playerOk ok) (op.act s) log (.ok .continue, s')) :
    Kept tracks s'.queue ∧
      ∃ track', Shows interactive s' track'
        (tr ++ (ofLog log ++ printed interactive (said op s s'))) := by
  obtain ⟨hkept', -, hout⟩ := (Player.Does.of_exec hop).spec hkept
  refine ⟨hkept', ?_⟩
  have hlog : playerLog (tr ++ (ofLog log ++ printed interactive (said op s s'))) =
      playerLog tr ++ log := by
    simp [playerLog_append]
  -- which track plays now
  obtain ⟨track', hcurrent', hplaying'⟩ : ∃ track', s'.queue.current = some track' ∧
      Playing track' (playerLog tr ++ log) := by
    rcases hout rfl with ⟨track', hcurrent', hplaying'⟩ | ⟨-, hqueue, hpauses⟩
    · exact ⟨track', hcurrent', hplaying'.prepend _⟩
    · exact ⟨track, hqueue ▸ h.current, h.playing.append hpauses⟩
  refine ⟨track', hcurrent', by rwa [hlog], ?_⟩
  by_cases hposition : s'.queue.position = s.queue.position
  · -- the same track, shown before
    obtain rfl : track = track' := by
      have hsame := current_of_position hkept hkept' hposition
      rw [hcurrent', h.current] at hsame
      exact (Option.some.inj hsame).symm
    rw [hposition]
    refine h.named.append fun later hlater => ?_
    rcases List.mem_append.mp hlater with hlater | hlater
    · exact absurd hlater print_notMem_ofLog
    · obtain ⟨line, hline, rfl⟩ := print_mem_printed hlater
      rw [said, if_neg (by simpa using hposition), List.append_nil] at hline
      exact not_names_pauseLine hline
  · rw [said, if_pos hposition, printed_append, ← List.append_assoc, ← List.append_assoc]
    exact named_trackLine hcurrent' _

/-! ## Every run -/

theorem Loops.shows {wakes : List Wake} {tr' : Trace} {out : Except String Progress}
    (h : Loops ok interactive s wakes tr' out s') (hkept : Kept tracks s.queue)
    (hshows : Shows interactive s track tr) (hout : out = .ok .waiting) :
    Kept tracks s'.queue ∧ ∃ track', Shows interactive s' track' (tr ++ tr') := by
  induction h generalizing track tr with
  | waits => exact ⟨hkept, track, by rwa [List.append_nil]⟩
  | gone => cases hout
  | leaves _ => cases hout
  | ignores _ _ ih => exact ih hkept hshows hout
  | fails _ _ => cases hout
  | finishes _ _ => cases hout
  | goesOn _ hop _ ih =>
    obtain ⟨hkept₁, track₁, hshows₁⟩ := hshows.turn hkept hop
    rw [← List.append_assoc]
    exact ih hkept₁ hshows₁ hout

/-- A session that was just started shows its first track. -/
theorem Starts.shows {wakes : List Wake}
    (h : Starts ok interactive (Session.new tracks) wakes tr (.ok .waiting) s') :
    Kept tracks s'.queue ∧ ∃ track, Shows interactive s' track tr := by
  cases h with
  | @plays log tr s₁ _ _ hstart hrest =>
    obtain ⟨hkept, -, hout⟩ := (Player.Does.of_exec hstart).spec (Kept.new tracks)
    obtain ⟨track, hcurrent, hplaying⟩ := (hout rfl).resolve_right fun hquiet => hquiet.1 rfl
    refine hrest.shows hkept ⟨hcurrent, ?_, ?_⟩ rfl
    · simpa [playerLog_append] using hplaying
    · rw [printed_append, ← List.append_assoc]
      refine (named_trackLine hcurrent _).append fun later hlater => ?_
      obtain ⟨line, hline, rfl⟩ := print_mem_printed hlater
      cases interactive with
      | false => cases hline
      | true =>
        obtain rfl := List.mem_singleton.mp hline
        exact not_names_keys _

/-- The guard and the questions for a terminal print nothing that names a track. -/
theorem Shows.prepend {before : Trace} (h : Shows interactive s track tr)
    (hquiet : playerLog before = []) : Shows interactive s track (before ++ tr) where
  current := h.current
  playing := by
    rw [playerLog_append, hquiet]
    exact h.playing
  named := h.named.prepend before

/-- **The screen tells what plays.** Whenever the loop of `run` waits, whatever it got before and
whatever the backend and the player answered, the line printed last that names a track names the
one that was loaded last, the target that was loaded is the one this track was resolved to, and
the place on the line is that of the track among the playable ones. -/
theorem shows_playing {wakes : List Wake}
    (h : Prog.Exec ok (run wakes (Session.new tracks)) tr (.ok .waiting, s)) :
    ∃ interactive track, Shows interactive s track tr ∧ Listed tracks track ∧
      (playable tracks)[s.queue.position.1 - 1]? = some track ∧
      s.queue.position.2 = (playable tracks).length := by
  obtain ⟨interactive, asked, rest, rfl, hasked, ⟨_, _, _, hout, _⟩ | ⟨body, hstarts, hguards⟩⟩ :=
    run_inv h
  · cases hout
  obtain ⟨hkept, track, hshows⟩ := hstarts.shows
  have hbefore : ∃ before, asked ++ rest = before ++ body ∧ playerLog before = [] := by
    have hquiet : playerLog asked = [] := by
      rcases hasked with ⟨-, rfl⟩ | rfl <;> rfl
    cases hguards with
    | plain => exact ⟨asked, rfl, hquiet⟩
    | waiting =>
      refine ⟨asked ++ [⟨.enableRawMode, .ok ()⟩], by simp, ?_⟩
      rw [playerLog_append, hquiet]
      rfl
    | restored hleft => exact absurd rfl hleft
  obtain ⟨before, heq, hquiet⟩ := hbefore
  rw [heq]
  refine ⟨interactive, track, hshows.prepend hquiet, hkept.listed hshows.current, ?_, ?_⟩
  · have hcurrent := hshows.current
    rw [Player.Queue.current, hkept.kept] at hcurrent
    exact hcurrent
  · rw [Player.Queue.position, hkept.kept]
    rfl

/-- The user pauses the first track and skips to the third one of the list, the second is
blocked. -/
theorem shows_playing_next : ∃ tr s, Prog.Exec Prog.anyAnswer
      (run [pressed (.char ' '), pressed .right] (Session.new Player.mixed)) tr
      (.ok .waiting, s) ∧
    ∃ interactive, Shows interactive s (Player.song "c" .preview) tr := by
  obtain ⟨tr, h⟩ := Prog.Exec.of_eval Prog.anyAnswer attend (fun _ _ => trivial)
    (run [pressed (.char ' '), pressed .right] (Session.new Player.mixed)) ()
  obtain ⟨interactive, track, hshows, -⟩ := shows_playing h
  obtain rfl : Player.song "c" .preview = track := Option.some.inj hshows.current
  exact ⟨tr, _, h, interactive, hshows⟩

end Rsc.App

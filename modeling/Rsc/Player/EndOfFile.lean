import Rsc.Player.Mpv
import Mathlib.Data.List.Basic

/-!
The end of a file and the track it belongs to. An event does not say which file ended, so
one that is still on its way when the user skips acts on the next track (`end_skipsTrack`).
Every end acts on its own track as long as no file is replaced while its end is on its
way, and no file ends while its replacement is.
-/

namespace Rsc.Player

open Rsc.Library

namespace EndOfFile

/-! ## What is claimed -/

/-- The file ended by itself, or could not be played. -/
def IsEnd (reason : EndReason) : Prop := reason = .eof ∨ reason = .error

instance (reason : EndReason) : Decidable (IsEnd reason) := inferInstanceAs (Decidable (_ ∨ _))

/-- The event of an end of a file that is not the last one loaded. -/
def Stale : Action → Nat → Prop
  | .event (.endFile file reason), loads => IsEnd reason ∧ file ≠ loads
  | _, _ => False

/-- A stale end loads nothing, and does not move the cursor. -/
def Harmless (w : World) : Prop :=
  (∀ r, w.running = some r → Stale r.action r.loads → w.loads = r.loads) ∧
    ∀ d ∈ w.done, Stale d.action d.loads → d.loadsAfter = d.loads ∧ d.cursorAfter = d.cursor

/-- The files whose end is on its way. -/
def ends (events : List Signal) : List Nat :=
  events.filterMap fun
    | .endFile file reason => if IsEnd reason then some file else none
    | _ => none

/-- No file is on its way to be loaded. -/
def NoLoad (commands : List Command) : Prop :=
  ∀ target file, Command.loadfile target file ∉ commands

/-- The user does not replace a file whose end is on its way, and no file ends while
another one is on its way to be loaded. -/
def InOrder (w : World) : Label → Prop
  | .load => ∀ r, w.running = some r → (∀ signal, r.action ≠ .event signal) → ends w.events = []
  | .ended _ => NoLoad w.commands
  | _ => True

/-! ## The skipped track -/

theorem played_inOrder : ∃ tr, Run InOrder (spawn tracks) tr
    (between 0 1 [] ⟨some 1, false, true⟩ [.paused false] [started]) :=
  plays_first fun w l hload hended => by
    cases l with
    | load => exact fun _ _ _ => by rw [hload rfl]; rfl
    | ended reason => exact absurd rfl (hended reason)
    | _ => trivial

def noted (loads cursor : Nat) : Done := ⟨.event (.paused false), loads, cursor, loads, cursor⟩

/-- **The skipped track.** The first track ends; before its event is handled the user skips
to the second one; the event then skips the second track, which never ended. -/
theorem end_skipsTrack : ∃ tr w, Run (fun _ _ => True) (spawn tracks) tr w ∧
    w.loads = 3 ∧ w.session.queue.current = some (track "c") ∧ ¬ Harmless w := by
  obtain ⟨tr, hplays⟩ := played_inOrder
  have h₀ : Run (fun _ _ => True) (spawn tracks) tr _ := hplays.mono fun _ _ _ => trivial
  have h₁ := h₀.step (.ended .eof rfl (.inl rfl)) trivial
  have h₂ := h₁.step (.key .next rfl nofun) trivial
  have h₃ := h₂.step (.target (.ok (target "b")) rfl rfl) trivial
  have h₄ := h₃.step (.load rfl rfl) trivial
  have h₅ := h₄.step (.finish rfl rfl) trivial
  have h₅ : Run (fun _ _ => True) (spawn tracks) _ (between 1 2 [.loadfile (target "b") 2]
      ⟨none, false, true⟩ [.paused false, .endFile 1 .eof] [⟨.next, 1, 0, 2, 1⟩, started]) := h₅
  have h₆ := h₅.step (.event rfl rfl) trivial
  have h₇ := h₆.step (.finish rfl rfl) trivial
  have h₇ : Run (fun _ _ => True) (spawn tracks) _ (between 1 2 [.loadfile (target "b") 2]
      ⟨none, false, true⟩ [.endFile 1 .eof] [noted 2 1, ⟨.next, 1, 0, 2, 1⟩, started]) := h₇
  have h₈ := h₇.step (.event rfl rfl) trivial
  have h₉ := h₈.step (.target (.ok (target "c")) rfl rfl) trivial
  have h₁₀ := h₉.step (.load rfl rfl) trivial
  have h₁₁ := h₁₀.step (.finish rfl rfl) trivial
  refine ⟨_, _, h₁₁, rfl, rfl, fun hharmless => ?_⟩
  have hdone := (hharmless.2 _ (.head _) ⟨.inl rfl, nofun⟩).1
  cases hdone

/-! ## The invariant -/

theorem ends_append (a b : List Signal) : ends (a ++ b) = ends a ++ ends b :=
  List.filterMap_append

theorem ends_run (m : Mpv) (c : Command) : ends (m.run c).2 = [] := by
  cases c with
  | observePause => rfl
  | loadfile _ file =>
    cases hplaying : m.playing <;> simp [Mpv.run, hplaying, ends, IsEnd]
  | setPause paused =>
    simp only [Mpv.run]
    split <;> rfl

theorem NoLoad.run {m : Mpv} {c : Command} {cs : List Command} (h : NoLoad (c :: cs)) :
    (m.run c).1.playing = m.playing ∧ NoLoad cs := by
  refine ⟨?_, fun target file hmem => h target file (.tail _ hmem)⟩
  cases c with
  | loadfile target file => exact absurd (.head _) (h target file)
  | _ => rfl

theorem NoLoad.runAll {m : Mpv} {cs : List Command} (h : NoLoad cs) :
    (m.runAll cs).1.playing = m.playing := by
  induction cs generalizing m with
  | nil => rfl
  | cons c cs ih =>
    obtain ⟨hplaying, hrest⟩ := h.run (m := m)
    exact (ih hrest).trans hplaying

/-- `mpv` plays nothing, and is not told to. -/
structure Quiet (m : Mpv) (commands : List Command) : Prop where
  playing : m.playing = none
  noLoad : NoLoad commands

theorem Quiet.run {m : Mpv} {c : Command} {cs : List Command} (h : Quiet m (c :: cs)) :
    Quiet (m.run c).1 cs := by
  obtain ⟨hplaying, hload⟩ := h.noLoad.run (m := m)
  exact ⟨hplaying.trans h.playing, hload⟩

/-- An end that is on its way, and a handler of one that chooses a track, find `mpv` quiet. -/
structure Inv (w : World) : Prop where
  target : ∀ file, (w.mpv.runAll w.commands).1.playing = some file → file = w.loads
  ended : ends w.events = [] ∨ (ends w.events = [w.loads] ∧ Quiet w.mpv w.commands)
  running : ∀ r, w.running = some r → ¬ Stale r.action r.loads ∧
    ∃ p, Prog.Follows Session.Move Session.Returns p r.rest ∧
      ∀ paused signal, p = .choosing paused → r.action = .event signal →
        ends w.events = [] ∧ Quiet w.mpv w.commands
  done : ∀ d ∈ w.done, ¬ Stale d.action d.loads

theorem Inv.harmless {w : World} (h : Inv w) : Harmless w :=
  ⟨fun r hr hstale => absurd hstale (h.running r hr).1,
    fun d hd hstale => absurd hstale (h.done d hd)⟩

theorem spawn_inv (tracks : List Track) : Inv (spawn tracks) :=
  ⟨nofun, .inl rfl, nofun, nofun⟩

/-- An event takes a session to choosing a track only when it is an end. -/
theorem ends_of_choosing {s : Session} {signal : Signal} {paused : Bool}
    (h : Session.eventPhase s signal.event = .choosing paused) :
    ∃ file reason, signal = .endFile file reason ∧ IsEnd reason := by
  cases signal with
  | endFile file reason =>
    cases reason with
    | eof => exact ⟨file, .eof, rfl, .inl rfl⟩
    | error => exact ⟨file, .error, rfl, .inr rfl⟩
    | _ => cases h
  | _ => cases h

theorem ends_cons_end {file : Nat} {reason : EndReason} (h : IsEnd reason) (events : List Signal) :
    ends (.endFile file reason :: events) = file :: ends events := by
  simp [ends, h]

theorem ends_cons {signal : Signal} (h : ∀ file reason, signal = .endFile file reason → ¬ IsEnd reason)
    (events : List Signal) : ends (signal :: events) = ends events := by
  cases signal with
  | endFile file reason => simp [ends, h file reason rfl]
  | _ => rfl

variable {w w' : World}

theorem Inv.key {action : Action} (h : Inv w) (hkey : ∀ signal, action ≠ .event signal) :
    Inv (w.begin action) := by
  refine ⟨h.target, h.ended, ?_, h.done⟩
  rintro _ ⟨⟩
  refine ⟨?_, _, action.follows w.session, fun _ signal _ hevent => absurd hevent (hkey signal)⟩
  cases action with
  | event signal => exact absurd rfl (hkey signal)
  | _ => exact id

/-- An event is handled: when it is an end, it is that of the last file loaded, and the
only one on its way. -/
theorem Inv.event {signal : Signal} {rest : List Signal} (h : Inv w)
    (hevents : w.events = signal :: rest) :
    Inv ({ w with events := rest }.begin (.event signal)) := by
  have hended := h.ended
  rw [hevents] at hended
  by_cases hsignal : ∃ file reason, signal = .endFile file reason ∧ IsEnd reason
  · obtain ⟨file, reason, rfl, hreason⟩ := hsignal
    rw [ends_cons_end hreason] at hended
    obtain ⟨hends, hquiet⟩ := hended.resolve_left nofun
    obtain ⟨rfl, hrest⟩ := List.cons.inj hends
    refine ⟨h.target, .inl hrest, ?_, h.done⟩
    rintro _ ⟨⟩
    exact ⟨fun hstale => hstale.2 rfl, _,
      (Action.event (.endFile w.loads reason)).follows w.session, fun _ _ _ _ => ⟨hrest, hquiet⟩⟩
  · have hnot : ∀ file reason, signal = .endFile file reason → ¬ IsEnd reason :=
      fun file reason heq hreason => hsignal ⟨file, reason, heq, hreason⟩
    rw [ends_cons hnot] at hended
    refine ⟨h.target, hended, ?_, h.done⟩
    rintro _ ⟨⟩
    refine ⟨?_, _, (Action.event signal).follows w.session, fun _ _ hphase _ => ?_⟩
    · cases signal with
      | endFile file reason => exact fun hstale => hnot file reason rfl hstale.1
      | _ => exact id
    · exact absurd (ends_of_choosing hphase) hsignal

/-- Where an answer takes the running action. -/
theorem Inv.running_step {r : Running} {op : Op} {k : Ans op → Prog Ans (Except String Flow × Session)}
    (h : Inv w) (hr : w.running = some r) (hop : r.rest = .perform op k) (ans : Ans op) :
    ¬ Stale r.action r.loads ∧ ∃ p p', Session.Move p op ans p' ∧
      Prog.Follows Session.Move Session.Returns p' (k ans) ∧
      ∀ paused signal, p = .choosing paused → r.action = .event signal →
        ends w.events = [] ∧ Quiet w.mpv w.commands := by
  obtain ⟨hstale, p, hfollows, hquiet⟩ := h.running r hr
  rw [hop] at hfollows
  obtain ⟨p', hmove, hk⟩ := hfollows ans
  exact ⟨hstale, p, p', hmove, hk, hquiet⟩

theorem Inv.step {l : Label} (h : Inv w) (hstep : Step w l w') (horder : InOrder w l) : Inv w' := by
  cases hstep with
  | key action _ hkey => exact h.key hkey
  | event _ hevents => exact h.event hevents
  | target ans hr hop =>
    obtain ⟨hstale, p, p', hmove, hk, hquiet⟩ := h.running_step hr hop ans
    refine ⟨h.target, h.ended, ?_, h.done⟩
    rintro _ ⟨⟩
    refine ⟨hstale, p', hk, fun paused signal hphase hevent => ?_⟩
    cases hmove with
    | streamTarget => exact hquiet _ signal rfl hevent
    | fail hop => exact absurd rfl (hop _)
  | load hr hop =>
    obtain ⟨hstale, p, p', hmove, hk, hquiet⟩ := h.running_step hr hop (.ok ())
    cases hmove with
    | load =>
      -- no end is on its way: a handler of an end has taken the last one
      have hends : ends w.events = [] := by
        rename_i r target _ _
        by_cases hevent : ∃ signal, r.action = .event signal
        · obtain ⟨signal, hevent⟩ := hevent
          exact (hquiet _ signal rfl hevent).1
        · exact horder r hr fun signal heq => hevent ⟨signal, heq⟩
      refine ⟨fun file hfile => ?_, .inl hends, ?_, h.done⟩
      · change (w.mpv.runAll (w.commands ++ [_])).1.playing = _ at hfile
        rw [Mpv.runAll_concat] at hfile
        exact (Option.some.inj hfile).symm
      · rintro _ ⟨⟩
        exact ⟨hstale, _, hk, nofun⟩
  | pause hr hop =>
    obtain ⟨hstale, p, p', hmove, hk, _⟩ := h.running_step hr hop (.ok ())
    refine ⟨fun file hfile => ?_, h.ended.imp_right fun hended => ⟨hended.1, hended.2.playing,
      fun target file hmem => ?_⟩, ?_, h.done⟩
    · change (w.mpv.runAll (w.commands ++ [_])).1.playing = _ at hfile
      rw [Mpv.runAll_concat] at hfile
      exact h.target file hfile
    · rcases List.mem_append.mp hmem with hmem | hmem
      · exact hended.2.noLoad target file hmem
      · cases List.mem_singleton.mp hmem
    · rintro _ ⟨⟩
      refine ⟨hstale, p', hk, fun _ _ hphase => ?_⟩
      cases hmove <;> cases hphase
  | finish hr _ =>
    refine ⟨h.target, h.ended, nofun, fun d hd => ?_⟩
    rcases List.mem_cons.mp hd with rfl | hd
    · exact (h.running _ hr).1
    · exact h.done d hd
  | @command c cs hcommands =>
    have htarget := h.target
    rw [hcommands] at htarget
    have hends : ends (w.events ++ (w.mpv.run c).2) = ends w.events := by
      rw [ends_append, ends_run, List.append_nil]
    have hquiet : Quiet w.mpv w.commands → Quiet (w.mpv.run c).1 cs := fun hq =>
      Quiet.run (hcommands ▸ hq)
    refine ⟨htarget, ?_, fun r hr => ?_, h.done⟩
    · exact h.ended.imp hends.trans fun hended => ⟨hends.trans hended.1, hquiet hended.2⟩
    · obtain ⟨hstale, p, hfollows, hq⟩ := h.running r hr
      refine ⟨hstale, p, hfollows, fun paused signal hp hevent => ?_⟩
      obtain ⟨hnone, hq⟩ := hq paused signal hp hevent
      exact ⟨hends.trans hnone, hquiet hq⟩
  | @ended file reason hplaying hreason =>
    have hnoLoad : NoLoad w.commands := horder
    have hfile : file = w.loads := h.target file (by rw [hnoLoad.runAll, hplaying])
    have hbusy : ¬ Quiet w.mpv w.commands := fun hq => by
      rw [hq.playing] at hplaying
      cases hplaying
    have hends : ends w.events = [] := h.ended.resolve_right fun hended => hbusy hended.2
    refine ⟨fun file hfile => ?_, .inr ⟨?_, rfl, hnoLoad⟩, fun r hr => ?_, h.done⟩
    · rw [hnoLoad.runAll] at hfile
      cases hfile
    · rw [ends_append, hends, ends_cons_end hreason, hfile]
      rfl
    · obtain ⟨hstale, p, hfollows, hq⟩ := h.running r hr
      exact ⟨hstale, p, hfollows, fun paused signal hp hevent =>
        absurd (hq paused signal hp hevent).2 hbusy⟩
  | @progress signal hsignal =>
    have hends : ends (w.events ++ [signal]) = ends w.events := by
      rw [ends_append]
      rcases hsignal with rfl | rfl <;> exact List.append_nil _
    refine ⟨h.target, ?_, fun r hr => ?_, h.done⟩
    · exact h.ended.imp hends.trans fun hended => ⟨hends.trans hended.1, hended.2⟩
    · obtain ⟨hstale, p, hfollows, hq⟩ := h.running r hr
      refine ⟨hstale, p, hfollows, fun paused signal hp hevent => ?_⟩
      obtain ⟨hnone, hq⟩ := hq paused signal hp hevent
      exact ⟨hends.trans hnone, hq⟩

/-- **Harmless ends.** In every run whose loads and ends are in order, the end of a file
acts on the file loaded last, or on nothing. -/
theorem end_harmless {tracks : List Track} {tr : List Label} {w : World}
    (hrun : Run InOrder (spawn tracks) tr w) : Harmless w := by
  have hinv : Inv w := by
    induction hrun with
    | start => exact spawn_inv tracks
    | step _ hstep horder ih => exact ih.step hstep horder
  exact hinv.harmless

/-- The first track ends, its end is handled, and then the user skips the second one. -/
theorem end_harmless_played : ∃ tr w, Run InOrder (spawn tracks) tr w ∧
    w.loads = 3 ∧ Harmless w := by
  obtain ⟨tr, h₀⟩ := played_inOrder
  have h₁ := h₀.step (.ended .eof rfl (.inl rfl)) nofun
  have h₂ := h₁.step (.event rfl rfl) trivial
  have h₃ := h₂.step (.finish rfl rfl) trivial
  have h₃ : Run InOrder (spawn tracks) _ (between 0 1 [] ⟨none, false, true⟩ [.endFile 1 .eof]
      [noted 1 0, started]) := h₃
  have h₄ := h₃.step (.event rfl rfl) trivial
  have h₅ := h₄.step (.target (.ok (target "b")) rfl rfl) trivial
  have h₆ := h₅.step (.load rfl rfl) fun _ _ _ => rfl
  have h₇ := h₆.step (.finish rfl rfl) trivial
  have h₇ : Run InOrder (spawn tracks) _ (between 1 2 [.loadfile (target "b") 2] ⟨none, false, true⟩ []
      [⟨.event (.endFile 1 .eof), 1, 0, 2, 1⟩, noted 1 0, started]) := h₇
  have h₈ := h₇.step (.key .next rfl nofun) trivial
  have h₉ := h₈.step (.target (.ok (target "c")) rfl rfl) trivial
  have h₁₀ := h₉.step (.load rfl rfl) fun _ _ _ => rfl
  exact ⟨_, _, h₁₀, rfl, end_harmless h₁₀⟩

end EndOfFile

end Rsc.Player

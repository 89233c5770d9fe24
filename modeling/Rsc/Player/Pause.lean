import Rsc.Player.Mpv

/-!
The `paused` flag of a session, from one track change to the next. `toggle_pause` negates
the flag, and the events of `mpv` overwrite it with values that may be old, so a press may
be lost (`press_lost`). None is as long as the flag is what `mpv` will be at each press.
-/

namespace Rsc.Player

open Rsc.Library

namespace Pause

/-! ## What is claimed -/

/-- Whether `mpv` is paused once it has run its commands. -/
def settled (w : World) : Bool := (w.mpv.runAll w.commands).1.paused

/-- The values of the property that events tell. -/
def pauses (events : List Signal) : List Bool :=
  events.filterMap fun
    | .paused value => some value
    | _ => none

/-- The values the session will be told once `mpv` has run its commands. -/
def echoes (w : World) : List Bool := pauses (w.events ++ (w.mpv.runAll w.commands).2)

/-- A track was just loaded: the flag is down, and `mpv` is not paused or will not be. -/
structure JustLoaded (w : World) : Prop where
  idle : w.running = none
  flag : w.session.paused = false
  mpv : settled w = false

/-- No track is loaded. -/
def SameTrack : Label → Prop
  | .load => False
  | _ => True

/-- At a press the flag is what `mpv` is, once it has run its commands. -/
def InTime (w : World) : Label → Prop
  | .begin .togglePause => w.session.paused = settled w
  | _ => True

/-- The presses of a run. -/
def toggles (tr : List Label) : Nat :=
  tr.countP fun
    | .begin .togglePause => true
    | _ => false

/-- After these many presses, once all commands and events are delivered, `mpv` is paused
when their number is odd, and the flag agrees. -/
def PressesKept (presses : Nat) (w : World) : Prop :=
  w.running = none → w.commands = [] → w.events = [] →
    (w.mpv.paused = true ↔ presses % 2 = 1) ∧ w.session.paused = w.mpv.paused

/-! ## The lost press -/

/-- **The lost press.** The event of the start of the observation is handled after a press,
and takes the flag down; the second press then pauses `mpv` again. -/
theorem press_lost : ∃ tr₀ w₀ tr w, Run (fun _ _ => True) (spawn tracks) tr₀ w₀ ∧
    JustLoaded w₀ ∧ Run (fun _ l => SameTrack l) w₀ tr w ∧
    toggles tr = 2 ∧ w.mpv.paused = true ∧ ¬ PressesKept (toggles tr) w := by
  obtain ⟨tr₀, hplays⟩ := @plays_first (fun _ _ => True) fun _ _ _ _ => trivial
  have h₀ : Run (fun _ l => SameTrack l)
      (between 0 1 [] ⟨some 1, false, true⟩ [.paused false] [started]) [] _ := .start
  have h₁ := h₀.step (.key .togglePause rfl nofun) trivial
  have h₂ := h₁.step (.pause rfl rfl) trivial
  have h₃ := h₂.step (.finish rfl rfl) trivial
  have h₄ := h₃.step (.event rfl rfl) trivial
  have h₅ := h₄.step (.finish rfl rfl) trivial
  have h₆ := h₅.step (.key .togglePause rfl nofun) trivial
  have h₇ := h₆.step (.pause rfl rfl) trivial
  have h₈ := h₇.step (.finish rfl rfl) trivial
  have h₉ := h₈.step (.command rfl) trivial
  have h₁₀ := h₉.step (.command rfl) trivial
  have h₁₁ := h₁₀.step (.event rfl rfl) trivial
  have h₁₂ := h₁₁.step (.finish rfl rfl) trivial
  refine ⟨_, _, _, _, hplays, ⟨rfl, rfl, rfl⟩, h₁₂, rfl, rfl, fun hkept => ?_⟩
  have hodd := (hkept rfl rfl rfl).1.mp rfl
  cases hodd

/-! ## What is on its way -/

theorem pauses_append (a b : List Signal) : pauses (a ++ b) = pauses a ++ pauses b :=
  List.filterMap_append

/-- What `mpv` plays has no say in the property. -/
theorem runAll_playing (m : Mpv) (playing : Option Nat) (cs : List Command) :
    (({ m with playing := playing } : Mpv).runAll cs).1.paused = (m.runAll cs).1.paused ∧
      (({ m with playing := playing } : Mpv).runAll cs).1.observed = (m.runAll cs).1.observed ∧
      pauses (({ m with playing := playing } : Mpv).runAll cs).2 = pauses (m.runAll cs).2 := by
  induction cs generalizing m playing with
  | nil => exact ⟨rfl, rfl, rfl⟩
  | cons c cs ih =>
    simp only [Mpv.runAll, pauses_append]
    cases c with
    | observePause =>
      obtain ⟨h₁, h₂, h₃⟩ := ih ⟨m.playing, m.paused, true⟩ playing
      exact ⟨h₁, h₂, congrArg _ h₃⟩
    | loadfile target file =>
      refine ⟨rfl, rfl, ?_⟩
      cases playing <;> cases hplaying : m.playing <;> simp [Mpv.run, hplaying, pauses]
    | setPause paused =>
      obtain ⟨h₁, h₂, h₃⟩ := ih ⟨m.playing, paused, m.observed⟩ playing
      exact ⟨h₁, h₂, congrArg _ h₃⟩

/-- What is on its way has an end: the last value that is told is the one `mpv` will have. -/
structure Echoed (w : World) : Prop where
  observed : (w.mpv.runAll w.commands).1.observed = true
  last : ∀ value, (echoes w).getLast? = some value → value = settled w

variable {w w' : World}

/-- Steps of `mpv` do not change what is on its way. -/
structure Same (w w' : World) : Prop where
  observed : (w'.mpv.runAll w'.commands).1.observed = (w.mpv.runAll w.commands).1.observed
  settled : settled w' = settled w
  echoes : echoes w' = echoes w

theorem Same.echoed (h : Same w w') (hw : Echoed w) : Echoed w' :=
  ⟨h.observed.trans hw.observed, fun value hvalue => by
    rw [h.settled]
    exact hw.last value (h.echoes ▸ hvalue)⟩

theorem same_command {c : Command} {cs : List Command} (h : w.commands = c :: cs) :
    Same w { w with
      commands := cs, mpv := (w.mpv.run c).1, events := w.events ++ (w.mpv.run c).2 } := by
  refine ⟨?_, ?_, ?_⟩
  · rw [h]
    rfl
  · rw [settled, settled, h]
    rfl
  · rw [echoes, echoes, h, List.append_assoc]
    rfl

theorem same_ended {file : Nat} {reason : EndReason} :
    Same w { w with
      mpv := { w.mpv with playing := none }, events := w.events ++ [.endFile file reason] } := by
  obtain ⟨hpaused, hobserved, hpauses⟩ := runAll_playing w.mpv none w.commands
  refine ⟨hobserved, hpaused, ?_⟩
  simp only [echoes, pauses_append, hpauses]
  exact congrArg (· ++ _) (List.append_nil _)

theorem same_progress {signal : Signal} (h : signal = .position ∨ signal = .duration) :
    Same w { w with events := w.events ++ [signal] } := by
  refine ⟨rfl, rfl, ?_⟩
  simp only [echoes, pauses_append]
  rcases h with rfl | rfl <;> exact congrArg (· ++ _) (List.append_nil _)

theorem echoes_send (w : World) (c : Command) :
    echoes (w.send c) = echoes w ++ pauses ((w.mpv.runAll w.commands).1.run c).2 := by
  rw [echoes, World.send, Mpv.runAll_concat, ← List.append_assoc, pauses_append]
  rfl

/-- A pause command settles its value, and is told when it changes something. -/
theorem Echoed.pause {paused : Bool} (h : Echoed w) :
    Echoed (w.send (.setPause paused)) ∧ settled (w.send (.setPause paused)) = paused ∧
      (paused ≠ settled w → echoes (w.send (.setPause paused)) ≠ []) := by
  have hobserved : ((w.send (.setPause paused)).mpv.runAll
      (w.send (.setPause paused)).commands).1.observed = true := by
    rw [World.send, Mpv.runAll_concat]
    exact h.observed
  have hsettled : settled (w.send (.setPause paused)) = paused := by
    rw [settled, World.send, Mpv.runAll_concat]
    rfl
  have hechoes := echoes_send w (.setPause paused)
  by_cases hchange : paused = settled w
  · rw [Mpv.run, if_neg fun hc => hc.2 hchange] at hechoes
    refine ⟨⟨hobserved, fun value hvalue => ?_⟩, hsettled, fun hne => absurd hchange hne⟩
    rw [hechoes, pauses, List.filterMap_nil, List.append_nil] at hvalue
    rw [hsettled, hchange]
    exact h.last value hvalue
  · rw [Mpv.run, if_pos ⟨h.observed, hchange⟩] at hechoes
    change echoes (w.send (.setPause paused)) = echoes w ++ [paused] at hechoes
    refine ⟨⟨hobserved, fun value hvalue => ?_⟩, hsettled, fun _ => ?_⟩
    · rw [hechoes, List.getLast?_concat] at hvalue
      rw [hsettled]
      exact (Option.some.inj hvalue).symm
    · rw [hechoes]
      exact List.concat_ne_nil _ _

/-- A load does not tell anything of the property. -/
theorem Same.load {target : StreamTarget} {file : Nat} :
    Same w (w.send (.loadfile target file)) := by
  refine ⟨?_, ?_, ?_⟩
  · rw [World.send, Mpv.runAll_concat]
    rfl
  · change (w.mpv.runAll (w.commands ++ [_])).1.paused = _
    rw [Mpv.runAll_concat]
    rfl
  · rw [echoes_send]
    cases hplaying : (w.mpv.runAll w.commands).1.playing with
    | none => simp [Mpv.run, hplaying, pauses]
    | some old => simp [Mpv.run, hplaying, pauses]

/-- An event that is taken tells its value, when it has one. -/
theorem Echoed.event {signal : Signal} {rest : List Signal} (h : Echoed w)
    (hevents : w.events = signal :: rest) :
    Echoed { w with events := rest } ∧
      echoes w = pauses [signal] ++ echoes { w with events := rest } := by
  have hechoes : echoes w = pauses [signal] ++ echoes { w with events := rest } := by
    rw [echoes, echoes, hevents, ← pauses_append]
    rfl
  refine ⟨⟨h.observed, fun value hvalue => h.last value ?_⟩, hechoes⟩
  rw [hechoes, List.getLast?_append, hvalue]
  rfl

/-- In every run, what is on its way has an end. -/
theorem Echoed.step {l : Label} (h : Echoed w) (hstep : Step w l w') : Echoed w' := by
  cases hstep with
  | key _ _ _ => exact ⟨h.observed, h.last⟩
  | event _ hevents => exact ⟨(h.event hevents).1.observed, (h.event hevents).1.last⟩
  | target _ _ _ => exact ⟨h.observed, h.last⟩
  | @load _ target _ _ _ =>
    have hsend := (@Same.load w target (w.loads + 1)).echoed h
    exact ⟨hsend.observed, hsend.last⟩
  | pause _ _ => exact ⟨h.pause.1.observed, h.pause.1.last⟩
  | finish _ _ => exact ⟨h.observed, h.last⟩
  | command hcommands => exact (same_command hcommands).echoed h
  | ended _ _ _ => exact same_ended.echoed h
  | progress hsignal => exact (same_progress hsignal).echoed h

/-! ## The flag -/

/-- What the flag will be after the action that runs, in a phase of it, agrees with what
is on its way, and with the number of presses. -/
def Agrees (presses : Nat) (w : World) : Session.Phase → Prop
  | .choosing paused | .settled paused =>
      (settled w = true ↔ presses % 2 = 1) ∧ (echoes w = [] → paused = settled w)
  | .toggling paused => paused ≠ settled w ∧ (paused = true ↔ presses % 2 = 1)
  | .loaded _ | .failed => False

theorem Agrees.same {presses : Nat} {p : Session.Phase} (h : Agrees presses w p)
    (hsettled : settled w' = settled w) (hechoes : echoes w' = echoes w) : Agrees presses w' p := by
  cases p <;> simp only [Agrees, hsettled, hechoes] at h ⊢ <;> exact h

/-- Between the actions the flag counts as settled. -/
structure Inv (presses : Nat) (w : World) : Prop where
  echoed : Echoed w
  idle : w.running = none → Agrees presses w (.settled w.session.paused)
  running : ∀ r, w.running = some r →
    ∃ p, Prog.Follows Session.Move Session.Returns p r.rest ∧ Agrees presses w p

theorem Inv.same {presses : Nat} (h : Inv presses w) (hsame : Same w w')
    (hsession : w'.session = w.session) (hrunning : w'.running = w.running) : Inv presses w' := by
  refine ⟨hsame.echoed h.echoed, fun hidle => ?_, fun r hr => ?_⟩
  · rw [hsession]
    exact (h.idle (hrunning ▸ hidle)).same hsame.settled hsame.echoes
  · obtain ⟨p, hfollows, hagrees⟩ := h.running r (hrunning ▸ hr)
    exact ⟨p, hfollows, hagrees.same hsame.settled hsame.echoes⟩

theorem JustLoaded.inv (h : JustLoaded w) (hechoed : Echoed w) : Inv 0 w := by
  refine ⟨hechoed, fun _ => ?_, fun r hr => ?_⟩
  · refine ⟨?_, fun _ => h.flag.trans h.mpv.symm⟩
    rw [h.mpv]
    exact iff_of_false nofun nofun
  · rw [h.idle] at hr
    cases hr

/-- A press negates the flag, which is what `mpv` will be. -/
theorem Agrees.press {presses : Nat} (h : Agrees presses w (.settled w.session.paused))
    (htime : w.session.paused = settled w) :
    Agrees (1 + presses) w (.toggling !w.session.paused) := by
  obtain ⟨hparity, _⟩ := h
  rw [htime]
  refine ⟨by simp, ?_⟩
  cases hsettled : settled w with
  | false =>
    rw [hsettled] at hparity
    have heven : ¬ presses % 2 = 1 := fun hodd => nomatch hparity.mpr hodd
    exact iff_of_true rfl (by omega)
  | true =>
    rw [hsettled] at hparity
    have hodd := hparity.mp rfl
    exact iff_of_false nofun (by omega)

/-- An event that is handled: the flag follows what it tells. -/
theorem Agrees.event {presses : Nat} {signal : Signal} {rest : List Signal} (hechoed : Echoed w)
    (h : Agrees presses w (.settled w.session.paused)) (hevents : w.events = signal :: rest) :
    Agrees presses { w with events := rest } (Session.eventPhase w.session signal.event) := by
  obtain ⟨hparity, hflag⟩ := h
  obtain ⟨_, hechoes⟩ := hechoed.event hevents
  cases signal with
  | paused value =>
    refine ⟨hparity, fun hnone => hechoed.last value ?_⟩
    rw [hechoes, hnone]
    rfl
  | endFile file reason =>
    have hsame : Agrees presses { w with events := rest } (.settled w.session.paused) :=
      ⟨hparity, fun hnone => hflag (hechoes.trans hnone)⟩
    cases reason <;> exact hsame
  | position => exact ⟨hparity, fun hnone => hflag (hechoes.trans hnone)⟩
  | duration => exact ⟨hparity, fun hnone => hflag (hechoes.trans hnone)⟩

theorem Inv.step {presses : Nat} {l : Label} (h : Inv presses w) (hstep : Step w l w')
    (htrack : SameTrack l) (htime : InTime w l) : Inv (toggles [l] + presses) w' := by
  have hechoed := h.echoed.step hstep
  cases hstep with
  | key action hidle hkey =>
    refine ⟨hechoed, nofun, ?_⟩
    rintro _ ⟨⟩
    refine ⟨_, action.follows w.session, ?_⟩
    have hagrees := h.idle hidle
    cases action with
    | togglePause => exact hagrees.press htime
    | event signal => exact absurd rfl (hkey signal)
    | _ => exact (Nat.zero_add presses).symm ▸ hagrees
  | @event signal rest hidle hevents =>
    refine ⟨hechoed, nofun, ?_⟩
    rintro _ ⟨⟩
    refine ⟨_, (Action.event signal).follows w.session, ?_⟩
    have hagrees := (h.idle hidle).event h.echoed hevents
    exact (Nat.zero_add presses).symm ▸ hagrees
  | target ans hr hop =>
    obtain ⟨p, hfollows, hagrees⟩ := h.running _ hr
    rw [hop] at hfollows
    obtain ⟨p', hmove, hk⟩ := hfollows ans
    refine ⟨hechoed, nofun, ?_⟩
    rintro _ ⟨⟩
    refine ⟨p', hk, (Nat.zero_add presses).symm ▸ ?_⟩
    cases hmove with
    | streamTarget => exact hagrees
    | fail hother => exact absurd rfl (hother _)
  | load _ _ => exact htrack.elim
  | pause hr hop =>
    obtain ⟨p, hfollows, hagrees⟩ := h.running _ hr
    rw [hop] at hfollows
    obtain ⟨p', hmove, hk⟩ := hfollows (.ok ())
    refine ⟨hechoed, nofun, ?_⟩
    rintro _ ⟨⟩
    refine ⟨p', hk, (Nat.zero_add presses).symm ▸ ?_⟩
    cases hmove with
    | unpause => exact hagrees.elim
    | toggle =>
      obtain ⟨hchange, hparity⟩ := hagrees
      obtain ⟨_, hsettled, hechoes⟩ := h.echoed.pause
      refine ⟨?_, fun hnone => absurd hnone (hechoes hchange)⟩
      exact (Eq.congr_left hsettled).trans hparity
  | @finish r out session hr hret =>
    obtain ⟨p, hfollows, hagrees⟩ := h.running r hr
    rw [hret] at hfollows
    refine ⟨hechoed, fun _ => (Nat.zero_add presses).symm ▸ ?_, nofun⟩
    cases p with
    | choosing paused =>
      cases hfollows
      exact hagrees
    | settled paused =>
      cases hfollows
      exact hagrees
    | toggling paused => exact hfollows.elim
    | loaded paused => exact hagrees.elim
    | failed => exact hagrees.elim
  | command hcommands =>
    exact (Nat.zero_add presses).symm ▸ h.same (same_command hcommands) rfl rfl
  | ended _ _ _ => exact (Nat.zero_add presses).symm ▸ h.same same_ended rfl rfl
  | progress hsignal => exact (Nat.zero_add presses).symm ▸ h.same (same_progress hsignal) rfl rfl

/-- **Presses are kept.** From a track just loaded to the next track change, when every
press is in time, `mpv` ends paused exactly after an odd number of presses, and the flag
agrees with it. -/
theorem presses_kept {tracks : List Track} {tr₀ tr : List Label} {w₀ w : World}
    (hreach : Run (fun _ _ => True) (spawn tracks) tr₀ w₀) (hloaded : JustLoaded w₀)
    (hrun : Run (fun w l => SameTrack l ∧ InTime w l) w₀ tr w) : PressesKept (toggles tr) w := by
  have hechoed : Echoed w₀ := by
    clear hloaded hrun
    induction hreach with
    | start => exact ⟨rfl, fun value hvalue => (Option.some.inj hvalue).symm⟩
    | step _ hstep _ ih => exact ih.step hstep
  have hinv : Inv (toggles tr) w := by
    clear hreach
    induction hrun with
    | start => exact hloaded.inv hechoed
    | @step tr _ _ l _ hstep hallowed ih =>
      have hcount : toggles ([l] ++ tr) = toggles [l] + toggles tr := List.countP_append
      change Inv (toggles ([l] ++ tr)) _
      rw [hcount]
      exact ih.step hstep hallowed.1 hallowed.2
  intro hidle hcommands hevents
  obtain ⟨hparity, hflag⟩ := hinv.idle hidle
  have hsettled : settled w = w.mpv.paused := by
    rw [settled, hcommands]
    rfl
  have hechoes : echoes w = [] := by
    rw [echoes, hevents, hcommands]
    rfl
  exact ⟨hsettled ▸ hparity, (hflag hechoes).trans hsettled⟩

/-- Two presses, the second of which comes after the event of the first one. -/
theorem presses_kept_twice : ∃ tr w, Run (fun w l => SameTrack l ∧ InTime w l)
    (between 0 1 [] ⟨some 1, false, true⟩ [.paused false] [started]) tr w ∧
      toggles tr = 2 ∧ w.running = none ∧ w.commands = [] ∧ w.events = [] ∧
      PressesKept (toggles tr) w := by
  obtain ⟨tr₀, hplays⟩ := @plays_first (fun _ _ => True) fun _ _ _ _ => trivial
  have h₀ : Run (fun w l => SameTrack l ∧ InTime w l)
      (between 0 1 [] ⟨some 1, false, true⟩ [.paused false] [started]) [] _ := .start
  have h₁ := h₀.step (.event rfl rfl) ⟨trivial, trivial⟩
  have h₂ := h₁.step (.finish rfl rfl) ⟨trivial, trivial⟩
  have h₃ := h₂.step (.key .togglePause rfl nofun) ⟨trivial, rfl⟩
  have h₄ := h₃.step (.pause rfl rfl) ⟨trivial, trivial⟩
  have h₅ := h₄.step (.finish rfl rfl) ⟨trivial, trivial⟩
  have h₆ := h₅.step (.command rfl) ⟨trivial, trivial⟩
  have h₇ := h₆.step (.event rfl rfl) ⟨trivial, trivial⟩
  have h₈ := h₇.step (.finish rfl rfl) ⟨trivial, trivial⟩
  have h₉ := h₈.step (.key .togglePause rfl nofun) ⟨trivial, rfl⟩
  have h₁₀ := h₉.step (.pause rfl rfl) ⟨trivial, trivial⟩
  have h₁₁ := h₁₀.step (.finish rfl rfl) ⟨trivial, trivial⟩
  have h₁₂ := h₁₁.step (.command rfl) ⟨trivial, trivial⟩
  have h₁₃ := h₁₂.step (.event rfl rfl) ⟨trivial, trivial⟩
  have h₁₄ := h₁₃.step (.finish rfl rfl) ⟨trivial, trivial⟩
  exact ⟨_, _, h₁₄, rfl, rfl, rfl, rfl, presses_kept hplays ⟨rfl, rfl, rfl⟩ h₁₄⟩

end Pause

end Rsc.Player

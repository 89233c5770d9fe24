import Rsc.App.Main

/-!
What the loop of `run` can do, turn by turn: `Loops` says it once, with the operations of the
session and the lines that are printed, and the results about the loop are read off it.
-/

namespace Rsc.App

open Rsc.Library
open Rsc.Player (Act Flow PlayerEvent Session Track Operation Log)

variable {ok : (op : Op) → Ans op → Prop} {α β : Type} {s s' : Session} {tr : Trace}

/-! ## Programs with a session -/

/-- The answers that the session may get. -/
abbrev playerOk (ok : (op : Op) → Ans op → Prop) (op : Player.Op) (ans : Player.Ans op) : Prop :=
  ok (.player op) ans

/-- What the session was given, as a part of the trace. -/
abbrev ofLog (log : Log) : Trace := Prog.embedTrace Op.player log

theorem embed_inv {m : Prog Player.Ans α} {a : α} (h : Prog.Exec ok (Prog.embed Op.player m) tr a) :
    ∃ log, tr = ofLog log ∧ Prog.Exec (playerOk ok) m log a := by
  induction m generalizing tr with
  | ret b =>
    obtain ⟨rfl, rfl⟩ := h.ret_inv
    exact ⟨[], rfl, .ret a⟩
  | perform op k ih =>
    cases h with
    | perform hok h =>
      obtain ⟨log, rfl, hlog⟩ := ih _ h
      exact ⟨_, rfl, .perform hok hlog⟩

theorem onSession_inv {m : Act Flow} {out : Except String Flow}
    (h : Prog.Exec ok (onSession m s) tr (out, s')) :
    ∃ log, tr = ofLog log ∧ Prog.Exec (playerOk ok) (m s) log (out, s') := embed_inv h

theorem call_inv {op : Op} {out : Except String (Ans op)}
    (h : Prog.Exec ok (call op s) tr (out, s')) :
    ∃ ans, tr = [⟨op, ans⟩] ∧ out = .ok ans ∧ s' = s ∧ ok op ans := by
  cases h with
  | @perform _ _ ans _ _ hok h =>
    obtain ⟨rfl, hout⟩ := h.ret_inv
    cases hout
    exact ⟨ans, rfl, rfl, rfl, hok⟩

/-- A program goes on with the next one, or fails with its error. -/
theorem bind_inv {m : Main α} {f : α → Main β} {out : Except String β}
    (h : Prog.Exec ok ((m >>= f : Main β) s) tr (out, s')) :
    (∃ tr₁ a s₁ tr₂, tr = tr₁ ++ tr₂ ∧ Prog.Exec ok (m s) tr₁ (.ok a, s₁) ∧
      Prog.Exec ok (f a s₁) tr₂ (out, s')) ∨
    ∃ err, Prog.Exec ok (m s) tr (.error err, s') ∧ out = .error err := by
  obtain ⟨tr₁, ⟨result, s₁⟩, tr₂, rfl, hm, hf⟩ := Prog.Exec.bind_inv h
  cases result with
  | ok a => exact .inl ⟨tr₁, a, s₁, tr₂, rfl, hm, hf⟩
  | error err =>
    obtain ⟨rfl, hout⟩ := hf.ret_inv
    cases hout
    exact .inr ⟨err, by rwa [List.append_nil], rfl⟩

/-! ## Lines -/

/-- The lines that are printed, in their order. -/
def printed (interactive : Bool) (lines : List String) : Trace :=
  lines.map fun line => ⟨.print (line ++ if interactive then "\r\n" else "\n"), ()⟩

theorem printed_append (interactive : Bool) (lines lines' : List String) :
    printed interactive (lines ++ lines') =
      printed interactive lines ++ printed interactive lines' :=
  List.map_append

/-- The line of the current track. -/
def trackLine (s : Session) : List String :=
  (s.queue.current.map (nowPlaying s.queue.position)).toList

theorem printLine_inv {line : String} {interactive : Bool} {out : Except String Unit}
    (h : Prog.Exec ok (printLine line interactive s) tr (out, s')) :
    tr = printed interactive [line] ∧ out = .ok () ∧ s' = s := by
  obtain ⟨_, rfl, rfl, rfl, -⟩ := call_inv h
  exact ⟨rfl, rfl, rfl⟩

theorem showNowPlaying_inv {interactive : Bool} {out : Except String Unit}
    (h : Prog.Exec ok (showNowPlaying interactive s) tr (out, s')) :
    tr = printed interactive (trackLine s) ∧ out = .ok () ∧ s' = s := by
  cases hcurrent : s.queue.current with
  | none =>
    rw [showNowPlaying_none hcurrent] at h
    obtain ⟨rfl, hout⟩ := h.ret_inv
    cases hout
    exact ⟨by rw [trackLine, hcurrent]; rfl, rfl, rfl⟩
  | some track =>
    rw [showNowPlaying_some hcurrent] at h
    obtain ⟨rfl, rfl, rfl⟩ := printLine_inv h
    exact ⟨by rw [trackLine, hcurrent]; rfl, rfl, rfl⟩

/-! ## Turns -/

/-- The operation that the loop does when it gets this. -/
def operation (interactive : Bool) : Wake → Option Operation
  | .event (some event) => some (.event event)
  | .event none | .signal => none
  | .item item =>
      match itemAction interactive item with
      | some .togglePause => some .togglePause
      | some .next => some .next
      | some .previous => some .previous
      | some .quit | none => none

/-- The loop is left. -/
def Leaves (interactive : Bool) (wake : Wake) : Prop :=
  wake = .signal ∨ ∃ item, wake = .item item ∧ interactive = true ∧ nextAction item = some .quit

/-- The loop waits for more. -/
def Ignored (interactive : Bool) (wake : Wake) : Prop :=
  ∃ item, wake = .item item ∧ (interactive = true → nextAction item = none)

/-- The lines of a pause or of its end. -/
def pauseLine (op : Operation) (s : Session) : List String :=
  match op with
  | .togglePause => [if s.paused then "⏸ paused" else "▶ resumed"]
  | _ => []

/-- What is printed after an operation: whether the player is paused, and another track. -/
def said (op : Operation) (s s₁ : Session) : List String :=
  pauseLine op s₁ ++ if s₁.queue.position ≠ s.queue.position then trackLine s₁ else []

/-- The loop, turn by turn. -/
inductive Loops (ok : (op : Op) → Ans op → Prop) (interactive : Bool) :
    Session → List Wake → Trace → Except String Progress → Session → Prop
  | waits {s : Session} : Loops ok interactive s [] [] (.ok .waiting) s
  | gone {s : Session} {wakes : List Wake} : Loops ok interactive s (.event none :: wakes) []
      (.error "mpv exited unexpectedly") s
  | leaves {s : Session} {wake : Wake} {wakes : List Wake} (h : Leaves interactive wake) :
      Loops ok interactive s (wake :: wakes) [] (.ok .left) s
  | ignores {s s' : Session} {wake : Wake} {wakes : List Wake} {tr : Trace}
      {out : Except String Progress} (h : Ignored interactive wake)
      (hrest : Loops ok interactive s wakes tr out s') :
      Loops ok interactive s (wake :: wakes) tr out s'
  | fails {s s₁ : Session} {wake : Wake} {wakes : List Wake} {op : Operation} {log : Log}
      {err : String} (hop : operation interactive wake = some op)
      (h : Prog.Exec (playerOk ok) (op.act s) log (.error err, s₁)) :
      Loops ok interactive s (wake :: wakes) (ofLog log) (.error err) s₁
  | finishes {s s₁ : Session} {wake : Wake} {wakes : List Wake} {op : Operation} {log : Log}
      (hop : operation interactive wake = some op)
      (h : Prog.Exec (playerOk ok) (op.act s) log (.ok .finished, s₁)) :
      Loops ok interactive s (wake :: wakes)
        (ofLog log ++ printed interactive (said op s s₁ ++ ["Playlist finished."])) (.ok .left) s₁
  | goesOn {s s₁ s' : Session} {wake : Wake} {wakes : List Wake} {op : Operation} {log : Log}
      {tr : Trace} {out : Except String Progress} (hop : operation interactive wake = some op)
      (h : Prog.Exec (playerOk ok) (op.act s) log (.ok .continue, s₁))
      (hrest : Loops ok interactive s₁ wakes tr out s') :
      Loops ok interactive s (wake :: wakes) (ofLog log ++ printed interactive (said op s s₁) ++ tr)
        out s'

/-- The end of the body of the loop. -/
theorem afterwards_inv {interactive : Bool} {before : Nat × Nat} {flow : Flow}
    {again : Main Progress} {out : Except String Progress}
    (h : Prog.Exec ok (afterwards interactive before flow again s) tr (out, s')) :
    ∃ tr', tr = printed interactive
        (if s.queue.position ≠ before then trackLine s else []) ++ tr' ∧
      ((flow = .finished ∧ tr' = printed interactive ["Playlist finished."] ∧ out = .ok .left ∧
          s' = s) ∨
        (flow = .continue ∧ Prog.Exec ok (again s) tr' (out, s'))) := by
  -- the line of the track, when the position is another one
  have hrest : ∀ {tr' : Trace}, Prog.Exec ok ((if flow = .finished then do
        printLine "Playlist finished." interactive
        return .left
      else again : Main Progress) s) tr' (out, s') →
      (flow = .finished ∧ tr' = printed interactive ["Playlist finished."] ∧ out = .ok .left ∧
          s' = s) ∨
        (flow = .continue ∧ Prog.Exec ok (again s) tr' (out, s')) := by
    intro tr' h
    cases flow with
    | «continue» => exact .inr ⟨rfl, h⟩
    | finished =>
      rcases bind_inv h with ⟨tr₁, _, s₁, tr₂, rfl, hline, hret⟩ | ⟨err, hline, -⟩
      · obtain ⟨rfl, -, rfl⟩ := printLine_inv hline
        obtain ⟨rfl, hout⟩ := hret.ret_inv
        cases hout
        exact .inl ⟨rfl, List.append_nil _, rfl, rfl⟩
      · obtain ⟨-, hout, -⟩ := printLine_inv hline
        cases hout
  change Prog.Exec ok ((if s.queue.position ≠ before then
      (showNowPlaying interactive >>= fun _ => _)
    else (_ : Main Progress)) s) tr (out, s') at h
  split at h
  · next hposition =>
    rw [if_pos hposition]
    rcases bind_inv h with ⟨tr₁, _, s₁, tr₂, rfl, hline, hnext⟩ | ⟨err, hline, -⟩
    · obtain ⟨rfl, -, rfl⟩ := showNowPlaying_inv hline
      exact ⟨tr₂, rfl, hrest hnext⟩
    · obtain ⟨-, hout, -⟩ := showNowPlaying_inv hline
      cases hout
  · next hposition =>
    rw [if_neg hposition]
    exact ⟨tr, rfl, hrest h⟩

/-- What the arm of an action does. -/
theorem perform_inv {interactive : Bool} {action : Action} {out : Except String (Option Flow)}
    (h : Prog.Exec ok (perform interactive action s) tr (out, s')) :
    (action = .quit ∧ tr = [] ∧ out = .ok none ∧ s' = s) ∨
    ∃ op log, (∀ item, nextAction item = some action →
        operation true (.item item) = some op) ∧
      ((∃ err, tr = ofLog log ∧ Prog.Exec (playerOk ok) (op.act s) log (.error err, s') ∧
          out = .error err) ∨
        ∃ flow, tr = ofLog log ++ printed interactive (pauseLine op s') ∧
          Prog.Exec (playerOk ok) (op.act s) log (.ok flow, s') ∧ out = .ok (some flow)) := by
  have hskip : ∀ op : Operation, (∀ s, pauseLine op s = []) →
      Prog.Exec ok ((do return some (← onSession op.act) : Main (Option Flow)) s) tr (out, s') →
      ∃ log, (∃ err, tr = ofLog log ∧ Prog.Exec (playerOk ok) (op.act s) log (.error err, s') ∧
          out = .error err) ∨
        ∃ flow, tr = ofLog log ++ printed interactive (pauseLine op s') ∧
          Prog.Exec (playerOk ok) (op.act s) log (.ok flow, s') ∧ out = .ok (some flow) := by
    intro op hline h
    rcases bind_inv h with ⟨tr₁, flow, s₁, tr₂, rfl, hop, hret⟩ | ⟨err, hop, rfl⟩
    · obtain ⟨log, rfl, hact⟩ := onSession_inv hop
      obtain ⟨rfl, hout⟩ := hret.ret_inv
      cases hout
      exact ⟨log, .inr ⟨flow, by rw [hline]; rfl, hact, rfl⟩⟩
    · obtain ⟨log, rfl, hact⟩ := onSession_inv hop
      exact ⟨log, .inl ⟨err, rfl, hact, rfl⟩⟩
  cases action with
  | quit =>
    obtain ⟨rfl, hout⟩ := h.ret_inv
    cases hout
    exact .inl ⟨rfl, rfl, rfl, rfl⟩
  | next =>
    obtain ⟨log, h⟩ := hskip .next (fun _ => rfl) h
    exact .inr ⟨.next, log, fun item hitem => by simp [operation, itemAction, hitem], h⟩
  | previous =>
    obtain ⟨log, h⟩ := hskip .previous (fun _ => rfl) h
    exact .inr ⟨.previous, log, fun item hitem => by simp [operation, itemAction, hitem], h⟩
  | togglePause =>
    right
    refine ⟨.togglePause, ?_⟩
    rcases bind_inv h with ⟨tr₁, flow, s₁, tr₂, rfl, hop, hnext⟩ | ⟨err, hop, rfl⟩
    · obtain ⟨log, rfl, hact⟩ := onSession_inv hop
      refine ⟨log, fun item hitem => by simp [operation, itemAction, hitem], .inr ⟨flow, ?_⟩⟩
      change Prog.Exec ok ((printLine (if s₁.paused then "⏸ paused" else "▶ resumed") interactive
        >>= fun _ => (pure (some flow) : Main (Option Flow))) s₁) tr₂ (out, s') at hnext
      rcases bind_inv hnext with ⟨tr₂, _, s₂, tr₃, rfl, hline, hret⟩ | ⟨err, hline, -⟩
      · obtain ⟨rfl, -, rfl⟩ := printLine_inv hline
        obtain ⟨rfl, hout⟩ := hret.ret_inv
        cases hout
        exact ⟨by rw [List.append_nil]; rfl, hact, rfl⟩
      · obtain ⟨-, hout, -⟩ := printLine_inv hline
        cases hout
    · obtain ⟨log, rfl, hact⟩ := onSession_inv hop
      exact ⟨log, fun item hitem => by simp [operation, itemAction, hitem], .inl ⟨err, rfl, hact, rfl⟩⟩

/-- An operation that was done, and the rest of the body of the loop. -/
theorem Loops.of_turn {interactive : Bool} {wake : Wake} {wakes : List Wake} {op : Operation}
    {log : Log} {flow : Flow} {s₁ : Session} {tr₂ : Trace} {out : Except String Progress}
    (hop : operation interactive wake = some op)
    (hact : Prog.Exec (playerOk ok) (op.act s) log (.ok flow, s₁))
    (h : Prog.Exec ok (afterwards interactive s.queue.position flow (loop interactive wakes) s₁)
      tr₂ (out, s'))
    (ih : ∀ {tr : Trace}, Prog.Exec ok (loop interactive wakes s₁) tr (out, s') →
      Loops ok interactive s₁ wakes tr out s') :
    Loops ok interactive s (wake :: wakes)
      (ofLog log ++ printed interactive (pauseLine op s₁) ++ tr₂) out s' := by
  obtain ⟨tr', rfl, ⟨rfl, rfl, rfl, rfl⟩ | ⟨rfl, hloop⟩⟩ := afterwards_inv h
  · have hturn := @Loops.finishes ok interactive s s' wake wakes op log hop hact
    simpa only [said, printed_append, List.append_assoc] using hturn
  · have hturn := @Loops.goesOn ok interactive s s₁ s' wake wakes op log tr' out hop hact (ih hloop)
    simpa only [said, printed_append, List.append_assoc] using hturn

/-- **The loop.** Every run of it is one of the cases of `Loops`. -/
theorem Loops.of_exec {interactive : Bool} {wakes : List Wake} {out : Except String Progress}
    (h : Prog.Exec ok (loop interactive wakes s) tr (out, s')) :
    Loops ok interactive s wakes tr out s' := by
  induction wakes generalizing s tr with
  | nil =>
    obtain ⟨rfl, hout⟩ := h.ret_inv
    cases hout
    exact .waits
  | cons wake wakes ih =>
    match wake with
    | .signal =>
      obtain ⟨rfl, hout⟩ := h.ret_inv
      cases hout
      exact .leaves (.inl rfl)
    | .event none =>
      obtain ⟨rfl, hout⟩ := h.ret_inv
      cases hout
      exact .gone
    | .event (some event) =>
      change Prog.Exec ok ((onSession (Session.handleEvent event) >>= fun flow =>
        afterwards interactive s.queue.position flow (loop interactive wakes)) s) tr (out, s') at h
      have hop : operation interactive (.event (some event)) = some (.event event) := rfl
      rcases bind_inv h with ⟨tr₁, flow, s₁, tr₂, rfl, hsession, hrest⟩ | ⟨err, hsession, rfl⟩
      · obtain ⟨log, rfl, hact⟩ := onSession_inv hsession
        have hturn := Loops.of_turn hop hact hrest ih
        simpa [pauseLine, printed] using hturn
      · obtain ⟨log, rfl, hact⟩ := onSession_inv hsession
        exact .fails hop hact
    | .item item =>
      cases hnext : itemAction interactive item with
      | none =>
        rw [loop_ignored hnext] at h
        refine .ignores ⟨item, rfl, fun hinteractive => ?_⟩ (ih h)
        rwa [itemAction, if_pos hinteractive] at hnext
      | some action =>
        rw [loop_action hnext] at h
        have hinteractive : interactive = true := by
          by_contra hnot
          rw [itemAction, if_neg hnot] at hnext
          cases hnext
        rw [itemAction, if_pos hinteractive] at hnext
        subst hinteractive
        rcases bind_inv h with ⟨tr₁, flow, s₁, tr₂, rfl, hact, hrest⟩ | ⟨err, hact, rfl⟩
        · rcases perform_inv hact with ⟨rfl, rfl, hflow, rfl⟩ | ⟨op, log, hop, hdone⟩
          · cases hflow
            obtain ⟨rfl, hout⟩ := hrest.ret_inv
            cases hout
            exact .leaves (.inr ⟨item, rfl, rfl, hnext⟩)
          · rcases hdone with ⟨err, -, -, hflow⟩ | ⟨flow', rfl, hdone, hflow⟩
            · cases hflow
            · cases hflow
              exact .of_turn (hop item hnext) hdone hrest ih
        · rcases perform_inv hact with ⟨-, -, hflow, -⟩ | ⟨op, log, hop, hdone⟩
          · cases hflow
          · rcases hdone with ⟨err', rfl, hdone, hflow⟩ | ⟨flow', -, -, hflow⟩
            · cases hflow
              exact .fails (hop item hnext) hdone
            · cases hflow

/-! ## The whole of `run` -/

/-- `run`, behind its guard: the first track, and the loop. -/
inductive Starts (ok : (op : Op) → Ans op → Prop) (interactive : Bool) (s : Session)
    (wakes : List Wake) : Trace → Except String Progress → Session → Prop
  | fails {log : Log} {err : String} {s₁ : Session}
      (h : Prog.Exec (playerOk ok) (Operation.start.act s) log (.error err, s₁)) :
      Starts ok interactive s wakes (ofLog log) (.error err) s₁
  | nothing {log : Log} {s₁ : Session}
      (h : Prog.Exec (playerOk ok) (Operation.start.act s) log (.ok .finished, s₁)) :
      Starts ok interactive s wakes (ofLog log) (.error "no track could be played") s₁
  | plays {log : Log} {tr : Trace} {s₁ s' : Session} {out : Except String Progress}
      (h : Prog.Exec (playerOk ok) (Operation.start.act s) log (.ok .continue, s₁))
      (hrest : Loops ok interactive s₁ wakes tr out s') :
      Starts ok interactive s wakes (ofLog log ++ printed interactive (trackLine s₁ ++
        if interactive then ["[space] pause  [n]ext  [p]revious  [q]uit"] else []) ++ tr) out s'

theorem Starts.of_exec {interactive : Bool} {wakes : List Wake} {out : Except String Progress}
    (h : Prog.Exec ok (playback interactive wakes s) tr (out, s')) :
    Starts ok interactive s wakes tr out s' := by
  rcases bind_inv h with ⟨tr₁, flow, s₁, tr₂, rfl, hsession, hnext⟩ | ⟨err, hsession, rfl⟩
  · obtain ⟨log, rfl, hact⟩ := onSession_inv hsession
    cases flow with
    | finished =>
      obtain ⟨rfl, hout⟩ := hnext.ret_inv
      cases hout
      rw [List.append_nil]
      exact .nothing hact
    | «continue» =>
      rcases bind_inv hnext with ⟨tr₂, _, s₂, tr₃, rfl, hline, hnext'⟩ | ⟨err, hline, -⟩
      · obtain ⟨rfl, -, rfl⟩ := showNowPlaying_inv hline
        cases interactive with
        | false =>
          have hturn := Starts.plays hact (Loops.of_exec hnext')
          simpa [List.append_assoc] using hturn
        | true =>
          rcases bind_inv hnext' with ⟨tr₃, _, s₃, tr₄, rfl, hkeys, hloop⟩ | ⟨err, hkeys, -⟩
          · obtain ⟨rfl, -, rfl⟩ := printLine_inv hkeys
            have hturn := Starts.plays hact (Loops.of_exec hloop)
            simpa [printed_append, List.append_assoc] using hturn
          · obtain ⟨-, hout, -⟩ := printLine_inv hkeys
            cases hout
      · obtain ⟨-, hout, -⟩ := showNowPlaying_inv hline
        cases hout
  · obtain ⟨log, rfl, hact⟩ := onSession_inv hsession
    exact .fails hact

/-- What the guard puts around its body, in a terminal. -/
inductive Guards (tr : Trace) : Bool → Except String Progress → Trace → Prop
  | plain {out : Except String Progress} : Guards tr false out tr
  | waiting : Guards tr true (.ok .waiting) (⟨.enableRawMode, .ok ()⟩ :: tr)
  | restored {out : Except String Progress} (h : out ≠ .ok .waiting) :
      Guards tr true out (⟨.enableRawMode, .ok ()⟩ :: tr ++ [⟨.disableRawMode, ()⟩])

/-- The questions whether there is a terminal. -/
def asksTerminal (interactive : Bool) (tr : Trace) : Prop :=
  (interactive = false ∧ tr = [⟨.isTerminal .stdin, false⟩]) ∨
    tr = [⟨.isTerminal .stdin, true⟩, ⟨.isTerminal .stdout, interactive⟩]

theorem isInteractive_inv {out : Except String Bool}
    (h : Prog.Exec ok (isInteractive s) tr (out, s')) :
    ∃ interactive, asksTerminal interactive tr ∧ out = .ok interactive ∧ s' = s := by
  rcases bind_inv h with ⟨tr₁, answer, s₁, tr₂, rfl, hstdin, hnext⟩ | ⟨err, hstdin, -⟩
  · obtain ⟨stdin, rfl, hout, rfl, -⟩ := call_inv hstdin
    cases hout
    cases answer with
    | false =>
      obtain ⟨rfl, hret⟩ := hnext.ret_inv
      cases hret
      exact ⟨false, .inl ⟨rfl, rfl⟩, rfl, rfl⟩
    | true =>
      obtain ⟨stdout, rfl, rfl, rfl, -⟩ := call_inv hnext
      exact ⟨stdout, .inr rfl, rfl, rfl⟩
  · obtain ⟨_, _, hout, -⟩ := call_inv hstdin
    cases hout

/-- The guard of the terminal, when it is put in raw mode. -/
theorem rawMode_inv {body : Main Progress} {out : Except String Progress}
    (h : Prog.Exec ok (rawMode body s) tr (out, s')) :
    (∃ err, tr = [⟨.enableRawMode, .error err⟩] ∧ out = .error err ∧ s' = s) ∨
      ∃ tr', Prog.Exec ok (body s) tr' (out, s') ∧ Guards tr' true out tr := by
  obtain ⟨ans, rest, rfl, hrest⟩ := h.perform_inv
  cases ans with
  | error err =>
    obtain ⟨rfl, hout⟩ := hrest.ret_inv
    cases hout
    exact .inl ⟨err, rfl, rfl, rfl⟩
  | ok enabled =>
    obtain ⟨tr₁, ⟨out₁, s₁⟩, tr₂, rfl, hbody, hdrop⟩ := hrest.bind_inv
    dsimp only at hdrop
    split at hdrop
    · next hwaiting =>
      obtain ⟨rfl, hout⟩ := hdrop.ret_inv
      cases hout
      subst hwaiting
      rw [List.append_nil]
      exact .inr ⟨tr₁, hbody, .waiting⟩
    · next hleft =>
      obtain ⟨_, rest, rfl, hret⟩ := hdrop.perform_inv
      obtain ⟨rfl, hout⟩ := hret.ret_inv
      cases hout
      exact .inr ⟨tr₁, hbody, .restored hleft⟩

/-- `run` asks for a terminal and plays, unless the terminal cannot be put in raw mode. -/
theorem run_inv {wakes : List Wake} {out : Except String Progress}
    (h : Prog.Exec ok (run wakes s) tr (out, s')) :
    ∃ interactive asked rest, tr = asked ++ rest ∧ asksTerminal interactive asked ∧
      ((∃ err, interactive = true ∧ rest = [⟨.enableRawMode, .error err⟩] ∧ out = .error err ∧
          s' = s) ∨
        ∃ body, Starts ok interactive s wakes body out s' ∧ Guards body interactive out rest) := by
  rcases bind_inv h with ⟨asked, interactive, s₁, rest, rfl, hasked, hbody⟩ | ⟨err, hasked, -⟩
  · obtain ⟨_, hterminal, hout, rfl⟩ := isInteractive_inv hasked
    cases hout
    refine ⟨interactive, asked, rest, rfl, hterminal, ?_⟩
    cases interactive with
    | false => exact .inr ⟨rest, Starts.of_exec hbody, .plain⟩
    | true =>
      rcases rawMode_inv hbody with ⟨err, rfl, rfl, rfl⟩ | ⟨body, hbody, hguards⟩
      · exact .inl ⟨err, rfl, rfl, rfl, rfl⟩
      · exact .inr ⟨body, Starts.of_exec hbody, hguards⟩
  · obtain ⟨_, _, hout, -⟩ := isInteractive_inv hasked
    cases hout

end Rsc.App

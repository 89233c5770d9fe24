import Rsc.Library.Pool
import Rsc.Player.Commands
import Mathlib.Data.List.Nodup
import Mathlib.Data.Prod.Basic

/-!
The socket of `mpv` as it is written to at once: `MpvPlayer::send` takes a number, then the lock
of the writer, and writes its line in as many pieces as the socket likes. No two lines are mixed,
and what has returned well has been sent once (`commands_arrive`). A call that has begun is never
dropped: `run` awaits it in the body of an arm of `select!`.
-/

namespace Rsc.Player.Wire

open Rsc.Library Commands

/-! ## Sending -/

/-- The effects of `send`; one `write` of the socket takes a part of the bytes. -/
inductive Op
  | fetchAdd
  | lock
  | write (bytes : List UInt8)
  | unlock

abbrev Ans : Op → Type
  | .fetchAdd => UInt64
  | .lock | .unlock => Unit
  | .write _ => Except String Nat

/-- The error of a write that took nothing. -/
def writeZero : String := "write zero"

/-- `AsyncWriteExt::write_all`. -/
def writeAll (bytes : List UInt8) : Prog Ans (Except String Unit) :=
  if bytes = [] then .ret (.ok ())
  else .perform (.write bytes) fun
    | .error e => .ret (.error e)
    | .ok n => if n = 0 then .ret (.error writeZero) else writeAll (bytes.drop n)
termination_by bytes.length
decreasing_by
  rw [List.length_drop]
  have hlength := List.length_pos_of_ne_nil ‹bytes ≠ []›
  omega

/-- `MpvPlayer::send`. -/
def send (command : Json.Value String) : Prog Ans (Except String Unit) := do
  let requestId ← Prog.call Op.fetchAdd
  Prog.call Op.lock
  let result ← writeAll (line command requestId)
  Prog.call Op.unlock
  match result with
  | .ok () => return .ok ()
  | .error _ => return .error "cannot talk to mpv (did it exit?)"

/-! ## The socket -/

/-- `next` is the counter of the requests, `numbered` who has got which number from it, `sent` what
the socket has taken. Nothing is taken any more once it is broken. -/
structure World (ι : Type) where
  next : UInt64
  numbered : List (ι × UInt64)
  holder : Option ι
  sent : List UInt8
  broken : Bool

variable {ι : Type}

/-- A write takes at least one byte, or it is refused for good. -/
inductive Effect (i : ι) : World ι → (op : Op) → Ans op → World ι → Prop
  | fetchAdd {w : World ι} :
      Effect i w .fetchAdd w.next { w with
        next := w.next + 1
        numbered := w.numbered ++ [(i, w.next)] }
  | lock {w : World ι} (h : w.holder = none) : Effect i w .lock () { w with holder := some i }
  | write {w : World ι} {bytes : List UInt8} {n : Nat} (h : w.broken = false) (hpos : 0 < n)
      (hn : n ≤ bytes.length) :
      Effect i w (.write bytes) (.ok n) { w with sent := w.sent ++ bytes.take n }
  | refuse {w : World ι} {bytes : List UInt8} {ans : Except String Nat}
      (h : ∀ n, ans = .ok n → n = 0) : Effect i w (.write bytes) ans { w with broken := true }
  | unlock {w : World ι} : Effect i w .unlock () { w with holder := none }

/-- `mpv` goes away. -/
def Exits (w w' : World ι) : Prop := w' = { w with broken := true }

/-- A socket that was just connected. -/
def connected : World ι := ⟨1, [], none, [], false⟩

/-! ## The stages of a call -/

inductive Phase
  | start
  | numbered (id : UInt64)
  | writing (id : UInt64) (rest : List UInt8)
  | wrote (id : UInt64) (ok : Bool)
  | done (id : UInt64) (ok : Bool)

structure Stage where
  command : Json.Value String
  phase : Phase

inductive Advance (command : Json.Value String) : Phase → (op : Op) → Ans op → Phase → Prop
  | fetchAdd {id : UInt64} : Advance command .start .fetchAdd id (.numbered id)
  | lock {id : UInt64} : Advance command (.numbered id) .lock () (.writing id (line command id))
  | write {id : UInt64} {rest : List UInt8} {n : Nat} (hpos : 0 < n) (hrest : rest.drop n ≠ []) :
      Advance command (.writing id rest) (.write rest) (.ok n) (.writing id (rest.drop n))
  | finish {id : UInt64} {rest : List UInt8} {n : Nat} (hpos : 0 < n) (hrest : rest.drop n = []) :
      Advance command (.writing id rest) (.write rest) (.ok n) (.wrote id true)
  | refuse {id : UInt64} {rest : List UInt8} {ans : Except String Nat}
      (h : ∀ n, ans = .ok n → n = 0) :
      Advance command (.writing id rest) (.write rest) ans (.wrote id false)
  | unlock {id : UInt64} {ok : Bool} : Advance command (.wrote id ok) .unlock () (.done id ok)

def Move (s : Stage) (op : Op) (ans : Ans op) (s' : Stage) : Prop :=
  s'.command = s.command ∧ Advance s.command s.phase op ans s'.phase

def Returned (s : Stage) (result : Except String Unit) : Prop :=
  ∃ id, s.phase = .done id result.isOk

theorem writeAll_follows {command : Json.Value String} {id : UInt64} {rest : List UInt8}
    (h : rest ≠ []) :
    Prog.Follows Move (fun s result => s = ⟨command, .wrote id result.isOk⟩)
      ⟨command, .writing id rest⟩ (writeAll rest) := by
  induction hlength : rest.length using Nat.strongRecOn generalizing rest with
  | ind length ih =>
    rw [writeAll, if_neg h]
    rintro (e | n)
    · exact ⟨⟨command, .wrote id false⟩, ⟨rfl, .refuse (by rintro _ ⟨⟩)⟩, rfl⟩
    · dsimp only
      split
      · next hzero =>
        refine ⟨⟨command, .wrote id false⟩, ⟨rfl, .refuse fun m hm => ?_⟩, rfl⟩
        rw [← Except.ok.inj hm, hzero]
      · next hpos =>
        have hpos := Nat.pos_of_ne_zero hpos
        by_cases hrest : rest.drop n = []
        · refine ⟨⟨command, .wrote id true⟩, ⟨rfl, .finish hpos hrest⟩, ?_⟩
          rw [hrest, writeAll, if_pos rfl]
          rfl
        · refine ⟨⟨command, .writing id (rest.drop n)⟩, ⟨rfl, .write hpos hrest⟩, ?_⟩
          refine ih _ ?_ hrest rfl
          have hne := List.length_pos_of_ne_nil h
          rw [List.length_drop]
          omega

theorem line_ne_nil (command : Json.Value String) (id : UInt64) : line command id ≠ [] :=
  List.append_ne_nil_of_right_ne_nil _ (List.cons_ne_nil _ _)

theorem send_follows (command : Json.Value String) :
    Prog.Follows Move Returned ⟨command, .start⟩ (send command) := by
  intro id
  refine ⟨⟨command, .numbered id⟩, ⟨rfl, .fetchAdd⟩, fun _ => ?_⟩
  refine ⟨⟨command, .writing id (line command id)⟩, ⟨rfl, .lock⟩, ?_⟩
  refine (writeAll_follows (line_ne_nil command id)).bind ?_
  rintro _ result rfl
  refine fun _ => ⟨⟨command, .done id result.isOk⟩, ⟨rfl, .unlock⟩, ?_⟩
  cases result with
  | error e => exact ⟨id, rfl⟩
  | ok u => exact ⟨id, rfl⟩

/-! ## The invariant -/

variable {requests : ι → Request} {w w' : World ι} {order order' : List (ι × UInt64)}
  {begun begun' : List UInt8} {i : ι} {id : UInt64}

/-- Where a call is, when the lines of `order` and the bytes `begun` of another line are sent. -/
inductive At (requests : ι → Request) (w : World ι) (order : List (ι × UInt64))
    (begun : List UInt8) (i : ι) : Phase → Prop
  | start (h : i ∉ order.map Prod.fst) : At requests w order begun i .start
  | numbered {id : UInt64} (h : i ∉ order.map Prod.fst) (hid : (i, id) ∈ w.numbered) :
      At requests w order begun i (.numbered id)
  | writing {id : UInt64} {rest : List UInt8} (h : i ∉ order.map Prod.fst)
      (hid : (i, id) ∈ w.numbered) (hheld : w.holder = some i)
      (hline : w.broken = false → line (requests i).command id = begun ++ rest) :
      At requests w order begun i (.writing id rest)
  | wrote {id : UInt64} (h : i ∈ order.map Prod.fst) (hheld : w.holder = some i)
      (hbegun : w.broken = false → begun = []) : At requests w order begun i (.wrote id true)
  | failed {id : UInt64} (h : i ∉ order.map Prod.fst) (hheld : w.holder = some i)
      (hbroken : w.broken = true) : At requests w order begun i (.wrote id false)
  | done {id : UInt64} (h : i ∈ order.map Prod.fst) : At requests w order begun i (.done id true)
  | gone {id : UInt64} (h : i ∉ order.map Prod.fst) (hbroken : w.broken = true) :
      At requests w order begun i (.done id false)

/-- The lines of `order` are sent, and the bytes `begun` of another line. -/
structure Inv (requests : ι → Request) (w : World ι) (g : ι → Stage) (order : List (ι × UInt64))
    (begun : List UInt8) : Prop where
  command : ∀ i, (g i).command = (requests i).command
  stage : ∀ i, At requests w order begun i (g i).phase
  once : (order.map Prod.fst).Nodup
  numbers : order ⊆ w.numbered
  sent : w.sent = order.flatMap (fun c => line (requests c.1).command c.2) ++ begun
  notMem : 10 ∉ begun
  idle : w.holder = none → w.broken = false → begun = []
  next : w.next = .ofNat (1 + w.numbered.length)
  ids : w.numbered.map Prod.snd = (List.range' 1 w.numbered.length).map .ofNat

/-- A step of another call leaves a call where it is. -/
theorem At.frame {phase : Phase} (h : At requests w order begun i phase)
    (horder : i ∈ order'.map Prod.fst ↔ i ∈ order.map Prod.fst)
    (hnumbered : w.numbered ⊆ w'.numbered) (hbroken : w.broken = true → w'.broken = true)
    (hheld : w.holder = some i → w'.holder = some i ∧ begun' = begun) :
    At requests w' order' begun' i phase := by
  have hopen : w'.broken = false → w.broken = false := by
    intro h'
    cases hw : w.broken with
    | false => rfl
    | true => rw [hbroken hw] at h'; cases h'
  cases h with
  | start h => exact .start (mt horder.mp h)
  | numbered h hid => exact .numbered (mt horder.mp h) (hnumbered hid)
  | writing h hid hi hline =>
    obtain ⟨hi', rfl⟩ := hheld hi
    exact .writing (mt horder.mp h) (hnumbered hid) hi' fun h' => hline (hopen h')
  | wrote h hi hbegun =>
    obtain ⟨hi', rfl⟩ := hheld hi
    exact .wrote (horder.mpr h) hi' fun h' => hbegun (hopen h')
  | failed h hi hw => exact .failed (mt horder.mp h) (hheld hi).1 (hbroken hw)
  | done h => exact .done (horder.mpr h)
  | gone h hw => exact .gone (mt horder.mp h) (hbroken hw)

/-! ## One step -/

section Step

variable [DecidableEq ι] {g : ι → Stage} {command : Json.Value String} {phase : Phase}

theorem Inv.command_update (h : Inv requests w g order begun) (hcommand : command = (g i).command)
    (j : ι) : (Function.update g i ⟨command, phase⟩ j).command = (requests j).command := by
  by_cases hj : j = i
  · subst hj
    rw [Function.update_self, hcommand, h.command]
  · rw [Function.update_of_ne hj, h.command]

theorem Inv.stage_update (h : Inv requests w g order begun)
    (hi : At requests w' order' begun' i phase)
    (horder : ∀ j ≠ i, (j ∈ order'.map Prod.fst ↔ j ∈ order.map Prod.fst))
    (hnumbered : w.numbered ⊆ w'.numbered) (hbroken : w.broken = true → w'.broken = true)
    (hheld : ∀ j ≠ i, w.holder = some j → w'.holder = some j ∧ begun' = begun) (j : ι) :
    At requests w' order' begun' j (Function.update g i ⟨command, phase⟩ j).phase := by
  by_cases hj : j = i
  · subst hj
    rwa [Function.update_self]
  · rw [Function.update_of_ne hj]
    exact (h.stage j).frame (horder j hj) hnumbered hbroken (hheld j hj)

theorem Inv.fetchAdd (h : Inv requests w g order begun) (hcommand : command = (g i).command)
    (hi : i ∉ order.map Prod.fst) :
    Inv requests { w with next := w.next + 1, numbered := w.numbered ++ [(i, w.next)] }
      (Function.update g i ⟨command, .numbered w.next⟩) order begun where
  command := h.command_update hcommand
  stage := by
    refine h.stage_update (.numbered hi ?_) (fun _ _ => Iff.rfl) (List.subset_append_left _ _) id
      fun _ _ hj => ⟨hj, rfl⟩
    exact List.mem_append_right _ List.mem_cons_self
  once := h.once
  numbers := List.Subset.trans h.numbers (List.subset_append_left _ _)
  sent := h.sent
  notMem := h.notMem
  idle := h.idle
  next := by
    show w.next + 1 = _
    rw [h.next, List.length_append, List.length_singleton, ← Nat.add_assoc]
    exact (UInt64.ofNat_add _ 1).symm
  ids := by
    show List.map Prod.snd (w.numbered ++ [(i, w.next)]) = _
    rw [List.map_append, h.ids, List.length_append, List.length_singleton, List.range'_concat,
      List.map_append, Nat.one_mul, List.map_singleton, List.map_singleton, h.next]

theorem Inv.lock (h : Inv requests w g order begun) (hcommand : command = (g i).command)
    (hi : i ∉ order.map Prod.fst) (hid : (i, id) ∈ w.numbered) (hfree : w.holder = none) :
    Inv requests { w with holder := some i }
      (Function.update g i ⟨command, .writing id (line (requests i).command id)⟩) order begun where
  command := h.command_update hcommand
  stage := by
    refine h.stage_update (.writing hi hid rfl fun hopen => ?_) (fun _ _ => Iff.rfl)
      (List.Subset.refl _) (fun hw => hw) fun j _ hj => ?_
    · rw [h.idle hfree hopen, List.nil_append]
    · rw [hfree] at hj
      cases hj
  once := h.once
  numbers := h.numbers
  sent := h.sent
  notMem := h.notMem
  idle := by rintro ⟨⟩
  next := h.next
  ids := h.ids

omit [DecidableEq ι] in
/-- Only one call holds the lock. -/
theorem World.holder_unique {j : ι} (hi : w.holder = some i) (hj : j ≠ i) :
    w.holder ≠ some j := by
  rw [hi]
  exact fun heq => hj (Option.some.inj heq).symm

/-- The beginning of a line holds no line break. -/
theorem notMem_of_line {requestId : UInt64} {r : Request} {rest : List UInt8}
    (h : line r.command requestId = begun ++ rest) (hrest : rest ≠ []) : 10 ∉ begun := by
  have hbegun : begun <+: (message r.command requestId).toVec := by
    refine List.prefix_of_prefix_length_le ⟨rest, h.symm⟩ (List.prefix_append _ [10]) ?_
    have hlength := congrArg List.length h
    have hpos := List.length_pos_of_ne_nil hrest
    rw [line, List.length_append, List.length_append, List.length_singleton] at hlength
    omega
  exact fun hmem => notMem_message r requestId (hbegun.subset hmem)

theorem Inv.write {rest : List UInt8} {n : Nat} (h : Inv requests w g order begun)
    (hcommand : command = (g i).command) (hi : i ∉ order.map Prod.fst) (hid : (i, id) ∈ w.numbered)
    (hheld : w.holder = some i) (hline : line (requests i).command id = begun ++ rest)
    (hrest : rest.drop n ≠ []) :
    Inv requests { w with sent := w.sent ++ rest.take n }
      (Function.update g i ⟨command, .writing id (rest.drop n)⟩) order (begun ++ rest.take n) := by
  have hline' : line (requests i).command id = begun ++ rest.take n ++ rest.drop n := by
    rw [List.append_assoc, List.take_append_drop, hline]
  exact {
    command := h.command_update hcommand
    stage := by
      refine h.stage_update (.writing hi hid hheld fun _ => hline') (fun _ _ => Iff.rfl)
        (List.Subset.refl _) (fun hw => hw) fun j hj hheld' => ?_
      exact absurd hheld' (World.holder_unique hheld hj)
    once := h.once
    numbers := h.numbers
    sent := by
      show w.sent ++ _ = _
      rw [h.sent, List.append_assoc]
    notMem := notMem_of_line hline' hrest
    idle := fun hfree => by
      rw [hheld] at hfree
      cases hfree
    next := h.next
    ids := h.ids }

theorem Inv.finish {rest : List UInt8} {n : Nat} (h : Inv requests w g order begun)
    (hcommand : command = (g i).command) (hi : i ∉ order.map Prod.fst) (hid : (i, id) ∈ w.numbered)
    (hheld : w.holder = some i) (hline : line (requests i).command id = begun ++ rest)
    (hrest : rest.drop n = []) :
    Inv requests { w with sent := w.sent ++ rest.take n }
      (Function.update g i ⟨command, .wrote id true⟩) (order ++ [(i, id)]) [] where
  command := h.command_update hcommand
  stage := by
    refine h.stage_update (.wrote ?_ hheld fun _ => rfl) (fun j hj => ?_) (List.Subset.refl _)
      (fun hw => hw) fun j hj hheld' => ?_
    · rw [List.map_append, List.mem_append]
      exact .inr List.mem_cons_self
    · rw [List.map_append, List.mem_append, List.map_singleton, List.mem_singleton, or_iff_left hj]
    · exact absurd hheld' (World.holder_unique hheld hj)
  once := by
    rw [List.map_append, List.map_singleton, ← List.concat_eq_append]
    exact List.Nodup.concat hi h.once
  numbers := List.append_subset.mpr ⟨h.numbers, List.cons_subset.mpr ⟨hid, List.nil_subset _⟩⟩
  sent := by
    have htake : rest.take n = rest := by
      rw [← List.append_nil (rest.take n), ← hrest, List.take_append_drop]
    show w.sent ++ _ = _
    rw [h.sent, htake, List.append_assoc, ← hline, List.flatMap_append, List.flatMap_singleton,
      List.append_nil]
  notMem := List.not_mem_nil
  idle _ _ := rfl
  next := h.next
  ids := h.ids

theorem Inv.refuse (h : Inv requests w g order begun) (hcommand : command = (g i).command)
    (hi : i ∉ order.map Prod.fst) (hheld : w.holder = some i) :
    Inv requests { w with broken := true } (Function.update g i ⟨command, .wrote id false⟩) order
      begun where
  command := h.command_update hcommand
  stage := h.stage_update (.failed hi hheld rfl) (fun _ _ => Iff.rfl) (List.Subset.refl _)
    (fun _ => rfl) fun _ _ hj => ⟨hj, rfl⟩
  once := h.once
  numbers := h.numbers
  sent := h.sent
  notMem := h.notMem
  idle _ := by rintro ⟨⟩
  next := h.next
  ids := h.ids

theorem Inv.unlock (h : Inv requests w g order begun) (hcommand : command = (g i).command)
    (hheld : w.holder = some i) (hidle : w.broken = false → begun = [])
    (hi : At requests { w with holder := none } order begun i phase) :
    Inv requests { w with holder := none } (Function.update g i ⟨command, phase⟩) order begun where
  command := h.command_update hcommand
  stage := by
    refine h.stage_update hi (fun _ _ => Iff.rfl) (List.Subset.refl _) (fun hw => hw)
      fun j hj hheld' => ?_
    exact absurd hheld' (World.holder_unique hheld hj)
  once := h.once
  numbers := h.numbers
  sent := h.sent
  notMem := h.notMem
  idle _ := hidle
  next := h.next
  ids := h.ids

/-- Whatever a call does, lines are only added, and whole ones. -/
theorem Inv.step {op : Op} {ans : Ans op} {s : Stage} (h : Inv requests w g order begun)
    (hmove : Move (g i) op ans s) (hE : Effect i w op ans w') :
    ∃ more begun', Inv requests w' (Function.update g i s) (order ++ more) begun' := by
  obtain ⟨command, phase⟩ := s
  obtain ⟨hcommand, hadvance⟩ := hmove
  have hi := h.stage i
  generalize (g i).phase = before at hadvance hi
  dsimp only at hcommand hadvance
  rw [h.command i] at hadvance
  cases hadvance with
  | fetchAdd =>
    cases hE
    cases hi with
    | start hi => exact ⟨[], begun, by rw [List.append_nil]; exact h.fetchAdd hcommand hi⟩
  | lock =>
    cases hE with
    | lock hfree =>
      cases hi with
      | numbered hi hid =>
        exact ⟨[], begun, by rw [List.append_nil]; exact h.lock hcommand hi hid hfree⟩
  | write hpos hrest =>
    cases hi with
    | writing hi hid hheld hline =>
      cases hE with
      | write hopen =>
        exact ⟨[], _, by
          rw [List.append_nil]
          exact h.write hcommand hi hid hheld (hline hopen) hrest⟩
      | refuse hzero => exact absurd (hzero _ rfl) (Nat.ne_of_gt hpos)
  | finish hpos hrest =>
    cases hi with
    | writing hi hid hheld hline =>
      cases hE with
      | write hopen => exact ⟨_, [], h.finish hcommand hi hid hheld (hline hopen) hrest⟩
      | refuse hzero => exact absurd (hzero _ rfl) (Nat.ne_of_gt hpos)
  | refuse hzero =>
    cases hi with
    | writing hi hid hheld hline =>
      cases hE with
      | write hopen hpos => exact absurd (hzero _ rfl) (Nat.ne_of_gt hpos)
      | refuse _ => exact ⟨[], begun, by rw [List.append_nil]; exact h.refuse hcommand hi hheld⟩
  | unlock =>
    cases hE
    refine ⟨[], begun, ?_⟩
    rw [List.append_nil]
    cases hi with
    | wrote hi hheld hbegun => exact h.unlock hcommand hheld hbegun (.done hi)
    | failed hi hheld hbroken =>
      refine h.unlock hcommand hheld (fun hopen => ?_) (.gone hi hbroken)
      rw [hbroken] at hopen
      cases hopen

omit [DecidableEq ι] in
theorem Inv.exits (h : Inv requests w g order begun) (hexits : Exits w w') :
    Inv requests w' g order begun := by
  subst hexits
  exact {
    command := h.command
    stage := fun i => (h.stage i).frame Iff.rfl (List.Subset.refl _) (fun _ => rfl)
      fun hi => ⟨hi, rfl⟩
    once := h.once
    numbers := h.numbers
    sent := h.sent
    notMem := h.notMem
    idle := fun _ => by rintro ⟨⟩
    next := h.next
    ids := h.ids }

end Step

/-! ## Every run -/

/-- Any number of calls on a new connection, none of which has begun. -/
def sending (requests : ι → Request) : Pool (World ι) ι Ans (Except String Unit) :=
  ⟨connected, fun i => send (requests i).command⟩

/-- The calls interleave, and `mpv` may go away. -/
abbrev Interleaves [DecidableEq ι] (p : Pool (World ι) ι Ans (Except String Unit))
    (tr : List (Option ι)) (p' : Pool (World ι) ι Ans (Except String Unit)) : Prop :=
  Pool.Run Effect Exits p tr p'

/-- The lines of the calls in `order` are sent, in this order and once each, with the numbers that
the calls have got: those of all calls that returned well, of none that failed, and of none that
has not begun. Nothing else is sent, but for the beginning of the line that is being written, or
that a broken socket has cut. -/
structure Sent (requests : ι → Request) (p : Pool (World ι) ι Ans (Except String Unit))
    (order : List (ι × UInt64)) : Prop where
  once : (order.map Prod.fst).Nodup
  numbers : order ⊆ p.shared.numbered
  sends : Sends p.shared.sent (order.map fun c => (requests c.1, c.2))
  ok : ∀ i, p.tasks i = .ret (.ok ()) → i ∈ order.map Prod.fst
  error : ∀ i e, p.tasks i = .ret (.error e) → i ∉ order.map Prod.fst ∧ p.shared.broken = true
  unbegun : ∀ i, p.tasks i = send (requests i).command → i ∉ order.map Prod.fst
  whole : p.shared.holder = none → p.shared.broken = false →
    p.shared.sent = order.flatMap fun c => line (requests c.1).command c.2

variable {p : Pool (World ι) ι Ans (Except String Unit)} {tr : List (Option ι)} {g : ι → Stage}

theorem Advance.fetchAdd_inv {command : Json.Value String} {phase phase' : Phase}
    (h : Advance command phase .fetchAdd id phase') : phase = .start := by
  cases h
  rfl

theorem At.mem_of_done {ok : Bool} (h : At requests w order begun i (.done id ok)) :
    (ok = true → i ∈ order.map Prod.fst) ∧
    (ok = false → i ∉ order.map Prod.fst ∧ w.broken = true) := by
  cases h with
  | done h => exact ⟨fun _ => h, by rintro ⟨⟩⟩
  | gone h hbroken => exact ⟨by rintro ⟨⟩, fun _ => ⟨h, hbroken⟩⟩

theorem At.notMem_of_start (h : At requests w order begun i .start) : i ∉ order.map Prod.fst := by
  cases h
  assumption

theorem Inv.toSent (h : Inv requests p.shared g order begun)
    (hfollows : ∀ i, Prog.Follows Move Returned (g i) (p.tasks i)) : Sent requests p order where
  once := h.once
  numbers := h.numbers
  sends := by
    have hsends := Sends.of_flatMap (order.map fun c => (requests c.1, c.2)) h.notMem
    rwa [List.flatMap_map, ← h.sent] at hsends
  ok i hi := by
    have hreturned := hfollows i
    rw [hi] at hreturned
    obtain ⟨id, hphase⟩ := hreturned
    exact (hphase ▸ h.stage i).mem_of_done.1 rfl
  error i e hi := by
    have hreturned := hfollows i
    rw [hi] at hreturned
    obtain ⟨id, hphase⟩ := hreturned
    exact (hphase ▸ h.stage i).mem_of_done.2 rfl
  unbegun i hi := by
    have hbegins := hfollows i
    rw [hi] at hbegins
    obtain ⟨s, hmove, -⟩ := hbegins 0
    exact (hmove.2.fetchAdd_inv ▸ h.stage i).notMem_of_start
  whole hfree hopen := by
    rw [h.sent, h.idle hfree hopen, List.append_nil]

/-- As long as the counter has not gone round, no number is given twice. -/
theorem Inv.ids_nodup (h : Inv requests w g order begun)
    (hlength : w.numbered.length < UInt64.size) : (w.numbered.map Prod.snd).Nodup := by
  rw [h.ids]
  refine List.Nodup.map_on (fun k hk l hl heq => ?_) List.nodup_range'
  obtain ⟨-, hk⟩ := List.mem_range'_1.mp hk
  obtain ⟨-, hl⟩ := List.mem_range'_1.mp hl
  have heq := congrArg UInt64.toNat heq
  rwa [UInt64.toNat_ofNat_of_lt' (by omega), UInt64.toNat_ofNat_of_lt' (by omega)] at heq

theorem connected_inv (requests : ι → Request) :
    Inv requests connected (fun i => ⟨(requests i).command, .start⟩) [] [] where
  command _ := rfl
  stage _ := .start List.not_mem_nil
  once := List.nodup_nil
  numbers := List.nil_subset _
  sent := rfl
  notMem := List.not_mem_nil
  idle _ _ := rfl
  next := rfl
  ids := rfl

variable [DecidableEq ι]

theorem numbered_length_le (hrun : Interleaves (sending requests) tr p) :
    p.shared.numbered.length ≤ tr.length := by
  induction hrun with
  | start => exact Nat.le_refl _
  | step _ hstep ih =>
    cases hstep with
    | env hexits =>
      subst hexits
      exact Nat.le_succ_of_le ih
    | task _ hE =>
      cases hE with
      | fetchAdd =>
        rw [List.length_append, List.length_singleton, List.length_cons]
        exact Nat.succ_le_succ ih
      | lock | write | refuse | unlock => exact Nat.le_succ_of_le ih

/-- What goes on from a state only adds lines. -/
theorem Inv.run {p' : Pool (World ι) ι Ans (Except String Unit)}
    (h : Inv requests p.shared g order begun)
    (hfollows : ∀ i, Prog.Follows Move Returned (g i) (p.tasks i)) (hrun : Interleaves p tr p') :
    ∃ g', (∀ i, Prog.Follows Move Returned (g' i) (p'.tasks i)) ∧
      ∃ more begun', Inv requests p'.shared g' (order ++ more) begun' := by
  refine hrun.invariant (I := fun w g => ∃ more begun', Inv requests w g (order ++ more) begun')
    hfollows ⟨[], begun, by rwa [List.append_nil]⟩ ?_ ?_
  · rintro w g i op ans s w' ⟨more, begun, h⟩ hmove hE
    obtain ⟨more', begun', h'⟩ := h.step hmove hE
    exact ⟨more ++ more', begun', by rwa [← List.append_assoc]⟩
  · rintro w g w' ⟨more, begun, h⟩ hexits
    exact ⟨more, begun, h.exits hexits⟩

/-- **What is sent arrives.** However the calls interleave, and in whatever pieces the socket takes
their lines, `mpv` reads the commands of the calls in one order, each with the number its call has
got, and no others; no number is given twice before the counter goes round. What `mpv` has read
stays read, so that a call which begins after another one has returned comes after it. -/
theorem commands_arrive (hrun : Interleaves (sending requests) tr p) :
    ∃ order : List (ι × UInt64), Sent requests p order ∧
      (tr.length < UInt64.size → (p.shared.numbered.map Prod.snd).Nodup ∧
        (order.map Prod.snd).Nodup) ∧
      ((∀ i, (requests i).Sendable) → ∀ calls, Sends p.shared.sent calls →
        (∀ c ∈ calls, c.1.Sendable) → calls = order.map fun c => (requests c.1, c.2)) ∧
      ∀ tr' p', Interleaves p tr' p' → ∃ more, Sent requests p' (order ++ more) := by
  obtain ⟨g, hfollows, order, begun, h⟩ := (connected_inv requests).run (p := sending requests)
    (fun i => send_follows (requests i).command) hrun
  have hsent := h.toSent hfollows
  refine ⟨order, hsent, fun hlength => ?_, fun hsendable calls hcalls hall => ?_, ?_⟩
  · have hids := h.ids_nodup (Nat.lt_of_le_of_lt (numbered_length_le hrun) hlength)
    refine ⟨hids, List.Nodup.map_on (fun c hc d hd heq => ?_) (List.Nodup.of_map _ hsent.once)⟩
    exact List.inj_on_of_nodup_map hids (hsent.numbers hc) (hsent.numbers hd) heq
  · refine hcalls.unique hsent.sends hall fun c hc => ?_
    obtain ⟨d, -, rfl⟩ := List.mem_map.mp hc
    exact hsendable d.1
  · intro tr' p' hrun'
    obtain ⟨g', hfollows', more, begun', h'⟩ := h.run hfollows hrun'
    exact ⟨more, h'.toSent hfollows'⟩

/-- The socket takes the first byte, and then all the others. -/
theorem writeAll_steps {bytes : List UInt8} (h : bytes.drop 1 ≠ []) :
    Prog.Steps (writeAll bytes) [⟨.write bytes, .ok 1⟩,
      ⟨.write (bytes.drop 1), .ok (bytes.drop 1).length⟩] (.ret (.ok ())) := by
  have hne : bytes ≠ [] := by
    rintro rfl
    exact h rfl
  rw [writeAll, if_neg hne]
  refine .cons ?_
  dsimp only
  rw [if_neg Nat.one_ne_zero, writeAll, if_neg h]
  refine .cons ?_
  dsimp only
  rw [if_neg (List.length_pos_of_ne_nil h).ne', List.drop_length, writeAll, if_pos rfl]
  exact .nil _

/-- What a call that has got its number does when the socket takes its line in two pieces. -/
def inTwo (bytes : List UInt8) : List (Sigma Ans) :=
  [⟨.lock, ()⟩, ⟨.write bytes, .ok 1⟩, ⟨.write (bytes.drop 1), .ok (bytes.drop 1).length⟩,
    ⟨.unlock, ()⟩]

theorem send_steps {command : Json.Value String} {id : UInt64}
    (h : (line command id).drop 1 ≠ []) :
    ∃ numbered, Prog.Steps (send command) [⟨.fetchAdd, id⟩] numbered ∧
      Prog.Steps numbered (inTwo (line command id)) (.ret (.ok ())) :=
  ⟨_, .cons (.nil _), .cons ((writeAll_steps h).bind _ |>.append (.cons (.nil _)))⟩

omit [DecidableEq ι] in
theorem along_inTwo {bytes : List UInt8} (hfree : w.holder = none) (hopen : w.broken = false)
    (h : bytes.drop 1 ≠ []) :
    Prog.Along (Effect i) w (inTwo bytes)
      { w with holder := none, sent := w.sent ++ bytes } := by
  have hlength := List.length_pos_of_ne_nil h
  have hone : 1 ≤ bytes.length := by
    rw [List.length_drop] at hlength
    omega
  have halong : Prog.Along (Effect i) w (inTwo bytes) { w with
      holder := none
      sent := w.sent ++ bytes.take 1 ++ (bytes.drop 1).take (bytes.drop 1).length } :=
    .cons (.lock hfree) (.cons (.write hopen Nat.one_pos hone)
      (.cons (.write hopen hlength (Nat.le_refl _)) (.cons .unlock .nil)))
  rwa [List.take_length, List.append_assoc, List.take_append_drop] at halong

def crossedCalls : Bool → Request
  | false => .setPause true
  | true => .stop

/-- A pause gets the first number and a stop the second, but the stop is the first at the lock. -/
theorem commands_arrive_crossed :
    ∃ (tr : List (Option Bool)) (p : Pool (World Bool) Bool Ans (Except String Unit)),
      Interleaves (sending crossedCalls) tr p ∧ (∀ i, p.tasks i = .ret (.ok ())) ∧
      p.shared.numbered = [(false, 1), (true, 2)] ∧
      Sent crossedCalls p [(true, 2), (false, 1)] := by
  have hpause : (line (crossedCalls false).command 1).drop 1 ≠ [] := by decide
  have hstop : (line (crossedCalls true).command 2).drop 1 ≠ [] := by decide
  obtain ⟨pause, hnumbered, hpauses⟩ := send_steps hpause
  obtain ⟨stop, hnumbered', hstops⟩ := send_steps hstop
  have hstart : Interleaves (sending crossedCalls) [] (sending crossedCalls) := .start
  obtain ⟨_, h₁⟩ := hstart.alone (i := false) hnumbered (.cons .fetchAdd .nil)
  obtain ⟨_, h₂⟩ := h₁.alone (i := true) hnumbered' (.cons .fetchAdd .nil)
  obtain ⟨_, h₃⟩ := h₂.alone (i := true) hstops (along_inTwo rfl rfl hstop)
  obtain ⟨tr, hrun⟩ := h₃.alone (i := false) hpauses (along_inTwo rfl rfl hpause)
  refine ⟨tr, _, hrun, Bool.forall_bool.mpr ⟨rfl, rfl⟩, rfl, ?_⟩
  obtain ⟨order, hsent, -, hunique, -⟩ := commands_arrive hrun
  have hsendable : ∀ i, (crossedCalls i).Sendable := Bool.forall_bool.mpr ⟨trivial, trivial⟩
  have hcalls : [(true, 2), (false, 1)].map (Prod.map crossedCalls id) =
      order.map (Prod.map crossedCalls id) := by
    refine hunique hsendable _ ?_ fun c hc => ?_
    · have hnil : 10 ∉ ([] : List UInt8) := List.not_mem_nil
      exact Sends.of_flatMap [(.stop, 2), (.setPause true, 1)] hnil
    · obtain ⟨d, -, rfl⟩ := List.mem_map.mp hc
      exact hsendable d.1
  have hinjective : Function.Injective crossedCalls := by
    unfold Function.Injective
    decide
  have hpairs := Function.Injective.prodMap hinjective (@Function.injective_id UInt64)
  rwa [List.map_injective_iff.mpr hpairs hcalls]

end Rsc.Player.Wire

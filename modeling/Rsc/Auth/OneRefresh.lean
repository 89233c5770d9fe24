import Rsc.Auth.Protocol
import Rsc.Library.Pool

/-!
One refresh serves everybody. Any number of calls find the stored tokens expired, or had
their access token rejected; the server answers refreshes with success and time goes on.
Whoever takes the lock first refreshes, and all the others find its tokens: those that come
before the save are stopped by the lock, those that come after it by the check under it.
-/

namespace Rsc.Auth

open Rsc.Library Stage

namespace OneRefresh

/-! ## The system -/

/-- The shared state, with the refresh tokens that were sent. -/
structure World (ι : Type) where
  file : Option Tokens
  lock : Option ι
  clock : UInt64
  sent : List String

variable {ι : Type}

/-- The effects: the lock excludes, the clock is read as it stands, the server answers a
refresh with the access token `b`, and a save succeeds. A save whose tokens have expired
before it, and an addition that overflows, are no effects: the clock stays before the new
time of expiry. -/
inductive Effect (b : String) (i : ι) : World ι → (op : Op) → Ans op → World ι → Prop
  | load {w : World ι} : Effect b i w .load (.ok w.file) w
  | save {w : World ι} {tokens : Tokens} (h : w.clock < tokens.expiresAt) :
      Effect b i w (.save tokens) (.ok ()) { w with file := some tokens }
  | now {w : World ι} : Effect b i w .now w.clock w
  | lock {w : World ι} (h : w.lock = none) : Effect b i w .lock () { w with lock := some i }
  | unlock {w : World ι} : Effect b i w .unlock () { w with lock := none }
  | post {w : World ι} {token : String} :
      Effect b i w (.post (.refreshToken token)) () { w with sent := token :: w.sent }
  | answer {w : World ι} {token : String} {response : TokenResponse}
      (hb : response.accessToken = b) (hlong : 60 < response.expiresIn) :
      Effect b i w (.answer (.refreshToken token)) (.ok response) w

theorem Effect.load_inv {b : String} {i : ι} {w w' : World ι}
    {ans : Except String (Option Tokens)} (h : Effect b i w .load ans w') :
    ans = .ok w.file ∧ w' = w := by
  cases h
  exact ⟨rfl, rfl⟩

/-- Time goes on, and stays before the time of expiry of the new tokens. -/
def Tick (stored : Tokens) (w w' : World ι) : Prop :=
  ∃ t, w.clock ≤ t ∧ (∀ fresh, w.file = some fresh → fresh ≠ stored → t < fresh.expiresAt) ∧
    w' = { w with clock := t }

/-- The tokens are stored, and nothing has happened yet. -/
def start (stored : Tokens) (clock : UInt64) : World ι := ⟨some stored, none, clock, []⟩

/-- `get_valid_token`, or `refresh_after_unauthorized` with the stored access token. -/
def Concerned (overflowChecks : Bool) (stored : Tokens) (call : Call String) : Prop :=
  call = getValidToken overflowChecks ∨
    call = refreshAfterUnauthorized overflowChecks stored.accessToken

/-! ## The invariant -/

/-- The stored tokens are still there. -/
def Unsaved (stored : Tokens) (w : World ι) : Prop := w.file = some stored

/-- The tokens of the one refresh are there, and valid. -/
structure Saved (stored : Tokens) (b : String) (w : World ι) : Prop where
  file : ∃ fresh, w.file = some fresh ∧ fresh.accessToken = b ∧ fresh.isExpired w.clock = false
  sent : w.sent = [stored.refreshToken]

/-- No refresh is going on. -/
def Settled (stored : Tokens) (b : String) (w : World ι) : Prop :=
  (Unsaved stored w ∧ w.sent = []) ∨ Saved stored b w

/-- A refresh is going on: its request was sent. -/
def Pending (stored : Tokens) (w : World ι) : Prop :=
  Unsaved stored w ∧ w.sent = [stored.refreshToken]

/-- The check under the lock sends for new tokens when the stored ones are still there,
and not when they were replaced by valid ones. -/
def Rechecks (stored : Tokens) (needs : Tokens → UInt64 → Bool) : Prop :=
  (needs = fun tokens now => tokens.isExpired now) ∨
    needs = fun tokens _ => tokens.accessToken == stored.accessToken

/-- The call holds the lock. -/
def Inside : Stage → Prop
  | .holds _ | .loaded _ _ | .keeps _ | .posts _ | .awaits _ | .answered _ _ | .overflows _ _
  | .stamped _ _ _ | .saved _ | .leaves => True
  | _ => False

/-- What holds of the shared state in each stage of a call. -/
def Local (stored : Tokens) (b : String) (w : World ι) : Stage → Prop
  | .begins => True
  | .glanced tokens => tokens = stored ∨ (Saved stored b w ∧ w.file = some tokens)
  | .waits needs => Rechecks stored needs
  | .holds needs => Rechecks stored needs ∧ Settled stored b w
  | .loaded needs tokens => Rechecks stored needs ∧ Settled stored b w ∧ w.file = some tokens
  | .keeps tokens => Saved stored b w ∧ tokens.accessToken = b
  | .posts tokens => tokens = stored ∧ Unsaved stored w ∧ w.sent = []
  | .awaits tokens => tokens = stored ∧ Pending stored w
  | .answered _ response | .overflows _ response => response.accessToken = b ∧ Pending stored w
  | .stamped _ _ fresh => fresh.accessToken = b ∧ Pending stored w
  | .saved fresh => fresh.accessToken = b ∧ Saved stored b w
  | .done token => token = b ∧ Saved stored b w
  | _ => False

structure Inv (stored : Tokens) (b : String) (w : World ι) (g : ι → Stage) : Prop where
  expired : stored.isExpired w.clock = true
  holder : ∀ i, Inside (g i) ↔ w.lock = some i
  free : w.lock = none → Settled stored b w
  tasks : ∀ i, Local stored b w (g i)

/-! ## What the steps of one call do to the others -/

variable {stored : Tokens} {b : String} {w w' : World ι}

/-- Once the new tokens are saved, they stay. -/
def Later (stored : Tokens) (b : String) (w w' : World ι) : Prop :=
  Saved stored b w → Saved stored b w' ∧ w'.file = w.file

/-- Outside the lock, a call only relies on what stays. -/
theorem Local.later {s : Stage} (h : Local stored b w s) (hs : ¬ Inside s)
    (hlater : Later stored b w w') : Local stored b w' s := by
  cases s with
  | begins | waits => exact h
  | glanced tokens =>
    refine h.imp_right fun ⟨hsaved, hfile⟩ => ?_
    obtain ⟨hsaved', hfile'⟩ := hlater hsaved
    exact ⟨hsaved', hfile'.trans hfile⟩
  | done token => exact ⟨h.1, (hlater h.2).1⟩
  | holds | loaded | keeps | posts | awaits | answered | overflows | stamped | saved | leaves =>
    exact absurd trivial hs
  | _ => exact h.elim

theorem Unsaved.not_saved (hb : b ≠ stored.accessToken) (h : Unsaved stored w) :
    ¬ Saved stored b w := by
  rintro ⟨⟨fresh, hfile, hfresh, _⟩, _⟩
  rw [Unsaved, hfile] at h
  cases h
  exact hb hfresh.symm

theorem isExpired_iff {tokens : Tokens} {t : UInt64} :
    tokens.isExpired t = true ↔ tokens.expiresAt ≤ t := decide_eq_true_iff

theorem Saved.lock {lock : Option ι} (h : Saved stored b w) :
    Saved stored b { w with lock := lock } := ⟨h.file, h.sent⟩

theorem Saved.tick {t : UInt64} (hb : b ≠ stored.accessToken) (h : Saved stored b w)
    (hbefore : ∀ fresh, w.file = some fresh → fresh ≠ stored → t < fresh.expiresAt) :
    Saved stored b { w with clock := t } := by
  obtain ⟨⟨fresh, hfile, hfresh, _⟩, hsent⟩ := h
  have hne : fresh ≠ stored := by
    rintro rfl
    exact hb hfresh.symm
  refine ⟨⟨fresh, hfile, hfresh, ?_⟩, hsent⟩
  exact decide_eq_false (UInt64.not_le.mpr (hbefore fresh hfile hne))

theorem Local.tick {s : Stage} {t : UInt64} (h : Local stored b w s)
    (hsaved : Saved stored b w → Saved stored b { w with clock := t }) :
    Local stored b { w with clock := t } s := by
  cases s with
  | glanced tokens => exact h.imp_right fun h => ⟨hsaved h.1, h.2⟩
  | holds needs => exact ⟨h.1, h.2.imp_right hsaved⟩
  | loaded needs tokens => exact ⟨h.1, h.2.1.imp_right hsaved, h.2.2⟩
  | keeps tokens => exact ⟨hsaved h.1, h.2⟩
  | saved | done => exact ⟨h.1, hsaved h.2⟩
  | _ => exact h

theorem Inv.tick {g : ι → Stage} (hb : b ≠ stored.accessToken) (h : Inv stored b w g)
    (htick : Tick stored w w') : Inv stored b w' g := by
  obtain ⟨t, hle, hbefore, rfl⟩ := htick
  have hsaved : Saved stored b w → Saved stored b { w with clock := t } :=
    fun hsaved => hsaved.tick hb hbefore
  refine ⟨?_, h.holder, fun hfree => (h.free hfree).imp_right hsaved,
    fun i => (h.tasks i).tick hsaved⟩
  exact isExpired_iff.mpr (UInt64.le_trans (isExpired_iff.mp h.expired) hle)

/-! ## What a step does -/

/-- Whoever holds the lock knows whether the new tokens are saved. -/
theorem Local.unsaved_or_saved {s : Stage} (h : Local stored b w s) (hs : Inside s) :
    Unsaved stored w ∨ Saved stored b w := by
  cases s with
  | holds needs => exact h.2.imp_left And.left
  | loaded needs tokens => exact h.2.1.imp_left And.left
  | keeps tokens => exact .inr h.1
  | posts tokens => exact .inl h.2.1
  | awaits | answered | overflows | stamped => exact .inl h.2.1
  | saved fresh => exact .inr h.2
  | leaves => exact h.elim
  | _ => exact hs.elim

theorem Inv.unsaved_or_saved {g : ι → Stage} (h : Inv stored b w g) :
    Unsaved stored w ∨ Saved stored b w := by
  cases hlock : w.lock with
  | none => exact (h.free hlock).imp_left And.left
  | some i => exact (h.tasks i).unsaved_or_saved ((h.holder i).mpr hlock)

theorem Inv.stored_file {g : ι → Stage} (h : Inv stored b w g) : ∃ tokens, w.file = some tokens := by
  rcases h.unsaved_or_saved with hunsaved | ⟨⟨fresh, hfresh, _⟩, _⟩
  · exact ⟨stored, hunsaved⟩
  · exact ⟨fresh, hfresh⟩

theorem Inv.alone {g : ι → Stage} {i : ι} (h : Inv stored b w g) (hi : w.lock = none ∨ Inside (g i)) :
    ∀ j, j ≠ i → ¬ Inside (g j) := by
  intro j hj hinside
  have hlock := (h.holder j).mp hinside
  rcases hi with hnone | hi
  · rw [hnone] at hlock
    cases hlock
  · rw [(h.holder i).mp hi] at hlock
    exact hj (Option.some.inj hlock).symm

/-- The recheck is true of the stored tokens, and false of the new ones. -/
theorem Rechecks.iff {needs : Tokens → UInt64 → Bool} {tokens : Tokens}
    (hb : b ≠ stored.accessToken) (hexpired : stored.isExpired w.clock = true)
    (h : Rechecks stored needs) (hsettled : Settled stored b w) (hfile : w.file = some tokens) :
    (needs tokens w.clock = true ∧ tokens = stored ∧ Unsaved stored w ∧ w.sent = []) ∨
      (needs tokens w.clock = false ∧ tokens.accessToken = b ∧ Saved stored b w) := by
  rcases hsettled with ⟨hunsaved, hsent⟩ | hsaved
  · obtain rfl := Option.some.inj (hfile.symm.trans hunsaved)
    refine .inl ⟨?_, rfl, hunsaved, hsent⟩
    rcases h with rfl | rfl
    · exact hexpired
    · exact beq_self_eq_true _
  · obtain ⟨fresh, hfresh, haccess, hvalid⟩ := hsaved.file
    obtain rfl := Option.some.inj (hfile.symm.trans hfresh)
    refine .inr ⟨?_, haccess, hsaved⟩
    rcases h with rfl | rfl
    · exact hvalid
    · exact beq_false_of_ne (haccess.trans_ne hb)

section

variable [DecidableEq ι] {g : ι → Stage} {i : ι} {s : Stage}

/-- A call goes on, and nothing else happens. -/
theorem Inv.quiet (h : Inv stored b w g) (hinside : Inside s ↔ Inside (g i))
    (hlocal : Local stored b w s) : Inv stored b w (Function.update g i s) := by
  refine ⟨h.expired, fun j => ?_, h.free, fun j => ?_⟩
  · by_cases hj : j = i
    · subst hj
      rw [Function.update_self, hinside, h.holder]
    · rw [Function.update_of_ne hj, h.holder]
  · by_cases hj : j = i
    · subst hj
      rwa [Function.update_self]
    · rw [Function.update_of_ne hj]
      exact h.tasks j

/-- A call changes the shared state, and no other call holds the lock. -/
theorem Inv.moves (h : Inv stored b w g) (halone : ∀ j, j ≠ i → ¬ Inside (g j))
    (hclock : w'.clock = w.clock) (hlock : ∀ j, w'.lock = some j ↔ j = i ∧ Inside s)
    (hfree : w'.lock = none → Settled stored b w') (hlater : Later stored b w w')
    (hlocal : Local stored b w' s) : Inv stored b w' (Function.update g i s) := by
  refine ⟨hclock ▸ h.expired, fun j => ?_, hfree, fun j => ?_⟩
  · rw [hlock]
    by_cases hj : j = i
    · subst hj
      simp
    · simp [hj, halone j hj]
  · by_cases hj : j = i
    · subst hj
      rwa [Function.update_self]
    · rw [Function.update_of_ne hj]
      exact (h.tasks j).later (halone j hj) hlater

/-- The holder of the lock works on. -/
theorem Inv.works (h : Inv stored b w g) (hi : Inside (g i)) (hs : Inside s)
    (hclock : w'.clock = w.clock) (hlock : w'.lock = w.lock) (hlater : Later stored b w w')
    (hlocal : Local stored b w' s) : Inv stored b w' (Function.update g i s) := by
  have hheld : w'.lock = some i := hlock.trans ((h.holder i).mp hi)
  refine h.moves (h.alone (.inr hi)) hclock (fun j => ?_) (fun hfree => ?_) hlater hlocal
  · rw [hheld]
    simp [hs, @eq_comm _ i]
  · rw [hheld] at hfree
    cases hfree

/-- The holder drops the lock, with the token it returns. -/
theorem Inv.leaves (h : Inv stored b w g) (hi : Inside (g i)) (hsaved : Saved stored b w) :
    Inv stored b { w with lock := none } (Function.update g i (.done b)) :=
  h.moves (h.alone (.inr hi)) rfl (fun j => by simp [Inside]) (fun _ => .inr hsaved.lock)
    (fun hsaved => ⟨hsaved.lock, rfl⟩) ⟨rfl, hsaved.lock⟩

/-- **Step lemma.** Whatever a call does keeps the invariant. -/
theorem Inv.step {op : Op} {ans : Ans op} (hb : b ≠ stored.accessToken) (h : Inv stored b w g)
    (hgo : Go (g i) op ans s) (heffect : Effect b i w op ans w') :
    Inv stored b w' (Function.update g i s) := by
  have hlocal := h.tasks i
  have hquiet := h.quiet (i := i) (s := s)
  have hworks := @Inv.works ι stored b w w' _ g i s h
  have hleaves := h.leaves (i := i)
  generalize g i = s₀ at hgo hlocal hquiet hworks hleaves
  cases hgo with
  | @glance tokens =>
    obtain ⟨hans, rfl⟩ := heffect.load_inv
    have hload : w'.file = some tokens := (Except.ok.inj hans).symm
    refine hquiet Iff.rfl (h.unsaved_or_saved.imp (fun hunsaved => ?_) fun hsaved => ⟨hsaved, hload⟩)
    exact Option.some.inj (hload.symm.trans hunsaved)
  | glanceMissing | loadMissing =>
    obtain ⟨hans, rfl⟩ := heffect.load_inv
    obtain ⟨tokens, hfile⟩ := h.stored_file
    rw [hfile] at hans
    cases hans
  | @valid tokens t hvalid =>
    cases heffect
    apply hquiet Iff.rfl
    rcases hlocal with rfl | ⟨hsaved, hfile⟩
    · rw [h.expired] at hvalid
      cases hvalid
    · obtain ⟨fresh, hfresh, haccess, _⟩ := hsaved.file
      obtain rfl := Option.some.inj (hfile.symm.trans hfresh)
      exact ⟨haccess, hsaved⟩
  | expired _ =>
    cases heffect
    exact hquiet Iff.rfl (.inl rfl)
  | lock =>
    cases heffect with
    | lock hfree =>
      refine h.moves (h.alone (.inl hfree)) rfl (fun j => ?_) nofun
        (fun hsaved => ⟨hsaved.lock, rfl⟩) ⟨hlocal, (h.free hfree).imp id Saved.lock⟩
      simp [Inside, @eq_comm _ i]
  | @load needs tokens =>
    obtain ⟨hans, rfl⟩ := heffect.load_inv
    exact hquiet Iff.rfl ⟨hlocal.1, hlocal.2, (Except.ok.inj hans).symm⟩
  | @fine needs tokens t hfine =>
    cases heffect
    obtain ⟨hneeds, hsettled, hfile⟩ := hlocal
    rcases Rechecks.iff hb h.expired hneeds hsettled hfile with ⟨hneeded, _⟩ | ⟨_, haccess, hsaved⟩
    · rw [hfine] at hneeded
      cases hneeded
    · exact hquiet Iff.rfl ⟨hsaved, haccess⟩
  | @needed needs tokens t hneeded =>
    cases heffect
    obtain ⟨hneeds, hsettled, hfile⟩ := hlocal
    rcases Rechecks.iff hb h.expired hneeds hsettled hfile with ⟨_, hunsaved⟩ | ⟨hfine, _⟩
    · exact hquiet Iff.rfl hunsaved
    · rw [hneeded] at hfine
      cases hfine
  | keep =>
    cases heffect
    obtain ⟨hsaved, rfl⟩ := hlocal
    exact hleaves trivial hsaved
  | post =>
    cases heffect
    obtain ⟨rfl, hunsaved, hsent⟩ := hlocal
    exact hworks trivial trivial rfl rfl (fun hsaved => absurd hsaved (hunsaved.not_saved hb))
      ⟨rfl, hunsaved, congrArg _ hsent⟩
  | answer =>
    cases heffect with
    | answer hresponse _ => exact hquiet Iff.rfl ⟨hresponse, hlocal.2⟩
  | stamp hcarries =>
    cases heffect
    exact hquiet Iff.rfl ⟨hcarries.1.trans hlocal.1, hlocal.2⟩
  | overflow =>
    cases heffect
    exact hquiet Iff.rfl hlocal
  | @save _ fresh =>
    cases heffect with
    | save hbefore =>
      obtain ⟨haccess, hunsaved, hsent⟩ := hlocal
      have hvalid : fresh.isExpired w.clock = false := decide_eq_false (UInt64.not_le.mpr hbefore)
      exact hworks trivial trivial rfl rfl (fun hsaved => absurd hsaved (hunsaved.not_saved hb))
        ⟨haccess, ⟨fresh, rfl, haccess, hvalid⟩, hsent⟩
  | unlock =>
    cases heffect
    obtain ⟨rfl, hsaved⟩ := hlocal
    exact hleaves trivial hsaved
  | leave | postCode | exchange | refusedCode | stampLogin | overflowLogin | panicLogin | saveLogin
  | saveLoginError => exact hlocal.elim
  | _ => cases heffect

end

/-! ## Progress -/

theorem Local.sent {s : Stage} (h : Local stored b w s) (hs : Inside s) :
    w.sent = [] ∨ w.sent = [stored.refreshToken] := by
  cases s with
  | holds needs => exact h.2.imp And.right Saved.sent
  | loaded needs tokens => exact h.2.1.imp And.right Saved.sent
  | keeps tokens => exact .inr h.1.sent
  | posts tokens => exact .inl h.2.2
  | awaits | answered | overflows | stamped => exact .inr h.2.2
  | saved fresh => exact .inr h.2.sent
  | leaves => exact h.elim
  | _ => exact hs.elim

theorem Inv.sent {g : ι → Stage} (h : Inv stored b w g) :
    w.sent = [] ∨ w.sent = [stored.refreshToken] := by
  cases hlock : w.lock with
  | none => exact (h.free hlock).imp And.right Saved.sent
  | some i => exact (h.tasks i).sent ((h.holder i).mpr hlock)

/-- A call that has returned has returned the new token. -/
theorem Local.returned {s : Stage} {out : Outcome String} (h : Local stored b w s)
    (hout : Gives s out) : out = .ok b ∧ Saved stored b w ∧ ¬ Inside s := by
  cases s with
  | done token =>
    obtain ⟨rfl, hsaved⟩ := h
    exact ⟨hout, hsaved, id⟩
  | failed => exact h.elim
  | _ => exact hout.elim

/-- An answer with the access token `b`. -/
def renewed (b : String) : TokenResponse := ⟨b, "refresh₂", 3600, ""⟩

theorem renewed_long (b : String) : 60 < (renewed b).expiresIn :=
  show (60 : UInt64) < 3600 by decide

/-- The effect a call asks for is possible, unless it waits for the lock. -/
theorem Local.enabled {s : Stage} {i : ι} {op : Op} (h : Local stored b w s)
    (hgo : ∀ ans, ∃ s', Go s op ans s') (hop : op ≠ .overflow)
    (hsave : ∀ tokens, op = .save tokens → w.clock < tokens.expiresAt)
    (hlock : op = .lock → w.lock = none) : ∃ ans w', Effect b i w op ans w' := by
  cases op with
  | load => exact ⟨_, _, .load⟩
  | save tokens => exact ⟨_, _, .save (hsave tokens rfl)⟩
  | now => exact ⟨_, _, .now⟩
  | lock => exact ⟨_, _, .lock (hlock rfl)⟩
  | unlock => exact ⟨_, _, .unlock⟩
  | overflow => exact absurd rfl hop
  | post request =>
    obtain ⟨_, hgo⟩ := hgo ()
    cases hgo with
    | post => exact ⟨_, _, .post⟩
    | postCode => exact h.elim
  | answer request =>
    obtain ⟨_, hgo⟩ := hgo (.error .invalidGrant)
    cases hgo with
    | refused =>
      exact ⟨_, _, .answer (show (renewed b).accessToken = b from rfl) (renewed_long b)⟩
    | refusedCode => exact h.elim

/-- No call waits for the lock while it holds it. -/
theorem Inside.op_ne_lock {s : Stage} {op : Op} (hs : Inside s)
    (hgo : ∀ ans, ∃ s', Go s op ans s') : op ≠ .lock := by
  rintro rfl
  obtain ⟨_, hgo⟩ := hgo ()
  cases hgo
  exact hs

/-- A call that has not returned can move, or the holder of the lock can. -/
theorem Inv.progress [DecidableEq ι] {env : World ι → World ι → Prop} {g : ι → Stage}
    {p : Pool (World ι) ι Ans (Outcome String)} (h : Inv stored b p.shared g)
    (hfollows : ∀ i, Prog.Follows Go Gives (g i) (p.tasks i))
    (hoverflow : ∀ i k, p.tasks i ≠ .perform .overflow k)
    (hsave : ∀ i tokens k, p.tasks i = .perform (.save tokens) k → p.shared.clock < tokens.expiresAt)
    {i : ι} {op : Op} {k : Ans op → Prog Ans (Outcome String)} (hi : p.tasks i = .perform op k) :
    ∃ j p', Pool.Step (Effect b) env p (some j) p' := by
  have hasks {j : ι} {op : Op} {k : Ans op → Prog Ans (Outcome String)}
      (hj : p.tasks j = .perform op k) : ∀ ans, ∃ s', Go (g j) op ans s' := by
    have hf := hfollows j
    rw [hj] at hf
    exact fun ans => (hf ans).imp fun _ hgo => hgo.1
  have hmoves {j : ι} {op : Op} {k : Ans op → Prog Ans (Outcome String)}
      (hj : p.tasks j = .perform op k) (hlock : op = .lock → p.shared.lock = none) :
      ∃ j p', Pool.Step (Effect b) env p (some j) p' := by
    have hop : op ≠ .overflow := by
      rintro rfl
      exact hoverflow j k hj
    have hsave' : ∀ tokens, op = .save tokens → p.shared.clock < tokens.expiresAt := by
      rintro tokens rfl
      exact hsave j tokens k hj
    obtain ⟨ans, w', heffect⟩ := (h.tasks j).enabled (hasks hj) hop hsave' hlock
    exact ⟨j, _, .task hj heffect⟩
  cases hlock : p.shared.lock with
  | none => exact hmoves hi fun _ => hlock
  | some j =>
    have hinside : Inside (g j) := (h.holder j).mpr hlock
    have hf := hfollows j
    cases htask : p.tasks j with
    | ret out =>
      rw [htask] at hf
      exact absurd hinside ((h.tasks j).returned hf).2.2
    | perform op k => exact hmoves htask fun hop => absurd hop (hinside.op_ne_lock (hasks htask))

/-! ## The result -/

variable {overflowChecks : Bool}

theorem Concerned.tokenCall {call : Call String} (h : Concerned overflowChecks stored call) :
    TokenCall overflowChecks call := h.imp_right fun heq => ⟨_, heq⟩

theorem Concerned.stage {call : Call String} (h : Concerned overflowChecks stored call) (b : String)
    (w : World ι) : ∃ s, Prog.Follows Go Gives s call ∧ ¬ Inside s ∧ Local stored b w s := by
  rcases h with rfl | rfl
  · exact ⟨_, getValidToken_goes overflowChecks, id, trivial⟩
  · exact ⟨_, refreshAfterUnauthorized_goes overflowChecks _, id, .inr rfl⟩

/-- **One refresh serves everybody.** In every interleaving at most one refresh is sent, and
it carries the refresh token that was stored. Every call that returns returns the access
token `b`, and the refresh was sent by then. As long as no addition overflows and the clock
stays before the new time of expiry some call can move until all have returned, each in at
most ten steps. -/
theorem one_refresh [DecidableEq ι] {calls : ι → Call String}
    (hcalls : ∀ i, Concerned overflowChecks stored (calls i)) (hb : b ≠ stored.accessToken)
    {clock : UInt64} (hexpired : stored.isExpired clock = true) {tr : List (Option ι)}
    {p : Pool (World ι) ι Ans (Outcome String)}
    (hrun : Pool.Run (Effect b) (Tick stored) ⟨start stored clock, calls⟩ tr p) :
    (p.shared.sent = [] ∨ p.shared.sent = [stored.refreshToken]) ∧
    (∀ i out, p.tasks i = .ret out → out = .ok b ∧ p.shared.sent = [stored.refreshToken]) ∧
    ((∀ i k, p.tasks i ≠ .perform .overflow k) →
      (∀ i tokens k, p.tasks i = .perform (.save tokens) k →
        p.shared.clock < tokens.expiresAt) →
      ∀ i op k, p.tasks i = .perform op k →
        ∃ j p', Pool.Step (Effect b) (Tick stored) p (some j) p') ∧
    ∀ i, tr.count (some i) ≤ 10 := by
  choose g₀ hfollows₀ houtside hlocal using
    fun i => (hcalls i).stage b (start stored clock : World ι)
  have hstart : Inv stored b (start stored clock) g₀ := by
    refine ⟨hexpired, fun i => ?_, fun _ => .inl ⟨rfl, rfl⟩, hlocal⟩
    exact iff_of_false (houtside i) nofun
  obtain ⟨g, hfollows, hinv⟩ := hrun.invariant (I := Inv stored b) hfollows₀ hstart
    (fun _ _ _ _ _ _ _ hI hgo heffect => hI.step hb hgo heffect)
    (fun _ _ _ hI htick => hI.tick hb htick)
  refine ⟨hinv.sent, fun i out hi => ?_, ?_, fun i => hrun.count_le (hcalls i).tokenCall.within⟩
  · have hf := hfollows i
    rw [hi] at hf
    obtain ⟨hout, hsaved, _⟩ := (hinv.tasks i).returned hf
    exact ⟨hout, hsaved.sent⟩
  · exact fun hoverflow hsave i op k hi => hinv.progress hfollows hoverflow hsave hi

def expired : Tokens := ⟨"access", "refresh", 0⟩

/-- One call refreshes while the other has loaded the old tokens and waits for the lock. -/
theorem one_refresh_twoCalls : ∃ tr p,
    Pool.Run (Effect "access₂") (Tick expired) ⟨start expired 0, twoCalls⟩ tr p ∧
      p.tasks true = .ret (.ok "access₂") ∧ p.tasks false = .ret (.ok "access₂") ∧
      p.shared.sent = ["refresh"] := by
  have h₀ : Pool.Run (Effect "access₂") (Tick expired) ⟨start expired 0, twoCalls⟩ [] _ := .start
  have h₁ := h₀.step (.task (i := false) rfl .load)
  have h₂ := h₁.step (.task (i := true) rfl (.lock rfl))
  have h₃ := h₂.step (.task (i := false) rfl .now)
  have h₄ := h₃.step (.task (i := true) rfl .load)
  have h₅ := h₄.step (.task (i := true) rfl .now)
  have h₆ := h₅.step (.task (i := true) rfl .post)
  have h₇ := h₆.step (.task (i := true) rfl
    (.answer (show (renewed "access₂").accessToken = _ from rfl) (renewed_long _)))
  have h₈ := h₇.step (.task (i := true) rfl .now)
  have h₉ := h₈.step (.task (i := true) rfl (.save (by decide)))
  have h₁₀ := h₉.step (.task (i := true) rfl .unlock)
  have h₁₁ := h₁₀.step (.env ⟨1000, by decide, fun fresh hfresh _ => by cases hfresh; decide, rfl⟩)
  have h₁₂ := h₁₁.step (.task (i := false) rfl (.lock rfl))
  have h₁₃ := h₁₂.step (.task (i := false) rfl .load)
  have h₁₄ := h₁₃.step (.task (i := false) rfl .now)
  have h₁₅ := h₁₄.step (.task (i := false) rfl .unlock)
  have hcalls : ∀ i, Concerned true expired (twoCalls i) := fun
    | true => .inr rfl
    | false => .inl rfl
  obtain ⟨_, hreturned, _⟩ := one_refresh hcalls (by decide) (by decide) h₁₅
  exact ⟨_, _, h₁₅, rfl, rfl, (hreturned true _ rfl).2⟩

end OneRefresh

end Rsc.Auth

import Rsc.Auth.Protocol
import Rsc.Library.Pool

/-!
Persisted before used. Any number of calls for a token and of logins are interleaved, the
server answers anything, and loads and saves may fail. Between the answer of the server and
the save a fresh pair is in memory only: no call returns its token before it is stored.
-/

namespace Rsc.Auth

open Rsc.Library Stage

namespace Persisted

/-! ## The system -/

/-- The shared state. `seen` is what the store has held since each call began, and
`unsaved` are the calls whose save failed. -/
structure World (ι : Type) where
  file : Option Tokens
  lock : Option ι
  seen : ι → Option (List (Option Tokens))
  unsaved : List ι

variable {ι : Type} [DecidableEq ι]

/-- The call `i` makes a step after which the store holds `file`. With its first step it
begins; it and all the calls that have begun see what the store holds now. -/
def World.step (w : World ι) (i : ι) (file : Option Tokens) : World ι :=
  { w with
    file := file
    seen := fun j =>
      if j = i then some (file :: (w.seen i).getD [w.file]) else (w.seen j).map (file :: ·) }

/-- The effects: a load gives the content of the store or fails; a save is atomic, and one
that fails may have replaced the content or not; the lock excludes; the clock reads
anything, and the server answers anything. -/
inductive Effect (i : ι) (w : World ι) : (op : Op) → Ans op → World ι → Prop
  | load : Effect i w .load (.ok w.file) (w.step i w.file)
  | loadError (err : String) : Effect i w .load (.error err) (w.step i w.file)
  | save {tokens : Tokens} : Effect i w (.save tokens) (.ok ()) (w.step i (some tokens))
  | saveError {tokens : Tokens} (err : String) (file : Option Tokens)
      (h : file = w.file ∨ file = some tokens) :
      Effect i w (.save tokens) (.error err) { w.step i file with unsaved := i :: w.unsaved }
  | now (t : UInt64) : Effect i w .now t (w.step i w.file)
  | lock (h : w.lock = none) : Effect i w .lock () { w.step i w.file with lock := some i }
  | unlock : Effect i w .unlock () { w.step i w.file with lock := none }
  | post {request : TokenRequest} : Effect i w (.post request) () (w.step i w.file)
  | answer {request : TokenRequest} (ans : Except TokenError TokenResponse) :
      Effect i w (.answer request) ans (w.step i w.file)
  | overflow : Effect i w .overflow () (w.step i w.file)

/-- Nobody but the calls moves. -/
def Alone (_ _ : World ι) : Prop := False

def start (file : Option Tokens) : World ι := ⟨file, none, fun _ => none, []⟩

/-- A call for a token, as one of a pool. -/
def tokenCall (call : Call String) : Call (Option String) := do
  return some (← call)

/-- A login, as one of a pool. -/
def loginCall (call : Call Unit) : Call (Option String) := do
  let () ← call
  return none

/-- A call for a token, or a login. -/
def Allowed (overflowChecks : Bool) (call : Call (Option String)) : Prop :=
  (∃ inner, TokenCall overflowChecks inner ∧ call = tokenCall inner) ∨
    ∃ code codeVerifier redirectUri,
      call = loginCall (completeLogin overflowChecks code codeVerifier redirectUri)

/-- The store has held the tokens since the call began. -/
def Saw (w : World ι) (i : ι) (tokens : Tokens) : Prop :=
  ∃ contents, w.seen i = some contents ∧ some tokens ∈ contents

/-! ## The invariant -/

/-- What a call knows of the store in each stage. -/
def Knows (w : World ι) (i : ι) : Stage → Prop
  | .glanced tokens | .loaded _ tokens | .keeps tokens | .saved tokens => Saw w i tokens
  | .done token => ∃ tokens, Saw w i tokens ∧ tokens.accessToken = token
  | _ => True

/-- The call fails. -/
def Failing : Stage → Prop
  | .leaves | .failed | .abandoned => True
  | _ => False

structure Inv (w : World ι) (g : ι → Stage) : Prop where
  knows : ∀ i, Knows w i (g i)
  unsaved : ∀ i ∈ w.unsaved, Failing (g i)

variable {w w' : World ι} {i j : ι} {tokens : Tokens} {file : Option Tokens}

/-- What was seen stays seen. -/
theorem Saw.step (h : Saw w j tokens) : Saw (w.step i file) j tokens := by
  obtain ⟨contents, hseen, hmem⟩ := h
  simp only [Saw, World.step]
  by_cases hj : j = i
  · subst hj
    exact ⟨file :: contents, by rw [if_pos rfl, hseen]; rfl, .tail _ hmem⟩
  · exact ⟨file :: contents, by rw [if_neg hj, hseen]; rfl, .tail _ hmem⟩

/-- The call that makes a step sees what the store holds after it. -/
theorem Saw.now : Saw (w.step i (some tokens)) i tokens := by
  simp only [Saw, World.step, if_true]
  exact ⟨_, rfl, .head _⟩

theorem Effect.saw {op : Op} {ans : Ans op} (h : Effect i w op ans w') (hsaw : Saw w j tokens) :
    Saw w' j tokens := by
  cases h <;> exact hsaw.step

theorem Effect.knows {op : Op} {ans : Ans op} {s : Stage} (h : Effect i w op ans w')
    (hknows : Knows w j s) : Knows w' j s := by
  cases s with
  | glanced | loaded | keeps | saved => exact h.saw hknows
  | done token =>
    obtain ⟨tokens, hsaw, heq⟩ := hknows
    exact ⟨tokens, h.saw hsaw, heq⟩
  | _ => trivial

theorem Effect.load_inv {ans : Except String (Option Tokens)} (h : Effect i w .load ans w')
    (hans : ans = .ok (some tokens)) : Saw w' i tokens := by
  cases h with
  | load =>
    rw [show w.file = some tokens from Except.ok.inj hans]
    exact .now
  | loadError err => cases hans

/-- **Step lemma.** What a call has in hand it has seen in the store, up to the answer of the
server; and what it has saved it sees there. -/
theorem Knows.step {op : Op} {ans : Ans op} {s s' : Stage} (h : Knows w i s)
    (hgo : Go s op ans s') (heffect : Effect i w op ans w') : Knows w' i s' := by
  cases hgo with
  | glance | load => exact heffect.load_inv rfl
  | valid _ => exact ⟨_, heffect.saw h, rfl⟩
  | fine _ => exact heffect.saw h
  | keep | unlock => exact ⟨_, heffect.saw h, rfl⟩
  | save _ =>
    cases heffect
    exact .now
  | _ => trivial

/-- A call whose save failed does not do anything but fail. -/
theorem Failing.step {op : Op} {ans : Ans op} {s s' : Stage} (hgo : Go s op ans s')
    (heffect : Effect i w op ans w') (h : i ∈ w.unsaved → Failing s) (hmem : i ∈ w'.unsaved) :
    Failing s' := by
  have hold : i ∈ w.unsaved → Failing s' := by
    intro hmem
    have hs := h hmem
    cases hgo <;> first | exact hs.elim | trivial
  cases heffect with
  | saveError _ _ _ => cases hgo <;> trivial
  | _ => exact hold hmem

theorem Effect.unsaved_other {op : Op} {ans : Ans op} (h : Effect i w op ans w') (hj : j ≠ i)
    (hmem : j ∈ w'.unsaved) : j ∈ w.unsaved := by
  cases h with
  | saveError _ _ _ => exact (List.mem_cons.mp hmem).resolve_left hj
  | _ => exact hmem

theorem Inv.step {g : ι → Stage} {op : Op} {ans : Ans op} {s : Stage} (h : Inv w g)
    (hgo : Go (g i) op ans s) (heffect : Effect i w op ans w') :
    Inv w' (Function.update g i s) := by
  refine ⟨fun j => ?_, fun j hmem => ?_⟩
  · by_cases hj : j = i
    · subst hj
      rw [Function.update_self]
      exact (h.knows j).step hgo heffect
    · rw [Function.update_of_ne hj]
      exact heffect.knows (h.knows j)
  · by_cases hj : j = i
    · subst hj
      rw [Function.update_self]
      exact Failing.step hgo heffect (h.unsaved j) hmem
    · rw [Function.update_of_ne hj]
      exact h.unsaved j (heffect.unsaved_other hj hmem)

/-! ## The calls of the pool -/

/-- How a call of the pool may end. -/
def Returned : Stage → Outcome (Option String) → Prop
  | .done token, out => out = .ok (some token)
  | .loggedIn, out => out = .ok none
  | .failed, .err _ | .failed, .panicked | .abandoned, .err _ | .abandoned, .panicked => True
  | _, _ => False

theorem tokenCall_goes {call : Call String} {s : Stage} (h : Prog.Follows Go Gives s call) :
    Prog.Follows Go Returned s (tokenCall call) := by
  refine h.bind fun s out hout => ?_
  cases s with
  | done token =>
    obtain rfl : out = .ok token := hout
    exact rfl
  | failed => cases out <;> exact hout
  | _ => exact hout.elim

theorem loginCall_goes {call : Call Unit} {s : Stage} (h : Prog.Follows Go Ends s call) :
    Prog.Follows Go Returned s (loginCall call) := by
  refine h.bind fun s out hout => ?_
  cases s with
  | loggedIn =>
    obtain rfl : out = .ok () := hout
    exact rfl
  | abandoned => cases out <;> exact hout
  | _ => exact hout.elim

variable {overflowChecks : Bool}

omit [DecidableEq ι] in
theorem Allowed.goes {call : Call (Option String)} (h : Allowed overflowChecks call) :
    ∃ s, Prog.Follows Go Returned s call ∧ ∀ (w : World ι) i, Knows w i s := by
  rcases h with ⟨inner, rfl | ⟨rejected, rfl⟩, rfl⟩ | ⟨code, codeVerifier, redirectUri, rfl⟩
  · exact ⟨_, tokenCall_goes (getValidToken_goes overflowChecks), fun _ _ => trivial⟩
  · exact ⟨_, tokenCall_goes (refreshAfterUnauthorized_goes overflowChecks rejected),
      fun _ _ => trivial⟩
  · exact ⟨_, loginCall_goes (completeLogin_goes overflowChecks code codeVerifier redirectUri),
      fun _ _ => trivial⟩

/-- **Persisted before used.** Whenever a step of a call returns a token, the store has held
tokens with that access token since the call began; and the save of the call did not fail. -/
theorem persisted_before_used {calls : ι → Call (Option String)}
    (hcalls : ∀ i, Allowed overflowChecks (calls i)) {file : Option Tokens}
    {tr : List (Option ι)} {p p' : Pool (World ι) ι Ans (Outcome (Option String))}
    (hrun : Pool.Run Effect Alone ⟨start file, calls⟩ tr p) {i : ι}
    (hstep : Pool.Step Effect Alone p (some i) p') {token : String}
    (hret : p'.tasks i = .ret (.ok (some token))) :
    (∃ tokens, Saw p'.shared i tokens ∧ tokens.accessToken = token) ∧ i ∉ p'.shared.unsaved := by
  choose g₀ hfollows₀ hknows using fun i => (hcalls i).goes (ι := ι)
  obtain ⟨g, hfollows, hinv⟩ := (hrun.step hstep).invariant (I := Inv) hfollows₀
    ⟨fun i => hknows i _ i, nofun⟩ (fun _ _ _ _ _ _ _ hI hgo heffect => hI.step hgo heffect)
    (fun _ _ _ _ h => h.elim)
  have hf := hfollows i
  have hknown := hinv.knows i
  have hunsaved := hinv.unsaved i
  rw [hret] at hf
  generalize g i = s at hf hknown hunsaved
  cases s with
  | done other =>
    cases hf
    exact ⟨hknown, hunsaved⟩
  | loggedIn => cases hf
  | _ => exact hf.elim

/-- A call that refreshes: the token it returns was stored. -/
theorem persisted_before_used_refresh : ∃ tr p,
    Pool.Run (Effect (ι := Unit)) Alone ⟨start (some ⟨"access", "refresh", 0⟩),
      fun _ => tokenCall (getValidToken true)⟩ tr p ∧
      p.tasks () = .ret (.ok (some "access₂")) ∧
      ∃ tokens, Saw p.shared () tokens ∧ tokens.accessToken = "access₂" := by
  have h₀ : Pool.Run (Effect (ι := Unit)) Alone ⟨start (some ⟨"access", "refresh", 0⟩),
    fun _ => tokenCall (getValidToken true)⟩ [] _ := .start
  have h₁ := h₀.step (.task (i := ()) rfl .load)
  have h₂ := h₁.step (.task (i := ()) rfl (.now 0))
  have h₃ := h₂.step (.task (i := ()) rfl (.lock rfl))
  have h₄ := h₃.step (.task (i := ()) rfl .load)
  have h₅ := h₄.step (.task (i := ()) rfl (.now 0))
  have h₆ := h₅.step (.task (i := ()) rfl .post)
  have h₇ := h₆.step (.task (i := ()) rfl (.answer (.ok ⟨"access₂", "refresh₂", 3600, ""⟩)))
  have h₈ := h₇.step (.task (i := ()) rfl (.now 0))
  have h₉ := h₈.step (.task (i := ()) rfl .save)
  have h₁₀ := h₉.step (.task (i := ()) rfl .unlock)
  have hcalls : ∀ i : Unit, Allowed true (tokenCall (getValidToken true)) :=
    fun _ => .inl ⟨_, .inl rfl, rfl⟩
  exact ⟨_, _, h₁₀, rfl,
    (persisted_before_used hcalls h₉ (.task (i := ()) rfl .unlock) rfl).1⟩

end Persisted

end Rsc.Auth

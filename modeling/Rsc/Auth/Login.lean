import Rsc.Auth.Protocol
import Rsc.Library.Pool
import Mathlib.Logic.Relation

/-!
One `complete_login` among any number of `get_valid_token` and
`refresh_after_unauthorized` calls. The login saves without the refresh lock, so a
refresh that loaded the old session may save after it and put the old session back
(`login_overwritten`). The stored tokens stay those of the login, or descend from them,
as long as every refresh saves over the very tokens it loaded.
-/

namespace Rsc.Auth

open Rsc.Library Phase

namespace Login

/-! ## The system -/

/-- The shared state. `loaded` is what each task read last, `answers` the accepted
refreshes with their refresh tokens, `login` what the login saved. -/
structure World (ι : Type) where
  file : Option Tokens
  lock : Option (Option ι)
  loaded : Option ι → Option Tokens
  answers : List (String × TokenResponse)
  login : Option Tokens

variable {ι : Type} [DecidableEq ι]

/-- The effects: every save succeeds in one step, and every request gets some answer.
The task of the login is `none`. -/
inductive Effect : (i : Option ι) → World ι → (op : Op) → Ans op → World ι → Prop
  | load {i : Option ι} {w : World ι} :
      Effect i w .load (.ok w.file) { w with loaded := Function.update w.loaded i w.file }
  | saveRefresh {i : ι} {w : World ι} {tokens : Tokens} :
      Effect (some i) w (.save tokens) (.ok ()) { w with file := some tokens }
  | saveLogin {w : World ι} {tokens : Tokens} :
      Effect none w (.save tokens) (.ok ())
        { w with file := some tokens, login := some tokens }
  | now {i : Option ι} {w : World ι} (t : UInt64) : Effect i w .now t w
  | lock {i : Option ι} {w : World ι} : w.lock = none →
      Effect i w .lock () { w with lock := some i }
  | unlock {i : Option ι} {w : World ι} : Effect i w .unlock () { w with lock := none }
  | post {i : Option ι} {w : World ι} {request : TokenRequest} : Effect i w (.post request) () w
  | refreshed {i : Option ι} {w : World ι} {token : String} (response : TokenResponse) :
      Effect i w (.answer (.refreshToken token)) (.ok response)
        { w with answers := (token, response) :: w.answers }
  | exchanged {i : Option ι} {w : World ι} {code codeVerifier redirectUri : String}
      (response : TokenResponse) :
      Effect i w (.answer (.authorizationCode code codeVerifier redirectUri)) (.ok response) w
  | refused {i : Option ι} {w : World ι} {request : TokenRequest} (err : TokenError) :
      Effect i w (.answer request) (.error err) w
  | overflow {i : Option ι} {w : World ι} : Effect i w .overflow () w

/-- A refresh saves only while the file still holds the tokens it loaded. -/
def InOrder (i : Option ι) (w : World ι) : Op → Prop
  | .save _ => i ≠ none → w.file = w.loaded i
  | _ => True

/-- Nobody but the tasks moves. -/
def Alone (_ _ : World ι) : Prop := False

/-- `tokens` were given in answer to a refresh with the refresh token of `old`. -/
def Refreshed (answers : List (String × TokenResponse)) (old tokens : Tokens) : Prop :=
  ∃ response, (old.refreshToken, response) ∈ answers ∧ Carries tokens response

/-- `tokens` descend from `old` by refreshes. -/
def Descends (answers : List (String × TokenResponse)) : Tokens → Tokens → Prop :=
  Relation.ReflTransGen (Refreshed answers)

/-- A call whose value is not used. -/
def discard {α : Type} (call : Call α) : Call Unit := do
  let _ ← call
  return ()

/-- One login and the calls for a token. -/
def tasks (overflowChecks : Bool) (code codeVerifier redirectUri : String)
    (calls : ι → Call String) : Option ι → Call Unit
  | none => completeLogin overflowChecks code codeVerifier redirectUri
  | some i => discard (calls i)

/-- Once the login has returned, the stored tokens are its own or descend from them. -/
def LoginKept (p : Pool (World ι) (Option ι) Ans (Outcome Unit)) : Prop :=
  p.tasks none = .ret (.ok ()) → ∃ tokens stored, p.shared.login = some tokens ∧
    p.shared.file = some stored ∧ Descends p.shared.answers tokens stored

/-- The file and the lock at the beginning; the rest records what happens. -/
def start (file : Option Tokens) : World ι where
  file := file
  lock := none
  loaded _ := none
  answers := []
  login := none

/-! ## The lost login -/

def oldTokens : Tokens := ⟨"old-access", "old-refresh", 0⟩

def oldRefreshed : TokenResponse := ⟨"old-access₂", "old-refresh₂", 3600, ""⟩

def newSession : TokenResponse := ⟨"new-access", "new-refresh", 3600, ""⟩

/-- **The lost login.** A refresh loads the old session and is answered; the login saves
and returns; the refresh saves over it. -/
theorem login_overwritten : ∃ tr p,
    Pool.Run (Effect (ι := Unit)) Alone
      ⟨start (some oldTokens), tasks true "code" "verifier" "uri"
        fun _ => refreshAfterUnauthorized true "old-access"⟩ tr p ∧
      p.tasks none = .ret (.ok ()) ∧
      p.shared.file = some ⟨"old-access₂", "old-refresh₂", 3540⟩ ∧ ¬ LoginKept p := by
  have h₀ : Pool.Run (Effect (ι := Unit)) Alone
      ⟨start (some oldTokens), tasks true "code" "verifier" "uri"
        fun _ => refreshAfterUnauthorized true "old-access"⟩ [] _ := .start
  have h₁ := h₀.step (.task (i := some ()) rfl (.lock rfl))
  have h₂ := h₁.step (.task (i := some ()) rfl .load)
  have h₃ := h₂.step (.task (i := some ()) rfl (.now 0))
  have h₄ := h₃.step (.task (i := some ()) rfl .post)
  have h₅ := h₄.step (.task (i := some ()) rfl (.refreshed oldRefreshed))
  have h₆ := h₅.step (.task (i := some ()) rfl (.now 0))
  have h₇ := h₆.step (.task (i := none) rfl .post)
  have h₈ := h₇.step (.task (i := none) rfl (.exchanged newSession))
  have h₉ := h₈.step (.task (i := none) rfl (.now 0))
  have h₁₀ := h₉.step (.task (i := none) rfl .saveLogin)
  have h₁₁ := h₁₀.step (.task (i := some ()) rfl .saveRefresh)
  refine ⟨_, _, h₁₁, rfl, rfl, fun hkept => ?_⟩
  obtain ⟨tokens, stored, hlogin, hfile, hdescends⟩ := hkept rfl
  cases hlogin
  cases hfile
  -- the one accepted refresh was made with a token of the old session
  rcases hdescends.cases_head with heq | ⟨_, ⟨response, hmem, _⟩, _⟩
  · exact absurd heq (by decide)
  · have heq : "new-refresh" = "old-refresh" := congrArg Prod.fst (List.mem_singleton.mp hmem)
    exact absurd heq (by decide)

/-! ## The invariant -/

/-- The tokens a refresh works with, from its load to its save. -/
def Works : Phase → Tokens → Prop
  | .loaded own, tokens => own = tokens
  | .sent own, tokens => own = tokens
  | .rotated own _, tokens => own = tokens
  | _, _ => False

/-- The phases of a login. -/
def LoggingIn : Phase → Prop
  | .exchanging | .exchanged _ | .loggedIn | .abandoned => True
  | _ => False

/-- The phases of the tasks agree with what is recorded of them. -/
structure Tracks (w : World ι) (g : Option ι → Phase) : Prop where
  login : LoggingIn (g none)
  calls : ∀ i, ¬ LoggingIn (g (some i))
  loaded : ∀ i tokens, Works (g i) tokens → w.loaded i = some tokens
  rotated : ∀ i tokens response, g i = .rotated tokens response →
    (tokens.refreshToken, response) ∈ w.answers

/-- The invariant: once the login has saved, the stored tokens descend from its own. -/
structure Inv (w : World ι) (g : Option ι → Phase) : Prop extends Tracks w g where
  saved : g none = .loggedIn → ∃ tokens, w.login = some tokens
  kept : ∀ tokens, w.login = some tokens →
    ∃ stored, w.file = some stored ∧ Descends w.answers tokens stored

theorem Descends.mono {answers answers' : List (String × TokenResponse)} {old tokens : Tokens}
    (hsub : answers ⊆ answers') (h : Descends answers old tokens) : Descends answers' old tokens :=
  h.lift id fun _ _ ⟨response, hmem, heq⟩ => ⟨response, hsub hmem, heq⟩

theorem Tracks.update {w w' : World ι} {g : Option ι → Phase} {i : Option ι} {p : Phase}
    (h : Tracks w g) (hanswers : w.answers ⊆ w'.answers)
    (hloaded : ∀ j, j ≠ i → w'.loaded j = w.loaded j) (hside : LoggingIn p ↔ LoggingIn (g i))
    (hworks : ∀ tokens, Works p tokens → w'.loaded i = some tokens)
    (hrotated : ∀ tokens response, p = .rotated tokens response →
      (tokens.refreshToken, response) ∈ w'.answers) : Tracks w' (Function.update g i p) := by
  have hg : ∀ j, (j = i ∧ Function.update g i p j = p) ∨
      (j ≠ i ∧ Function.update g i p j = g j) := by
    intro j
    by_cases hj : j = i
    · subst hj
      exact .inl ⟨rfl, Function.update_self ..⟩
    · exact .inr ⟨hj, Function.update_of_ne hj ..⟩
  refine ⟨?_, fun j => ?_, fun j tokens hj => ?_, fun j tokens response hj => ?_⟩
  · rcases hg none with ⟨rfl, heq⟩ | ⟨_, heq⟩ <;> rw [heq]
    · exact hside.mpr h.login
    · exact h.login
  · rcases hg (some j) with ⟨rfl, heq⟩ | ⟨_, heq⟩ <;> rw [heq]
    · exact fun hp => h.calls j (hside.mp hp)
    · exact h.calls j
  · rcases hg j with ⟨rfl, heq⟩ | ⟨hne, heq⟩ <;> rw [heq] at hj
    · exact hworks tokens hj
    · rw [hloaded j hne]
      exact h.loaded j tokens hj
  · rcases hg j with ⟨rfl, heq⟩ | ⟨_, heq⟩ <;> rw [heq] at hj
    · exact hrotated tokens response hj
    · exact hanswers (h.rotated j tokens response hj)

theorem Move.loggingIn {p p' : Phase} {op : Op} {ans : Ans op} (h : Move p op ans p') :
    LoggingIn p' ↔ LoggingIn p := by
  cases h <;> rfl

theorem Effect.answers_subset {i : Option ι} {w w' : World ι} {op : Op} {ans : Ans op}
    (h : Effect i w op ans w') : w.answers ⊆ w'.answers := by
  cases h with
  | refreshed => exact List.subset_cons_self _ _
  | _ => exact List.Subset.refl _

theorem Effect.loaded_other {i j : Option ι} {w w' : World ι} {op : Op} {ans : Ans op}
    (h : Effect i w op ans w') (hj : j ≠ i) : w'.loaded j = w.loaded j := by
  cases h with
  | load => exact Function.update_of_ne hj ..
  | _ => rfl

theorem Effect.load_inv {i : Option ι} {w w' : World ι} {ans : Except String (Option Tokens)}
    (h : Effect i w .load ans w') : ans = .ok w.file ∧ w'.loaded i = w.file := by
  cases h
  exact ⟨rfl, Function.update_self ..⟩

theorem Tracks.step {w w' : World ι} {g : Option ι → Phase} {i : Option ι} {op : Op}
    {ans : Ans op} {p : Phase} (h : Tracks w g) (hmove : Move (g i) op ans p)
    (heffect : Effect i w op ans w') : Tracks w' (Function.update g i p) := by
  have hloaded := h.loaded i
  have hrotated := h.rotated i
  refine h.update heffect.answers_subset (fun j hj => heffect.loaded_other hj)
    (Move.loggingIn hmove) ?_ ?_
  · intro tokens hp
    generalize g i = q at hmove hloaded
    cases hmove with
    | load =>
      obtain ⟨hans, hown⟩ := heffect.load_inv
      cases hp
      exact hown.trans (Except.ok.inj hans).symm
    | check | post | rotate | stamp =>
      cases heffect
      exact hloaded tokens hp
    | _ => exact hp.elim
  · rintro tokens response rfl
    generalize g i = q at hmove hrotated
    cases hmove with
    | rotate =>
      cases heffect
      exact .head _
    | stamp =>
      cases heffect
      exact hrotated tokens response rfl

/-- **Step lemma.** A step in order keeps the session of the login. -/
theorem Inv.step {w w' : World ι} {g : Option ι → Phase} {i : Option ι} {op : Op}
    {ans : Ans op} {p : Phase} (h : Inv w g) (hmove : Move (g i) op ans p)
    (heffect : Effect i w op ans w') (horder : InOrder i w op) :
    Inv w' (Function.update g i p) := by
  have htracks := h.toTracks.step hmove heffect
  have hcalls := h.calls
  have hrotated := h.rotated i
  have hloaded := h.loaded i
  refine ⟨htracks, fun hlogged => ?_, fun tokens hlogin => ?_⟩
  · by_cases hi : i = none
    · subst hi
      rw [Function.update_self] at hlogged
      subst hlogged
      generalize g none = q at hmove
      cases hmove
      cases heffect
      exact ⟨_, rfl⟩
    · rw [Function.update_of_ne (Ne.symm hi)] at hlogged
      obtain ⟨tokens, htokens⟩ := h.saved hlogged
      cases heffect with
      | saveLogin => exact absurd rfl hi
      | _ => exact ⟨tokens, htokens⟩
  · cases heffect with
    | saveLogin =>
      cases hlogin
      exact ⟨_, rfl, .refl⟩
    | @saveRefresh j =>
      -- the file still holds what this refresh loaded, and the fresh tokens descend from it
      obtain ⟨stored, hstored, hdescends⟩ := h.kept tokens hlogin
      have hfile := horder (by simp)
      have hcall := hcalls j
      refine ⟨_, rfl, ?_⟩
      generalize g (some j) = q at hmove hrotated hloaded hcall
      cases hmove with
      | saveLogin => exact absurd trivial hcall
      | @save own _ response hcarries =>
        rw [hstored, hloaded own rfl] at hfile
        cases hfile
        exact hdescends.tail ⟨response, hrotated _ response rfl, hcarries⟩
    | refreshed =>
      obtain ⟨stored, hstored, hdescends⟩ := h.kept tokens hlogin
      exact ⟨stored, hstored, hdescends.mono (List.subset_cons_self _ _)⟩
    | _ => exact h.kept tokens hlogin

theorem discard_follows {call : Call String} (h : Prog.Follows Move Returns .outside call) :
    Prog.Follows Move Returns .outside (discard call) := by
  refine h.bind fun p out hout => ?_
  cases out <;> cases p <;> exact hout

variable {overflowChecks : Bool} {code codeVerifier redirectUri : String}

omit [DecidableEq ι] in
theorem start_inv (file : Option Tokens) : Inv (start (ι := ι) file) fun
    | none => .exchanging
    | some _ => .outside :=
  ⟨⟨trivial, fun _ => id, fun i _ h => by cases i <;> exact h.elim,
    fun i _ _ h => by cases i <;> cases h⟩, nofun, nofun⟩

/-- **The kept login.** In every run whose saves are in order, the stored tokens are those
of the login or descend from them, from its return on. -/
theorem login_kept {calls : ι → Call String} (hcalls : ∀ i, TokenCall overflowChecks (calls i))
    (file : Option Tokens) {tr : List (Option (Option ι))}
    {p : Pool (World ι) (Option ι) Ans (Outcome Unit)}
    (hrun : Pool.Run (fun i w op ans w' => Effect i w op ans w' ∧ InOrder i w op) Alone
      ⟨start file, tasks overflowChecks code codeVerifier redirectUri calls⟩ tr p) :
    LoginKept p := by
  obtain ⟨g, hfollows, hinv⟩ := hrun.invariant (Q := Returns) (I := Inv)
    (fun i => by
      cases i with
      | none => exact completeLogin_follows overflowChecks code codeVerifier redirectUri
      | some i => exact discard_follows (hcalls i).follows)
    (start_inv file)
    (fun _ _ _ _ _ _ _ hI hmove heffect => hI.step hmove heffect.1 heffect.2)
    (fun _ _ _ _ h => h.elim)
  intro hreturned
  have hf := hfollows none
  have hlogin := hinv.login
  rw [hreturned] at hf
  have hlogged : g none = .loggedIn := by
    generalize g none = q at hf hlogin
    cases q <;> first | rfl | exact hf.elim | exact hlogin.elim
  obtain ⟨tokens, htokens⟩ := hinv.saved hlogged
  obtain ⟨stored, hstored, hdescends⟩ := hinv.kept tokens htokens
  exact ⟨tokens, stored, htokens, hstored, hdescends⟩

/-- A login, then a refresh of its session: the stored tokens descend from it. -/
theorem login_kept_refreshed : ∃ tr p,
    Pool.Run (fun i w op ans w' => Effect (ι := Unit) i w op ans w' ∧ InOrder i w op) Alone
      ⟨start (some oldTokens), tasks true "code" "verifier" "uri"
        fun _ => refreshAfterUnauthorized true "new-access"⟩ tr p ∧
      p.shared.file = some ⟨"new-access₂", "new-refresh₂", 3540⟩ ∧ LoginKept p := by
  have h₀ : Pool.Run (fun i w op ans w' => Effect (ι := Unit) i w op ans w' ∧ InOrder i w op) Alone
      ⟨start (some oldTokens), tasks true "code" "verifier" "uri"
        fun _ => refreshAfterUnauthorized true "new-access"⟩ [] _ := .start
  have h₁ := h₀.step (.task (i := none) rfl ⟨.post, trivial⟩)
  have h₂ := h₁.step (.task (i := none) rfl ⟨.exchanged newSession, trivial⟩)
  have h₃ := h₂.step (.task (i := none) rfl ⟨.now 0, trivial⟩)
  have h₄ := h₃.step (.task (i := none) rfl ⟨.saveLogin, fun h => absurd rfl h⟩)
  have h₅ := h₄.step (.task (i := some ()) rfl ⟨.lock rfl, trivial⟩)
  have h₆ := h₅.step (.task (i := some ()) rfl ⟨.load, trivial⟩)
  have h₇ := h₆.step (.task (i := some ()) rfl ⟨.now 0, trivial⟩)
  have h₈ := h₇.step (.task (i := some ()) rfl ⟨.post, trivial⟩)
  have h₉ := h₈.step (.task (i := some ()) rfl
    ⟨.refreshed ⟨"new-access₂", "new-refresh₂", 3600, ""⟩, trivial⟩)
  have h₁₀ := h₉.step (.task (i := some ()) rfl ⟨.now 0, trivial⟩)
  have h₁₁ := h₁₀.step (.task (i := some ()) rfl ⟨.saveRefresh, fun _ => rfl⟩)
  exact ⟨_, _, h₁₁, rfl, login_kept (fun _ => .inr ⟨_, rfl⟩) _ h₁₁⟩

end Login

end Rsc.Auth

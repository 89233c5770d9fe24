import Rsc.Library.Prog
import Mathlib.Data.List.Count

/-!
A pool of programs over a shared state, interleaved at their effects. Between two
steps of one task any other task may move, and so may the environment.

`Run.invariant` is the rule the interleavings are reasoned about with: when every
task follows a protocol, a property of the shared state and of the local protocol
states holds in every reachable pool as soon as each allowed effect keeps it.
`Run.count_le` bounds the number of steps a task takes.
-/

namespace Rsc.Library

variable {Op : Type} {Ans : Op → Type} {σ ι α P : Type}

structure Pool (σ ι : Type) {Op : Type} (Ans : Op → Type) (α : Type) where
  shared : σ
  tasks : ι → Prog Ans α

/-- What an effect of task `i` may do: the answer it gets and the shared state after it. -/
abbrev Effects (σ ι : Type) {Op : Type} (Ans : Op → Type) : Type :=
  ι → σ → (op : Op) → Ans op → σ → Prop

namespace Pool

variable [DecidableEq ι] {E : Effects σ ι Ans} {env : σ → σ → Prop}

/-- One step: a task gets the answer to the effect it awaits (`some i`), or the
environment moves (`none`). -/
inductive Step (E : Effects σ ι Ans) (env : σ → σ → Prop) :
    Pool σ ι Ans α → Option ι → Pool σ ι Ans α → Prop
  | task {p : Pool σ ι Ans α} {i : ι} {op : Op} {k : Ans op → Prog Ans α} {ans : Ans op} {s : σ}
      (hi : p.tasks i = .perform op k) (hE : E i p.shared op ans s) :
      Step E env p (some i) ⟨s, Function.update p.tasks i (k ans)⟩
  | env {p : Pool σ ι Ans α} {s : σ} (h : env p.shared s) : Step E env p none ⟨s, p.tasks⟩

/-- The runs from `p₀`, with the list of who moved (the last mover first). -/
inductive Run (E : Effects σ ι Ans) (env : σ → σ → Prop) (p₀ : Pool σ ι Ans α) :
    List (Option ι) → Pool σ ι Ans α → Prop
  | start : Run E env p₀ [] p₀
  | step {tr : List (Option ι)} {p p' : Pool σ ι Ans α} {who : Option ι} :
      Run E env p₀ tr p → Step E env p who p' → Run E env p₀ (who :: tr) p'

/-- **Invariant rule.** The tasks follow `move` from the local states `g₀`; then what
every allowed effect and every move of the environment keeps holds in every reachable
pool, for local states that its tasks follow. -/
theorem Run.invariant {move : Prog.Protocol Ans P} {Q : P → α → Prop} {I : σ → (ι → P) → Prop}
    {p₀ p : Pool σ ι Ans α} {tr : List (Option ι)} {g₀ : ι → P}
    (hrun : Run E env p₀ tr p)
    (hfollows : ∀ i, Prog.Follows move Q (g₀ i) (p₀.tasks i)) (hinit : I p₀.shared g₀)
    (hstep : ∀ s g i op ans l s', I s g → move (g i) op ans l → E i s op ans s' →
      I s' (Function.update g i l))
    (henv : ∀ s g s', I s g → env s s' → I s' g) :
    ∃ g, (∀ i, Prog.Follows move Q (g i) (p.tasks i)) ∧ I p.shared g := by
  induction hrun with
  | start => exact ⟨g₀, hfollows, hinit⟩
  | step _ hs ih =>
    obtain ⟨g, hg, hI⟩ := ih
    cases hs with
    | env h => exact ⟨g, hg, henv _ _ _ hI h⟩
    | @task i op k ans s hi hE =>
      have hf := hg i
      rw [hi] at hf
      obtain ⟨l, hmove, hk⟩ := hf ans
      refine ⟨Function.update g i l, fun j => ?_, hstep _ _ _ _ _ _ _ hI hmove hE⟩
      by_cases hj : j = i
      · subst hj
        simpa using hk
      · simpa [Function.update_of_ne hj] using hg j

/-- A task may go on alone, as far as its effects are possible. -/
theorem Run.alone {p₀ p : Pool σ ι Ans α} {tr : List (Option ι)} {i : ι} {s : σ}
    {answers : List (Sigma Ans)} {rest : Prog Ans α} (hrun : Run E env p₀ tr p)
    (hsteps : Prog.Steps (p.tasks i) answers rest) (halong : Prog.Along (E i) p.shared answers s) :
    ∃ tr', Run E env p₀ tr' ⟨s, Function.update p.tasks i rest⟩ := by
  generalize hm : p.tasks i = m at hsteps
  induction hsteps generalizing p tr with
  | nil m =>
    obtain rfl := halong.nil_inv
    refine ⟨tr, ?_⟩
    rwa [← hm, Function.update_eq_self]
  | cons _ ih =>
    obtain ⟨s', hE, halong⟩ := halong.cons_inv
    obtain ⟨tr', hrun'⟩ := ih (hrun.step (.task hm hE)) halong (Function.update_self ..)
    rw [Function.update_idem] at hrun'
    exact ⟨tr', hrun'⟩

/-- A task that returns within `n` effects takes at most `n` steps in a run. -/
theorem Run.count_le {p₀ p : Pool σ ι Ans α} {tr : List (Option ι)} {i : ι} {n : Nat}
    (hrun : Run E env p₀ tr p) (hn : (p₀.tasks i).Within n) : tr.count (some i) ≤ n := by
  have h : ∃ m, (p.tasks i).Within m ∧ tr.count (some i) + m = n := by
    induction hrun with
    | start => exact ⟨n, hn, by simp⟩
    | step _ hs ih =>
      obtain ⟨m, hm, hc⟩ := ih
      cases hs with
      | env h => exact ⟨m, hm, by simpa using hc⟩
      | @task j op k ans s hj hE =>
        by_cases hji : j = i
        · subst hji
          rw [hj] at hm
          cases m with
          | zero => exact hm.elim
          | succ m => exact ⟨m, by simpa using hm ans, by simp; omega⟩
        · refine ⟨m, by simpa [Function.update_of_ne (Ne.symm hji)] using hm, ?_⟩
          simpa [hji] using hc
  obtain ⟨m, _, hc⟩ := h
  omega

/-- The runs from `p₀`, with what every task has asked for and got. -/
inductive LoggedRun (E : Effects σ ι Ans) (env : σ → σ → Prop) (p₀ : Pool σ ι Ans α) :
    (ι → List (Sigma Ans)) → Pool σ ι Ans α → Prop
  | start : LoggedRun E env p₀ (fun _ => []) p₀
  | task {log : ι → List (Sigma Ans)} {p : Pool σ ι Ans α} {i : ι} {op : Op}
      {k : Ans op → Prog Ans α} {ans : Ans op} {s : σ} (hrun : LoggedRun E env p₀ log p)
      (hi : p.tasks i = .perform op k) (hE : E i p.shared op ans s) :
      LoggedRun E env p₀ (Function.update log i (log i ++ [⟨op, ans⟩]))
        ⟨s, Function.update p.tasks i (k ans)⟩
  | env {log : ι → List (Sigma Ans)} {p : Pool σ ι Ans α} {s : σ} (hrun : LoggedRun E env p₀ log p)
      (h : env p.shared s) : LoggedRun E env p₀ log ⟨s, p.tasks⟩

/-- Whatever the other tasks do, a task is where its own answers have taken it. -/
theorem LoggedRun.steps {p₀ p : Pool σ ι Ans α} {log : ι → List (Sigma Ans)}
    (h : LoggedRun E env p₀ log p) (i : ι) : Prog.Steps (p₀.tasks i) (log i) (p.tasks i) := by
  induction h with
  | start => exact .nil _
  | env _ _ ih => exact ih
  | @task log p j op k ans s _ hj _ ih =>
    by_cases hij : i = j
    · subst hij
      rw [hj] at ih
      simpa using ih.concat ans
    · simpa [Function.update_of_ne hij] using ih

/-- The log of a task is the beginning of a run of it alone. -/
theorem LoggedRun.exec_append (hans : ∀ op, Nonempty (Ans op)) {p₀ p : Pool σ ι Ans α}
    {log : ι → List (Sigma Ans)} (h : LoggedRun E env p₀ log p) (i : ι) :
    ∃ rest a, Prog.Exec Prog.anyAnswer (p₀.tasks i) (log i ++ rest) a := by
  obtain ⟨rest, a, hrest⟩ := Prog.exists_exec hans (p.tasks i)
  exact ⟨rest, a, (h.steps i).exec hrest⟩

/-- The log of a task that has returned is a run of it alone. -/
theorem LoggedRun.exec {p₀ p : Pool σ ι Ans α} {log : ι → List (Sigma Ans)}
    (h : LoggedRun E env p₀ log p) {i : ι} {a : α} (hi : p.tasks i = .ret a) :
    Prog.Exec Prog.anyAnswer (p₀.tasks i) (log i) a := by
  have hsteps := h.steps i
  rw [hi] at hsteps
  simpa using hsteps.exec (.ret a)

/-- A task may go on alone. -/
theorem LoggedRun.steps_alone {p₀ p : Pool σ ι Ans α} {log : ι → List (Sigma Ans)} {i : ι}
    {tr : List (Sigma Ans)} {rest : Prog Ans α} (h : LoggedRun E env p₀ log p)
    (hsteps : Prog.Steps (p.tasks i) tr rest) (hE : ∀ s op ans, E i s op ans s) :
    LoggedRun E env p₀ (Function.update log i (log i ++ tr))
      ⟨p.shared, Function.update p.tasks i rest⟩ := by
  generalize hm : p.tasks i = m at hsteps
  induction hsteps generalizing log p with
  | nil m => simpa [← hm] using h
  | @cons op k ans tr m _ ih =>
    have hnext := ih (h.task hm (hE p.shared op ans)) (by simp)
    simpa [List.append_assoc] using hnext

end Pool

end Rsc.Library

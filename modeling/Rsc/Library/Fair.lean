import Mathlib.Data.Fintype.Basic
import Mathlib.Data.Finset.Lattice.Fold
import Mathlib.Data.List.Count

/-!
Infinite runs of a step relation, and what is reached in them when some of the agents are fair
(`Schedule.eventually`, `Schedule.exists_stuck`).
-/

namespace Rsc.Library

variable {σ L ι : Type}

/-- A step with this label, or no step at all. -/
def Moves (Step : σ → L → σ → Prop) (s : σ) : Option L → σ → Prop
  | some l, s' => Step s l s'
  | none, s' => s' = s

/-- Finitely many steps. -/
inductive Steps (Step : σ → L → σ → Prop) : σ → List L → σ → Prop
  | nil {s : σ} : Steps Step s [] s
  | cons {s s' s'' : σ} {l : L} {ls : List L} (h : Step s l s') (hs : Steps Step s' ls s'') :
      Steps Step s (l :: ls) s''

theorem Steps.append {Step : σ → L → σ → Prop} {s s' s'' : σ} {ls ls' : List L}
    (h : Steps Step s ls s') (h' : Steps Step s' ls' s'') : Steps Step s (ls ++ ls') s'' := by
  induction h with
  | nil => exact h'
  | cons h _ ih => exact .cons h (ih h')

/-- An infinite run, which may idle at any time. -/
structure Schedule (Step : σ → L → σ → Prop) where
  state : Nat → σ
  label : Nat → Option L
  moves : ∀ n, Moves Step (state n) (label n) (state (n + 1))

/-- The agent has a step. -/
def Enabled (Step : σ → L → σ → Prop) (agent : L → Option ι) (i : ι) (s : σ) : Prop :=
  ∃ l s', agent l = some i ∧ Step s l s'

/-- What a measure of the distance to the goal must do: short of the goal the helper has a step,
every step of it brings the goal nearer, and the steps of the others neither take it away nor
change the helper. -/
structure Ranking (Step : σ → L → σ → Prop) (agent : L → Option ι) (I Q : σ → Prop)
    (rank : σ → Nat) (helper : σ → ι) : Prop where
  enabled : ∀ s, I s → ¬ Q s → Enabled Step agent (helper s) s
  step : ∀ s l s', I s → ¬ Q s → Step s l s' →
    rank s' < rank s ∨ rank s' = rank s ∧ helper s' = helper s ∧ agent l ≠ some (helper s)

namespace Schedule

variable {Step : σ → L → σ → Prop} {run : Schedule Step} {agent : L → Option ι} {n m : Nat}

theorem step_of_label {l : L} (h : run.label n = some l) :
    Step (run.state n) l (run.state (n + 1)) := by
  have hmoves := run.moves n
  rwa [h] at hmoves

theorem state_of_idle (h : run.label n = none) : run.state (n + 1) = run.state n := by
  have hmoves := run.moves n
  rwa [h] at hmoves

/-- What relates the two ends of every step relates any two states of the run. -/
theorem relates {R : σ → σ → Prop} (hrefl : ∀ s, R s s)
    (htrans : ∀ s s' s'', R s s' → R s' s'' → R s s'')
    (hstep : ∀ n l, run.label n = some l → R (run.state n) (run.state (n + 1)))
    (hle : n ≤ m) : R (run.state n) (run.state m) := by
  induction m, hle using Nat.le_induction with
  | base => exact hrefl _
  | succ m _ ih =>
    refine htrans _ _ _ ih ?_
    cases hlabel : run.label m with
    | some l => exact hstep m l hlabel
    | none =>
      rw [state_of_idle hlabel]
      exact hrefl _

/-- The labels of the steps before `n`, the last one first. -/
def trace (run : Schedule Step) : Nat → List L
  | 0 => []
  | n + 1 => (run.label n).toList ++ run.trace n

/-- Nothing happens. -/
def idle (s : σ) : Schedule Step := ⟨fun _ => s, fun _ => none, fun _ => rfl⟩

/-- A run may begin with one more step. -/
def cons {s : σ} {l : L} (run : Schedule Step) (h : Step s l (run.state 0)) : Schedule Step where
  state
    | 0 => s
    | n + 1 => run.state n
  label
    | 0 => some l
    | n + 1 => run.label n
  moves
    | 0 => h
    | n + 1 => run.moves n

/-- A run may begin with finitely many steps more. -/
theorem exists_prepended (run : Schedule Step) {s s' : σ} {ls : List L}
    (h : Steps Step s ls s') (hrun : run.state 0 = s') : ∃ run' : Schedule Step, run'.state 0 = s ∧
      (∀ n, run'.state (ls.length + n) = run.state n) ∧
      ∀ n l, run'.label n = some l → l ∈ ls ∨ ∃ m, run.label m = some l := by
  induction h with
  | nil =>
    refine ⟨run, hrun, fun n => ?_, fun n _ h => .inr ⟨n, h⟩⟩
    rw [List.length_nil, Nat.zero_add]
  | @cons s s₁ s' l ls h _ ih =>
    obtain ⟨run', hstart, hstate, hlabel⟩ := ih hrun
    refine ⟨run'.cons (hstart ▸ h), rfl, fun n => ?_, fun n l' hl => ?_⟩
    · rw [List.length_cons, Nat.succ_add]
      exact hstate n
    · cases n with
      | zero => exact .inl (Option.some.inj hl ▸ List.mem_cons_self)
      | succ n => exact (hlabel n l' hl).imp_left (List.mem_cons_of_mem l)

/-- An agent that always has a step moves. -/
def Fair (run : Schedule Step) (agent : L → Option ι) (i : ι) : Prop :=
  ∀ n, (∀ m, n ≤ m → Enabled Step agent i (run.state m)) →
    ∃ m l, n ≤ m ∧ run.label m = some l ∧ agent l = some i

variable {I Q : σ → Prop} {rank : σ → Nat} {helper : σ → ι}

/-- The goal comes nearer. -/
theorem exists_nearer (hranking : Ranking Step agent I Q rank helper)
    (hfair : ∀ i, run.Fair agent i) (hI : ∀ m, n ≤ m → I (run.state m))
    (hnot : ∀ m, n ≤ m → ¬ Q (run.state m)) :
    ∃ m, n ≤ m ∧ rank (run.state m) < rank (run.state n) := by
  by_contra hnever
  have hstays : ∀ m, n ≤ m → rank (run.state m) = rank (run.state n) ∧
      helper (run.state m) = helper (run.state n) := by
    intro m hm
    induction m, hm using Nat.le_induction with
    | base => exact ⟨rfl, rfl⟩
    | succ m hm ih =>
      cases hlabel : run.label m with
      | none =>
        rw [state_of_idle hlabel]
        exact ih
      | some l =>
        obtain hlt | ⟨hrank, hhelper, -⟩ :=
          hranking.step _ l _ (hI m hm) (hnot m hm) (step_of_label hlabel)
        · exact (hnever ⟨m + 1, Nat.le_succ_of_le hm, ih.1 ▸ hlt⟩).elim
        · exact ⟨hrank.trans ih.1, hhelper.trans ih.2⟩
  have henabled : ∀ m, n ≤ m → Enabled Step agent (helper (run.state n)) (run.state m) := by
    intro m hm
    rw [← (hstays m hm).2]
    exact hranking.enabled _ (hI m hm) (hnot m hm)
  obtain ⟨m, l, hm, hlabel, hagent⟩ := hfair _ n henabled
  obtain ⟨hrank, hhelper⟩ := hstays m hm
  obtain hlt | ⟨-, -, hother⟩ := hranking.step _ l _ (hI m hm) (hnot m hm) (step_of_label hlabel)
  · exact hnever ⟨m + 1, Nat.le_succ_of_le hm, hrank ▸ hlt⟩
  · exact hother (hhelper ▸ hagent)

/-- **Progress rule.** With a ranking and fair agents the goal is reached. -/
theorem eventually (hranking : Ranking Step agent I Q rank helper)
    (hfair : ∀ i, run.Fair agent i) (hI : ∀ m, n ≤ m → I (run.state m)) :
    ∃ m, n ≤ m ∧ Q (run.state m) := by
  induction hrank : rank (run.state n) using Nat.strongRecOn generalizing n with
  | ind r ih =>
    by_contra hnever
    obtain ⟨m, hm, hlt⟩ := exists_nearer hranking hfair hI fun m hm hQ => hnever ⟨m, hm, hQ⟩
    obtain ⟨k, hk, hQ⟩ := ih _ (hrank ▸ hlt) (fun k hk => hI k (Nat.le_trans hm hk)) rfl
    exact hnever ⟨k, Nat.le_trans hm hk, hQ⟩

/-! ## Runs that come to rest -/

variable [DecidableEq L] {bound : Nat}

/-- A label with a bound on its steps has a last one. -/
theorem stops {l : L} (hbound : ∀ n, (run.trace n).count l ≤ bound) (n : Nat) :
    ∃ m, n ≤ m ∧ ∀ k, m ≤ k → run.label k ≠ some l := by
  induction hleft : bound - (run.trace n).count l using Nat.strongRecOn generalizing n with
  | ind left ih =>
    by_contra hnever
    push Not at hnever
    obtain ⟨k, hk, hlabel⟩ := hnever n (Nat.le_refl n)
    have hcount : (run.trace (k + 1)).count l = (run.trace k).count l + 1 := by
      rw [trace, hlabel, List.count_append, Option.toList_some, List.count_singleton_self,
        Nat.add_comm]
    have hmono : (run.trace n).count l ≤ (run.trace k).count l := by
      clear hcount hlabel
      induction k, hk using Nat.le_induction with
      | base => exact Nat.le_refl _
      | succ k _ ih =>
        rw [trace, List.count_append]
        exact Nat.le_trans ih (Nat.le_add_left _ _)
    have hle := hbound (k + 1)
    obtain ⟨m, hm, hlast⟩ := ih _ (by omega) (k + 1) rfl
    obtain ⟨j, hj, hlabel'⟩ := hnever m (by omega)
    exact hlast j hj hlabel'

theorem rests [Finite L] (hbound : ∀ l n, (run.trace n).count l ≤ bound) :
    ∃ n, ∀ k, n ≤ k → run.label k = none := by
  choose last _ hlast using fun l => stops (hbound l) 0
  obtain ⟨_⟩ := nonempty_fintype L
  refine ⟨Finset.univ.sup last, fun k hk => ?_⟩
  cases hlabel : run.label k with
  | none => rfl
  | some l =>
    exact absurd hlabel (hlast l k (Nat.le_trans (Finset.le_sup (Finset.mem_univ l)) hk))

/-- **Rest rule.** Finitely many fair agents with a bound on their steps come to a state in which
none of them has a step. -/
theorem exists_stuck [Finite L] (hbound : ∀ l n, (run.trace n).count l ≤ bound)
    (hfair : ∀ l, run.Fair some l) : ∃ n, ∀ l s', ¬ Step (run.state n) l s' := by
  obtain ⟨n, hidle⟩ := rests hbound
  refine ⟨n, fun l s' hstep => ?_⟩
  have hstays : ∀ m, n ≤ m → run.state m = run.state n := by
    intro m hm
    induction m, hm using Nat.le_induction with
    | base => rfl
    | succ m hm ih => rw [state_of_idle (hidle m hm), ih]
  obtain ⟨m, l', hm, hlabel, -⟩ := hfair l n fun m hm => by
    rw [hstays m hm]
    exact ⟨l, s', rfl, hstep⟩
  rw [hidle m hm] at hlabel
  cases hlabel

end Schedule

end Rsc.Library

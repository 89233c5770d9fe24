import Rsc.Library.Fair
import Rsc.Library.Pool
import Mathlib.Data.List.Nodup

/-!
Tasks that share a state behind one lock. A task uses the state only while it holds the lock,
takes the lock at most once and returns when it drops it; then every interleaving is a sequence
of whole tasks, one after the other (`Run.linearizes`), and one such sequence serves a whole run
(`linearizes_run`).
-/

namespace Rsc.Library.Atomic

variable {Op : Type} {Ans : Op → Type} {σ ι α : Type}

/-- The effects of a task: it begins, takes the lock, uses the state and drops the lock. -/
inductive LockOp (Op : Type)
  | begin
  | lock
  | unlock
  | access (op : Op)

abbrev LockAns (Ans : Op → Type) : LockOp Op → Type
  | .access op => Ans op
  | _ => Unit

/-- The state, and who holds the lock. -/
structure World (σ ι : Type) where
  state : σ
  holder : Option ι

/-- The lock excludes; nothing but the discipline of the tasks keeps the others from the state. -/
inductive Effect (E : σ → (op : Op) → Ans op → σ → Prop) (i : ι) :
    World σ ι → (op : LockOp Op) → LockAns Ans op → World σ ι → Prop
  | begin {w : World σ ι} : Effect E i w .begin () w
  | lock {w : World σ ι} (h : w.holder = none) :
      Effect E i w .lock () { w with holder := some i }
  | unlock {w : World σ ι} : Effect E i w .unlock () { w with holder := none }
  | access {w : World σ ι} {op : Op} {ans : Ans op} {s : σ} (h : E w.state op ans s) :
      Effect E i w (.access op) ans { w with state := s }

/-! ## The discipline -/

/-- A task that holds the lock. -/
inductive Holding : Prog (LockAns Ans) α → Prop
  | access {op : Op} {k : Ans op → Prog (LockAns Ans) α} (h : ∀ ans, Holding (k ans)) :
      Holding (.perform (.access op) k)
  | unlock {k : Unit → Prog (LockAns Ans) α} (a : α) (h : k () = .ret a) :
      Holding (.perform .unlock k)

/-- A task that has begun: it returns at once, or takes the lock. -/
inductive Ready : Prog (LockAns Ans) α → Prop
  | ret (a : α) : Ready (.ret a)
  | lock {k : Unit → Prog (LockAns Ans) α} (h : Holding (k ())) : Ready (.perform .lock k)

inductive Disciplined : Prog (LockAns Ans) α → Prop
  | begin {k : Unit → Prog (LockAns Ans) α} (h : Ready (k ())) : Disciplined (.perform .begin k)

theorem Holding.map {β : Type} (f : α → β) {m : Prog (LockAns Ans) α} (h : Holding m) :
    Holding (m.bind fun a => .ret (f a)) := by
  induction h with
  | access _ ih => exact .access ih
  | unlock a hk =>
    refine .unlock (f a) ?_
    rw [hk]
    rfl

theorem Disciplined.map {β : Type} (f : α → β) {m : Prog (LockAns Ans) α} (h : Disciplined m) :
    Disciplined (m.bind fun a => .ret (f a)) := by
  cases h with
  | @begin k h =>
    refine .begin ?_
    generalize k () = m at h ⊢
    cases h with
    | ret a => exact .ret (f a)
    | lock h => exact .lock (h.map f)

/-! ## One task after the other -/

/-- A task without others: the state before it, its result, and the state after it. -/
inductive Alone (E : σ → (op : Op) → Ans op → σ → Prop) :
    σ → Prog (LockAns Ans) α → α → σ → Prop
  | ret {s : σ} {a : α} : Alone E s (.ret a) a s
  | begin {s s' : σ} {k : Unit → Prog (LockAns Ans) α} {a : α} (h : Alone E s (k ()) a s') :
      Alone E s (.perform .begin k) a s'
  | lock {s s' : σ} {k : Unit → Prog (LockAns Ans) α} {a : α} (h : Alone E s (k ()) a s') :
      Alone E s (.perform .lock k) a s'
  | unlock {s s' : σ} {k : Unit → Prog (LockAns Ans) α} {a : α} (h : Alone E s (k ()) a s') :
      Alone E s (.perform .unlock k) a s'
  | access {s s' s'' : σ} {op : Op} {ans : Ans op} {k : Ans op → Prog (LockAns Ans) α} {a : α}
      (hE : E s op ans s') (h : Alone E s' (k ans) a s'') : Alone E s (.perform (.access op) k) a s''

section

variable {E : σ → (op : Op) → Ans op → σ → Prop} {s s' : σ} {a b : α}

theorem Alone.ret_inv (h : Alone E s (.ret b) a s') : a = b ∧ s' = s := by
  cases h
  exact ⟨rfl, rfl⟩

theorem Alone.begin_inv {k : Unit → Prog (LockAns Ans) α}
    (h : Alone E s (.perform .begin k) a s') : Alone E s (k ()) a s' := by
  cases h with
  | begin h => exact h

theorem Alone.lock_inv {k : Unit → Prog (LockAns Ans) α}
    (h : Alone E s (.perform .lock k) a s') : Alone E s (k ()) a s' := by
  cases h with
  | lock h => exact h

theorem Alone.unlock_inv {k : Unit → Prog (LockAns Ans) α}
    (h : Alone E s (.perform .unlock k) a s') : Alone E s (k ()) a s' := by
  cases h with
  | unlock h => exact h

theorem Alone.access_inv {op : Op} {k : Ans op → Prog (LockAns Ans) α}
    (h : Alone E s (.perform (.access op) k) a s') :
    ∃ ans s₁, E s op ans s₁ ∧ Alone E s₁ (k ans) a s' := by
  cases h with
  | access hE h => exact ⟨_, _, hE, h⟩

end

theorem Alone.map_inv {β : Type} {E : σ → (op : Op) → Ans op → σ → Prop} {f : α → β} {s s' : σ}
    {m : Prog (LockAns Ans) α} {b : β} (h : Alone E s (m.bind fun a => .ret (f a)) b s') :
    ∃ a, b = f a ∧ Alone E s m a s' := by
  induction m generalizing s with
  | ret a =>
    cases h
    exact ⟨a, rfl, .ret⟩
  | perform op k ih =>
    cases h with
    | begin h =>
      obtain ⟨a, hb, h⟩ := ih () h
      exact ⟨a, hb, .begin h⟩
    | lock h =>
      obtain ⟨a, hb, h⟩ := ih () h
      exact ⟨a, hb, .lock h⟩
    | unlock h =>
      obtain ⟨a, hb, h⟩ := ih () h
      exact ⟨a, hb, .unlock h⟩
    | @access _ _ _ _ ans _ _ hE h =>
      obtain ⟨a, hb, h⟩ := ih ans h
      exact ⟨a, hb, .access hE h⟩

theorem Alone.map {β : Type} {E : σ → (op : Op) → Ans op → σ → Prop} {s s' : σ}
    {m : Prog (LockAns Ans) α} {a : α} (h : Alone E s m a s') (f : α → β) :
    Alone E s (m.bind fun a => .ret (f a)) (f a) s' := by
  induction h with
  | ret => exact .ret
  | begin _ ih => exact .begin ih
  | lock _ ih => exact .lock ih
  | unlock _ ih => exact .unlock ih
  | access hE _ ih => exact .access hE ih

/-- The tasks of the list in turn, each with its result; `R` is what a task does. -/
inductive Serial (R : ι → σ → α → σ → Prop) (s₀ : σ) : List (ι × α) → σ → Prop
  | nil : Serial R s₀ [] s₀
  | concat {order : List (ι × α)} {s s' : σ} {i : ι} {a : α} (h : Serial R s₀ order s)
      (hR : R i s a s') : Serial R s₀ (order ++ [(i, a)]) s'

theorem Serial.mono {R R' : ι → σ → α → σ → Prop} {s₀ s : σ} {order : List (ι × α)}
    (hR : ∀ i s a s', R i s a s' → R' i s a s') (h : Serial R s₀ order s) :
    Serial R' s₀ order s := by
  induction h with
  | nil => exact .nil
  | concat _ h ih => exact .concat ih (hR _ _ _ _ h)

/-- A task of the sequence runs from where the tasks before it ended. -/
theorem Serial.split {R : ι → σ → α → σ → Prop} {s₀ s : σ} {before after : List (ι × α)} {i : ι}
    {a : α} (h : Serial R s₀ (before ++ (i, a) :: after) s) :
    ∃ s₁ s₂, Serial R s₀ before s₁ ∧ R i s₁ a s₂ := by
  generalize horder : before ++ (i, a) :: after = order at h
  induction h generalizing after with
  | nil => simp at horder
  | concat h hR ih =>
    rcases List.eq_nil_or_concat after with rfl | ⟨after, last, rfl⟩
    · obtain ⟨rfl, hlast⟩ := List.append_inj' horder rfl
      cases hlast
      exact ⟨_, _, h, hR⟩
    · rw [List.concat_eq_append, ← List.cons_append, ← List.append_assoc] at horder
      exact ih (List.append_inj' horder rfl).1

/-- Every state of a sequence has what the first one has and the tasks keep. -/
theorem Serial.invariant {R : ι → σ → α → σ → Prop} {P : σ → Prop} {s₀ s : σ}
    {order : List (ι × α)} (hR : ∀ i s a s', R i s a s' → P s → P s') (hstart : P s₀)
    (h : Serial R s₀ order s) : P s := by
  induction h with
  | nil => exact hstart
  | concat _ h ih => exact hR _ _ _ _ h ih

/-- The tasks that have returned, in this order, account for the results and for the state. -/
structure Linearizes (R : ι → σ → α → σ → Prop) (s₀ : σ) (order : List (ι × α))
    (p : Pool (World σ ι) ι (LockAns Ans) α) : Prop where
  serial : ∃ s, Serial R s₀ order s ∧ (p.shared.holder = none → p.shared.state = s)
  nodup : (order.map Prod.fst).Nodup
  returned : ∀ i a, p.tasks i = .ret a ↔ (i, a) ∈ order

theorem Linearizes.mono {R R' : ι → σ → α → σ → Prop} {s₀ : σ} {order : List (ι × α)}
    {p : Pool (World σ ι) ι (LockAns Ans) α} (hR : ∀ i s a s', R i s a s' → R' i s a s')
    (h : Linearizes R s₀ order p) : Linearizes R' s₀ order p := by
  obtain ⟨⟨s, hserial, hfree⟩, hnodup, hreturned⟩ := h
  exact ⟨⟨s, hserial.mono hR, hfree⟩, hnodup, hreturned⟩

/-! ## The invariant -/

variable {E : σ → (op : Op) → Ans op → σ → Prop} {p₀ p p' : Pool (World σ ι) ι (LockAns Ans) α}
  {order order' : List (ι × α)} {s : σ} {i : ι}

/-- What a task of the pool does alone. -/
def Does (E : σ → (op : Op) → Ans op → σ → Prop) (p₀ : Pool (World σ ι) ι (LockAns Ans) α)
    (i : ι) (s : σ) (a : α) (s' : σ) : Prop :=
  Alone E s (p₀.tasks i) a s'

/-- Where a task is; what the holder does from now on alone, it does alone from the start. -/
inductive Status (E : σ → (op : Op) → Ans op → σ → Prop)
    (p₀ p : Pool (World σ ι) ι (LockAns Ans) α) (order : List (ι × α)) (s : σ) (i : ι) : Prop
  | fresh (htask : p.tasks i = p₀.tasks i) (hholder : p.shared.holder ≠ some i)
      (hnot : i ∉ order.map Prod.fst)
  | waiting {k k' : Unit → Prog (LockAns Ans) α} (hinit : p₀.tasks i = .perform .begin k)
      (hk : k () = .perform .lock k') (hready : Holding (k' ()))
      (htask : p.tasks i = .perform .lock k') (hholder : p.shared.holder ≠ some i)
      (hnot : i ∉ order.map Prod.fst)
  | holds {m : Prog (LockAns Ans) α} (htask : p.tasks i = m) (hholder : p.shared.holder = some i)
      (hholding : Holding m)
      (halone : ∀ a s', Alone E p.shared.state m a s' → Alone E s (p₀.tasks i) a s')
      (hnot : i ∉ order.map Prod.fst)
  | returned {a : α} (htask : p.tasks i = .ret a) (hholder : p.shared.holder ≠ some i)
      (hmem : (i, a) ∈ order)

structure Inv (E : σ → (op : Op) → Ans op → σ → Prop)
    (p₀ : Pool (World σ ι) ι (LockAns Ans) α) (order : List (ι × α))
    (p : Pool (World σ ι) ι (LockAns Ans) α) (s : σ) : Prop where
  serial : Serial (Does E p₀) p₀.shared.state order s
  nodup : (order.map Prod.fst).Nodup
  free : p.shared.holder = none → p.shared.state = s
  tasks : ∀ i, Status E p₀ p order s i

/-- A step of another task. -/
theorem Status.other (h : Status E p₀ p order s i) (htask : p'.tasks i = p.tasks i)
    (hholder : p'.shared.holder ≠ some i ∨ p'.shared = p.shared)
    (hheld : p.shared.holder = some i → p'.shared = p.shared)
    (hmem : ∀ a, (i, a) ∈ order → (i, a) ∈ order')
    (hnot : i ∉ order.map Prod.fst → i ∉ order'.map Prod.fst) :
    Status E p₀ p' order' s i := by
  have hkept : p.shared.holder ≠ some i → p'.shared.holder ≠ some i := by
    intro hne
    rcases hholder with h | h
    · exact h
    · rwa [h]
  cases h with
  | fresh ht hh hn => exact .fresh (htask.trans ht) (hkept hh) (hnot hn)
  | waiting hinit hk hready ht hh hn =>
    exact .waiting hinit hk hready (htask.trans ht) (hkept hh) (hnot hn)
  | holds ht hh hholding halone hn =>
    have hshared := hheld hh
    exact .holds (htask.trans ht) (hshared ▸ hh) hholding (hshared ▸ halone) (hnot hn)
  | returned ht hh hm => exact .returned (htask.trans ht) (hkept hh) (hmem _ hm)

/-! ## The steps -/

theorem Disciplined.begins {m : Prog (LockAns Ans) α} (h : Disciplined m) :
    ∃ k, m = .perform .begin k ∧ Ready (k ()) := by
  cases h with
  | begin h => exact ⟨_, rfl, h⟩

theorem Status.notMem (h : Status E p₀ p order s i) (hrunning : ∀ a, p.tasks i ≠ .ret a) :
    i ∉ order.map Prod.fst := by
  cases h with
  | fresh _ _ hnot | waiting _ _ _ _ _ hnot | holds _ _ _ _ hnot => exact hnot
  | returned htask => exact absurd htask (hrunning _)

/-- A task that returns is next in the order. -/
theorem Inv.commit [DecidableEq ι] {s' : σ} {a : α} {w : World σ ι} (h : Inv E p₀ order p s)
    (halone : Alone E s (p₀.tasks i) a s') (hrunning : ∀ a, p.tasks i ≠ .ret a)
    (hfree : w.holder = none → w.state = s') (hholder : w.holder ≠ some i)
    (hothers : (w = p.shared ∧ s' = s) ∨ (p.shared.holder = some i ∧ w.holder = none)) :
    Inv E p₀ (order ++ [(i, a)]) ⟨w, Function.update p.tasks i (.ret a)⟩ s' := by
  have hnot := (h.tasks i).notMem hrunning
  refine ⟨h.serial.concat halone, ?_, hfree, fun j => ?_⟩
  · rw [List.map_append, List.map_singleton]
    refine List.nodup_append.mpr ⟨h.nodup, by simp, ?_⟩
    rintro j hj _ hi rfl
    obtain rfl := List.mem_singleton.mp hi
    exact hnot hj
  by_cases hj : j = i
  · subst hj
    exact .returned (Function.update_self ..) hholder (by simp)
  have hnew : j ∉ order.map Prod.fst → j ∉ (order ++ [(i, a)]).map Prod.fst := by
    simp [hj]
  have htask : Function.update p.tasks i (.ret a) j = p.tasks j := Function.update_of_ne hj ..
  rcases hothers with ⟨rfl, rfl⟩ | ⟨hheld, hdropped⟩
  · exact (h.tasks j).other htask (.inr rfl) (fun _ => rfl) (fun _ => List.mem_append_left _) hnew
  · -- only the holder depends on what the lock protects
    have hne : p.shared.holder ≠ some j := by
      rw [hheld]
      exact fun h => hj (Option.some.inj h).symm
    cases h.tasks j with
    | fresh ht _ hn => exact .fresh (htask.trans ht) (by simp [hdropped]) (hnew hn)
    | waiting hinit hk hready ht _ hn =>
      exact .waiting hinit hk hready (htask.trans ht) (by simp [hdropped]) (hnew hn)
    | holds _ hh => exact absurd hh hne
    | returned ht _ hm =>
      exact .returned (htask.trans ht) (by simp [hdropped]) (List.mem_append_left _ hm)

variable [DecidableEq ι]

/-- A step that changes only the task and what it holds. -/
theorem Inv.keep {m : Prog (LockAns Ans) α} {w : World σ ι} (h : Inv E p₀ order p s)
    (hi : Status E p₀ ⟨w, Function.update p.tasks i m⟩ order s i)
    (hfree : w.holder = none → w.state = s)
    (hothers : w = p.shared ∨ (w.holder = some i ∧ ∀ j, j ≠ i → p.shared.holder ≠ some j)) :
    Inv E p₀ order ⟨w, Function.update p.tasks i m⟩ s := by
  refine ⟨h.serial, h.nodup, hfree, fun j => ?_⟩
  by_cases hj : j = i
  · exact hj ▸ hi
  have htask : Function.update p.tasks i m j = p.tasks j := Function.update_of_ne hj ..
  rcases hothers with rfl | ⟨hheld, hnone⟩
  · exact (h.tasks j).other htask (.inr rfl) (fun _ => rfl) (fun _ => id) id
  · refine (h.tasks j).other htask (.inl ?_) (fun hh => absurd hh (hnone j hj)) (fun _ => id) id
    rw [hheld]
    exact fun h => hj (Option.some.inj h).symm

/-- **Step lemma.** A step keeps the order, or adds the task that returns. -/
theorem Inv.step (hdisciplined : ∀ i, Disciplined (p₀.tasks i)) {who : Option ι}
    (h : Inv E p₀ order p s)
    (hstep : Pool.Step (Effect E) (fun _ _ => False) p who p') :
    ∃ more s', Inv E p₀ (order ++ more) p' s' := by
  cases hstep with
  | env h => exact h.elim
  | @task i op k ans w hi hE =>
    have hrunning : ∀ a, p.tasks i ≠ .ret a := by
      rw [hi]
      exact nofun
    have hstatus := h.tasks i
    cases hstatus with
    | returned htask => exact absurd htask (hrunning _)
    | fresh htask hholder hnot =>
      obtain ⟨k₀, hinit, hready⟩ := (hdisciplined i).begins
      rw [hi, hinit] at htask
      cases htask
      cases hE
      generalize hk : k₀ () = m at hready ⊢
      cases hready with
      | ret a =>
        have halone : Alone E s (p₀.tasks i) a s := by
          rw [hinit]
          exact .begin (hk ▸ .ret)
        exact ⟨[(i, a)], s, h.commit halone hrunning h.free hholder (.inl ⟨rfl, rfl⟩)⟩
      | lock hholding =>
        refine ⟨[], s, ?_⟩
        rw [List.append_nil]
        exact h.keep (.waiting hinit hk hholding (Function.update_self ..) hholder hnot) h.free
          (.inl rfl)
    | @waiting k₀ k' hinit hk hholding htask hholder hnot =>
      rw [hi] at htask
      cases htask
      cases hE with
      | lock hnone =>
        refine ⟨[], s, ?_⟩
        rw [List.append_nil]
        refine h.keep ?_ nofun (.inr ⟨rfl, fun j _ hj => ?_⟩)
        · refine .holds (Function.update_self ..) rfl hholding (fun a s' halone => ?_) hnot
          rw [hinit]
          exact .begin (hk ▸ .lock (h.free hnone ▸ halone))
        · rw [hnone] at hj
          cases hj
    | holds htask hholder hholding halone hnot =>
      obtain rfl := hi.symm.trans htask
      cases hholding with
      | access hholding =>
        cases hE with
        | access hE =>
          refine ⟨[], s, ?_⟩
          rw [List.append_nil]
          refine h.keep ?_ (fun hnone => ?_) (.inr ⟨hholder, fun j hj hheld => ?_⟩)
          · exact .holds (Function.update_self ..) hholder (hholding ans)
              (fun a s' hrest => halone a s' (.access hE hrest)) hnot
          · rw [hholder] at hnone
            cases hnone
          · rw [hholder] at hheld
            exact hj (Option.some.inj hheld).symm
      | unlock a hk =>
        cases hE
        have hcommit : Alone E s (p₀.tasks i) a p.shared.state :=
          halone a _ (.unlock (hk ▸ .ret))
        rw [hk]
        exact ⟨[(i, a)], p.shared.state, h.commit hcommit hrunning (fun _ => rfl) nofun
          (.inr ⟨hholder, rfl⟩)⟩

/-! ## The runs -/

theorem Inv.run {tr : List (Option ι)} (hdisciplined : ∀ i, Disciplined (p₀.tasks i))
    (h : Inv E p₀ order p s) (hrun : Pool.Run (Effect E) (fun _ _ => False) p tr p') :
    ∃ more s', Inv E p₀ (order ++ more) p' s' := by
  induction hrun with
  | start => exact ⟨[], s, by simpa using h⟩
  | step _ hstep ih =>
    obtain ⟨more, s', h⟩ := ih
    obtain ⟨more', s'', h⟩ := h.step hdisciplined hstep
    exact ⟨more ++ more', s'', by rwa [← List.append_assoc]⟩

omit [DecidableEq ι] in
theorem Inv.start (hfree : p₀.shared.holder = none) : Inv E p₀ [] p₀ p₀.shared.state :=
  ⟨.nil, List.nodup_nil, fun _ => rfl, fun i => .fresh rfl (by simp [hfree]) List.not_mem_nil⟩

omit [DecidableEq ι] in
theorem Inv.linearizes (hdisciplined : ∀ i, Disciplined (p₀.tasks i)) (h : Inv E p₀ order p s) :
    Linearizes (Does E p₀) p₀.shared.state order p := by
  refine ⟨⟨s, h.serial, h.free⟩, h.nodup, fun i a => ?_⟩
  cases h.tasks i with
  | fresh htask _ hnot =>
    obtain ⟨k, hk, -⟩ := (hdisciplined i).begins
    rw [htask, hk]
    exact iff_of_false nofun fun hmem => hnot (List.mem_map_of_mem hmem)
  | waiting _ _ _ htask _ hnot =>
    rw [htask]
    exact iff_of_false nofun fun hmem => hnot (List.mem_map_of_mem hmem)
  | holds htask _ hholding _ hnot =>
    rw [htask]
    refine iff_of_false ?_ fun hmem => hnot (List.mem_map_of_mem hmem)
    rintro rfl
    cases hholding
  | @returned b htask _ hmem =>
    rw [htask, Prog.ret.injEq]
    constructor
    · rintro rfl
      exact hmem
    · intro hmem'
      exact congrArg Prod.snd (List.inj_on_of_nodup_map h.nodup hmem hmem' rfl)

/-- **Linearization rule.** Every run is that of the returned tasks in some order. -/
theorem Run.linearizes {tr : List (Option ι)} (hdisciplined : ∀ i, Disciplined (p₀.tasks i))
    (hfree : p₀.shared.holder = none)
    (hrun : Pool.Run (Effect E) (fun _ _ => False) p₀ tr p) :
    ∃ order, Linearizes (Does E p₀) p₀.shared.state order p := by
  obtain ⟨order, s, h⟩ := (Inv.start hfree).run hdisciplined hrun
  rw [List.nil_append] at h
  exact ⟨order, h.linearizes hdisciplined⟩

/-! ## One at a time -/

omit [DecidableEq ι] in
/-- What a task does alone, it does while it holds the lock. -/
theorem Holding.exists_steps {m : Prog (LockAns Ans) α} {s' : σ} {a : α} (hm : Holding m)
    (h : Alone E s m a s') : ∃ answers, Prog.Steps m answers (.ret a) ∧
      Prog.Along (Effect E i) ⟨s, some i⟩ answers ⟨s', none⟩ := by
  induction hm generalizing s with
  | access _ ih =>
    obtain ⟨ans, s₁, hE, h⟩ := h.access_inv
    obtain ⟨answers, hsteps, halong⟩ := ih ans h
    exact ⟨_, .cons hsteps, .cons (.access hE) halong⟩
  | unlock b hk =>
    have h := h.unlock_inv
    rw [hk] at h
    obtain ⟨rfl, rfl⟩ := h.ret_inv
    exact ⟨[⟨.unlock, ()⟩], .cons (hk ▸ .nil _), .cons .unlock .nil⟩

omit [DecidableEq ι] in
theorem Disciplined.exists_steps {m : Prog (LockAns Ans) α} {s' : σ} {a : α} (hm : Disciplined m)
    (h : Alone E s m a s') : ∃ answers, Prog.Steps m answers (.ret a) ∧
      Prog.Along (Effect E i) ⟨s, none⟩ answers ⟨s', none⟩ := by
  cases hm with
  | @begin k hready =>
    have h := h.begin_inv
    suffices hrest : ∃ answers, Prog.Steps (k ()) answers (.ret a) ∧
        Prog.Along (Effect E i) ⟨s, none⟩ answers ⟨s', none⟩ by
      obtain ⟨answers, hsteps, halong⟩ := hrest
      exact ⟨⟨.begin, ()⟩ :: answers, .cons hsteps, .cons .begin halong⟩
    generalize k () = m at hready h
    cases hready with
    | ret b =>
      obtain ⟨rfl, rfl⟩ := h.ret_inv
      exact ⟨[], .nil _, .nil⟩
    | lock hholding =>
      obtain ⟨answers, hsteps, halong⟩ := hholding.exists_steps (i := i) h.lock_inv
      exact ⟨⟨.lock, ()⟩ :: answers, .cons hsteps, .cons (.lock rfl) halong⟩

/-- The tasks may go one after the other: every sequence of them is a run. -/
theorem Serial.run (hdisciplined : ∀ i, Disciplined (p₀.tasks i))
    (hfree : p₀.shared.holder = none) (h : Serial (Does E p₀) p₀.shared.state order s)
    (hnodup : (order.map Prod.fst).Nodup) :
    ∃ tr p, Pool.Run (Effect E) (fun _ _ => False) p₀ tr p ∧ p.shared = ⟨s, none⟩ ∧
      (∀ entry ∈ order, p.tasks entry.1 = .ret entry.2) ∧
      ∀ i, i ∉ order.map Prod.fst → p.tasks i = p₀.tasks i := by
  induction h with
  | nil =>
    refine ⟨[], p₀, .start, ?_, by rintro _ ⟨⟩, fun _ _ => rfl⟩
    rw [← hfree]
  | @concat order s s' i a _ hdoes ih =>
    rw [List.map_append, List.map_singleton, ← List.concat_eq_append, List.nodup_concat] at hnodup
    obtain ⟨tr, p, hrun, hshared, hreturned, hothers⟩ := ih hnodup.2
    obtain ⟨answers, hsteps, halong⟩ := (hdisciplined i).exists_steps (i := i) hdoes
    rw [← hothers i hnodup.1] at hsteps
    rw [← hshared] at halong
    obtain ⟨tr', hrun'⟩ := hrun.alone hsteps halong
    refine ⟨tr', _, hrun', rfl, fun entry hentry => ?_, fun j hj => ?_⟩
    · rcases List.mem_append.mp hentry with hold | hnew
      · have hne : entry.1 ≠ i := fun heq => hnodup.1 (List.mem_map.mpr ⟨entry, hold, heq⟩)
        exact (Function.update_of_ne hne _ _).trans (hreturned entry hold)
      · rw [List.mem_singleton.mp hnew]
        exact Function.update_self ..
    · rw [List.map_append, List.mem_append, not_or, List.map_singleton, List.mem_singleton] at hj
      exact (Function.update_of_ne hj.2 _ _).trans (hothers j hj.1)

/-! ## Whole runs -/

/-- The steps of the tasks. -/
abbrev Interleaving (E : σ → (op : Op) → Ans op → σ → Prop)
    (p : Pool (World σ ι) ι (LockAns Ans) α) (i : ι) (p' : Pool (World σ ι) ι (LockAns Ans) α) :
    Prop :=
  Pool.Step (Effect E) (fun _ _ => False) p (some i) p'

/-- The infinite runs of tasks that return an `α`; they may rest. -/
abbrev Runs (ι α : Type) [DecidableEq ι] (E : σ → (op : Op) → Ans op → σ → Prop) : Type :=
  Schedule (Interleaving E : Pool (World σ ι) ι (LockAns Ans) α → _ → _ → Prop)

/-- One order for a whole run: it grows, and what it is by then linearizes every state. A task that
has returned when another one has not is before it. -/
structure LinearizesRun (R : ι → σ → α → σ → Prop) (s₀ : σ)
    (run : Runs ι α E) (order : Nat → List (ι × α)) : Prop where
  grows : ∀ n m, n ≤ m → order n <+: order m
  linearizes : ∀ n, Linearizes R s₀ (order n) (run.state n)
  realTime : ∀ n i j a, (run.state n).tasks i = .ret a → (∀ b, (run.state n).tasks j ≠ .ret b) →
    ∀ m, j ∈ (order m).map Prod.fst → List.Sublist [i, j] ((order m).map Prod.fst)

omit [DecidableEq ι] in
theorem Linearizes.mem_iff {R : ι → σ → α → σ → Prop} {s₀ : σ} (h : Linearizes R s₀ order p) :
    i ∈ order.map Prod.fst ↔ ∃ a, p.tasks i = .ret a := by
  constructor
  · intro hmem
    obtain ⟨⟨i, a⟩, hentry, rfl⟩ := List.mem_map.mp hmem
    exact ⟨a, (h.returned i a).mpr hentry⟩
  · rintro ⟨a, hi⟩
    exact List.mem_map_of_mem ((h.returned i a).mp hi)

omit [DecidableEq ι] in
/-- What has returned comes before what returns later. -/
theorem Linearizes.sublist {R : ι → σ → α → σ → Prop} {s₀ : σ} {j : ι} {a : α}
    (h : Linearizes R s₀ order p) (hi : p.tasks i = .ret a) (hj : ∀ b, p.tasks j ≠ .ret b)
    (hle : order <+: order') (hmem : j ∈ order'.map Prod.fst) :
    List.Sublist [i, j] (order'.map Prod.fst) := by
  obtain ⟨rest, rfl⟩ := hle
  have hfirst : i ∈ order.map Prod.fst := h.mem_iff.mpr ⟨a, hi⟩
  have hlater : j ∈ rest.map Prod.fst := by
    rw [List.map_append, List.mem_append] at hmem
    refine hmem.resolve_left fun hmem => ?_
    obtain ⟨b, hb⟩ := h.mem_iff.mp hmem
    exact hj b hb
  rw [List.map_append]
  exact (List.singleton_sublist.mpr hfirst).append (List.singleton_sublist.mpr hlater)

variable {run : Runs ι α E}

theorem LinearizesRun.mono {R R' : ι → σ → α → σ → Prop} {s₀ : σ} {order : Nat → List (ι × α)}
    (hR : ∀ i s a s', R i s a s' → R' i s a s') (h : LinearizesRun R s₀ run order) :
    LinearizesRun R' s₀ run order :=
  ⟨h.grows, fun n => (h.linearizes n).mono hR, h.realTime⟩

/-! ## Progress -/

/-- Whoever uses the state gets an answer. -/
def Answered (E : σ → (op : Op) → Ans op → σ → Prop) (p : Pool (World σ ι) ι (LockAns Ans) α) :
    Prop :=
  ∀ i op k, p.tasks i = .perform (.access op) k → ∃ ans s, E p.shared.state op ans s

/-- A task that has not returned can move, or waits for one that holds the lock and can move. -/
theorem Inv.unblocked (hdisciplined : ∀ i, Disciplined (p₀.tasks i)) (h : Inv E p₀ order p s)
    (hi : ∀ a, p.tasks i ≠ .ret a) : ∃ j, (j = i ∨ p.shared.holder = some j) ∧
      (Answered E p → ∃ p', Interleaving E p j p') := by
  cases hholder : p.shared.holder with
  | some j =>
    refine ⟨j, .inr rfl, fun hanswered => ?_⟩
    cases h.tasks j with
    | fresh _ hnot | waiting _ _ _ _ hnot | returned _ hnot => exact absurd hholder hnot
    | holds htask _ hholding =>
      cases hholding with
      | access =>
        obtain ⟨ans, s', hE⟩ := hanswered j _ _ htask
        exact ⟨_, .task htask (.access hE)⟩
      | unlock => exact ⟨_, .task htask .unlock⟩
  | none =>
    refine ⟨i, .inl rfl, fun _ => ?_⟩
    cases h.tasks i with
    | fresh htask =>
      obtain ⟨k, hk, -⟩ := (hdisciplined i).begins
      exact ⟨_, .task (htask.trans hk) .begin⟩
    | waiting _ _ _ htask => exact ⟨_, .task htask (.lock hholder)⟩
    | holds _ hheld =>
      rw [hholder] at hheld
      cases hheld
    | returned htask => exact absurd htask (hi _)

theorem trace_run (n : Nat) :
    Pool.Run (Effect E) (fun _ _ => False) (run.state 0) ((run.trace n).map some) (run.state n) := by
  induction n with
  | zero => exact .start
  | succ n ih =>
    rw [Schedule.trace]
    cases hlabel : run.label n with
    | none => rwa [run.state_of_idle hlabel]
    | some i => exact ih.step (run.step_of_label hlabel)

/-- **No deadlock.** A task that has not returned can move, or the one that it waits for can. -/
theorem unblocked (hdisciplined : ∀ i, Disciplined ((run.state 0).tasks i))
    (hfree : (run.state 0).shared.holder = none) (n : Nat)
    (hi : ∀ a, (run.state n).tasks i ≠ .ret a) :
    ∃ j, (j = i ∨ (run.state n).shared.holder = some j) ∧
      (Answered E (run.state n) → ∃ p', Interleaving E (run.state n) j p') := by
  obtain ⟨order, s, h⟩ := (Inv.start hfree).run hdisciplined (trace_run n)
  exact h.unblocked hdisciplined hi

theorem count_trace_le {bound : Nat} (hbound : ∀ i, ((run.state 0).tasks i).Within bound) (i : ι)
    (n : Nat) : (run.trace n).count i ≤ bound := by
  have hrun : Pool.Run (Effect E) (fun _ _ => False) (run.state 0) ((run.trace n).map some)
      (run.state n) := trace_run n
  have hcount := hrun.count_le (hbound i)
  rwa [List.count_map_of_injective _ _ (Option.some_injective ι)] at hcount

/-- Finitely many tasks that are scheduled fairly all return. -/
theorem returns [Finite ι] {bound : Nat} (hdisciplined : ∀ i, Disciplined ((run.state 0).tasks i))
    (hfree : (run.state 0).shared.holder = none)
    (hbound : ∀ i, ((run.state 0).tasks i).Within bound) (hfair : ∀ i, run.Fair some i)
    (hanswered : ∀ n, Answered E (run.state n)) :
    ∃ n, ∀ i, ∃ a, (run.state n).tasks i = .ret a := by
  obtain ⟨n, hstuck⟩ := run.exists_stuck (count_trace_le hbound) hfair
  refine ⟨n, fun i => ?_⟩
  by_contra hnever
  push Not at hnever
  obtain ⟨j, -, hmoves⟩ := unblocked hdisciplined hfree n hnever
  obtain ⟨p', hstep⟩ := hmoves (hanswered n)
  exact hstuck j p' hstep

end Rsc.Library.Atomic

import Mathlib.Logic.Function.Basic

/-!
Programs that await effects. An `async fn` is a tree: it has finished with a
result, or it awaits the answer to one effect and goes on with it.

* `Prog.Exec` runs a program alone, against a relation that says which answers
  an effect may get; `Prog.eval` runs it alone against a function.
* `Prog.Follows` checks a program against a protocol: a machine whose states say
  which effects the program may still ask for. It is what the interleavings of
  `Pool` are reasoned about with.
-/

namespace Rsc.Library

/-- A program over the effects `Op`, where `Ans op` is the type of the answers to `op`. -/
inductive Prog {Op : Type} (Ans : Op → Type) (α : Type) : Type
  | ret (a : α) : Prog Ans α
  | perform (op : Op) (k : Ans op → Prog Ans α) : Prog Ans α

namespace Prog

variable {Op : Type} {Ans : Op → Type} {α β P S : Type}

def bind : Prog Ans α → (α → Prog Ans β) → Prog Ans β
  | ret a, f => f a
  | perform op k, f => perform op fun ans => (k ans).bind f

/-- Await one effect and return its answer. -/
def call (op : Op) : Prog Ans (Ans op) := perform op ret

instance : Monad (Prog Ans) where
  pure := ret
  bind := bind

@[simp] theorem ret_bind (a : α) (f : α → Prog Ans β) : (ret a).bind f = f a := rfl

/-! ## Running alone -/

/-- `Exec ok m tr a`: run alone, `m` gets the answers listed in `tr`, each allowed
by `ok`, and returns `a`. -/
inductive Exec (ok : (op : Op) → Ans op → Prop) :
    Prog Ans α → List (Sigma Ans) → α → Prop
  | ret (a : α) : Exec ok (.ret a) [] a
  | perform {op : Op} {k : Ans op → Prog Ans α} {ans : Ans op} {tr : List (Sigma Ans)} {a : α} :
      ok op ans → Exec ok (k ans) tr a → Exec ok (.perform op k) (⟨op, ans⟩ :: tr) a

/-- Run alone against a handler that computes every answer from a state. -/
def eval (handle : (op : Op) → S → Ans op × S) : Prog Ans α → S → α × S
  | ret a, s => (a, s)
  | perform op k, s => (k (handle op s).1).eval handle (handle op s).2

theorem eval_bind (handle : (op : Op) → S → Ans op × S) (m : Prog Ans α)
    (f : α → Prog Ans β) (s : S) :
    (m.bind f).eval handle s = (f (m.eval handle s).1).eval handle (m.eval handle s).2 := by
  induction m generalizing s with
  | ret a => rfl
  | perform op k ih => exact ih _ _

theorem Exec.allowed {ok : (op : Op) → Ans op → Prop} {m : Prog Ans α} {tr : List (Sigma Ans)}
    {a : α} (h : Exec ok m tr a) : ∀ entry ∈ tr, ok entry.1 entry.2 := by
  induction h with
  | ret a => exact nofun
  | perform hok _ ih =>
    intro entry hentry
    rcases List.mem_cons.mp hentry with rfl | hentry
    · exact hok
    · exact ih entry hentry

theorem Exec.ret_inv {ok : (op : Op) → Ans op → Prop} {tr : List (Sigma Ans)} {a b : α}
    (h : Exec ok (.ret b) tr a) : tr = [] ∧ a = b := by
  cases h
  exact ⟨rfl, rfl⟩

theorem Exec.perform_inv {ok : (op : Op) → Ans op → Prop} {op : Op} {k : Ans op → Prog Ans α}
    {tr : List (Sigma Ans)} {a : α} (h : Exec ok (.perform op k) tr a) :
    ∃ ans tr', tr = ⟨op, ans⟩ :: tr' ∧ Exec ok (k ans) tr' a := by
  cases h with
  | perform _ h => exact ⟨_, _, rfl, h⟩

/-- A run of two programs in turn is a run of the first and then one of the second. -/
theorem Exec.bind_inv {ok : (op : Op) → Ans op → Prop} {m : Prog Ans α} {f : α → Prog Ans β}
    {tr : List (Sigma Ans)} {b : β} (h : Exec ok (m.bind f) tr b) :
    ∃ tr₁ a tr₂, tr = tr₁ ++ tr₂ ∧ Exec ok m tr₁ a ∧ Exec ok (f a) tr₂ b := by
  induction m generalizing tr with
  | ret a => exact ⟨[], a, tr, rfl, .ret a, h⟩
  | perform op k ih =>
    cases h with
    | perform hok h =>
      obtain ⟨tr₁, a, tr₂, rfl, hm, hf⟩ := ih _ h
      exact ⟨_, a, tr₂, rfl, .perform hok hm, hf⟩

/-- The program has got the answers listed in the trace, and the rest of it is left. -/
inductive Steps : Prog Ans α → List (Sigma Ans) → Prog Ans α → Prop
  | nil (m : Prog Ans α) : Steps m [] m
  | cons {op : Op} {k : Ans op → Prog Ans α} {ans : Ans op} {tr : List (Sigma Ans)}
      {m : Prog Ans α} : Steps (k ans) tr m → Steps (.perform op k) (⟨op, ans⟩ :: tr) m

theorem Steps.concat {m : Prog Ans α} {op : Op} {k : Ans op → Prog Ans α} {tr : List (Sigma Ans)}
    (h : Steps m tr (.perform op k)) (ans : Ans op) : Steps m (tr ++ [⟨op, ans⟩]) (k ans) := by
  generalize hrest : Prog.perform op k = rest at h
  induction h with
  | nil m =>
    subst hrest
    exact .cons (.nil _)
  | cons _ ih => exact .cons (ih hrest)

theorem Steps.append {m m' rest : Prog Ans α} {tr tr' : List (Sigma Ans)} (h : Steps m tr m')
    (h' : Steps m' tr' rest) : Steps m (tr ++ tr') rest := by
  induction h with
  | nil m => exact h'
  | cons _ ih => exact .cons (ih h')

theorem Steps.append_inv {m rest : Prog Ans α} {tr tr' : List (Sigma Ans)}
    (h : Steps m (tr ++ tr') rest) : ∃ m', Steps m tr m' ∧ Steps m' tr' rest := by
  induction tr generalizing m with
  | nil => exact ⟨m, .nil m, h⟩
  | cons entry tr ih =>
    cases h with
    | cons h =>
      obtain ⟨m', h₁, h₂⟩ := ih h
      exact ⟨m', .cons h₁, h₂⟩

theorem Steps.bind {m m' : Prog Ans α} {tr : List (Sigma Ans)} (h : Steps m tr m')
    (f : α → Prog Ans β) : Steps (m.bind f) tr (m'.bind f) := by
  induction h with
  | nil m => exact .nil _
  | cons _ ih => exact .cons ih

/-- Any answers are allowed. -/
def anyAnswer (op : Op) (_ : Ans op) : Prop := True

/-- A run that was begun goes on. -/
theorem Steps.exec {m rest : Prog Ans α} {tr tr' : List (Sigma Ans)} {a : α}
    (h : Steps m tr rest) (hrest : Exec anyAnswer rest tr' a) :
    Exec anyAnswer m (tr ++ tr') a := by
  induction h with
  | nil m => exact hrest
  | cons _ ih => exact .perform trivial (ih hrest)

/-- Every program has a run, when every effect has an answer. -/
theorem exists_exec (hans : ∀ op, Nonempty (Ans op)) (m : Prog Ans α) :
    ∃ tr a, Exec anyAnswer m tr a := by
  induction m with
  | ret a => exact ⟨[], a, .ret a⟩
  | perform op k ih =>
    obtain ⟨ans⟩ := hans op
    obtain ⟨tr, a, h⟩ := ih ans
    exact ⟨_, a, .perform trivial h⟩

/-- The program as a part of one with more effects. -/
def embed {Op' : Type} {Ans' : Op' → Type} (inj : Op → Op') :
    Prog (fun op => Ans' (inj op)) α → Prog Ans' α
  | ret a => ret a
  | perform op k => perform (inj op) fun ans => embed inj (k ans)

/-- The trace of a part. -/
def embedTrace {Op' : Type} {Ans' : Op' → Type} (inj : Op → Op')
    (tr : List (Sigma fun op => Ans' (inj op))) : List (Sigma Ans') :=
  tr.map fun entry => ⟨inj entry.1, entry.2⟩

theorem Exec.embed_inv {Op' : Type} {Ans' : Op' → Type} {inj : Op → Op'}
    {m : Prog (fun op => Ans' (inj op)) α} {tr : List (Sigma Ans')} {a : α}
    (h : Exec anyAnswer (embed inj m) tr a) :
    ∃ tr', tr = embedTrace inj tr' ∧ Exec anyAnswer m tr' a := by
  induction m generalizing tr with
  | ret b =>
    obtain ⟨rfl, rfl⟩ := h.ret_inv
    exact ⟨[], rfl, .ret a⟩
  | perform op k ih =>
    obtain ⟨ans, tr', rfl, hk⟩ := h.perform_inv
    obtain ⟨tr'', rfl, hm⟩ := ih ans hk
    exact ⟨⟨op, ans⟩ :: tr'', rfl, .perform trivial hm⟩

/-- What the effects of a run alone do to a state, one after the other. -/
inductive Along (E : S → (op : Op) → Ans op → S → Prop) : S → List (Sigma Ans) → S → Prop
  | nil {s : S} : Along E s [] s
  | cons {s s' s'' : S} {op : Op} {ans : Ans op} {tr : List (Sigma Ans)} :
      E s op ans s' → Along E s' tr s'' → Along E s (⟨op, ans⟩ :: tr) s''

theorem Along.nil_inv {E : S → (op : Op) → Ans op → S → Prop} {s s' : S} (h : Along E s [] s') :
    s' = s := by
  cases h
  rfl

theorem Along.cons_inv {E : S → (op : Op) → Ans op → S → Prop} {s s'' : S} {op : Op} {ans : Ans op}
    {tr : List (Sigma Ans)} (h : Along E s (⟨op, ans⟩ :: tr) s'') :
    ∃ s', E s op ans s' ∧ Along E s' tr s'' := by
  cases h with
  | cons hE h => exact ⟨_, hE, h⟩

theorem Along.append_inv {E : S → (op : Op) → Ans op → S → Prop} {s s'' : S}
    {tr₁ tr₂ : List (Sigma Ans)} (h : Along E s (tr₁ ++ tr₂) s'') :
    ∃ s', Along E s tr₁ s' ∧ Along E s' tr₂ s'' := by
  induction tr₁ generalizing s with
  | nil => exact ⟨s, .nil, h⟩
  | cons entry tr₁ ih =>
    cases h with
    | cons hE h =>
      obtain ⟨s', h₁, h₂⟩ := ih h
      exact ⟨s', .cons hE h₁, h₂⟩

/-- A handler that only gives allowed answers runs the program alone. -/
theorem Exec.of_eval (ok : (op : Op) → Ans op → Prop) (handle : (op : Op) → S → Ans op × S)
    (h : ∀ op s, ok op (handle op s).1) (m : Prog Ans α) (s : S) :
    ∃ tr, Exec ok m tr (m.eval handle s).1 := by
  induction m generalizing s with
  | ret a => exact ⟨[], .ret a⟩
  | perform op k ih =>
    obtain ⟨tr, htr⟩ := ih (handle op s).1 (handle op s).2
    exact ⟨_, .perform (h op s) htr⟩

/-- Every program has a run, when every effect has an allowed answer. -/
theorem Exec.exists_of_total {ok : (op : Op) → Ans op → Prop} (hans : ∀ op, ∃ ans, ok op ans)
    (m : Prog Ans α) : ∃ tr a, Exec ok m tr a := by
  induction m with
  | ret a => exact ⟨[], a, .ret a⟩
  | perform op k ih =>
    obtain ⟨ans, hok⟩ := hans op
    obtain ⟨tr, a, h⟩ := ih ans
    exact ⟨_, a, .perform hok h⟩

/-- The program has returned after at most `n` effects, whatever their answers. -/
def Within : Prog Ans α → Nat → Prop
  | ret _, _ => True
  | perform _ _, 0 => False
  | perform _ k, n + 1 => ∀ ans, (k ans).Within n

theorem Within.mono {m : Prog Ans α} {n n' : Nat} (h : m.Within n) (hn : n ≤ n') :
    m.Within n' := by
  induction m generalizing n n' with
  | ret a => trivial
  | perform op k ih =>
    cases n with
    | zero => exact h.elim
    | succ n =>
      cases n' with
      | zero => omega
      | succ n' => exact fun ans => ih ans (h ans) (by omega)

theorem Within.bind {m : Prog Ans α} {f : α → Prog Ans β} {n n' : Nat} (hm : m.Within n)
    (hf : ∀ a, (f a).Within n') : (m.bind f).Within (n + n') := by
  induction m generalizing n with
  | ret a => exact (hf a).mono (Nat.le_add_left n' n)
  | perform op k ih =>
    cases n with
    | zero => exact hm.elim
    | succ n =>
      rw [Nat.add_right_comm]
      exact fun ans => ih ans (hm ans)

theorem Within.embed {Op' : Type} {Ans' : Op' → Type} (inj : Op → Op')
    {m : Prog (fun op => Ans' (inj op)) α} {n : Nat} (hm : m.Within n) :
    (Prog.embed inj m).Within n := by
  induction m generalizing n with
  | ret a => trivial
  | perform op k ih =>
    cases n with
    | zero => exact hm.elim
    | succ n => exact fun ans => ih ans (hm ans)

/-- Everything the program may ask for, whatever the answers, is allowed. -/
def Asks (P : Op → Prop) : Prog Ans α → Prop
  | ret _ => True
  | perform op k => P op ∧ ∀ ans, Asks P (k ans)

theorem Asks.bind {P : Op → Prop} {m : Prog Ans α} {f : α → Prog Ans β} (hm : Asks P m)
    (hf : ∀ a, Asks P (f a)) : Asks P (m.bind f) := by
  induction m with
  | ret a => exact hf a
  | perform op k ih => exact ⟨hm.1, fun ans => ih ans (hm.2 ans)⟩

theorem Asks.mono {P P' : Op → Prop} {m : Prog Ans α} (hm : Asks P m) (h : ∀ op, P op → P' op) :
    Asks P' m := by
  induction m with
  | ret a => trivial
  | perform op k ih => exact ⟨h op hm.1, fun ans => ih ans (hm.2 ans)⟩

theorem Asks.exec {P : Op → Prop} {ok : (op : Op) → Ans op → Prop} {m : Prog Ans α}
    {tr : List (Sigma Ans)} {a : α} (hm : Asks P m) (h : Exec ok m tr a) :
    ∀ entry ∈ tr, P entry.1 := by
  induction h with
  | ret a =>
    intro entry hentry
    cases hentry
  | perform _ _ ih =>
    intro entry hentry
    rcases List.mem_cons.mp hentry with rfl | hentry
    · exact hm.1
    · exact ih (hm.2 _) entry hentry

/-! ## Results -/

/-- Whatever allowed answers it gets, the program returns `a`. -/
def Yields (ok : (op : Op) → Ans op → Prop) (m : Prog Ans α) (a : α) : Prop :=
  ∀ tr b, Exec ok m tr b → b = a

theorem Yields.ret {ok : (op : Op) → Ans op → Prop} (a : α) : Yields ok (.ret a) a :=
  fun _ _ h => h.ret_inv.2

theorem Yields.perform {ok : (op : Op) → Ans op → Prop} {op : Op} {k : Ans op → Prog Ans α} {a : α}
    (h : ∀ ans, ok op ans → Yields ok (k ans) a) : Yields ok (.perform op k) a := by
  intro tr b hexec
  cases hexec with
  | perform hok hexec => exact h _ hok _ _ hexec

theorem Yields.bind {ok : (op : Op) → Ans op → Prop} {m : Prog Ans α} {f : α → Prog Ans β} {a : α}
    {b : β} (hm : Yields ok m a) (hf : Yields ok (f a) b) : Yields ok (m.bind f) b := by
  intro tr c hexec
  obtain ⟨tr₁, a', tr₂, -, h₁, h₂⟩ := hexec.bind_inv
  rw [hm tr₁ a' h₁] at h₂
  exact hf tr₂ c h₂

/-- The program returns, and always returns `a`. -/
def Returns (ok : (op : Op) → Ans op → Prop) (m : Prog Ans α) (a : α) : Prop :=
  (∃ tr, Exec ok m tr a) ∧ Yields ok m a

theorem Yields.returns {ok : (op : Op) → Ans op → Prop} (hans : ∀ op, ∃ ans, ok op ans)
    {m : Prog Ans α} {a : α} (h : Yields ok m a) : Returns ok m a := by
  have hexec : ∃ tr b, Exec ok m tr b := by
    clear h
    induction m with
    | ret a => exact ⟨[], a, .ret a⟩
    | perform op k ih =>
      obtain ⟨ans, hok⟩ := hans op
      obtain ⟨tr, b, hexec⟩ := ih ans
      exact ⟨_, b, .perform hok hexec⟩
  obtain ⟨tr, b, hexec⟩ := hexec
  exact ⟨⟨tr, h tr b hexec ▸ hexec⟩, h⟩

/-! ## Protocols -/

/-- A protocol: what a task in a given local state may ask for, and the local state
an answer takes it to. -/
abbrev Protocol (Ans : Op → Type) (P : Type) : Type :=
  P → (op : Op) → Ans op → P → Prop

/-- From local state `p` the program only asks for what the protocol allows, whatever the
answers, and returns only what `Q` allows in the local state it ends in. -/
def Follows (move : Protocol Ans P) (Q : P → α → Prop) : P → Prog Ans α → Prop
  | p, ret a => Q p a
  | p, perform op k => ∀ ans, ∃ p', move p op ans p' ∧ Follows move Q p' (k ans)

theorem Follows.bind {move : Protocol Ans P} {Q : P → α → Prop} {R : P → β → Prop}
    {m : Prog Ans α} {f : α → Prog Ans β} {p : P} (hm : Follows move Q p m)
    (hf : ∀ p a, Q p a → Follows move R p (f a)) : Follows move R p (m.bind f) := by
  induction m generalizing p with
  | ret a => exact hf p a hm
  | perform op k ih =>
    intro ans
    obtain ⟨p', hmove, hk⟩ := hm ans
    exact ⟨p', hmove, ih ans hk⟩

/-- A protocol that is coarser is followed too. -/
theorem Follows.map {P' : Type} {move : Protocol Ans P} {move' : Protocol Ans P'}
    {Q : P → α → Prop} {Q' : P' → α → Prop} {m : Prog Ans α} {p : P} (h : Follows move Q p m)
    (f : P → P') (hmove : ∀ {p op ans p'}, move p op ans p' → move' (f p) op ans (f p'))
    (hQ : ∀ {p a}, Q p a → Q' (f p) a) : Follows move' Q' (f p) m := by
  induction m generalizing p with
  | ret a => exact hQ h
  | perform op k ih =>
    intro ans
    obtain ⟨p', hp', hk⟩ := h ans
    exact ⟨f p', hmove hp', ih ans hk⟩

/-- A part follows a protocol of the whole. -/
theorem Follows.embed {Op' : Type} {Ans' : Op' → Type} {P' : Type} (inj : Op → Op')
    {move : Protocol (fun op => Ans' (inj op)) P} {move' : Protocol Ans' P'} {Q : P → α → Prop}
    {Q' : P' → α → Prop} {m : Prog (fun op => Ans' (inj op)) α} {p : P} (h : Follows move Q p m)
    (f : P → P') (hmove : ∀ {p op ans p'}, move p op ans p' → move' (f p) (inj op) ans (f p'))
    (hQ : ∀ {p a}, Q p a → Q' (f p) a) : Follows move' Q' (f p) (Prog.embed inj m) := by
  induction m generalizing p with
  | ret a => exact hQ h
  | perform op k ih =>
    intro ans
    obtain ⟨p', hp', hk⟩ := h ans
    exact ⟨f p', hmove hp', ih ans hk⟩

/-- The answers of a run take the protocol from one state to another. -/
inductive Path (move : Protocol Ans P) : P → List (Sigma Ans) → P → Prop
  | nil {p : P} : Path move p [] p
  | cons {p p' p'' : P} {op : Op} {ans : Ans op} {tr : List (Sigma Ans)} :
      move p op ans p' → Path move p' tr p'' → Path move p (⟨op, ans⟩ :: tr) p''

theorem Path.append {move : Protocol Ans P} {p p' p'' : P} {tr tr' : List (Sigma Ans)}
    (h : Path move p tr p') (h' : Path move p' tr' p'') : Path move p (tr ++ tr') p'' := by
  induction h with
  | nil => exact h'
  | cons hmove _ ih => exact .cons hmove (ih h')

theorem Follows.exec {move : Protocol Ans P} {Q : P → α → Prop} {ok : (op : Op) → Ans op → Prop}
    {m : Prog Ans α} {p : P} {tr : List (Sigma Ans)} {a : α} (hm : Follows move Q p m)
    (hexec : Exec ok m tr a) : ∃ p', Path move p tr p' ∧ Q p' a := by
  induction hexec generalizing p with
  | ret a => exact ⟨p, .nil, hm⟩
  | perform _ _ ih =>
    obtain ⟨p', hmove, hk⟩ := hm _
    obtain ⟨p'', hpath, hQ⟩ := ih hk
    exact ⟨p'', .cons hmove hpath, hQ⟩

end Prog

end Rsc.Library

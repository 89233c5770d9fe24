import Mathlib.Data.List.Basic

/-!
Sequences of checks, as `Except` computations: a sequence succeeds exactly when every
check of it does.
-/

namespace Rsc.Library

variable {ε α β : Type}

theorem Except.bind_eq_ok {x : Except ε α} {f : α → Except ε β} {b : β} :
    (x >>= f) = .ok b ↔ ∃ a, x = .ok a ∧ f a = .ok b := by
  cases x with
  | error e => exact iff_of_false nofun fun ⟨_, h, _⟩ => nomatch h
  | ok a =>
    constructor
    · intro h
      exact ⟨a, rfl, h⟩
    · rintro ⟨_, ha, h⟩
      cases ha
      exact h

theorem Except.bind_eq_error {x : Except ε α} {f : α → Except ε β} {e : ε} :
    (x >>= f) = .error e ↔ x = .error e ∨ ∃ a, x = .ok a ∧ f a = .error e := by
  cases x with
  | error e' =>
    constructor
    · intro h
      cases h
      exact .inl rfl
    · rintro (h | ⟨_, h, _⟩)
      · cases h
        rfl
      · cases h
  | ok a =>
    constructor
    · intro h
      exact .inr ⟨a, rfl, h⟩
    · rintro (h | ⟨_, ha, h⟩)
      · cases h
      · cases ha
        exact h

/-- A check and what comes after it. -/
theorem Except.check_eq_ok {x : Except ε Unit} {y : Except ε α} {a : α} :
    (x >>= fun _ => y) = .ok a ↔ x = .ok () ∧ y = .ok a := by
  rw [Except.bind_eq_ok]
  constructor
  · rintro ⟨⟨⟩, hx, hy⟩
    exact ⟨hx, hy⟩
  · rintro ⟨hx, hy⟩
    exact ⟨(), hx, hy⟩

/-- A condition that is refused, and what comes after it. -/
theorem Except.unless_eq_ok {p : Prop} [Decidable p] {e : ε} {y : Except ε α} {a : α} :
    (if p then throw e else y) = .ok a ↔ ¬ p ∧ y = .ok a := by
  by_cases h : p
  · rw [if_pos h]
    exact iff_of_false nofun fun hnot => hnot.1 h
  · rw [if_neg h]
    exact (and_iff_right h).symm

theorem Except.refuse_eq_ok {p : Prop} [Decidable p] {e : ε} :
    (if p then throw e else pure ()) = (.ok () : Except ε Unit) ↔ ¬ p := by
  rw [Except.unless_eq_ok]
  exact and_iff_left rfl

theorem Except.forM_eq_ok {check : α → Except ε Unit} {l : List α} :
    forM l check = .ok () ↔ ∀ a ∈ l, check a = .ok () := by
  induction l with
  | nil => exact iff_of_true rfl nofun
  | cons a l ih => rw [List.forM_cons, Except.check_eq_ok, ih, List.forall_mem_cons]

/-- When every check that fails gives the same error, the sequence gives it. -/
theorem Except.forM_ok_or {check : α → Except ε Unit} {l : List α} {e : ε}
    (h : ∀ a ∈ l, check a = .ok () ∨ check a = .error e) :
    forM l check = .ok () ∨ forM l check = .error e := by
  induction l with
  | nil => exact .inl rfl
  | cons a l ih =>
    rw [List.forall_mem_cons] at h
    rw [List.forM_cons]
    rcases h.1 with ha | ha
    · rw [ha]
      exact ih h.2
    · rw [ha]
      exact .inr rfl

theorem Except.mapError_eq_ok {ε' : Type} {x : Except ε α} {f : ε → ε'} {a : α} :
    x.mapError f = .ok a ↔ x = .ok a := by
  cases x with
  | error e => exact iff_of_false nofun nofun
  | ok b => exact ⟨fun h => by cases h; rfl, fun h => by cases h; rfl⟩

/-- `Option::ok_or`. -/
def okOr (x : Option α) (e : ε) : Except ε α :=
  match x with
  | some a => .ok a
  | none => .error e

theorem okOr_eq_ok {x : Option α} {e : ε} {a : α} : okOr x e = .ok a ↔ x = some a := by
  cases x with
  | none => exact iff_of_false nofun nofun
  | some b => exact ⟨fun h => by cases h; rfl, fun h => by cases h; rfl⟩

end Rsc.Library

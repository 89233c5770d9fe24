import Mathlib.Order.Basic
import Mathlib.Tactic.Linarith

/-!
Spans of time with a largest value, as in Rust's `std::time::Duration`: a number of
seconds that fits 64 bits and a number of nanoseconds below a second, kept here as
one number of nanoseconds.
-/

namespace Rsc.Library

/-- The number of nanoseconds of the longest duration. -/
def Duration.maxNanos : Nat := 2 ^ 64 * 1000000000 - 1

/-- A duration carries the proof that it is representable. -/
@[ext]
structure Duration where
  nanos : Nat
  le_max : nanos ≤ Duration.maxNanos
  deriving DecidableEq

namespace Duration

instance : LE Duration := ⟨fun a b => a.nanos ≤ b.nanos⟩
instance : LT Duration := ⟨fun a b => a.nanos < b.nanos⟩
instance (a b : Duration) : Decidable (a ≤ b) := inferInstanceAs (Decidable (a.nanos ≤ b.nanos))
instance (a b : Duration) : Decidable (a < b) := inferInstanceAs (Decidable (a.nanos < b.nanos))

theorem le_def {a b : Duration} : a ≤ b ↔ a.nanos ≤ b.nanos := Iff.rfl
theorem lt_def {a b : Duration} : a < b ↔ a.nanos < b.nanos := Iff.rfl

/-- `Duration::ZERO`. -/
def zero : Duration := ⟨0, Nat.zero_le _⟩

/-- `Duration::from_secs`. -/
def fromSecs (secs : UInt64) : Duration :=
  ⟨secs.toNat * 1000000000, by have := secs.toNat_lt; unfold maxNanos; omega⟩

/-- `Duration::saturating_add`: the longest duration stands for every larger sum. -/
def saturatingAdd (a b : Duration) : Duration :=
  ⟨min (a.nanos + b.nanos) maxNanos, Nat.min_le_right _ _⟩

/-- `Duration::checked_sub`: `none` below zero. -/
def checkedSub (a b : Duration) : Option Duration :=
  if b.nanos ≤ a.nanos then
    some ⟨a.nanos - b.nanos, (Nat.sub_le _ _).trans a.le_max⟩
  else none

/-- `Duration::is_zero`. -/
def isZero (a : Duration) : Bool := a.nanos == 0

/-- `Duration::subsec_nanos`. -/
def subsecNanos (a : Duration) : Nat := a.nanos % 1000000000

/-- `Duration::as_secs`. -/
def asSecs (a : Duration) : UInt64 := .ofNat (a.nanos / 1000000000)

theorem fromSecs_asSecs {a : Duration} (h : a.subsecNanos = 0) : fromSecs a.asSecs = a := by
  have hmax := a.le_max
  simp only [maxNanos, subsecNanos] at hmax h
  have hsecs : a.asSecs.toNat = a.nanos / 1000000000 := by
    rw [asSecs, UInt64.toNat_ofNat_of_lt']
    rw [UInt64.size]
    omega
  ext
  show a.asSecs.toNat * 1000000000 = a.nanos
  rw [hsecs]
  omega

/-- The sum is representable. -/
def Fits (a b : Duration) : Prop := a.nanos + b.nanos ≤ maxNanos

instance (a b : Duration) : Decidable (Fits a b) :=
  inferInstanceAs (Decidable (a.nanos + b.nanos ≤ maxNanos))

@[simp] theorem nanos_saturatingAdd {a b : Duration} (h : Fits a b) :
    (a.saturatingAdd b).nanos = a.nanos + b.nanos := Nat.min_eq_left h

theorem le_saturatingAdd (a b : Duration) : a ≤ a.saturatingAdd b := by
  have := a.le_max
  simp only [le_def, saturatingAdd]
  omega

/-- What is left of `a` after `b`, when something is left. -/
theorem checkedSub_filter_eq_some {a b d : Duration} :
    (a.checkedSub b).filter (fun d => !d.isZero) = some d ↔
      b < a ∧ d.nanos = a.nanos - b.nanos := by
  simp only [Option.filter_eq_some_iff, checkedSub, lt_def, isZero]
  constructor
  · rintro ⟨h, hz⟩
    split at h
    · cases h
      simp at hz
      exact ⟨by omega, rfl⟩
    · cases h
  · rintro ⟨hlt, hd⟩
    rw [if_pos (by omega)]
    exact ⟨congrArg some (Duration.ext hd.symm), by simp; omega⟩

end Duration

end Rsc.Library

import Rsc.Library.Checks
import Rsc.Library.FormUrlEncoded
import Mathlib.Data.List.Perm.Basic

/-!
`rsc-mock/src/form.rs`: the decoded parameters of a query or a form body.
-/

namespace Rsc.Mock

open Rsc.Library

/-- The name/value pairs, in order of appearance. -/
structure Params where
  pairs : List (String × String)

/-- `Repeated`: a parameter was present more than once. -/
inductive Repeated
  | repeated

namespace Params

/-- `Params::parse`. -/
def parse (raw : List UInt8) : Params := ⟨FormUrlEncoded.parse raw⟩

/-- `Params::occurrences`. -/
def occurrences (params : Params) (name : String) : List String :=
  (params.pairs.filter (·.1 == name)).map (·.2)

/-- `Params::contains`. -/
def contains (params : Params) (name : String) : Bool := (params.occurrences name).head?.isSome

/-- `Params::first`: the value of the first occurrence, even when empty. -/
def first (params : Params) (name : String) : Option String := (params.occurrences name).head?

/-- `Params::value`: the value of the first occurrence, unless it is empty. -/
def value (params : Params) (name : String) : Option String :=
  (params.first name).filter fun value => !value.isEmpty

/-- `Params::unique`: like `value`, and a repeated parameter is an error. -/
def unique (params : Params) (name : String) : Except Repeated (Option String) :=
  if 1 < (params.occurrences name).length then .error .repeated else .ok (params.value name)

variable {params : Params} {name : String}

theorem unique_eq_ok {result : Option String} : params.unique name = .ok result ↔
    (params.occurrences name).length ≤ 1 ∧ params.value name = result := by
  unfold unique
  split
  · exact iff_of_false nofun fun h => by omega
  · rename_i h
    rw [Except.ok.injEq, and_iff_right (Nat.le_of_not_lt h)]

theorem value_eq_some {v : String} :
    params.value name = some v ↔ params.first name = some v ∧ v ≠ "" := by
  rw [value, Option.filter_eq_some_iff]
  simp

/-- Exactly once, and not empty. -/
theorem unique_eq_some {v : String} :
    params.unique name = .ok (some v) ↔ params.occurrences name = [v] ∧ v ≠ "" := by
  rw [unique_eq_ok, value_eq_some, first, ← and_assoc]
  apply and_congr_left'
  cases params.occurrences name with
  | nil => simp
  | cons w rest => cases rest <;> simp

theorem value_of_occurrences {v : String} (h : params.occurrences name = [v]) (hv : v ≠ "") :
    params.value name = some v := by
  rw [value_eq_some, first, h]
  exact ⟨rfl, hv⟩

/-! ## Parameters in another order -/

/-- The parameters of the names are the same, in any order. -/
def SameNamed (names : List String) (p q : Params) : Prop :=
  (p.pairs.filter fun pair => names.contains pair.1).Perm
    (q.pairs.filter fun pair => names.contains pair.1)

variable {names : List String} {p q : Params}

theorem occurrences_of_mem (h : name ∈ names) : p.occurrences name =
    (((p.pairs.filter fun pair => names.contains pair.1).filter (·.1 == name)).map (·.2)) := by
  rw [List.filter_filter]
  unfold occurrences
  congr 1
  apply List.filter_congr
  intro pair _
  by_cases hname : pair.1 = name
  · simp [hname, h]
  · simp [hname]

theorem SameNamed.occurrences (h : SameNamed names p q) (hname : name ∈ names) :
    (p.occurrences name).Perm (q.occurrences name) := by
  rw [occurrences_of_mem hname, occurrences_of_mem hname]
  exact (List.Perm.filter _ h).map _

/-- A parameter that is not repeated is found in any order. -/
theorem SameNamed.occurrences_eq (h : SameNamed names p q) (hname : name ∈ names)
    (hone : (p.occurrences name).length ≤ 1) : p.occurrences name = q.occurrences name := by
  have hperm := h.occurrences hname
  cases hp : p.occurrences name with
  | nil =>
    rw [hp] at hperm
    exact (List.nil_perm.mp hperm).symm
  | cons v rest =>
    obtain rfl : rest = [] := by
      rw [hp] at hone
      simpa using hone
    rw [hp] at hperm
    exact List.singleton_perm.mp hperm

end Params

end Rsc.Mock

import Mathlib.Data.List.Basic

/-!
A bounded first-in first-out channel, and lists that differ by disposable elements only.
-/

namespace Rsc.Library

/-! ## Lists without some of their disposable elements -/

variable {α : Type} {disposable : α → Bool} {l l' m m' : List α}

/-- `l'` is `l` without some of its disposable elements. -/
structure Thinned (disposable : α → Bool) (l l' : List α) : Prop where
  sublist : l'.Sublist l
  kept : l'.filter (!disposable ·) = l.filter (!disposable ·)

namespace Thinned

theorem refl (l : List α) : Thinned disposable l l := ⟨.refl l, rfl⟩

theorem dropped {a : α} (h : disposable a = true) : Thinned disposable [a] [] :=
  ⟨List.nil_sublist _, by simp [h]⟩

theorem append (h : Thinned disposable l l') (h' : Thinned disposable m m') :
    Thinned disposable (l ++ m) (l' ++ m') :=
  ⟨h.sublist.append h'.sublist, by rw [List.filter_append, List.filter_append, h.kept, h'.kept]⟩

/-- The two parts of a thinned list come from two parts of the list. -/
theorem split (h : Thinned disposable l (l' ++ m')) :
    ∃ l₁ m₁, l = l₁ ++ m₁ ∧ Thinned disposable l₁ l' ∧ Thinned disposable m₁ m' := by
  obtain ⟨l₁, m₁, rfl, hl, hm⟩ := List.append_sublist_iff.mp h.sublist
  have hkept := h.kept
  rw [List.filter_append, List.filter_append] at hkept
  have hl' := hl.filter (!disposable ·)
  have hm' := hm.filter (!disposable ·)
  -- neither part can have lost more than the whole has
  have hlength := congrArg List.length hkept
  rw [List.length_append, List.length_append] at hlength
  have hle := hl'.length_le
  have hle' := hm'.length_le
  exact ⟨l₁, m₁, rfl, ⟨hl, hl'.eq_of_length (by omega)⟩, ⟨hm, hm'.eq_of_length (by omega)⟩⟩

theorem cons (a : α) (h : Thinned disposable l l') : Thinned disposable (a :: l) (a :: l') :=
  (refl [a]).append h

/-- Nothing is left of a list all of whose elements are disposable. -/
theorem nil_iff : Thinned disposable l [] ↔ ∀ a ∈ l, disposable a = true := by
  constructor
  · intro h a ha
    by_contra hnot
    have hmem : a ∈ l.filter (!disposable ·) := List.mem_filter.mpr ⟨ha, by simpa using hnot⟩
    rw [← h.kept] at hmem
    cases hmem
  · intro h
    exact ⟨List.nil_sublist l, (List.filter_eq_nil_iff.mpr fun a ha => by simp [h a ha]).symm⟩

/-- An element that is left stood between disposable ones. -/
theorem singleton_inv {a : α} (h : Thinned disposable l [a]) : ∃ before after,
    l = before ++ a :: after ∧ Thinned disposable before [] ∧ Thinned disposable after [] := by
  obtain ⟨before, after, rfl⟩ := List.append_of_mem (List.singleton_sublist.mp h.sublist)
  -- as many of the two sides are kept as of the element alone
  have hlength := congrArg List.length h.kept
  rw [List.filter_append, ← List.singleton_append (l := after), List.filter_append,
    List.length_append, List.length_append] at hlength
  have hbefore : before.filter (!disposable ·) = [] := List.eq_nil_of_length_eq_zero (by omega)
  have hafter : after.filter (!disposable ·) = [] := List.eq_nil_of_length_eq_zero (by omega)
  exact ⟨before, after, rfl, ⟨List.nil_sublist _, hbefore.symm⟩, ⟨List.nil_sublist _, hafter.symm⟩⟩

theorem map {β : Type} {f : α → β} {disposable' : β → Bool} (h : Thinned disposable l l')
    (hf : ∀ a, disposable' (f a) = disposable a) :
    Thinned disposable' (l.map f) (l'.map f) := by
  refine ⟨h.sublist.map f, ?_⟩
  simp only [List.filter_map, Function.comp_def, hf, h.kept]

/-- Elements of another list that stand for what is left. -/
theorem lift_nil {β : Type} {f : β → Option α} {g : α → β} (hg : ∀ a, f (g a) = some a)
    (h : Thinned disposable l []) : (l.map g).filterMap f = l ∧
      Thinned (fun b => (f b).any disposable) (l.map g) [] := by
  constructor
  · rw [List.filterMap_map]
    simp [hg]
  · refine nil_iff.mpr fun b hb => ?_
    obtain ⟨a, ha, rfl⟩ := List.mem_map.mp hb
    simpa [hg] using nil_iff.mp h a ha

/-- What was taken out of a list can be put back among the elements of another list that stand
for what is left. -/
theorem lift {β : Type} {f : β → Option α} {g : α → β} (hg : ∀ a, f (g a) = some a) {bs : List β}
    (h : Thinned disposable l (bs.filterMap f)) : ∃ bs', bs'.filterMap f = l ∧
      Thinned (fun b => (f b).any disposable) bs' bs := by
  induction bs generalizing l with
  | nil => exact ⟨l.map g, lift_nil hg h⟩
  | cons b bs ih =>
    cases hb : f b with
    | none =>
      rw [List.filterMap_cons_none hb] at h
      obtain ⟨bs', hbs', hthinned⟩ := ih h
      exact ⟨b :: bs', by rw [List.filterMap_cons_none hb, hbs'], hthinned.cons b⟩
    | some a =>
      rw [List.filterMap_cons_some hb, ← List.singleton_append] at h
      obtain ⟨first, rest, rfl, hfirst, hrest⟩ := h.split
      obtain ⟨before, after, rfl, hbefore, hafter⟩ := hfirst.singleton_inv
      obtain ⟨hbefore_eq, hbefore⟩ := lift_nil hg hbefore
      obtain ⟨hafter_eq, hafter⟩ := lift_nil hg hafter
      obtain ⟨bs', hbs', hthinned⟩ := ih hrest
      refine ⟨before.map g ++ b :: (after.map g ++ bs'), ?_, ?_⟩
      · rw [List.filterMap_append, List.filterMap_cons_some hb, List.filterMap_append, hbefore_eq,
          hafter_eq, hbs']
        simp
      · exact hbefore.append ((hafter.append hthinned).cons b)

end Thinned

/-! ## Channels -/

@[ext]
structure Channel (α : Type) (capacity : ℕ) where
  queue : List α
  bounded : queue.length ≤ capacity

namespace Channel

variable {capacity : ℕ}

def empty : Channel α capacity := ⟨[], Nat.zero_le _⟩

def HasRoom (c : Channel α capacity) : Prop := c.queue.length < capacity

instance (c : Channel α capacity) : Decidable c.HasRoom :=
  inferInstanceAs (Decidable (_ < _))

def send (c : Channel α capacity) (a : α) (h : c.HasRoom) : Channel α capacity :=
  ⟨c.queue ++ [a], by
    rw [List.length_append]
    exact h⟩

/-- Send the value if there is room now, and drop it otherwise. -/
def trySend (c : Channel α capacity) (a : α) : Channel α capacity :=
  if h : c.HasRoom then c.send a h else c

def tail (c : Channel α capacity) : Channel α capacity :=
  ⟨c.queue.tail, by
    rw [List.length_tail]
    exact Nat.le_trans (Nat.sub_le _ 1) c.bounded⟩

variable {c : Channel α capacity} {a : α}

theorem trySend_of_hasRoom (h : c.HasRoom) : (c.trySend a).queue = c.queue ++ [a] := by
  rw [trySend, dif_pos h]
  rfl

theorem trySend_of_full (h : ¬ c.HasRoom) : c.trySend a = c := dif_neg h

/-- A channel that is tried takes the value, or is as it was. -/
theorem queue_trySend : (c.trySend a).queue = c.queue ++ [a] ∨ (c.trySend a).queue = c.queue := by
  by_cases h : c.HasRoom
  · exact .inl (trySend_of_hasRoom h)
  · exact .inr (congrArg queue (trySend_of_full h))

theorem hasRoom_of_nil (hcapacity : 0 < capacity) (h : c.queue = []) : c.HasRoom := by
  rw [HasRoom, h]
  exact hcapacity

theorem hasRoom_tail {queue : List α} (h : c.queue = a :: queue) : c.tail.HasRoom := by
  have hbounded := c.bounded
  rw [h] at hbounded
  change c.queue.tail.length < capacity
  rw [h]
  exact hbounded

end Channel

end Rsc.Library

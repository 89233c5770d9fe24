import Rsc.Library.Json

/-!
JSON values sent one a line: what is written holds no line break, so that whole lines are the values
(`completeLines_flatMap`).
-/

namespace Rsc.Library.Json

/-! ## No line break -/

theorem hexDigit_printable : ∀ n < 16, 32 ≤ (hexDigit n).toNat := by decide

theorem escapeChar_printable (c : Char) : ∀ d ∈ escapeChar c, 32 ≤ d.toNat := by
  intro d hd
  unfold escapeChar at hd
  cases hletter : escapeLetter c with
  | some letter =>
    rw [hletter] at hd
    have hletter' : 32 ≤ letter.toNat := by
      unfold escapeLetter at hletter
      split_ifs at hletter
      all_goals
        cases hletter
        decide
    rcases List.mem_cons.mp hd with rfl | hd
    · decide
    · rwa [List.mem_singleton.mp hd]
  | none =>
    rw [hletter] at hd
    dsimp only at hd
    split at hd
    · next hsmall =>
      simp only [List.mem_cons, List.not_mem_nil, or_false] at hd
      rcases hd with rfl | rfl | rfl | rfl | rfl | rfl
      any_goals decide
      · exact hexDigit_printable _ (by omega)
      · exact hexDigit_printable _ (by omega)
    · rw [List.mem_singleton.mp hd]
      omega

theorem writeString_printable (text : String) : ∀ c ∈ writeString text, 32 ≤ c.toNat := by
  intro c hc
  simp only [writeString, List.cons_append, List.mem_cons, List.mem_append, List.mem_flatMap,
    List.not_mem_nil, or_false] at hc
  rcases hc with rfl | ⟨d, -, hd⟩ | rfl
  · decide
  · exact escapeChar_printable d c hd
  · decide

theorem printable_of_all {text : List Char} (h : text.all (32 ≤ ·.toNat) = true) :
    ∀ c ∈ text, 32 ≤ c.toNat :=
  fun c hc => of_decide_eq_true (List.all_eq_true.mp h c hc)

theorem isNumeric_printable {c : Char} (h : isNumeric c = true) : 32 ≤ c.toNat := by
  rw [isNumeric, Bool.or_eq_true] at h
  rcases h with h | h
  · rw [Char.isDigit, Bool.and_eq_true, decide_eq_true_eq, decide_eq_true_eq] at h
    exact (by decide : 32 ≤ '0'.toNat).trans h.1
  · have hall : ∀ d ∈ "+-.eE".toList, 32 ≤ d.toNat := printable_of_all (by decide)
    exact hall c (List.contains_iff_mem.mp h)

mutual

theorem write_printable : ∀ (v : Value String), v.WellFormed → ∀ c ∈ v.write, 32 ≤ c.toNat
  | .null, _ => printable_of_all (by decide)
  | .bool true, _ => printable_of_all (by decide)
  | .bool false, _ => printable_of_all (by decide)
  | .number _, h => fun c hc => isNumeric_printable (h.2 c hc)
  | .string text, _ => writeString_printable text
  | .array [], _ => printable_of_all (by decide)
  | .array (v :: vs), h => by
    intro c hc
    simp only [Value.write, List.mem_cons, List.mem_append] at hc
    rcases hc with (rfl | hc) | hc
    · decide
    · exact write_printable v h.1 c hc
    · exact writeItems_printable vs h.2 c hc
  | .object [], _ => printable_of_all (by decide)
  | .object ((name, v) :: ms), h => by
    intro c hc
    simp only [Value.write, List.mem_cons, List.mem_append] at hc
    rcases hc with ((rfl | hc) | rfl | hc) | hc
    · decide
    · exact writeString_printable name c hc
    · decide
    · exact write_printable v h.1 c hc
    · exact writeMembers_printable ms h.2 c hc

theorem writeItems_printable : ∀ (vs : List (Value String)), WellFormedItems vs →
    ∀ c ∈ writeItems vs, 32 ≤ c.toNat
  | [], _ => printable_of_all (by decide)
  | v :: vs, h => by
    intro c hc
    simp only [writeItems, List.mem_cons, List.mem_append] at hc
    rcases hc with (rfl | hc) | hc
    · decide
    · exact write_printable v h.1 c hc
    · exact writeItems_printable vs h.2 c hc

theorem writeMembers_printable : ∀ (ms : List (String × Value String)), WellFormedMembers ms →
    ∀ c ∈ writeMembers ms, 32 ≤ c.toNat
  | [], _ => printable_of_all (by decide)
  | (name, v) :: ms, h => by
    intro c hc
    simp only [writeMembers, List.mem_cons, List.mem_append] at hc
    rcases hc with ((rfl | hc) | rfl | hc) | hc
    · decide
    · exact writeString_printable name c hc
    · decide
    · exact write_printable v h.1 c hc
    · exact writeMembers_printable ms h.2 c hc

end

/-- No line break is written. -/
theorem Value.notMem_toVec {v : Value String} (h : v.WellFormed) : 10 ∉ v.toVec := by
  have hchars : '\n' ∉ (String.ofList v.write).toList := by
    rw [String.toList_ofList]
    intro hmem
    exact absurd (write_printable v h _ hmem) (by decide)
  exact Utf8.notMem_encode (by decide) hchars

/-! ## Lines -/

/-- The lines that have ended, where `line` is what was read of the current one. -/
def linesFrom (line : List UInt8) : List UInt8 → List (List UInt8)
  | [] => []
  | b :: bytes => if b = 10 then line :: linesFrom [] bytes else linesFrom (line ++ [b]) bytes

/-- The lines of the bytes, without their ends; a last line that has not ended is none. -/
def completeLines (bytes : List UInt8) : List (List UInt8) := linesFrom [] bytes

theorem linesFrom_append {l : List UInt8} (h : 10 ∉ l) (line bytes : List UInt8) :
    linesFrom line (l ++ bytes) = linesFrom (line ++ l) bytes := by
  induction l generalizing line with
  | nil => rw [List.nil_append, List.append_nil]
  | cons b l ih =>
    rw [List.mem_cons, not_or] at h
    rw [List.cons_append, linesFrom, if_neg (Ne.symm h.1), ih h.2, List.append_assoc,
      List.singleton_append]

/-- Whole lines, and the beginning of another one. -/
theorem completeLines_flatMap {ls : List (List UInt8)} {rest : List UInt8}
    (hls : ∀ l ∈ ls, 10 ∉ l) (hrest : 10 ∉ rest) :
    completeLines (ls.flatMap (· ++ [10]) ++ rest) = ls := by
  induction ls with
  | nil =>
    have h := linesFrom_append hrest [] []
    rw [List.append_nil, List.nil_append] at h
    exact h
  | cons l ls ih =>
    rw [List.forall_mem_cons] at hls
    rw [List.flatMap_cons, List.append_assoc, List.append_assoc, completeLines,
      linesFrom_append hls.1, List.nil_append, List.singleton_append, linesFrom, if_pos rfl]
    exact congrArg (l :: ·) (ih hls.2)

end Rsc.Library.Json

/-!
Tables of code points. A table lists inclusive ranges in ascending order, so the first range that
does not end before a code point decides whether the table holds it.
-/

namespace AxisGraph.Text

def inRanges : List (Nat × Nat) → Nat → Bool
  | [], _ => false
  | (first, last) :: rest, n => if last < n then inRanges rest n else first ≤ n

theorem inRanges_iff {ranges : List (Nat × Nat)} {n : Nat}
    (h : ranges.Pairwise fun r s => r.2 < s.1) :
    inRanges ranges n = true ↔ ∃ r ∈ ranges, r.1 ≤ n ∧ n ≤ r.2 := by
  induction ranges with
  | nil => simp [inRanges]
  | cons range rest ih =>
    obtain ⟨first, last⟩ := range
    rw [List.pairwise_cons] at h
    simp only [inRanges, List.mem_cons, exists_eq_or_imp]
    split
    · rename_i hlast
      rw [ih h.2]
      simp only [Nat.not_le_of_lt hlast, and_false, false_or]
    · rename_i hlast
      rw [decide_eq_true_eq]
      refine ⟨fun hfirst => Or.inl ⟨hfirst, Nat.le_of_not_lt hlast⟩, ?_⟩
      rintro (hhead | ⟨r, hr, hrn, -⟩)
      · exact hhead.1
      · have hlt : last < r.1 := h.1 r hr
        omega

end AxisGraph.Text

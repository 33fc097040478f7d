import ApiPages.Text.Basic

/-!
Classes of characters as ascending lists of code point ranges.
-/
namespace ApiPages.Text

abbrev CodeRange := Nat × Nat

/-- Whether a code point lies in one of the ranges. The ranges are ascending, so the search stops
at the first range that begins above the code point. -/
def inRanges : List CodeRange → Nat → Bool
  | [], _ => false
  | (first, last) :: rest, n => if n < first then false else n ≤ last || inRanges rest n

theorem exists_range_of_inRanges {ranges : List CodeRange} {n : Nat}
    (h : inRanges ranges n = true) : ∃ r ∈ ranges, r.1 ≤ n ∧ n ≤ r.2 := by
  induction ranges with
  | nil => simp [inRanges] at h
  | cons r rest ih =>
    obtain ⟨first, last⟩ := r
    simp only [inRanges] at h
    split at h
    · simp at h
    · rcases Bool.or_eq_true _ _ ▸ h with hl | hr
      · exact ⟨_, List.mem_cons_self, by simpa using ‹¬ n < first›, by simpa using hl⟩
      · obtain ⟨s, hs, hn⟩ := ih hr
        exact ⟨s, List.mem_cons_of_mem _ hs, hn⟩

end ApiPages.Text

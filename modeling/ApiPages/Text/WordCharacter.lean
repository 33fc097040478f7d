import ApiPages.Text.WordTable

/-!
Word characters: what a heading keeps in its anchor, hyphens and spaces apart.
-/
namespace ApiPages.Text

/-- A letter, a digit, another number or the low line. -/
def isWordCharacter (c : CodePoint) : Bool := inRanges wordRanges c.toNat

theorem isWordCharacter_of_isAlphanum {c : CodePoint} (h : c.isAlphanum = true) :
    isWordCharacter c = true := by
  have hn : c.toNat < 123 := by
    simp only [CodePoint.isAlphanum, CodePoint.isDigit, Bool.or_eq_true, Bool.and_eq_true,
      decide_eq_true_eq] at h
    omega
  have table : ∀ n < 123, (CodePoint.ofNat n).isAlphanum = true →
      isWordCharacter (CodePoint.ofNat n) = true := by decide +kernel
  have hc := table c.toNat hn
  rw [CodePoint.ofNat_toNat] at hc
  exact hc h

end ApiPages.Text

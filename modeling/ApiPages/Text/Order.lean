import ApiPages.Text.Basic

/-!
The order of texts: code point by code point, and a text before its continuations.
-/
namespace ApiPages.Text

def atMost : Text → Text → Bool
  | [], _ => true
  | _ :: _, [] => false
  | c :: s, d :: t => c.toNat < d.toNat || (c == d && atMost s t)

theorem atMost_refl (s : Text) : atMost s s = true := by
  induction s with
  | nil => rfl
  | cons c s ih => simp [atMost, ih]

theorem atMost_total (s t : Text) : (atMost s t || atMost t s) = true := by
  induction s generalizing t with
  | nil => simp [atMost]
  | cons c s ih =>
    cases t with
    | nil => simp [atMost]
    | cons d t =>
      by_cases hcd : c = d
      · subst hcd
        simpa [atMost] using ih t
      · have hne : c.toNat ≠ d.toNat := fun h => hcd (CodePoint.toNat_inj.1 h)
        simp only [atMost, Bool.or_eq_true, decide_eq_true_eq]
        omega

theorem atMost_antisymm {s t : Text} (hst : atMost s t = true) (hts : atMost t s = true) :
    s = t := by
  induction s generalizing t with
  | nil => cases t with
    | nil => rfl
    | cons d t => simp [atMost] at hts
  | cons c s ih =>
    cases t with
    | nil => simp [atMost] at hst
    | cons d t =>
      simp only [atMost, Bool.or_eq_true, Bool.and_eq_true, decide_eq_true_eq, beq_iff_eq]
        at hst hts
      rcases hst with hlt | ⟨rfl, hst⟩
      · rcases hts with hgt | ⟨rfl, _⟩ <;> omega
      · rcases hts with hgt | ⟨_, hts⟩
        · omega
        · rw [ih hst hts]

theorem atMost_trans {s t u : Text} (hst : atMost s t = true) (htu : atMost t u = true) :
    atMost s u = true := by
  induction s generalizing t u with
  | nil => simp [atMost]
  | cons c s ih =>
    cases t with
    | nil => simp [atMost] at hst
    | cons d t =>
      cases u with
      | nil => simp [atMost] at htu
      | cons e u =>
        simp only [atMost, Bool.or_eq_true, Bool.and_eq_true, decide_eq_true_eq, beq_iff_eq]
          at hst htu ⊢
        rcases hst with hlt | ⟨rfl, hst⟩
        · rcases htu with hlt' | ⟨rfl, _⟩
          · exact .inl (by omega)
          · exact .inl hlt
        · rcases htu with hlt' | ⟨rfl, htu⟩
          · exact .inl hlt'
          · exact .inr ⟨rfl, ih hst htu⟩

end ApiPages.Text

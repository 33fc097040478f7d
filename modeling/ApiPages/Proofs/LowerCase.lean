import Mathlib.Data.List.Basic
import ApiPages.Text.LowerCase

/-!
Lower case is stable. What a letter is written as in lower case is written as itself, and neither of
the two capitals with a rule of their own is written for any character; so a text in lower case, and
every text of characters taken from one, is its own lower case.
-/
namespace ApiPages.Text

/-- The code point is a capital of the run. -/
structure CaseRun.Holds (run : CaseRun) (n : Nat) : Prop where
  first_le : run.first ≤ n
  le_last : n ≤ run.last
  stride : (n - run.first) % run.stride = 0

def CaseRun.lowered (run : CaseRun) (n : Nat) : Nat := ((n : Int) + run.shift).toNat

theorem lowerCode_cases (runs : List CaseRun) (n : Nat) :
    lowerCode runs n = n ∨ ∃ run ∈ runs, run.Holds n ∧ lowerCode runs n = run.lowered n := by
  induction runs with
  | nil => exact .inl rfl
  | cons run rest ih =>
    rw [lowerCode]
    split
    · exact .inl rfl
    · rename_i hfirst
      split
      · rename_i hlast
        split
        · rename_i hstride
          exact .inr ⟨run, List.mem_cons_self, ⟨Nat.le_of_not_lt hfirst, hlast, hstride⟩, rfl⟩
        · exact .inl rfl
      · rcases ih with h | ⟨other, hother, hholds, h⟩
        · exact .inl h
        · exact .inr ⟨other, List.mem_cons_of_mem run hother, hholds, h⟩

/-- No capital lies from `low` to `high`, or none an even number of places above `low` if only those
are asked for. -/
def missedBy (low high : Nat) (everyOther : Bool) : List CaseRun → Bool
  | [] => true
  | run :: rest =>
    Nat.blt high run.first ||
      (Nat.blt run.last low ||
          everyOther && Nat.beq run.stride 2 && Nat.beq ((low + run.first) % 2) 1) &&
        missedBy low high everyOther rest

theorem lowerCode_of_missedBy {low high n : Nat} {everyOther : Bool} {runs : List CaseRun}
    (h : missedBy low high everyOther runs = true) (hlow : low ≤ n) (hhigh : n ≤ high)
    (hparity : everyOther = true → n % 2 = low % 2) : lowerCode runs n = n := by
  induction runs with
  | nil => rfl
  | cons run rest ih =>
    simp only [missedBy, Bool.or_eq_true, Bool.and_eq_true, Nat.blt_eq, Nat.beq_eq] at h
    rw [lowerCode]
    by_cases hfirst : n < run.first
    · rw [if_pos hfirst]
    · rw [if_neg hfirst]
      obtain hbelow | ⟨hmissed, hrest⟩ := h
      · exact absurd (Nat.lt_of_le_of_lt hhigh hbelow) hfirst
      · by_cases hlast : n ≤ run.last
        · obtain habove | ⟨⟨heven, hstride⟩, hodd⟩ := hmissed
          · omega
          · have hsame := hparity heven
            have hstep : ¬(n - run.first) % run.stride = 0 := by
              rw [hstride]
              omega
            rw [if_pos hlast, if_neg hstep]
        · rw [if_neg hlast]
          exact ih hrest

/-- The lower-case letters of a run stand an even number of places apart. -/
def CaseRun.everyOther (run : CaseRun) : Bool :=
  Nat.beq run.stride 2 || Nat.beq run.first run.last

theorem capitals_missed : ∀ run ∈ capitalRuns,
    missedBy (run.lowered run.first) (run.lowered run.last) run.everyOther capitalRuns = true := by
  decide +kernel

theorem lowered_lt : ∀ run ∈ capitalRuns, 0 ≤ (run.first : Int) + run.shift ∧
    run.lowered run.last < 0x110000 ∧
    (run.lowered run.last < 304 ∨ 304 < run.lowered run.first) := by
  decide +kernel

theorem lowered_capital {run : CaseRun} {n : Nat} (hrun : run ∈ capitalRuns) (h : run.Holds n) :
    run.lowered n < 0x110000 ∧ lowerCode capitalRuns (run.lowered n) = run.lowered n ∧
      run.lowered n ≠ 304 := by
  obtain ⟨hfirst, hlast, hstride⟩ := h
  obtain ⟨hsign, hvalid, hdotted⟩ := lowered_lt run hrun
  have hlow : run.lowered run.first ≤ run.lowered n := by
    unfold CaseRun.lowered
    omega
  have hhigh : run.lowered n ≤ run.lowered run.last := by
    unfold CaseRun.lowered
    omega
  refine ⟨?_, lowerCode_of_missedBy (capitals_missed run hrun) hlow hhigh ?_, ?_⟩
  · omega
  · intro heven
    simp only [CaseRun.everyOther, Bool.or_eq_true, Nat.beq_eq] at heven
    unfold CaseRun.lowered
    rcases heven with htwo | hsingle
    · rw [htwo] at hstride
      omega
    · have hn : n = run.first := by omega
      rw [hn]
  · omega

theorem lowerChar_cases (c : CodePoint) :
    lowerChar c = c ∨ lowerChar (lowerChar c) = lowerChar c ∧ lowerChar c ≠ '\u0130'.code := by
  rcases lowerCode_cases capitalRuns c.toNat with h | ⟨run, hrun, hholds, h⟩
  · left
    rw [lowerChar, h, CodePoint.ofNat_toNat]
  · right
    obtain ⟨hvalid, hstable, hdotted⟩ := lowered_capital hrun hholds
    have hcode : (lowerChar c).toNat = run.lowered c.toNat := by
      rw [lowerChar, h, CodePoint.toNat_ofNat hvalid]
    constructor
    · rw [lowerChar, hcode, hstable, ← hcode, CodePoint.ofNat_toNat]
    · intro hchar
      rw [hchar] at hcode
      exact hdotted hcode.symm

def IsLower (c : CodePoint) : Prop := lowerChar c = c ∧ c ≠ '\u0130'.code

instance (c : CodePoint) : Decidable (IsLower c) :=
  inferInstanceAs (Decidable (_ ∧ _))

theorem IsLower.ne_sigma {c : CodePoint} (h : IsLower c) : c ≠ '\u03a3'.code := by
  have hsigma : lowerChar '\u03a3'.code ≠ '\u03a3'.code := by decide +kernel
  rintro rfl
  exact hsigma h.1

theorem isLower_lowerChar {c : CodePoint} (h : c ≠ '\u0130'.code) : IsLower (lowerChar c) := by
  rcases lowerChar_cases c with hc | hc
  · exact ⟨by rw [hc, hc], hc.symm ▸ h⟩
  · exact hc

theorem lowerAfter_of_isLower {t : Text} (h : ∀ c ∈ t, IsLower c) (cased : Bool) :
    lowerAfter cased t = t := by
  induction t generalizing cased with
  | nil => rfl
  | cons c rest ih =>
    have hc := h c List.mem_cons_self
    rw [lowerAfter, if_neg hc.ne_sigma, if_neg hc.2, hc.1,
      ih fun d hd => h d (List.mem_cons_of_mem c hd)]
    rfl

theorem lower_of_isLower {t : Text} (h : ∀ c ∈ t, IsLower c) : lower t = t :=
  lowerAfter_of_isLower h false

theorem isLower_of_mem_lowerAfter {cased : Bool} {t : Text} {c : CodePoint}
    (h : c ∈ lowerAfter cased t) : IsLower c := by
  have hsigmas : IsLower '\u03c2'.code ∧ IsLower '\u03c3'.code := by decide +kernel
  have hdotted : IsLower 'i'.code ∧ IsLower '\u0307'.code := by decide +kernel
  induction t generalizing cased with
  | nil => simp [lowerAfter] at h
  | cons d rest ih =>
    rw [lowerAfter, List.mem_append] at h
    rcases h with h | h
    · split at h
      · split at h
        · exact List.mem_singleton.mp h ▸ hsigmas.1
        · exact List.mem_singleton.mp h ▸ hsigmas.2
      · split at h
        · rcases List.mem_pair.mp h with rfl | rfl
          · exact hdotted.1
          · exact hdotted.2
        · rename_i hd
          exact List.mem_singleton.mp h ▸ isLower_lowerChar hd
    · exact ih h

theorem isLower_of_mem_lower {t : Text} {c : CodePoint} (h : c ∈ lower t) : IsLower c :=
  isLower_of_mem_lowerAfter h

end ApiPages.Text

import ApiPages.Markdown.Sentence
import ApiPages.Proofs.Blank

/-!
First sentences. A sentence at the front of a text ends with a period that a space or nothing stands
behind, and the first one is the shortest of them. Where a text is cut behind its first sentence,
each period that is left has behind it what it had, or now nothing; so a first sentence is its own
first sentence.
-/
namespace ApiPages

namespace Text

/-- Every blank of the text is one space between two characters that are not blank. -/
def EvenlySpaced (t : Text) : Prop :=
  ∀ before c after, t = before ++ c :: after → isBlank c = true →
    c = ' '.code ∧ (∃ d, before.getLast? = some d ∧ isBlank d = false) ∧
      ∃ d, after.head? = some d ∧ isBlank d = false

theorem evenlySpaced_nil : EvenlySpaced [] := by
  intro before c after ht
  simp at ht

theorem EvenlySpaced.not_isBlank_head {c : CodePoint} {t : Text} (h : EvenlySpaced (c :: t)) :
    isBlank c = false := by
  by_contra hc
  rw [Bool.not_eq_false] at hc
  obtain ⟨-, ⟨d, hd, -⟩, -⟩ := h [] c t rfl hc
  cases hd

theorem EvenlySpaced.not_isBlank_last {c : CodePoint} {t : Text} (h : EvenlySpaced (t ++ [c])) :
    isBlank c = false := by
  by_contra hc
  rw [Bool.not_eq_false] at hc
  obtain ⟨-, -, d, hd, -⟩ := h t c [] rfl hc
  cases hd

theorem EvenlySpaced.of_prefix {s t : Text} (h : EvenlySpaced t) (hs : s <+: t)
    (hlast : s.getLast?.any isBlank = false) : EvenlySpaced s := by
  obtain ⟨rest, rfl⟩ := hs
  intro before c after hsplit hc
  obtain ⟨hspace, hbefore, d, hd, hblank⟩ := h before c (after ++ rest) (by simp [hsplit]) hc
  refine ⟨hspace, hbefore, d, ?_, hblank⟩
  cases after with
  | nil => simp [hsplit, hc] at hlast
  | cons e after => exact hd

theorem EvenlySpaced.cons {c : CodePoint} {t : Text} (hc : isBlank c = false) (h : EvenlySpaced t) :
    EvenlySpaced (c :: t) := by
  intro before d after hsplit hd
  cases before with
  | nil =>
    cases hsplit
    rw [hc] at hd
    cases hd
  | cons e before =>
    obtain ⟨-, rfl⟩ := List.cons.inj hsplit
    obtain ⟨hspace, ⟨f, hf, hblank⟩, hafter⟩ := h before d after rfl hd
    exact ⟨hspace, ⟨f, by simp [List.getLast?_cons, hf], hblank⟩, hafter⟩

theorem EvenlySpaced.cons_space {c : CodePoint} {t : Text} (hc : isBlank c = false)
    (h : EvenlySpaced t) (hne : t ≠ []) : EvenlySpaced (c :: ' '.code :: t) := by
  intro before d after hsplit hd
  cases before with
  | nil =>
    cases hsplit
    rw [hc] at hd
    cases hd
  | cons e before =>
    obtain ⟨rfl, hbehind⟩ := List.cons.inj hsplit
    cases before with
    | nil =>
      obtain ⟨rfl, rfl⟩ := List.cons.inj hbehind
      obtain ⟨first, rest, rfl⟩ := List.exists_cons_of_ne_nil hne
      exact ⟨rfl, ⟨c, rfl, hc⟩, first, rfl, h.not_isBlank_head⟩
    | cons f before =>
      obtain ⟨-, hrest⟩ := List.cons.inj hbehind
      obtain ⟨hspace, ⟨g, hg, hblank⟩, hafter⟩ := h before d after hrest hd
      exact ⟨hspace, ⟨g, by simp [List.getLast?_cons, hg], hblank⟩, hafter⟩

theorem evenlySpaced_collapse (t : Text) : EvenlySpaced (collapse t) := by
  induction t with
  | nil => exact evenlySpaced_nil
  | cons c rest ih =>
    cases hc : isBlank c with
    | true => rwa [collapse_cons_of_isBlank hc]
    | false =>
      rw [collapse_cons hc, collapseBehind]
      split
      · rename_i hleft
        exact ih.cons_space hc hleft.2
      · exact ih.cons hc

theorem EvenlySpaced.singleSpaced_eq {t : Text} (h : EvenlySpaced t) : singleSpaced t = t := by
  have hspaces : ∀ before c after, t = before ++ c :: after → isBlank c = true →
      c = ' '.code ∧ after.head?.any isBlank = false := by
    intro before c after hsplit hc
    obtain ⟨hspace, -, d, hd, hblank⟩ := h before c after hsplit hc
    exact ⟨hspace, by simp [hd, hblank]⟩
  clear h
  induction t with
  | nil => rfl
  | cons c rest ih =>
    have hrest : singleSpaced rest = rest := by
      apply ih
      intro before d after hsplit hd
      exact hspaces (c :: before) d after (by rw [hsplit, List.cons_append]) hd
    rw [singleSpaced, hrest]
    split
    · rename_i hc
      obtain ⟨rfl, hnext⟩ := hspaces [] c rest rfl hc
      rw [hnext, if_neg Bool.false_ne_true]
    · rfl

theorem EvenlySpaced.trim_eq {t : Text} (h : EvenlySpaced t) : trim t = t := by
  cases t with
  | nil => rfl
  | cons c rest =>
    have hc := h.not_isBlank_head
    have hend : trimEnd (c :: rest) = c :: rest := by
      apply List.rdropWhile_eq_self_iff.mpr
      intro hne
      rw [← List.dropLast_concat_getLast hne] at h
      simp [h.not_isBlank_last]
    rw [trim_cons hc, ← trimEnd_cons hc, hend]

theorem collapse_eq_self_iff {t : Text} : collapse t = t ↔ EvenlySpaced t := by
  constructor
  · intro h
    rw [← h]
    exact evenlySpaced_collapse t
  · intro h
    rw [collapse_eq, h.singleSpaced_eq, h.trim_eq]

end Text

namespace Markdown

open Text

/-- The text begins with the sentence, and a space or nothing stands behind its period. -/
structure IsSentenceOf (sentence t : Text) : Prop where
  period : sentence.getLast? = some '.'.code
  behind : ∃ rest, t = sentence ++ rest ∧ (rest = [] ∨ rest.head? = some ' '.code)

/-- The shortest sentence that the text begins with, or all of a text that begins with none. -/
def IsFirstSentence (s t : Text) : Prop :=
  (IsSentenceOf s t ∧ ∀ other, IsSentenceOf other t → s.length ≤ other.length) ∨
    s = t ∧ ∀ other, ¬IsSentenceOf other t

theorem IsFirstSentence.unique {s other t : Text} (h : IsFirstSentence s t)
    (hother : IsFirstSentence other t) : s = other := by
  rcases h with ⟨hs, hshortest⟩ | ⟨rfl, hnone⟩
  · rcases hother with ⟨ho, hlatest⟩ | ⟨-, hnone⟩
    · obtain ⟨rest, hrest, -⟩ := hs.behind
      obtain ⟨more, hmore, -⟩ := ho.behind
      have hlength : s.length = other.length :=
        Nat.le_antisymm (hshortest other ho) (hlatest s hs)
      exact List.append_inj_left (hrest.symm.trans hmore) hlength
    · exact absurd hs (hnone s)
  · rcases hother with ⟨ho, -⟩ | ⟨rfl, -⟩
    · exact absurd ho (hnone other)
    · rfl

theorem not_isSentenceOf_nil (s : Text) : ¬IsSentenceOf s [] := by
  rintro ⟨hperiod, rest, hrest, -⟩
  rw [(List.append_eq_nil_iff.mp hrest.symm).1] at hperiod
  cases hperiod

theorem isSentenceOf_cons_iff {s rest : Text} {c : CodePoint} :
    IsSentenceOf s (c :: rest) ↔
      (s = [c] ∧ c = '.'.code ∧ (rest = [] ∨ rest.head? = some ' '.code)) ∨
        ∃ longer, s = c :: longer ∧ IsSentenceOf longer rest := by
  constructor
  · rintro ⟨hperiod, more, hmore, hbehind⟩
    cases s with
    | nil => cases hperiod
    | cons d longer =>
      obtain ⟨rfl, rfl⟩ := List.cons.inj hmore
      cases longer with
      | nil =>
        have hc : c = '.'.code := by simpa using hperiod
        exact .inl ⟨rfl, hc, hbehind⟩
      | cons e longer =>
        rw [List.getLast?_cons_cons] at hperiod
        exact .inr ⟨e :: longer, rfl, hperiod, more, rfl, hbehind⟩
  · rintro (⟨rfl, rfl, hbehind⟩ | ⟨longer, rfl, hperiod, more, rfl, hbehind⟩)
    · exact ⟨rfl, rest, rfl, hbehind⟩
    · exact ⟨by simp [List.getLast?_cons, hperiod], more, rfl, hbehind⟩

theorem isFirstSentence_upToPeriod (t : Text) : IsFirstSentence (upToPeriod t) t := by
  induction t with
  | nil => exact .inr ⟨rfl, not_isSentenceOf_nil⟩
  | cons c rest ih =>
    rw [upToPeriod]
    by_cases hends : c = '.'.code ∧ (rest = [] ∨ rest.head? = some ' '.code)
    · rw [if_pos hends]
      refine .inl ⟨isSentenceOf_cons_iff.mpr (.inl ⟨rfl, hends⟩), ?_⟩
      intro other hother
      rcases isSentenceOf_cons_iff.mp hother with ⟨rfl, -⟩ | ⟨longer, rfl, -⟩
      · exact Nat.le_refl 1
      · simp
    · rw [if_neg hends]
      -- no sentence ends here, so those of the text are those of the rest with this character
      have hlater : ∀ other, IsSentenceOf other (c :: rest) →
          ∃ longer, other = c :: longer ∧ IsSentenceOf longer rest := by
        intro other hother
        rcases isSentenceOf_cons_iff.mp hother with ⟨-, hhere⟩ | hlonger
        · exact absurd hhere hends
        · exact hlonger
      rcases ih with ⟨hfirst, hshortest⟩ | ⟨hall, hnone⟩
      · refine .inl ⟨isSentenceOf_cons_iff.mpr (.inr ⟨_, rfl, hfirst⟩), ?_⟩
        intro other hother
        obtain ⟨longer, rfl, hlonger⟩ := hlater other hother
        exact Nat.succ_le_succ (hshortest longer hlonger)
      · refine .inr ⟨by rw [hall], ?_⟩
        intro other hother
        obtain ⟨longer, -, hlonger⟩ := hlater other hother
        exact hnone longer hlonger

theorem upToPeriod_isPrefix (t : Text) : upToPeriod t <+: t := by
  rcases isFirstSentence_upToPeriod t with ⟨⟨-, rest, hrest, -⟩, -⟩ | ⟨hall, -⟩
  · exact ⟨rest, hrest.symm⟩
  · exact ⟨[], by rw [hall, List.append_nil]⟩

theorem head?_upToPeriod (t : Text) : (upToPeriod t).head? = t.head? := by
  cases t with
  | nil => rfl
  | cons c rest =>
    rw [upToPeriod]
    split <;> rfl

theorem upToPeriod_eq_nil_iff {t : Text} : upToPeriod t = [] ↔ t = [] := by
  rw [← List.head?_eq_none_iff, head?_upToPeriod, List.head?_eq_none_iff]

/-- To look for the period once more finds the same one: in front of it nothing is new. -/
theorem upToPeriod_upToPeriod (t : Text) : upToPeriod (upToPeriod t) = upToPeriod t := by
  induction t with
  | nil => rfl
  | cons c rest ih =>
    rw [upToPeriod]
    by_cases hends : c = '.'.code ∧ (rest = [] ∨ rest.head? = some ' '.code)
    · rw [if_pos hends, upToPeriod, if_pos ⟨hends.1, .inl rfl⟩]
    · have hstill :
          ¬(c = '.'.code ∧
            (upToPeriod rest = [] ∨ (upToPeriod rest).head? = some ' '.code)) := by
        rwa [upToPeriod_eq_nil_iff, head?_upToPeriod]
      rw [if_neg hends, upToPeriod, if_neg hstill, ih]

theorem evenlySpaced_firstSentence (comment : Text) : EvenlySpaced (firstSentence comment) := by
  have hspaced := evenlySpaced_collapse comment
  rcases isFirstSentence_upToPeriod (collapse comment) with ⟨⟨hperiod, -⟩, -⟩ | ⟨hall, -⟩
  · have hlast : (firstSentence comment).getLast?.any isBlank = false := by
      rw [firstSentence, hperiod]
      decide
    exact hspaced.of_prefix (upToPeriod_isPrefix _) hlast
  · rw [firstSentence, hall]
    exact hspaced

def onOneLine (comment : Text) : Text := trim (singleSpaced comment)

theorem onOneLine_eq (comment : Text) : onOneLine comment = collapse comment :=
  (collapse_eq comment).symm

/-- What the first sentence of a comment is. -/
structure ExactSentence (comment : Text) : Prop where
  /-- So a blank behind a period is a space. -/
  spaced : EvenlySpaced (onOneLine comment)
  first_iff : ∀ s, IsFirstSentence s (onOneLine comment) ↔ s = firstSentence comment
  one_line : OneLine (firstSentence comment)
  respaced : ∀ other, onOneLine other = onOneLine comment →
    firstSentence other = firstSentence comment
  again : firstSentence (firstSentence comment) = firstSentence comment

theorem first_sentence_exact (comment : Text) : ExactSentence comment where
  spaced := by
    rw [onOneLine_eq]
    exact evenlySpaced_collapse comment
  first_iff := by
    intro s
    have hfirst : IsFirstSentence (firstSentence comment) (onOneLine comment) := by
      rw [onOneLine_eq]
      exact isFirstSentence_upToPeriod (collapse comment)
    constructor
    · intro hs
      exact hs.unique hfirst
    · rintro rfl
      exact hfirst
  one_line := (oneLine_collapse comment).mono fun _ hc => (upToPeriod_isPrefix _).subset hc
  respaced := by
    intro other hsame
    rw [onOneLine_eq, onOneLine_eq] at hsame
    rw [firstSentence, hsame, firstSentence]
  again := by
    rw [firstSentence, collapse_eq_self_iff.mpr (evenlySpaced_firstSentence comment),
      firstSentence, upToPeriod_upToPeriod]

/-- Periods inside numbers and in front of further periods end no sentence. -/
example : firstSentence "\tSince 1.2..3,\u2003see\n below... More.".text =
    "Since 1.2..3, see below...".text := by decide +kernel

end Markdown

end ApiPages

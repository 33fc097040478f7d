import Mathlib.Data.List.DropRight
import ApiPages.Proofs.Line

/-!
Blanks. The words of a text put together again are the text with one space for every run of blanks
and without the blanks at its ends.
-/
namespace ApiPages.Text

theorem trimEnd_append (s t : Text) :
    trimEnd (s ++ t) = if trimEnd t = [] then trimEnd s else s ++ trimEnd t := by
  have hnil : (t.reverse.dropWhile isBlank).isEmpty = true ↔ trimEnd t = [] := by
    rw [trimEnd, List.reverse_eq_nil_iff, List.isEmpty_iff]
  rw [trimEnd, List.reverse_append, List.dropWhile_append]
  by_cases h : trimEnd t = []
  · rw [if_pos h, if_pos (hnil.mpr h)]
    rfl
  · rw [if_neg h, if_neg (mt hnil.mp h), List.reverse_append, List.reverse_reverse]
    rfl

theorem trimEnd_singleton (c : CodePoint) : trimEnd [c] = if isBlank c then [] else [c] := by
  cases h : isBlank c <;> simp [trimEnd, h]

theorem trimEnd_cons {c : CodePoint} (h : isBlank c = false) (t : Text) :
    trimEnd (c :: t) = c :: trimEnd t := by
  rw [← List.singleton_append, trimEnd_append, trimEnd_singleton, h]
  split
  · rename_i hnil
    rw [hnil]
    rfl
  · rfl

theorem trimEnd_cons_of_isBlank {c : CodePoint} (h : isBlank c = true) (t : Text) :
    trimEnd (c :: t) = if trimEnd t = [] then [] else c :: trimEnd t := by
  rw [← List.singleton_append, trimEnd_append, trimEnd_singleton, h]
  rfl

theorem trimEnd_isPrefix (t : Text) : trimEnd t <+: t := List.rdropWhile_prefix isBlank t

theorem trimEnd_trimEnd (t : Text) : trimEnd (trimEnd t) = trimEnd t :=
  List.rdropWhile_idempotent isBlank t

theorem trimEnd_append_of_trimmed {s : Text} (h : trimEnd s = s) (t : Text) :
    trimEnd (s ++ t) = s ++ trimEnd t := by
  rw [trimEnd_append]
  split
  · rename_i hnil
    rw [h, hnil, List.append_nil]
  · rfl

theorem exists_trimEnd_eq_concat {t : Text} (h : trimEnd t ≠ []) :
    ∃ front c, trimEnd t = front ++ [c] ∧ isBlank c = false := by
  refine ⟨(trimEnd t).dropLast, (trimEnd t).getLast h, ?_, ?_⟩
  · rw [List.dropLast_concat_getLast]
  · have hlast : ¬isBlank ((trimEnd t).getLast h) = true := List.rdropWhile_last_not isBlank t h
    simpa using hlast

theorem trim_cons_of_isBlank {c : CodePoint} (h : isBlank c = true) (t : Text) :
    trim (c :: t) = trim t := by
  rw [trim, trimStart, List.dropWhile_cons_of_pos h]
  rfl

theorem trim_cons {c : CodePoint} (h : isBlank c = false) (t : Text) :
    trim (c :: t) = c :: trimEnd t := by
  rw [trim, trimStart, List.dropWhile_cons_of_neg (by simp [h]), trimEnd_cons h]

theorem trim_trimEnd (t : Text) : trim (trimEnd t) = trim t := by
  induction t with
  | nil => rfl
  | cons c rest ih =>
    cases hc : isBlank c with
    | false => rw [trimEnd_cons hc, trim_cons hc, trim_cons hc, trimEnd_trimEnd]
    | true =>
      rw [trimEnd_cons_of_isBlank hc, trim_cons_of_isBlank hc, ← ih]
      split
      · rename_i hnil
        rw [hnil]
      · rw [trim_cons_of_isBlank hc]

theorem trim_trim (t : Text) : trim (trim t) = trim t := by
  induction t with
  | nil => rfl
  | cons c rest ih =>
    cases hc : isBlank c with
    | false => rw [trim_cons hc, trim_cons hc, trimEnd_trimEnd]
    | true => rw [trim_cons_of_isBlank hc, ih]

theorem trimEnd_of_not_isBlank {t : Text} (h : ∀ c ∈ t, isBlank c = false) : trimEnd t = t := by
  induction t with
  | nil => rfl
  | cons c rest ih =>
    rw [trimEnd_cons (h c List.mem_cons_self), ih fun d hd => h d (List.mem_cons_of_mem c hd)]

theorem trim_of_not_isBlank {t : Text} (h : ∀ c ∈ t, isBlank c = false) : trim t = t := by
  have hend := trimEnd_of_not_isBlank h
  cases t with
  | nil => rfl
  | cons c rest =>
    have hc := h c List.mem_cons_self
    rw [trim_cons hc, ← trimEnd_cons hc, hend]

theorem trimStart_suffix (t : Text) : trimStart t <:+ t := List.dropWhile_suffix isBlank

theorem mem_of_mem_trim {t : Text} {c : CodePoint} (h : c ∈ trim t) : c ∈ t :=
  (trimStart_suffix t).subset ((trimEnd_isPrefix _).subset h)

theorem words_cons_of_isBlank {c : CodePoint} (h : isBlank c = true) (t : Text) :
    words (c :: t) = words t := by
  rw [words, List.splitOnP_cons_eq_if_modifyHead, if_pos h, List.filter_cons_of_neg (by simp)]
  rfl

theorem words_cons_of_not_isBlank {c : CodePoint} (h : isBlank c = false) (t : Text) :
    ∃ w ws, words (c :: t) = (c :: w) :: ws ∧
      (t.head?.all isBlank = true ∧ w = [] ∧ words t = ws ∨
        t.head?.any isBlank = false ∧ words t = w :: ws) := by
  have hc : ¬isBlank c = true := by simp [h]
  rw [words, words, List.splitOnP_cons_eq_if_modifyHead, if_neg hc]
  cases t with
  | nil => exact ⟨[], [], rfl, .inl ⟨rfl, rfl, rfl⟩⟩
  | cons d rest =>
    rw [List.splitOnP_cons_eq_if_modifyHead]
    by_cases hd : isBlank d = true
    · rw [if_pos hd]
      exact ⟨[], _, rfl, .inl ⟨hd, rfl, rfl⟩⟩
    · obtain ⟨w, ws, hsplit⟩ := List.exists_cons_of_ne_nil (List.splitOnP_ne_nil isBlank rest)
      rw [if_neg hd, hsplit]
      exact ⟨d :: w, _, rfl, .inr ⟨by simpa using hd, rfl⟩⟩

/-- One space for every run of blanks. -/
def singleSpaced : Text → Text
  | [] => []
  | c :: rest =>
    if isBlank c then
      if rest.head?.any isBlank then singleSpaced rest else ' '.code :: singleSpaced rest
    else c :: singleSpaced rest

theorem collapse_eq_nil_iff {t : Text} : collapse t = [] ↔ words t = [] := by
  constructor
  · intro h
    by_contra hne
    obtain ⟨w, ws, hw⟩ := List.exists_cons_of_ne_nil hne
    have hword : w ∈ words t := by simp [hw]
    have hpart : w <:+: collapse t := infix_join hword
    rw [h, List.infix_nil] at hpart
    simp [hpart, words] at hword
  · intro h
    rw [collapse, h, join_nil]

theorem collapse_cons_of_isBlank {c : CodePoint} (h : isBlank c = true) (t : Text) :
    collapse (c :: t) = collapse t := by
  rw [collapse, words_cons_of_isBlank h, collapse]

/-- The collapsed text as it goes on behind a word. Blanks in front are a space if a word is left.
-/
def collapseBehind (t : Text) : Text :=
  if t.head?.any isBlank ∧ collapse t ≠ [] then ' '.code :: collapse t else collapse t

theorem collapse_cons {c : CodePoint} (h : isBlank c = false) (t : Text) :
    collapse (c :: t) = c :: collapseBehind t := by
  obtain ⟨w, ws, hwords, ⟨hhead, rfl, rfl⟩ | ⟨hhead, hrest⟩⟩ := words_cons_of_not_isBlank h t
  · by_cases hnil : words t = []
    · simp [collapseBehind, collapse, hwords, hnil]
    · have hany : t.head?.any isBlank = true := by
        cases t with
        | nil => exact absurd rfl hnil
        | cons d rest => exact hhead
      obtain ⟨v, vs, hvs⟩ := List.exists_cons_of_ne_nil hnil
      rw [collapseBehind, if_pos ⟨hany, mt collapse_eq_nil_iff.mp hnil⟩, collapse, collapse, hwords,
        hvs, join_cons_cons]
      rfl
  · rw [collapseBehind, hhead, collapse, collapse, hwords, hrest]
    cases ws <;> simp

theorem trimEnd_singleSpaced (t : Text) : trimEnd (singleSpaced t) = collapseBehind t := by
  have hspace : isBlank ' '.code = true := by decide
  induction t with
  | nil => rfl
  | cons c rest ih =>
    cases hc : isBlank c with
    | false =>
      rw [singleSpaced, hc, if_neg Bool.false_ne_true, trimEnd_cons hc, ih,
        ← collapse_cons hc]
      simp [collapseBehind, hc]
    | true =>
      rw [singleSpaced, hc, if_pos rfl, collapseBehind, collapse_cons_of_isBlank hc]
      cases hrest : rest.head?.any isBlank with
      | true =>
        rw [if_pos rfl, ih, collapseBehind, hrest]
        simp [hc]
      | false =>
        rw [if_neg Bool.false_ne_true, trimEnd_cons_of_isBlank hspace, ih, collapseBehind, hrest]
        by_cases hnil : collapse rest = [] <;> simp [hc, hnil]

theorem collapse_eq (t : Text) : collapse t = trim (singleSpaced t) := by
  have hspace : isBlank ' '.code = true := by decide
  induction t with
  | nil => rfl
  | cons c rest ih =>
    cases hc : isBlank c with
    | false =>
      rw [trim, singleSpaced, hc, if_neg Bool.false_ne_true, trimStart,
        List.dropWhile_cons_of_neg (by simp [hc]), trimEnd_cons hc, trimEnd_singleSpaced,
        collapse_cons hc]
    | true =>
      rw [collapse_cons_of_isBlank hc, ih, singleSpaced, hc, if_pos rfl]
      split
      · rfl
      · rw [trim, trim, trimStart, trimStart, List.dropWhile_cons_of_pos hspace]

theorem oneLine_collapse (t : Text) : OneLine (collapse t) := by
  refine oneLine_join (by decide) ?_
  intro w hw c hc
  have hblank := not_isBlank_of_mem_words hw hc
  by_contra hbreak
  rw [Bool.not_eq_false] at hbreak
  rw [isBlank_of_isLineBreak hbreak] at hblank
  exact Bool.noConfusion hblank

end ApiPages.Text

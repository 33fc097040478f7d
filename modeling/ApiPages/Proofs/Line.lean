import Mathlib.Data.List.Basic
import Mathlib.Data.Nat.Init
import ApiPages.Markdown.Code
import ApiPages.Markdown.Link
import ApiPages.Text.Line

/-!
Texts without a line boundary. What is put together from them has none either, and it is one line
whatever stands in it.
-/
namespace ApiPages

namespace Text

def OneLine (t : Text) : Prop := ∀ c ∈ t, isLineBreak c = false

instance (t : Text) : Decidable (OneLine t) :=
  List.decidableBAll _ t

@[simp] theorem oneLine_nil : OneLine [] := by simp [OneLine]

@[simp] theorem oneLine_cons {c : CodePoint} {t : Text} :
    OneLine (c :: t) ↔ isLineBreak c = false ∧ OneLine t := by
  simp [OneLine]

@[simp] theorem oneLine_append {s t : Text} : OneLine (s ++ t) ↔ OneLine s ∧ OneLine t := by
  simp only [OneLine, List.mem_append, or_imp, forall_and]

theorem OneLine.mono {s t : Text} (h : OneLine t) (hs : ∀ c ∈ s, c ∈ t) : OneLine s := by
  intro c hc
  exact h c (hs c hc)

theorem OneLine.flatMap {t : Text} {f : CodePoint → Text} (h : OneLine t)
    (hf : ∀ c, isLineBreak c = false → OneLine (f c)) : OneLine (t.flatMap f) := by
  intro d hd
  obtain ⟨c, hc, hd⟩ := List.mem_flatMap.mp hd
  exact hf c (h c hc) d hd

theorem oneLine_join {separator : Text} {pieces : List Text} (hs : OneLine separator)
    (hp : ∀ piece ∈ pieces, OneLine piece) : OneLine (join separator pieces) := by
  induction pieces with
  | nil => simp
  | cons a rest ih =>
    have ha := hp a List.mem_cons_self
    have hrest := ih fun b hb => hp b (List.mem_cons_of_mem a hb)
    cases rest with
    | nil => simpa using ha
    | cons b rest => simp only [join_cons_cons, oneLine_append, ha, hs, hrest, and_self]

theorem join_append {separator : Text} {before after : List Text} (hb : before ≠ [])
    (ha : after ≠ []) :
    join separator (before ++ after) =
      join separator before ++ separator ++ join separator after := by
  have hcons : ∀ piece {pieces : List Text}, pieces ≠ [] →
      join separator (piece :: pieces) = piece ++ separator ++ join separator pieces :=
    fun _ _ h => List.intercalate_cons_of_ne_nil h
  induction before with
  | nil => exact absurd rfl hb
  | cons piece before ih =>
    rw [List.cons_append, hcons _ (List.append_ne_nil_of_right_ne_nil _ ha)]
    by_cases hnil : before = []
    · rw [hnil, List.nil_append, join_singleton]
    · rw [ih hnil, hcons _ hnil]
      simp only [List.append_assoc]

theorem lines_of_oneLine {t : Text} (h : OneLine t) (hne : t ≠ []) : lines t = [t] := by
  induction t with
  | nil => exact absurd rfl hne
  | cons c rest ih =>
    obtain ⟨hc, hrest⟩ := oneLine_cons.mp h
    have hr : ∀ more, c = '\r'.code → rest = '\n'.code :: more → False := by
      rintro more rfl -
      exact absurd hc (by decide)
    rw [lines, if_neg (by simp [hc])]
    · cases rest with
      | nil => rfl
      | cons d rest => rw [ih hrest (List.cons_ne_nil d rest)]
    · exact hr

theorem lines_eq_nil_iff {t : Text} : lines t = [] ↔ t = [] := by
  constructor
  · intro h
    fun_cases lines t with
    | case1 => rfl
    | case2 => simp [lines] at h
    | case3 c rest hr hc => simp [lines, hc] at h
    | case4 c rest hr hc hrest => simp [lines, hc, hrest] at h
    | case5 c rest hr hc line more hrest => simp [lines, hc, hrest] at h
  · rintro rfl
    rfl

theorem lines_append_newline {t : Text} (h : OneLine t) (rest : Text) :
    lines (t ++ '\n'.code :: rest) = t :: lines rest := by
  induction t with
  | nil =>
    rw [List.nil_append, lines, if_pos (by decide)]
    rintro more hc -
    exact absurd hc (by decide)
  | cons c t ih =>
    obtain ⟨hc, ht⟩ := oneLine_cons.mp h
    rw [List.cons_append, lines, if_neg (by simp [hc]), ih ht]
    rintro more rfl -
    exact absurd hc (by decide)

theorem oneLine_of_mem_lines {t line : Text} (h : line ∈ lines t) : OneLine line := by
  fun_induction lines t generalizing line with
  | case1 => simp at h
  | case2 rest ih =>
    rcases List.mem_cons.mp h with rfl | h
    · exact oneLine_nil
    · exact ih h
  | case3 c rest _ hc ih =>
    rcases List.mem_cons.mp h with rfl | h
    · exact oneLine_nil
    · exact ih h
  | case4 c rest _ hc hrest ih =>
    rw [List.mem_singleton.mp h]
    simpa using hc
  | case5 c rest _ hc first more hrest ih =>
    rw [hrest] at ih
    rcases List.mem_cons.mp h with rfl | h
    · exact oneLine_cons.mpr ⟨by simpa using hc, ih List.mem_cons_self⟩
    · exact ih (List.mem_cons_of_mem _ h)

end Text

namespace Markdown

open Text

theorem oneLine_code {t : Text} (h : OneLine t) : OneLine (code t) := by
  have hb : isLineBreak backtick = false := by decide
  simp [code, h, hb]

theorem oneLine_escapeLabel {t : Text} (h : OneLine t) : OneLine (escapeLabel t) := by
  refine h.flatMap ?_
  intro c hc
  have hb : isLineBreak '\\'.code = false := by decide
  split <;> simp [hc, hb]

theorem oneLine_escapeTarget {t : Text} (h : OneLine t) : OneLine (escapeTarget t) := by
  refine h.flatMap ?_
  intro c hc
  unfold escapeTargetChar
  split
  · decide
  · split
    · decide
    · split
      · decide
      · simp [hc]

theorem oneLine_linkTo {label escaped : Text} (hl : OneLine label) (he : OneLine escaped) :
    OneLine (linkTo label escaped) := by
  simp only [linkTo, oneLine_append, oneLine_cons, oneLine_nil, and_true]
  exact ⟨⟨⟨⟨by decide, oneLine_escapeLabel hl⟩, by decide⟩, he⟩, by decide⟩

end Markdown

end ApiPages

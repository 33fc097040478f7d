import ApiPages.Document.Lines
import ApiPages.Proofs.FirstSentence
import ApiPages.Text.Utf8

/-!
Texts that have octets. Only surrogates have none, and they are neither blank nor what a table is
drawn with. So a buffer can be written exactly if each of its lines can, and a row of a table
exactly if each of its cells can.
-/
namespace ApiPages

open Utf8

theorem Text.not_isSurrogate_of_isBlank {c : CodePoint} (h : Text.isBlank c = true) :
    c.isSurrogate = false := by
  obtain ⟨r, hr, hfirst, hlast⟩ := Text.exists_range_of_inRanges h
  have hbelow : ∀ r ∈ Text.blankRanges, r.2 < 0xD800 := by decide
  have hlow := hbelow r hr
  simp only [CodePoint.isSurrogate, Bool.and_eq_false_iff, decide_eq_false_iff_not]
  omega

namespace Utf8

variable {s t : Text}

@[simp] theorem encodable_nil : encodable [] = true := rfl

@[simp] theorem encodable_cons (c : CodePoint) (t : Text) :
    encodable (c :: t) = (!c.isSurrogate && encodable t) := rfl

@[simp] theorem encodable_append (s t : Text) :
    encodable (s ++ t) = (encodable s && encodable t) := List.all_append

theorem encodable_of_prefix (h : s <+: t) (ht : encodable t = true) : encodable s = true := by
  obtain ⟨rest, rfl⟩ := h
  rw [encodable_append, Bool.and_eq_true] at ht
  exact ht.1

theorem encodable_join {separator : Text} (h : encodable separator = true) (pieces : List Text) :
    encodable (Text.join separator pieces) = pieces.all encodable := by
  induction pieces with
  | nil => simp
  | cons a rest ih =>
    cases rest with
    | nil => simp
    | cons b rest => simp only [Text.join_cons_cons, encodable_append, h, ih, List.all_cons,
        Bool.and_true]

theorem encodable_replace {c : CodePoint} {written : Text} (hc : c.isSurrogate = false)
    (hwritten : encodable written = true) (t : Text) :
    encodable (Text.replace c written t) = encodable t := by
  induction t with
  | nil => rfl
  | cons d t ih =>
    rw [Text.replace, List.flatMap_cons, encodable_append, encodable_cons, ← Text.replace, ih]
    split
    · rename_i hd
      rw [hd, hwritten, hc]
      rfl
    · simp

theorem encodable_trimEnd (t : Text) : encodable (Text.trimEnd t) = encodable t := by
  induction t with
  | nil => rfl
  | cons c t ih =>
    cases hc : Text.isBlank c with
    | false => rw [Text.trimEnd_cons hc, encodable_cons, encodable_cons, ih]
    | true =>
      have hplain := Text.not_isSurrogate_of_isBlank hc
      rw [Text.trimEnd_cons_of_isBlank hc, encodable_cons, ← ih, hplain]
      split
      · rename_i hnil
        rw [hnil]
        rfl
      · rw [encodable_cons, hplain]

theorem encodable_collapse (t : Text) : encodable (Text.collapse t) = encodable t := by
  have hspace : CodePoint.isSurrogate ' '.code = false := by decide
  induction t with
  | nil => rfl
  | cons c t ih =>
    cases hc : Text.isBlank c with
    | true =>
      rw [Text.collapse_cons_of_isBlank hc, ih, encodable_cons, Text.not_isSurrogate_of_isBlank hc]
      rfl
    | false =>
      rw [Text.collapse_cons hc, encodable_cons, encodable_cons, ← ih, Text.collapseBehind]
      split
      · rw [encodable_cons, hspace]
        rfl
      · rfl

theorem encodable_cell (t : Text) : encodable (Markdown.cell t) = encodable t := by
  rw [Markdown.cell, encodable_replace (by decide) (by decide), encodable_collapse]

theorem encodable_tableRow (cells : List Text) :
    encodable (Markdown.tableRow cells) = cells.all encodable := by
  have hleft : encodable "| ".text = true := by decide
  have hright : encodable " |".text = true := by decide
  rw [Markdown.tableRow, Markdown.barred, encodable_append, encodable_append, hleft, hright,
    encodable_join (by decide), List.all_map, Bool.true_and, Bool.and_true]
  exact congrArg cells.all (funext encodable_cell)

/-- The first sentence of a comment takes nothing into a row that the whole comment does not. -/
theorem encodable_firstSentence (h : encodable t = true) :
    encodable (Markdown.firstSentence t) = true := by
  refine encodable_of_prefix (Markdown.upToPeriod_isPrefix _) ?_
  rw [encodable_collapse, h]

theorem encodable_render (buffer : Lines) : encodable buffer.render = buffer.all encodable := by
  rw [Lines.render, encodable_append, encodable_trimEnd, encodable_join (by decide)]
  exact Bool.and_true _

end Utf8

end ApiPages

import ApiPages.Markdown.Table
import ApiPages.Proofs.Blank

/-!
Reading a table row. A bar separates two cells unless a backslash stands directly before it. A row
cut at its separators gives back the cells that it was made of, whatever they hold: no bar of a cell
separates, and no backslash at the end of a cell keeps the bar behind it from separating, since a
space stands between them.
-/
namespace ApiPages.Markdown

open Text

def separates (before : Option CodePoint) (c : CodePoint) : Bool :=
  c == '|'.code && before != some '\\'.code

/-- The number of separators in a text that stands behind a character, or behind none. -/
def separatorsAfter (before : Option CodePoint) : Text → Nat
  | [] => 0
  | c :: rest => (if separates before c then 1 else 0) + separatorsAfter (some c) rest

def separators (t : Text) : Nat := separatorsAfter none t

/-- The pieces between the separators of a text. -/
def cutAfter (before : Option CodePoint) : Text → List Text
  | [] => [[]]
  | c :: rest =>
    if separates before c then [] :: cutAfter (some c) rest
    else (cutAfter (some c) rest).modifyHead (c :: ·)

def cut (t : Text) : List Text := cutAfter none t

def withoutSpace (t : Text) : Text := if t.head? = some ' '.code then t.tail else t

def withoutPadding (t : Text) : Text := (withoutSpace (withoutSpace t).reverse).reverse

def unescapeBars : Text → Text
  | .backslash :: .bar :: rest => .bar :: unescapeBars rest
  | c :: rest => c :: unescapeBars rest
  | [] => []

theorem cutAfter_ne_nil (before : Option CodePoint) (t : Text) : cutAfter before t ≠ [] := by
  induction t generalizing before with
  | nil => exact List.cons_ne_nil _ _
  | cons c rest ih =>
    rw [cutAfter]
    split
    · exact List.cons_ne_nil _ _
    · obtain ⟨piece, pieces, h⟩ := List.exists_cons_of_ne_nil (ih (some c))
      rw [h]
      exact List.cons_ne_nil _ _

theorem length_cutAfter (before : Option CodePoint) (t : Text) :
    (cutAfter before t).length = separatorsAfter before t + 1 := by
  induction t generalizing before with
  | nil => rfl
  | cons c rest ih =>
    rw [cutAfter, separatorsAfter]
    split
    · rw [List.length_cons, ih]
      omega
    · rw [List.length_modifyHead, ih]
      omega

theorem getLast?_cons_or (before : Option CodePoint) (c : CodePoint) (t : Text) :
    (c :: t).getLast?.or before = t.getLast?.or (some c) := by
  cases h : t.getLast? <;> simp [List.getLast?_cons, h]

theorem cutAfter_append {before : Option CodePoint} {t : Text} (h : separatorsAfter before t = 0)
    (rest : Text) :
    cutAfter before (t ++ rest) =
      (cutAfter (t.getLast?.or before) rest).modifyHead (t ++ ·) := by
  induction t generalizing before with
  | nil =>
    obtain ⟨piece, pieces, hcut⟩ := List.exists_cons_of_ne_nil (cutAfter_ne_nil before rest)
    simp [hcut]
  | cons c t ih =>
    rw [separatorsAfter, Nat.add_eq_zero_iff] at h
    have hc : separates before c = false := by
      by_contra hc
      rw [Bool.not_eq_false] at hc
      simp [hc] at h
    rw [List.cons_append, cutAfter, if_neg (by simp [hc]), ih h.2, getLast?_cons_or,
      List.modifyHead_modifyHead]
    rfl

theorem separatorsAfter_append (before : Option CodePoint) (s t : Text) :
    separatorsAfter before (s ++ t) =
      separatorsAfter before s + separatorsAfter (s.getLast?.or before) t := by
  induction s generalizing before with
  | nil => simp [separatorsAfter]
  | cons c s ih =>
    rw [List.cons_append, separatorsAfter, separatorsAfter, ih, getLast?_cons_or, Nat.add_assoc]

theorem separatorsAfter_cell (before : Option CodePoint) (t : Text) :
    separatorsAfter before (cell t) = 0 := by
  rw [cell, replace]
  induction collapse t generalizing before with
  | nil => rfl
  | cons c rest ih =>
    rw [List.flatMap_cons, separatorsAfter_append, ih, Nat.add_zero]
    by_cases hc : c = '|'.code
    · simp [hc, separatorsAfter, separates]
    · simp [hc, separatorsAfter, separates]

theorem unescapeBars_cons {c : CodePoint} {rest : Text}
    (h : c = '\\'.code → rest.head? ≠ some '|'.code) :
    unescapeBars (c :: rest) = c :: unescapeBars rest := by
  rw [unescapeBars]
  rintro more hc rfl
  exact h hc rfl

theorem unescapeBars_cell (t : Text) : unescapeBars (cell t) = collapse t := by
  rw [cell, replace]
  induction collapse t with
  | nil => rfl
  | cons c rest ih =>
    rw [List.flatMap_cons]
    by_cases hc : c = '|'.code
    · rw [if_pos hc, hc]
      exact congrArg ('|'.code :: ·) ih
    · have hbar :
          (rest.flatMap fun d => if d = '|'.code then ['\\'.code, '|'.code] else [d]).head? ≠
            some '|'.code := by
        cases rest with
        | nil => simp
        | cons d rest =>
          rw [List.flatMap_cons]
          by_cases hd : d = '|'.code <;> simp [hd]
      rw [if_neg hc, List.singleton_append, unescapeBars_cons fun _ => hbar, ih]

def padded (t : Text) : Text := ' '.code :: cell t ++ [' '.code]

theorem withoutPadding_padded (t : Text) : withoutPadding (padded t) = cell t := by
  simp [withoutPadding, padded, withoutSpace]

theorem cutAfter_padded (before : Option CodePoint) (t rest : Text) :
    cutAfter before (padded t ++ '|'.code :: rest) = padded t :: cutAfter (some '|'.code) rest := by
  have hnone : separatorsAfter before (padded t) = 0 := by
    rw [padded, List.cons_append, separatorsAfter, separatorsAfter_append, separatorsAfter_cell]
    simp [separates, separatorsAfter]
  have hlast : (padded t).getLast?.or before = some ' '.code := by
    rw [padded, List.getLast?_concat, Option.some_or]
  rw [cutAfter_append hnone, hlast, cutAfter, if_pos (by decide), List.modifyHead_cons,
    List.append_nil]

theorem tableRow_eq {cells : List Text} (h : cells ≠ []) :
    tableRow cells = '|'.code :: cells.flatMap fun t => padded t ++ ['|'.code] := by
  have hjoin : ∀ (first : Text) (rest : List Text),
      ' '.code :: Text.join " | ".text ((first :: rest).map cell) ++ " |".text =
        (first :: rest).flatMap fun t => padded t ++ ['|'.code] := by
    intro first rest
    induction rest generalizing first with
    | nil => simp [padded]
    | cons second rest ih =>
      rw [List.flatMap_cons, ← ih second, List.map_cons, List.map_cons, join_cons_cons, padded]
      simp
  obtain ⟨first, rest, rfl⟩ := List.exists_cons_of_ne_nil h
  rw [← hjoin first rest]
  rfl

theorem cut_tableRow {cells : List Text} (h : cells ≠ []) :
    cut (tableRow cells) = [] :: (cells.map padded ++ [[]]) := by
  have hrest : ∀ rest : List Text,
      cutAfter (some '|'.code) (rest.flatMap fun t => padded t ++ ['|'.code]) =
        rest.map padded ++ [[]] := by
    intro rest
    induction rest with
    | nil => rfl
    | cons t rest ih =>
      rw [List.flatMap_cons, List.append_assoc, List.singleton_append, cutAfter_padded, ih]
      rfl
  rw [tableRow_eq h, cut, cutAfter, if_pos (by decide), hrest]

theorem oneLine_cell (t : Text) : OneLine (cell t) := by
  refine (oneLine_collapse t).flatMap ?_
  intro c hc
  split
  · decide
  · simp [hc]

theorem oneLine_barred {cells : List Text} (h : ∀ t ∈ cells, OneLine t) :
    OneLine (barred cells) := by
  have hcells : OneLine (Text.join " | ".text cells) := oneLine_join (by decide) h
  have hopen : OneLine "| ".text := by decide
  have hclose : OneLine " |".text := by decide
  exact oneLine_append.mpr ⟨oneLine_append.mpr ⟨hopen, hcells⟩, hclose⟩

theorem oneLine_tableRow (cells : List Text) : OneLine (tableRow cells) := by
  apply oneLine_barred
  intro t ht
  obtain ⟨s, -, rfl⟩ := List.mem_map.mp ht
  exact oneLine_cell s

/-- The row is a line whose separators stand around and between the cells, and nowhere else. -/
structure ReadsBack (row : Text) (cells : List Text) : Prop where
  oneLine : OneLine row
  separators : separators row = cells.length + 1
  /-- Nothing stands outside the first and the last separator. -/
  pieces : ∃ pieces, cut row = [] :: (pieces ++ [[]]) ∧
    pieces.map (fun piece => unescapeBars (withoutPadding piece)) =
      cells.map fun t => trim (singleSpaced t)

theorem table_row_reads_back {cells : List Text} (h : cells ≠ []) :
    ReadsBack (tableRow cells) cells where
  oneLine := oneLine_tableRow cells
  separators := by
    have hlength := length_cutAfter none (tableRow cells)
    have hcut := congrArg List.length (cut_tableRow h)
    rw [List.length_cons, List.length_append, List.length_map, List.length_singleton] at hcut
    change (cut (tableRow cells)).length = Markdown.separators (tableRow cells) + 1 at hlength
    omega
  pieces := by
    refine ⟨cells.map padded, cut_tableRow h, ?_⟩
    rw [List.map_map]
    apply List.map_congr_left
    intro t _
    rw [Function.comp_apply, withoutPadding_padded, unescapeBars_cell, collapse_eq]

namespace Sample

/-- Bars, backslashes before bars and at the end, line boundaries, blanks alone, and nothing. -/
def cells : List Text :=
  ["a|b\\".text, "\\|".text, "x \t\u2028 y".text, " \n ".text, []]

end Sample

theorem sample_row_read_back : Sample.cells ≠ [] ∧ ReadsBack (tableRow Sample.cells) Sample.cells ∧
    tableRow Sample.cells = "| a\\|b\\ | \\\\| | x y |  |  |".text := by
  refine ⟨by decide, table_row_reads_back (by decide), by decide +kernel⟩

end ApiPages.Markdown

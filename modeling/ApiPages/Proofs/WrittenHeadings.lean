import ApiPages.Proofs.CodeFence
import ApiPages.Proofs.Outline

/-!
The headings of a text as its reader finds them, line by line and outside fences. A buffer whose
pieces leave no fence open can be read piece by piece, however many rows they make on the page.
-/
namespace ApiPages

open Text Markdown

/-- The heading that a line is: one to six number signs and, if anything, a space and the text.
Blanks at the end of the line count for nothing. -/
def title? (line : Text) : Option Title :=
  let line := trimEnd line
  let level := (line.takeWhile (· == '#'.code)).length
  let rest := line.dropWhile (· == '#'.code)
  if 1 ≤ level ∧ level ≤ 6 ∧ rest.head?.all (· == ' '.code) then some ⟨level, trim rest⟩ else none

/-- The headings of some lines, with the fence that is open in front of them. -/
def titlesFrom (fence : Option Fence) : List Text → List Title
  | [] => []
  | line :: rest =>
    (if fence.isNone then (title? line).toList else []) ++ titlesFrom (fenceBehind fence line) rest

def titles (t : Text) : List Title := titlesFrom none (lines t)

def Title.trimmed (title : Title) : Title := { title with text := trim title.text }

theorem title?_trimEnd (line : Text) : title? (trimEnd line) = title? line := by
  rw [title?, title?, trimEnd_trimEnd]

theorem title?_of_not_isHeading {line : Text} (h : isHeading line = false) :
    title? line = none := by
  rw [title?]
  cases hline : trimEnd line with
  | nil => rfl
  | cons c rest =>
    have hprefix := trimEnd_isPrefix line
    rw [hline] at hprefix
    obtain ⟨more, rfl⟩ := hprefix
    have hc : c ≠ '#'.code := by simpa [isHeading] using h
    simp [hc]

theorem opening?_of_isHeading {line : Text} (h : isHeading line = true) : opening? line = none := by
  cases line with
  | nil => rfl
  | cons c rest =>
    have hc : c = '#'.code := by simpa [isHeading] using h
    rw [hc, opening?_cons (by decide) (by decide) (by decide)]

theorem title?_line {level : Nat} (hlow : 1 ≤ level) (hhigh : level ≤ 6) (t : Text) :
    title? (Heading.line level t) = some ⟨level, trim t⟩ := by
  have hspace : isBlank ' '.code = true := by decide
  have hmarks : ∀ c ∈ List.replicate level '#'.code, c = '#'.code :=
    fun _ => List.eq_of_mem_replicate
  have hend :
      trimEnd (Heading.line level t) =
        List.replicate level '#'.code ++ trimEnd (' '.code :: t) := by
    have hkept : trimEnd (List.replicate level '#'.code) = List.replicate level '#'.code := by
      apply trimEnd_of_not_isBlank
      intro c hc
      rw [hmarks c hc]
      decide
    rw [Heading.line, trimEnd_append]
    split
    · rename_i hnil
      rw [hnil, hkept, List.append_nil]
    · rfl
  have hhead : (trimEnd (' '.code :: t)).head?.all (· == ' '.code) = true := by
    rw [trimEnd_cons_of_isBlank hspace]
    split <;> rfl
  have hother : (trimEnd (' '.code :: t)).head? ≠ some '#'.code := by
    intro h
    rw [h] at hhead
    exact absurd hhead (by decide)
  obtain ⟨htake, hdrop⟩ := marks_of_append hmarks hother
  simp only [title?, hend, htake, hdrop, List.length_replicate, trim_trimEnd,
    trim_cons_of_isBlank hspace]
  rw [if_pos ⟨hlow, hhigh, hhead⟩]

theorem titlesFrom_cons (fence : Option Fence) (line : Text) (rest : List Text) :
    titlesFrom fence (line :: rest) =
      titlesFrom fence [line] ++ titlesFrom (fenceBehind fence line) rest := by
  rw [titlesFrom, titlesFrom, titlesFrom, List.append_nil]

theorem titlesFrom_append (fence : Option Fence) (before after : List Text) :
    titlesFrom fence (before ++ after) =
      titlesFrom fence before ++ titlesFrom (before.foldl fenceBehind fence) after := by
  induction before generalizing fence with
  | nil => rfl
  | cons line before ih =>
    rw [List.cons_append, titlesFrom_cons, ih, titlesFrom_cons fence line before, List.append_assoc]
    rfl

theorem titlesFrom_trimEnd (fence : Option Fence) (line : Text) :
    titlesFrom fence [trimEnd line] = titlesFrom fence [line] := by
  rw [titlesFrom, titlesFrom, title?_trimEnd]
  rfl

theorem titlesFrom_empty (fence : Option Fence) : titlesFrom fence [[]] = [] := by
  cases fence <;> rfl

namespace Lines

theorem render_singleton (line : Text) : render [line] = trimEnd line ++ ['\n'.code] := by
  rw [render, join_singleton]

theorem render_cons_cons (line next : Text) (rest : Lines) :
    render (line :: next :: rest) =
      if render (next :: rest) = ['\n'.code] then render [line]
      else line ++ '\n'.code :: render (next :: rest) := by
  have hfeed : isBlank '\n'.code = true := by decide
  rw [render_singleton, render, join_cons_cons, List.append_assoc, trimEnd_append,
    List.singleton_append, trimEnd_cons_of_isBlank hfeed, render]
  generalize trimEnd (join ['\n'.code] (next :: rest)) = below
  cases below with
  | nil => simp
  | cons c more => simp

end Lines

theorem titlesFrom_lines_render_singleton (fence : Option Fence) {line : Text} (h : OneLine line) :
    titlesFrom fence (lines (Lines.render [line])) = titlesFrom fence [line] := by
  have htrimmed : OneLine (trimEnd line) :=
    h.mono fun _ hc => (trimEnd_isPrefix line).subset hc
  rw [Lines.render_singleton, lines_append_newline htrimmed, lines, titlesFrom_trimEnd]

/-- Nothing is lost when a buffer of single lines is written and its lines are read again, but blank
lines at the end. -/
theorem titlesFrom_lines_render (fence : Option Fence) {buffer : Lines}
    (h : ∀ line ∈ buffer, OneLine line) :
    titlesFrom fence (lines buffer.render) = titlesFrom fence buffer := by
  induction buffer generalizing fence with
  | nil => exact titlesFrom_empty fence
  | cons line rest ih =>
    have hline := h line List.mem_cons_self
    cases rest with
    | nil => exact titlesFrom_lines_render_singleton fence hline
    | cons next rest =>
      have hbelow := ih (fenceBehind fence line)
        fun other ho => h other (List.mem_cons_of_mem line ho)
      rw [Lines.render_cons_cons, titlesFrom_cons fence line]
      split
      · rename_i hblank
        have hnone : titlesFrom (fenceBehind fence line) (lines ['\n'.code]) = [] :=
          titlesFrom_empty _
        rw [hblank, hnone] at hbelow
        rw [titlesFrom_lines_render_singleton fence hline, ← hbelow, List.append_nil]
      · rw [lines_append_newline hline, titlesFrom_cons fence line, hbelow]

theorem render_flatMap_rows (buffer : Lines) :
    Lines.render (buffer.flatMap rows) = buffer.render := by
  have hjoin : join ['\n'.code] (buffer.flatMap rows) = join ['\n'.code] buffer := by
    induction buffer with
    | nil => rfl
    | cons piece rest ih =>
      cases rest with
      | nil => rw [List.flatMap_cons, List.flatMap_nil, List.append_nil, join_rows, join_singleton]
      | cons next rest =>
        have hnext : (next :: rest).flatMap rows ≠ [] := by
          rw [List.flatMap_cons]
          exact List.append_ne_nil_of_left_ne_nil (rows_ne_nil next) _
        rw [List.flatMap_cons, join_append (rows_ne_nil piece) hnext, join_rows, ih,
          join_cons_cons]
  rw [Lines.render, Lines.render, hjoin]

/-- A piece of a buffer that is on the page what it is in the buffer: its rows hold no heading but
the one that it is, and they leave no fence open. -/
structure SelfContained (piece : Text) : Prop where
  rows_oneLine : ∀ row ∈ rows piece, OneLine row
  heading : titlesFrom none (rows piece) = (title? piece).toList
  fence : (rows piece).foldl fenceBehind none = none

theorem selfContained_of_oneLine {line : Text} (h : OneLine line) (hfence : opening? line = none) :
    SelfContained line := by
  have hrows := rows_of_oneLine h
  refine ⟨?_, ?_, ?_⟩
  · intro row hrow
    rw [hrows, List.mem_singleton] at hrow
    exact hrow ▸ h
  · rw [hrows, titlesFrom, titlesFrom, List.append_nil]
    rfl
  · rw [hrows]
    exact hfence

theorem selfContained_codeBlock {language code : Text} (hl : OneLine language)
    (hlanguage : backtick ∉ language) (hc : OneLine code) :
    SelfContained (codeBlock language code) := by
  have hrows := rows_codeBlock hl hc
  obtain ⟨hopen, hcode, hclose⟩ := fenceBehind_codeBlock hlanguage code
  have hfirst : title? (fence code ++ language) = none := by
    apply title?_of_not_isHeading
    rw [isHeading, head?_fence]
    rfl
  refine ⟨?_, ?_, ?_⟩
  · rw [hrows]
    exact fun row => oneLine_of_mem_blockRows hl hc
  · rw [title?_of_not_isHeading (isHeading_codeBlock language code), hrows, blockRows]
    simp [titlesFrom, hfirst, hopen, hcode]
  · rw [hrows, blockRows]
    simp [hopen, hcode, hclose]

theorem titlesFrom_rows {buffer : Lines} (h : ∀ piece ∈ buffer, SelfContained piece) :
    titlesFrom none (buffer.flatMap rows) = buffer.filterMap title? ∧
      (buffer.flatMap rows).foldl fenceBehind none = none := by
  induction buffer with
  | nil => exact ⟨rfl, rfl⟩
  | cons piece rest ih =>
    obtain ⟨hrest, hfence⟩ := ih fun other ho => h other (List.mem_cons_of_mem piece ho)
    have hpiece := h piece List.mem_cons_self
    rw [List.flatMap_cons]
    refine ⟨?_, ?_⟩
    · rw [titlesFrom_append, hpiece.fence, hpiece.heading, hrest, List.filterMap_cons]
      cases title? piece <;> rfl
    · rw [List.foldl_append, hpiece.fence, hfence]

theorem titles_render_around {above below : Lines} {written : List Text}
    (habove : ∀ piece ∈ above, SelfContained piece) (hbelow : ∀ piece ∈ below, SelfContained piece)
    (hwritten : ∀ line ∈ written, OneLine line)
    (hclosed : written.foldl fenceBehind none = none) :
    titles (Lines.render (above ++ written ++ below)) =
      above.filterMap title? ++ titlesFrom none written ++ below.filterMap title? := by
  have hrows : (above ++ written ++ below).flatMap rows =
      above.flatMap rows ++ written ++ below.flatMap rows := by
    rw [List.flatMap_append, List.flatMap_append, flatMap_rows_of_oneLine hwritten]
  have hline : ∀ row ∈ above.flatMap rows ++ written ++ below.flatMap rows, OneLine row := by
    intro row hrow
    rw [List.mem_append, List.mem_append] at hrow
    rcases hrow with (hrow | hrow) | hrow
    · obtain ⟨piece, hp, hrow⟩ := List.mem_flatMap.mp hrow
      exact (habove piece hp).rows_oneLine row hrow
    · exact hwritten row hrow
    · obtain ⟨piece, hp, hrow⟩ := List.mem_flatMap.mp hrow
      exact (hbelow piece hp).rows_oneLine row hrow
  obtain ⟨haboveTitles, haboveFence⟩ := titlesFrom_rows habove
  obtain ⟨hbelowTitles, -⟩ := titlesFrom_rows hbelow
  rw [titles, ← render_flatMap_rows, hrows, titlesFrom_lines_render none hline, titlesFrom_append,
    titlesFrom_append, List.foldl_append, haboveFence, hclosed, haboveTitles, hbelowTitles]

theorem filterMap_title?_eq {buffer : Lines} {expected : List Title}
    (h : buffer.filter isHeading = expected.map Title.line)
    (hlevels : ∀ title ∈ expected, 1 ≤ title.level ∧ title.level ≤ 6) :
    buffer.filterMap title? = expected.map Title.trimmed := by
  have hfilter : buffer.filterMap title? = (buffer.filter isHeading).filterMap title? := by
    rw [List.filterMap_filter]
    apply List.filterMap_congr
    intro line _
    cases hline : isHeading line with
    | false => simp [title?_of_not_isHeading hline]
    | true => rfl
  rw [hfilter, h, List.filterMap_map, ← List.filterMap_eq_map]
  apply List.filterMap_congr
  intro title htitle
  obtain ⟨hlow, hhigh⟩ := hlevels title htitle
  exact title?_line hlow hhigh title.text

end ApiPages

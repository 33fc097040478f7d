import ApiPages.Text.Line
import ApiPages.Member.FieldView

/-!
The buffer of a document: lines in the order in which they were put there. An element may hold line
breaks of its own when it was put there as one piece.
-/
namespace ApiPages

abbrev Lines := List Text

namespace Lines

/-- What a heading adds: an empty line, unless one is there or nothing is, the heading, and an empty
line. -/
def headingLines (buffer : Lines) (level : Nat) (t : Text) : Lines :=
  (if buffer.getLast?.any (!·.isEmpty) then [[]] else []) ++ [Heading.line level t, []]

def heading (buffer : Lines) (level : Nat) (t : Text) : Lines :=
  buffer ++ buffer.headingLines level t

/-- The buffer as one text: the lines with line feeds between them, without the blanks at the end,
and a line feed. -/
def render (buffer : Lines) : Text := Text.trimEnd (Text.join ['\n'.code] buffer) ++ ['\n'.code]

end Lines

def methodTableHead : Lines := Markdown.tableHead methodTitles

def fieldTableHead : Lines := Markdown.tableHead fieldTitles

end ApiPages

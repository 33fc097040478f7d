import ApiPages.Text.Blank

/-!
Line boundaries and the lines of a text.
-/
namespace ApiPages.Text

def lineBreakRanges : List CodeRange := [(10, 13), (28, 30), (133, 133), (8232, 8233)]

def isLineBreak (c : CodePoint) : Bool := inRanges lineBreakRanges c.toNat

/-- The lines without their boundaries. A carriage return with a line feed after it is one
boundary, and a boundary at the very end opens no further line. -/
def lines : Text → List Text
  | [] => []
  | .carriageReturn :: .lineFeed :: rest => [] :: lines rest
  | c :: rest =>
    if isLineBreak c then [] :: lines rest
    else match lines rest with
      | [] => [[c]]
      | line :: more => (c :: line) :: more

theorem isBlank_of_isLineBreak {c : CodePoint} (h : isLineBreak c = true) : isBlank c = true := by
  simp only [isLineBreak, lineBreakRanges, inRanges] at h
  simp only [isBlank, blankRanges, inRanges]
  grind

end ApiPages.Text

import ApiPages.Text.Blank

/-!
The first sentence of a comment: up to the first period with a space or nothing after it.
-/
namespace ApiPages.Markdown

def upToPeriod : Text → Text
  | [] => []
  | c :: rest =>
    if c = '.'.code ∧ (rest = [] ∨ rest.head? = some ' '.code) then [c] else c :: upToPeriod rest

/-- The first sentence on one line, or the whole comment on one line if no sentence ends. -/
def firstSentence (comment : Text) : Text := upToPeriod (Text.collapse comment)

end ApiPages.Markdown

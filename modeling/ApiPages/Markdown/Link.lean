import ApiPages.Text.Basic

/-!
Links. Brackets in a label are escaped, and so is whatever would end a target early.
-/
namespace ApiPages.Markdown

def escapeLabel (t : Text) : Text :=
  t.flatMap fun c => if c = '['.code ∨ c = ']'.code then ['\\'.code, c] else [c]

def escapeTargetChar (c : CodePoint) : Text :=
  if c = ' '.code then "%20".text
  else if c = '('.code then "%28".text
  else if c = ')'.code then "%29".text
  else [c]

def escapeTarget (t : Text) : Text := t.flatMap escapeTargetChar

/-- A piece of a target given in pieces: only a piece of one character is ever escaped. -/
def escapeTargetPiece : Text → Text
  | [c] => escapeTargetChar c
  | t => t

def linkTo (label escaped : Text) : Text :=
  '['.code :: escapeLabel label ++ "](".text ++ escaped ++ [')'.code]

def link (label target : Text) : Text := linkTo label (escapeTarget target)

end ApiPages.Markdown

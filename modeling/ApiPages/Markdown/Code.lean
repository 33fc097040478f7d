import ApiPages.Text.Blank

/-!
Code in a line and code in a block. The fence of a block is longer than any run of backticks inside.
-/
namespace ApiPages.Markdown

def backtick : CodePoint := '\x60'.code

def code (t : Text) : Text := backtick :: t ++ [backtick]

/-- The length of the longest run of a character, with `current` of them just before the text. -/
def longestRunAfter (c : CodePoint) (current : Nat) : Text → Nat
  | [] => current
  | d :: rest =>
    if d = c then longestRunAfter c (current + 1) rest
    else max current (longestRunAfter c 0 rest)

def longestRun (c : CodePoint) (t : Text) : Nat := longestRunAfter c 0 t

/-- At least three backticks, and more than stand together anywhere in the code. -/
def fence (t : Text) : Text := List.replicate (max 3 (longestRun backtick t + 1)) backtick

def codeBlock (language t : Text) : Text :=
  fence t ++ language ++ '\n'.code :: Text.trimEnd t ++ '\n'.code :: fence t

end ApiPages.Markdown

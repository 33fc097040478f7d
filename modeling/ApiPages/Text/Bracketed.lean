import ApiPages.Text.Basic

/-!
Collections written in brackets, as they stand in messages.
-/
namespace ApiPages.Text

def partSeparator : Text := ", ".text

def ofItems (items : List Text) : Text := '['.code :: join partSeparator items ++ [']'.code]

/-- A tuple written with the texts of its items; a comma shows that a single item is no mere
parenthesis. -/
def ofTuple (items : List Text) : Text :=
  '('.code :: join partSeparator items ++
    (if items.length = 1 then [','.code, ')'.code] else [')'.code])

def ofSet (members : List Text) : Text :=
  if members.isEmpty then "set()".text
  else '\x7b'.code :: join partSeparator members ++ ['\x7d'.code]

def ofEntries (entries : List (Text × Text)) : Text :=
  '\x7b'.code :: join partSeparator (entries.map fun e => e.1 ++ ": ".text ++ e.2) ++ ['\x7d'.code]

end ApiPages.Text

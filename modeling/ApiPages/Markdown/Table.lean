import ApiPages.Text.Blank

/-!
Tables, one row at a time. A cell is one line, and a bar inside it is escaped.
-/
namespace ApiPages.Markdown

def cell (t : Text) : Text := Text.replace '|'.code ['\\'.code, '|'.code] (Text.collapse t)

def barred (cells : List Text) : Text :=
  "| ".text ++ Text.join " | ".text cells ++ " |".text

/-- The two lines that begin a table: the column titles as they are, and the rule below them. -/
def tableHead (titles : List Text) : List Text :=
  [barred titles, barred (titles.map fun _ => "---".text)]

def tableRow (cells : List Text) : Text := barred (cells.map cell)

end ApiPages.Markdown

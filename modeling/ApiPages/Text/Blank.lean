import ApiPages.Text.CodeRange

/-!
Blank characters, and what disregards them: words, trimming, and a text with its runs of blanks
made single spaces.
-/
namespace ApiPages.Text

/-- Runs of blank characters: the white space of Unicode with the four information separators. -/
def blankRanges : List CodeRange :=
  [(9, 13), (28, 32), (133, 133), (160, 160), (5760, 5760), (8192, 8202), (8232, 8233),
   (8239, 8239), (8287, 8287), (12288, 12288)]

def isBlank (c : CodePoint) : Bool := inRanges blankRanges c.toNat

def blank (t : Text) : Bool := t.all isBlank

def words (t : Text) : List Text := (t.splitOnP isBlank).filter fun w => !w.isEmpty

/-- The words with one space between neighbours: runs of blanks become single spaces and the ends
lose theirs. -/
def collapse (t : Text) : Text := join [' '.code] (words t)

def trimStart (t : Text) : Text := t.dropWhile isBlank

def trimEnd (t : Text) : Text := (t.reverse.dropWhile isBlank).reverse

def trim (t : Text) : Text := trimEnd (trimStart t)

theorem not_isBlank_of_mem_words {t w : Text} (hw : w ∈ words t) {c : CodePoint} (hc : c ∈ w) :
    isBlank c = false := not_of_mem_splitOnP (List.mem_filter.1 hw).1 hc

end ApiPages.Text

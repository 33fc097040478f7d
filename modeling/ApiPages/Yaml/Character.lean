import ApiPages.Text.Basic

/-!
The characters that structure a document.
-/
namespace ApiPages.Yaml

/-- What ends a line. Carriage returns were made line feeds when the file was read. -/
def isBreak (c : CodePoint) : Bool := 
  c == '\n'.code || c == '\x85'.code || c == '\u2028'.code || c == '\u2029'.code

def breakText (c : CodePoint) : CodePoint := if c == '\x85'.code then '\n'.code else c

def isSpaceOrTab (c : CodePoint) : Bool := c == ' '.code || c == '\t'.code

def separates : Option CodePoint → Bool
  | none => true
  | some c => isSpaceOrTab c || isBreak c

def endsTag : Option CodePoint → Bool
  | none => true
  | some c => c == ' '.code || isBreak c

def isNameCharacter (c : CodePoint) : Bool := c.isAlphanum || c == '-'.code || c == '_'.code

def tagPunctuation : Text := "-;/?:@&=+$,_.!~*\x27()[]".text

def isTagCharacter (c : CodePoint) : Bool := c.isAlphanum || tagPunctuation.contains c

def isAllowed (c : CodePoint) : Bool :=
  c == '\t'.code || c == '\n'.code || c == '\x85'.code || (0x20 ≤ c.toNat && c.toNat ≤ 0x7E) ||
    (0xA0 ≤ c.toNat && c.toNat < 0xD800) || (0xE000 ≤ c.toNat && c.toNat ≤ 0xFFFD) ||
    0xFFFF < c.toNat

def byteOrderMark : CodePoint := '\ufeff'.code

end ApiPages.Yaml

import ApiPages.Text.PrintableTable

/-!
Quoted text, as it stands in messages: between single quotes, or between double quotes when only
that spares an escape. What is not printable is written as an escape with its code point.
-/
namespace ApiPages.Text

def isPrintable (c : CodePoint) : Bool := inRanges printableRanges c.toNat

def hexPadded (width n : Nat) : Text :=
  List.replicate (width - (digits 16 n).length) '0'.code ++ digits 16 n

def escapeChar (quote c : CodePoint) : Text :=
  if c = quote ∨ c = '\\'.code then ['\\'.code, c]
  else if c = '\n'.code then ['\\'.code, 'n'.code]
  else if c = '\r'.code then ['\\'.code, 'r'.code]
  else if c = '\t'.code then ['\\'.code, 't'.code]
  else if isPrintable c then [c]
  else if c.toNat < 256 then '\\'.code :: 'x'.code :: hexPadded 2 c.toNat
  else if c.toNat < 65536 then '\\'.code :: 'u'.code :: hexPadded 4 c.toNat
  else '\\'.code :: 'U'.code :: hexPadded 8 c.toNat

/-- Single quotes, unless the text holds a single quote and no double quote. -/
def quoteFor (t : Text) : CodePoint :=
  if '\x27'.code ∈ t ∧ '\x22'.code ∉ t then '\x22'.code else '\x27'.code

def quoted (t : Text) : Text :=
  let quote := quoteFor t
  quote :: t.flatMap (escapeChar quote) ++ [quote]

/-- Octets are quoted as the characters of their numbers, of which the printable ones are those from
the space to the tilde. -/
def escapeOctet (quote : CodePoint) (b : UInt8) : Text :=
  if b.toNat < 127 then escapeChar quote (.ofNat b.toNat)
  else '\\'.code :: 'x'.code :: hexPadded 2 b.toNat

def quotedOctets (octets : List UInt8) : Text :=
  let quote := quoteFor (octets.map fun b => .ofNat b.toNat)
  'b'.code :: quote :: octets.flatMap (escapeOctet quote) ++ [quote]

end ApiPages.Text

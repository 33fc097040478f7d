import ApiPages.Text.Digit
import ApiPages.Text.LowerCase
import ApiPages.Number.Binary64

/-!
Reading numerals: integers in a base and decimal fractions with exponents. Blanks around a numeral
are ignored, and the digits of all scripts count.
-/
namespace ApiPages.Numeral

def mostDigits : Nat := 4300

/-- A character as the plain one that it counts as in a numeral: a blank as a space, a digit of any
script as one from zero to nine. A question mark, which no numeral holds, stands for the rest. -/
def plainCharacter (c : CodePoint) : CodePoint :=
  if c.toNat < 127 then c
  else if Text.isBlank c then ' '.code
  else match Text.digit? c with
    | some d => CodePoint.ofNat ('0'.toNat + d)
    | none => '?'.code

/-- The blanks ignored around a numeral: the six classical ones. -/
def isIgnored (c : CodePoint) : Bool := c == ' '.code || (9 ≤ c.toNat && c.toNat ≤ 13)

def trimmed (t : Text) : Text :=
  (((t.map plainCharacter).dropWhile isIgnored).reverse.dropWhile isIgnored).reverse

def sign (t : Text) : Bool × Text :=
  if t.head? = some '-'.code then (true, t.tail)
  else if t.head? = some '+'.code then (false, t.tail)
  else (false, t)

def natural? (base : Nat) : Text → Option Nat
  | [] => none
  | t => (t.mapM (Text.digitIn? base)).map fun digits =>
    digits.foldl (fun n d => base * n + d) 0

def announces (base : Nat) (c : CodePoint) : Bool :=
  match base with
  | 2 => c == 'b'.code || c == 'B'.code
  | 8 => c == 'o'.code || c == 'O'.code
  | 16 => c == 'x'.code || c == 'X'.code
  | _ => false

def withoutAnnouncement (base : Nat) (t : Text) : Text :=
  if t.head? = some '0'.code ∧ t.tail.head?.any (announces base) then t.drop 2 else t

def int? (base : Nat) (t : Text) : Option Int := do
  let (negative, body) := sign (trimmed t)
  let body := withoutAnnouncement base body
  if base = 10 ∧ mostDigits < body.length then none
  let n ← natural? base body
  return if negative then -n else n

/-- The number `mantissa * 10 ^ exponent`. Beyond four hundred places it is infinite or zero. -/
def scaled (negative : Bool) (mantissa : Nat) (exponent : Int) : Binary64 :=
  let places : Int := (Text.ofNat mantissa).length + exponent
  if mantissa = 0 ∨ places < -400 then .finite negative 0
  else if 400 < places then .infinite negative
  else Binary64.ofRatio negative (mantissa * Nat.pow 10 exponent.toNat)
    (Nat.pow 10 (-exponent).toNat)

def leadingDigits : Text → List Nat × Text
  | [] => ([], [])
  | c :: rest =>
    match Text.digit? c with
    | some d => let (digits, left) := leadingDigits rest; (d :: digits, left)
    | none => ([], c :: rest)

def exponent? : Text → Option Int
  | [] => some 0
  | c :: rest =>
    if c = 'e'.code ∨ c = 'E'.code then
      let (negative, digits) := sign rest
      (natural? 10 digits).map fun n => if negative then -n else n
    else none

def fraction (t : Text) : List Nat × Text :=
  if t.head? = some '.'.code then leadingDigits t.tail else ([], t)

def binary64? (t : Text) : Option Binary64 :=
  let (negative, body) := sign (trimmed t)
  let word := Text.lower body
  if word = "inf".text ∨ word = "infinity".text then some (.infinite negative)
  else if word = "nan".text then some .nan
  else
    let (whole, afterWhole) := leadingDigits body
    let (part, afterPart) := fraction afterWhole
    if whole.isEmpty ∧ part.isEmpty then none
    else (exponent? afterPart).map fun e =>
      scaled negative ((whole ++ part).foldl (fun n d => 10 * n + d) 0) (e - part.length)

end ApiPages.Numeral

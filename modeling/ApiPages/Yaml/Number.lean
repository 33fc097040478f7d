import ApiPages.Number.Numeral
import ApiPages.Text.LowerCase
import ApiPages.Value.Basic
import ApiPages.Yaml.Defect

/-!
Numbers and truth values as scalars spell them. Underscores are left out before a number is read,
and a number may have parts of sixty with colons between them.
-/
namespace ApiPages.Yaml

namespace Number

def withoutUnderscores (t : Text) : Text := t.filter (· != '_'.code)

def sixties (parts : List Int) : Int := parts.foldl (fun n part => 60 * n + part) 0

def parts (t : Text) : List Text := t.splitOn ':'.code

def readable {α : Type} : Option α → Except Defect α
  | some a => .ok a
  | none => .error .unreadable

/-- An integer without sign: binary, hexadecimal or octal by what it starts with, else decimal. -/
def unsigned? (t : Text) : Except Defect Int := do
  if t.isEmpty then throw .emptyNumber
  else if t = "0".text then return 0
  else if "0b".text.isPrefixOf t then readable (Numeral.int? 2 (t.drop 2))
  else if "0x".text.isPrefixOf t then readable (Numeral.int? 16 (t.drop 2))
  else if "0".text.isPrefixOf t then readable (Numeral.int? 8 t)
  else if t.contains ':'.code then readable (((parts t).mapM (Numeral.int? 10)).map sixties)
  else readable (Numeral.int? 10 t)

/-- Whether there is a minus sign, and what follows the sign if there is one. Of nothing at all
neither can be said. -/
def signed? : Text → Except Defect (Bool × Text)
  | [] => .error .emptyNumber
  | c :: rest =>
    if c = '-'.code then .ok (true, rest)
    else if c = '+'.code then .ok (false, rest)
    else .ok (false, c :: rest)

def int? (t : Text) : Except Defect Int := do
  let (negative, body) ← signed? (withoutUnderscores t)
  let n ← unsigned? body
  return if negative then -n else n

/-- The rounded sum of parts of sixty, added up from single units on; the unit of the first part is
given. A unit has to be in the range of the numbers. -/
def addSixties (unit : Nat) (sum : Binary64) : List Binary64 → Except Defect Binary64
  | [] => .ok sum
  | x :: rest =>
    match Binary64.ofNat unit with
    | .infinite _ => .error .tooLarge
    | u => addSixties (60 * unit) (sum.add (x.mul u)) rest

def infinityName : Text := ".inf".text

def nanName : Text := ".nan".text

def float? (t : Text) : Except Defect Binary64 := do
  let (negative, body) ← signed? (Text.lower (withoutUnderscores t))
  let x ←
    if body = infinityName then pure (.infinite false)
    else if body = nanName then pure .nan
    else if body.contains ':'.code then
      addSixties 1 .zero (← readable ((parts body).mapM Numeral.binary64?)).reverse
    else readable (Numeral.binary64? body)
  return if negative then x.neg else x

/-- Whether a scalar names the number that is none, instead of being worked out to it. -/
def namesNan (t : Text) : Bool :=
  match signed? (Text.lower (withoutUnderscores t)) with
  | .ok (_, body) => body = nanName
  | .error _ => false

def truths : List (Text × Bool) :=
  [("yes".text, true), ("no".text, false), ("true".text, true), ("false".text, false),
   ("on".text, true), ("off".text, false)]

def bool? (t : Text) : Except Defect Bool :=
  match truths.lookup (Text.lower t) with
  | some b => .ok b
  | none => .error .notTruth

end Number

end ApiPages.Yaml

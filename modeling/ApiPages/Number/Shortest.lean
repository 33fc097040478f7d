import ApiPages.Text.Basic
import ApiPages.Number.Binary64

/-!
The shortest decimal that reads back as a given binary number, and its written form.
-/
namespace ApiPages.Binary64

/-- A decimal numeral: its digits stand after the decimal point, which is then moved `point` places
to the right. -/
structure Decimal where
  digits : Text
  point : Int
  deriving DecidableEq, Repr

def leadingPlaces (units : Nat) : Int :=
  if one ≤ units then (Text.ofNat (units / one)).length
  else 1 - ((Text.ofNat (one / units)).length : Int)

/-- The reals that round to a number lie between these bounds, given in quarters of a unit. -/
def lowerBound (units : Nat) : Nat :=
  let step := spacing units
  if 1 < step ∧ bits (units - 1) < bits units then 4 * units - step else 4 * units - 2 * step

def upperBound (units : Nat) : Nat := 4 * units + 2 * spacing units

def stepQuarters (count : Nat) (place : Int) : Nat := count * Nat.pow 10 place.toNat * (4 * one)

def stepScale (place : Int) : Nat := Nat.pow 10 (-place).toNat

def readsBack (units count : Nat) (place : Int) : Bool :=
  let x := stepQuarters count place
  let low := lowerBound units * stepScale place
  let high := upperBound units * stepScale place
  if units / spacing units % 2 = 0 then low ≤ x && x ≤ high else low < x && x < high

/-- The count of steps of `10 ^ place` nearest to a number among those that read back; halfway, the
even one. -/
def nearestCount? (units : Nat) (place : Int) : Option Nat :=
  let value := 4 * units * stepScale place
  let below := value / stepQuarters 1 place
  let above := below + 1
  match readsBack units below place, readsBack units above place with
  | false, false => none
  | true, false => some below
  | false, true => some above
  | true, true =>
    let down := value - stepQuarters below place
    let up := stepQuarters above place - value
    some (if down < up ∨ (down = up ∧ below % 2 = 0) then below else above)

def shortestFrom (units : Nat) (places : Int) : Nat → Nat → Decimal
  | 0, _ => ⟨['0'.code], 1⟩
  | fuel + 1, count =>
    match nearestCount? units (places - count) with
    | some n =>
      let digits := Text.ofNat n
      ⟨(digits.reverse.dropWhile (· == '0'.code)).reverse, places + digits.length - count⟩
    | none => shortestFrom units places fuel (count + 1)

/-- The shortest decimal of a positive number: seventeen digits always suffice. -/
def shortest (units : Nat) : Decimal :=
  if units = 0 then ⟨['0'.code], 1⟩ else shortestFrom units (leadingPlaces units) 17 1

def leastPlainPoint : Int := -3
def mostPlainPoint : Int := 16

/-- A decimal with a point and at least one digit on each side of it, or with one digit before the
point and an exponent of at least two digits. -/
def Decimal.written (d : Decimal) : Text :=
  let count : Int := d.digits.length
  if leastPlainPoint ≤ d.point ∧ d.point ≤ mostPlainPoint then
    if d.point ≤ 0 then ['0'.code, '.'.code] ++ List.replicate (-d.point).toNat '0'.code ++ d.digits
    else if count ≤ d.point then
      d.digits ++ List.replicate (d.point - count).toNat '0'.code ++ ['.'.code, '0'.code]
    else d.digits.take d.point.toNat ++ ['.'.code] ++ d.digits.drop d.point.toNat
  else
    let exponent := d.point - 1
    let mantissa := if d.digits.length ≤ 1 then d.digits
      else d.digits.take 1 ++ ['.'.code] ++ d.digits.drop 1
    mantissa ++ ['e'.code, if exponent < 0 then '-'.code else '+'.code] ++
      Text.ofNatPadded 2 exponent.natAbs

def text : Binary64 → Text
  | .nan => "nan".text
  | .infinite false => "inf".text
  | .infinite true => "-inf".text
  | .finite negative units =>
    (if negative then ['-'.code] else []) ++ (shortest units).written

end ApiPages.Binary64

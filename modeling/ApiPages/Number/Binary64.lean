/-!
Binary floating-point numbers of 64 bits. A finite number is a sign and a count of units of
`2 ^ -1074`, the smallest positive number, so that all comparison and rounding is exact arithmetic
on natural numbers.
-/
namespace ApiPages

inductive Binary64 where
  | nan
  | infinite (negative : Bool)
  | finite (negative : Bool) (units : Nat)
  deriving DecidableEq, Repr

namespace Binary64

def one : Nat := Nat.pow 2 1074

def bound : Nat := Nat.pow 2 2098

def bits (n : Nat) : Nat := if n = 0 then 0 else n.log2 + 1

/-- The distance between neighbouring numbers just above a magnitude: fifty-three binary digits are
kept. -/
def spacing (units : Nat) : Nat := Nat.pow 2 (bits units - 53)

/-- The nearest natural number to a quotient; halfway, the even one. -/
def roundQuotient (numerator denominator : Nat) : Nat :=
  let quotient := numerator / denominator
  let remainder := numerator % denominator
  if 2 * remainder < denominator ∨ (2 * remainder = denominator ∧ quotient % 2 = 0) then quotient
  else quotient + 1

/-- The number nearest to a quotient of natural numbers; halfway, the one with the even
significand. -/
def ofRatio (negative : Bool) (numerator denominator : Nat) : Binary64 :=
  let step := spacing (numerator * one / denominator)
  let units := roundQuotient (numerator * one) (denominator * step) * step
  if units < bound then .finite negative units else .infinite negative

def ofNat (n : Nat) : Binary64 := ofRatio false n 1

def zero : Binary64 := .finite false 0

def signedUnits (negative : Bool) (units : Nat) : Int := if negative then -units else units

/-- Equality of numbers: both zeros are equal and no number equals `nan`. -/
def same : Binary64 → Binary64 → Bool
  | .finite s m, .finite t n => signedUnits s m == signedUnits t n
  | .infinite s, .infinite t => s == t
  | _, _ => false

def isInt (n : Int) : Binary64 → Bool
  | .finite s m => signedUnits s m == n * one
  | _ => false

def isZero : Binary64 → Bool
  | .finite _ m => m == 0
  | _ => false

def neg : Binary64 → Binary64
  | .nan => .nan
  | .infinite s => .infinite !s
  | .finite s m => .finite (!s) m

def add : Binary64 → Binary64 → Binary64
  | .nan, _ => .nan
  | _, .nan => .nan
  | .infinite s, .infinite t => if s = t then .infinite s else .nan
  | .infinite s, .finite _ _ => .infinite s
  | .finite _ _, .infinite t => .infinite t
  | .finite s m, .finite t n =>
    let sum := signedUnits s m + signedUnits t n
    if sum = 0 then .finite (s && t) 0 else ofRatio (sum < 0) sum.natAbs one

def mul : Binary64 → Binary64 → Binary64
  | .nan, _ => .nan
  | _, .nan => .nan
  | .infinite s, .infinite t => .infinite (s != t)
  | .infinite s, .finite t n => if n = 0 then .nan else .infinite (s != t)
  | .finite s m, .infinite t => if m = 0 then .nan else .infinite (s != t)
  | .finite s m, .finite t n => ofRatio (s != t) (m * n) (one * one)

end Binary64

end ApiPages

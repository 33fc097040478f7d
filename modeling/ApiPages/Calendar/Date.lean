import ApiPages.Text.Basic

/-!
Days of the calendar, from year 1 to year 9999.
-/
namespace ApiPages

structure Date where
  year : Nat
  month : Nat
  day : Nat
  deriving DecidableEq, Repr

namespace Date

def isLeap (year : Nat) : Bool := year % 4 = 0 ∧ (year % 100 ≠ 0 ∨ year % 400 = 0)

def daysInMonth (year month : Nat) : Nat :=
  match month with
  | 2 => if isLeap year then 29 else 28
  | 4 | 6 | 9 | 11 => 30
  | _ => 31

def Valid (d : Date) : Prop :=
  1 ≤ d.year ∧ d.year ≤ 9999 ∧ 1 ≤ d.month ∧ d.month ≤ 12 ∧
    1 ≤ d.day ∧ d.day ≤ daysInMonth d.year d.month

instance (d : Date) : Decidable d.Valid := by unfold Valid; infer_instance

def daysInMonths (year : Nat) : Nat → Nat
  | 0 => 0
  | months + 1 => daysInMonths year months + daysInMonth year (months + 1)

def number (d : Date) : Nat :=
  let y := d.year - 1
  365 * y + y / 4 - y / 100 + y / 400 +
    daysInMonths d.year (d.month - 1) + d.day

def text (d : Date) : Text :=
  Text.ofNatPadded 4 d.year ++ '-'.code :: Text.ofNatPadded 2 d.month ++
    '-'.code :: Text.ofNatPadded 2 d.day

def quoted (d : Date) : Text :=
  "datetime.date(".text ++
    Text.join ", ".text [Text.ofNat d.year, Text.ofNat d.month, Text.ofNat d.day] ++ [')'.code]

end Date

end ApiPages

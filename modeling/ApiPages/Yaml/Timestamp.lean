import ApiPages.Value.Basic
import ApiPages.Yaml.Tag
import ApiPages.Yaml.Defect

/-!
Dates and moments as scalars spell them.
-/
namespace ApiPages.Yaml

namespace Timestamp

def digits? (least most : Nat) (t : Text) : Option (Nat × Text) :=
  let digits := (t.take most).takeWhile CodePoint.isDigit
  if digits.length < least then none
  else some (Text.decimal digits, t.drop digits.length)

def part? (c : CodePoint) (least : Nat) : Text → Option (Nat × Text)
  | [] => none
  | d :: rest => if d = c then digits? least 2 rest else none

def date? (t : Text) : Option (Date × Text) := do
  let (year, t) ← digits? 4 4 t
  let (month, t) ← part? '-'.code 1 t
  let (day, t) ← part? '-'.code 1 t
  return (⟨year, month, day⟩, t)

def separated? (t : Text) : Option Text :=
  if t.head? = some 'T'.code ∨ t.head? = some 't'.code then some t.tail
  else
    let rest := t.dropWhile fun c => c == ' '.code || c == '\t'.code
    if rest.length = t.length then none else some rest

def microseconds (digits : Text) : Nat :=
  let kept := digits.take 6
  Text.decimal kept * Nat.pow 10 (6 - kept.length)

def fraction (t : Text) : Nat × Text :=
  if t.head? = some '.'.code then
    (microseconds (t.tail.takeWhile CodePoint.isDigit), t.tail.dropWhile CodePoint.isDigit)
  else (0, t)

def signedOffset? (negative : Bool) (t : Text) : Option Int := do
  let (hours, t) ← digits? 1 2 t
  let (minutes, t) ← if t.isEmpty then some (0, t) else part? ':'.code 2 t
  if t.isEmpty then
    let total : Int := 60 * hours + minutes
    some (if negative then -total else total)
  else none

def offset? (t : Text) : Option (Option Int) :=
  if t.isEmpty then some none
  else
    let t := t.dropWhile fun c => c == ' '.code || c == '\t'.code
    if t = "Z".text then some (some 0)
    else if t.head? = some '+'.code then (signedOffset? false t.tail).map some
    else if t.head? = some '-'.code then (signedOffset? true t.tail).map some
    else none

def moment? (date : Date) (t : Text) : Option Moment := do
  let t ← separated? t
  let (hour, t) ← digits? 1 2 t
  let (minute, t) ← part? ':'.code 2 t
  let (second, t) ← part? ':'.code 2 t
  let (microsecond, t) := fraction t
  let offset ← offset? t
  return ⟨date, hour, minute, second, microsecond, offset⟩

def value? (t : Text) : Except Defect Value :=
  match date? (Spelling.withoutFinalBreak t) with
  | none => .error .notMoment
  | some (date, rest) =>
    if rest.isEmpty then
      if date.Valid then .ok (.date date) else .error .unreadable
    else match moment? date rest with
      | none => .error .notMoment
      | some m => if m.Valid then .ok (.moment m) else .error .unreadable

end Timestamp

end ApiPages.Yaml

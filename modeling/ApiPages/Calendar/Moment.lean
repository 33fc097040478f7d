import ApiPages.Calendar.Date

/-!
Times of day on a date, to the microsecond, with or without an offset from universal time.
-/
namespace ApiPages

structure Moment where
  date : Date
  hour : Nat
  minute : Nat
  second : Nat
  microsecond : Nat
  /-- Minutes east of universal time. -/
  offset : Option Int
  deriving DecidableEq, Repr

namespace Moment

def Valid (m : Moment) : Prop :=
  m.date.Valid ∧ m.hour < 24 ∧ m.minute < 60 ∧ m.second < 60 ∧ m.microsecond < 1000000 ∧
    ∀ o ∈ m.offset, o.natAbs < 1440

instance (m : Moment) : Decidable m.Valid := by
  unfold Valid
  cases h : m.offset <;> simp only [Option.mem_def] <;> infer_instance

def clock (m : Moment) : Int :=
  (((m.date.number * 24 + m.hour) * 60 + m.minute) * 60 + m.second) * 1000000 + m.microsecond

/-- Equality of moments: with offsets, at the same universal time; without, on the same clock. -/
def same (a b : Moment) : Bool :=
  match a.offset, b.offset with
  | none, none => a.clock == b.clock
  | some x, some y => a.clock - x * 60000000 == b.clock - y * 60000000
  | _, _ => false

def offsetText (offset : Int) : Text :=
  (if offset < 0 then '-'.code else '+'.code) :: Text.ofNatPadded 2 (offset.natAbs / 60) ++
    ':'.code :: Text.ofNatPadded 2 (offset.natAbs % 60)

def text (m : Moment) : Text :=
  m.date.text ++ ' '.code :: Text.ofNatPadded 2 m.hour ++ ':'.code :: Text.ofNatPadded 2 m.minute ++
    ':'.code :: Text.ofNatPadded 2 m.second ++
    (if m.microsecond = 0 then [] else '.'.code :: Text.ofNatPadded 6 m.microsecond) ++
    (m.offset.map offsetText).getD []

/-- An offset as it stands in messages: days, possibly negative, and the seconds left over. -/
def offsetQuoted (offset : Int) : Text :=
  if offset = 0 then "datetime.timezone.utc".text
  else
    let seconds := offset * 60
    let days := seconds.fdiv 86400
    let rest := seconds.fmod 86400
    let parts :=
      (if days = 0 then [] else ["days=".text ++ Text.ofInt days]) ++
      (if rest = 0 then [] else ["seconds=".text ++ Text.ofInt rest])
    "datetime.timezone(datetime.timedelta(".text ++ Text.join ", ".text parts ++ "))".text

/-- The moment as it stands in messages; zero seconds and microseconds are left out. -/
def quoted (m : Moment) : Text :=
  let seconds : List Nat :=
    if m.microsecond ≠ 0 then [m.second, m.microsecond]
    else if m.second ≠ 0 then [m.second] else []
  let numbers := [m.date.year, m.date.month, m.date.day, m.hour, m.minute] ++ seconds
  let parts := numbers.map Text.ofNat ++
    (m.offset.map fun o => ["tzinfo=".text ++ offsetQuoted o]).getD []
  "datetime.datetime(".text ++ Text.join ", ".text parts ++ [')'.code]

end Moment

end ApiPages

import ApiPages.Text.Digit
import ApiPages.Yaml.Cursor
import ApiPages.Yaml.Defect

/-!
Block scalars: indented lines after a header. In literal scalars the lines stay as they are; in
folded ones a single line feed between two lines that start with text is read as a space.
-/
namespace ApiPages.Yaml

namespace Cursor

def endLine? (c : Cursor) : Except Defect Cursor :=
  let c := c.skipSpaces
  let c := if c.peek = some '#'.code then (c.span fun x => !isBreak x).2 else c
  match c.peek with
  | none => .ok c
  | some x => if isBreak x then .ok c.next else .error .malformed

end Cursor

namespace Block

inductive Ending where
  | strip
  | clip
  | keep
  deriving DecidableEq, Repr

def ending? (c : CodePoint) : Option Ending :=
  if c = '+'.code then some .keep else if c = '-'.code then some .strip else none

def indentation? (c : Cursor) : Except Defect (Option Nat × Cursor) :=
  match c.peek with
  | some x =>
    if !x.isDigit then .ok (none, c)
    else if x = '0'.code then .error .malformed
    else .ok (some (x.toNat - '0'.code.toNat), c.next)
  | none => .ok (none, c)

structure Header where
  ending : Ending
  indentation : Option Nat
  deriving DecidableEq, Repr

def header? (c : Cursor) : Except Defect (Header × Cursor) := do
  let (header, c) ← match c.peek.bind ending? with
    | some ending => do
      let (n, c) ← indentation? c.next
      pure (⟨ending, n⟩, c)
    | none => do
      let (n, c) ← indentation? c
      match n, c.peek.bind ending? with
      | some n, some ending => pure (Header.mk ending (some n), c.next)
      | n, _ => pure (Header.mk .clip n, c)
  if endsTag c.peek then return (header, ← c.endLine?) else throw .malformed

def emptyLines (indentation : Nat) (c : Cursor) : Text × Cursor :=
  match _h : c.rest with
  | [] => ([], c)
  | x :: _ =>
    if x = ' '.code ∧ c.column < indentation then emptyLines indentation c.next
    else if isBreak x then
      let (breaks, e) := emptyLines indentation c.next
      (breakText x :: breaks, e)
    else ([], c)
termination_by c.rest.length
decreasing_by all_goals simp [_h]

/-- The empty lines at a position when the first line that is not empty shows the indentation: their
breaks, the most columns any of them is indented by, and the position after them. -/
def leadingLines (deepest : Nat) (c : Cursor) : Text × Nat × Cursor :=
  match _h : c.rest with
  | [] => ([], deepest, c)
  | x :: _ =>
    if x = ' '.code then leadingLines (max deepest c.next.column) c.next
    else if isBreak x then
      let (breaks, n, e) := leadingLines deepest c.next
      (breakText x :: breaks, n, e)
    else ([], deepest, c)
termination_by c.rest.length
decreasing_by all_goals simp [_h]

def atLine (indentation : Nat) (c : Cursor) : Bool :=
  c.column == indentation && !c.rest.isEmpty

def joint (folded : Bool) (lineBreak breaks : Text) (thisLine nextLine : Cursor) : Text :=
  let spaced (c : Cursor) : Bool := c.peek.any isSpaceOrTab
  if folded ∧ lineBreak = ['\n'.code] ∧ ¬ spaced thisLine ∧ ¬ spaced nextLine then
    if breaks.isEmpty then [' '.code] else []
  else lineBreak

def closing (ending : Ending) (lineBreak breaks : Text) : Text :=
  match ending with
  | .strip => []
  | .clip => lineBreak
  | .keep => lineBreak ++ breaks

def read (folded : Bool) (ending : Ending) (indentation : Nat) (breaks : Text) :
    Nat → Cursor → Text × Cursor
  | 0, c => (breaks, c)
  | fuel + 1, c =>
    let (line, e) := c.span fun x => !isBreak x
    let lineBreak : Text := (e.peek.map breakText).toList
    let (more, n) := emptyLines indentation (if e.peek.isSome then e.next else e)
    if atLine indentation n then
      let (rest, last) := read folded ending indentation more fuel n
      (breaks ++ line ++ joint folded lineBreak more c n ++ rest, last)
    else (breaks ++ line ++ closing ending lineBreak more, n)

end Block

namespace Cursor

def block (c : Cursor) (folded : Bool) (margin : Nat) : Except Defect (Text × Cursor) := do
  let (header, c) ← Block.header? c.next
  let least := max margin 1
  let (breaks, indentation, c) := match header.indentation with
    | some n =>
      let (breaks, e) := Block.emptyLines (least + n - 1) c
      (breaks, least + n - 1, e)
    | none =>
      let (breaks, deepest, e) := Block.leadingLines 0 c
      (breaks, max least deepest, e)
  if Block.atLine indentation c then
    return Block.read folded header.ending indentation breaks c.rest.length c
  else return (Block.closing header.ending [] breaks, c)

end Cursor

end ApiPages.Yaml

import ApiPages.Yaml.Cursor

/-!
Plain scalars: words without quotes around them, with blanks or line breaks between them. A line
break in a plain scalar is read as a space, and further ones are kept.
-/
namespace ApiPages.Yaml

structure PlainScalar where
  text : Text
  brokeLine : Bool
  cursor : Cursor
  deriving DecidableEq, Repr

namespace Plain

def flowStops : Text := ",?[]{}".text

def flowColonStops : Text := ",[]{}".text

def endsWord (inFlow : Bool) (c : CodePoint) (following : Option CodePoint) : Bool :=
  separates (some c) ||
    (c == ':'.code && (separates following || (inFlow && following.any flowColonStops.contains))) ||
    (inFlow && flowStops.contains c)

def wordLength (inFlow : Bool) : Text → Nat
  | [] => 0
  | c :: rest => if endsWord inFlow c rest.head? then 0 else wordLength inFlow rest + 1

structure Gap where
  text : Text
  brokeLine : Bool
  cursor : Cursor
  deriving DecidableEq, Repr

def moreBreaks (c : Cursor) : Gap × Bool :=
  if c.atMarker then (⟨[], true, c⟩, true)
  else match _h : c.rest with
    | [] => (⟨[], true, c⟩, false)
    | x :: _ =>
      if x = ' '.code then moreBreaks c.next
      else if isBreak x then
        let (gap, marked) := moreBreaks c.next
        ({ gap with text := breakText x :: gap.text }, marked)
      else (⟨[], true, c⟩, false)
termination_by c.rest.length
decreasing_by all_goals simp [_h]

/-- The gap that starts with a line break, given the position after the break. A single line feed is
a space, of several the first is dropped, and nothing goes on past a marker. -/
def gapAfterBreak (x : CodePoint) (c : Cursor) : Gap :=
  let (gap, marked) := moreBreaks c
  if marked then { gap with text := [] }
  else if breakText x ≠ '\n'.code then { gap with text := breakText x :: gap.text }
  else if gap.text.isEmpty then { gap with text := [' '.code] }
  else gap

def gap (c : Cursor) : Gap :=
  let (spaces, c) := c.span (· == ' '.code)
  match c.peek with
  | some x => if isBreak x then gapAfterBreak x c.next else ⟨spaces, false, c⟩
  | none => ⟨spaces, false, c⟩

/-- The words from a position on. Outside brackets they have to stay right of the margin, and a hash
sign after a gap starts a comment. -/
def words (inFlow : Bool) (margin : Nat) : Nat → Cursor → PlainScalar
  | 0, c => ⟨[], false, c⟩
  | fuel + 1, c =>
    let length := if c.peek = some '#'.code then 0 else wordLength inFlow c.rest
    let word := c.rest.take length
    let g := gap (c.skip length)
    if length = 0 then ⟨[], false, c⟩
    else if g.text.isEmpty || g.cursor.peek == some '#'.code ||
        (!inFlow && g.cursor.column < margin) then
      ⟨word, g.brokeLine, g.cursor⟩
    else
      let more := words inFlow margin fuel g.cursor
      if more.text.isEmpty then ⟨word, g.brokeLine, g.cursor⟩
      else { more with text := word ++ g.text ++ more.text }

end Plain

namespace Cursor

def plain (c : Cursor) (inFlow : Bool) (margin : Nat) : PlainScalar :=
  Plain.words inFlow margin c.rest.length c

end Cursor

end ApiPages.Yaml

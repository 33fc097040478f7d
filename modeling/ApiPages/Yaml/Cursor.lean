import ApiPages.Yaml.Character

/-!
A position in a document: the rest of the text, with the line and the column where it starts.
-/
namespace ApiPages.Yaml

structure Cursor where
  rest : Text
  line : Nat
  column : Nat
  index : Nat
  deriving DecidableEq, Repr

namespace Cursor

def ofText (t : Text) : Cursor := ⟨t, 0, 0, 0⟩

def peek (c : Cursor) : Option CodePoint := c.rest.head?

def peekAt (c : Cursor) (n : Nat) : Option CodePoint := c.rest[n]?

def next (c : Cursor) : Cursor where
  rest := c.rest.tail
  line := if c.peek.any isBreak then c.line + 1 else c.line
  column :=
    if c.peek.any isBreak then 0 else if c.peek = some byteOrderMark then c.column else c.column + 1
  index := c.index + 1

def skip (c : Cursor) : Nat → Cursor
  | 0 => c
  | n + 1 => c.next.skip n

def span (c : Cursor) (p : CodePoint → Bool) : Text × Cursor :=
  let t := c.rest.takeWhile p
  (t, c.skip t.length)

def skipSpaces (c : Cursor) : Cursor := (c.span (· == ' '.code)).2

def startMarker : Text := "---".text

def endMarker : Text := "...".text

/-- A marker stands here by itself at the beginning of a line. -/
def atMarkerOf (c : Cursor) (marker : Text) : Bool :=
  c.column == 0 && marker.isPrefixOf c.rest && separates (c.peekAt marker.length)

def atMarker (c : Cursor) : Bool := c.atMarkerOf startMarker || c.atMarkerOf endMarker

@[simp] theorem rest_next (c : Cursor) : c.next.rest = c.rest.tail := rfl

@[simp] theorem rest_skip (c : Cursor) (n : Nat) : (c.skip n).rest = c.rest.drop n := by
  induction n generalizing c with
  | zero => rfl
  | succ n ih => simp [skip, ih]

end Cursor

end ApiPages.Yaml

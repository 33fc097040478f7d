import ApiPages.Text.Bracketed

/-!
Knots: collections that contain themselves. The collections of a knot are numbered, and where one of
them holds another, its number stands. A knot is written by going round it: a collection that is
being written already is left out.
-/
namespace ApiPages

/-- What stands at one place of a collection: something, or another collection by its number. -/
inductive Link (α : Type) where
  | value (a : α)
  | cell (number : Nat)
  deriving Repr

inductive Cell (α : Type) where
  | list (items : List (Link α))
  | tuple (items : List (Link α))
  /-- No member is a collection, so none is given by its number. -/
  | set (members : List α)
  | map (entries : List (α × Link α))
  deriving Repr

def Cell.links {α : Type} : Cell α → List (Link α)
  | .list items => items
  | .tuple items => items
  | .set _ => []
  | .map entries => entries.map Prod.snd

def Cell.numbers {α : Type} (c : Cell α) : List Nat :=
  c.links.filterMap fun l => match l with
    | .value _ => none
    | .cell n => some n

namespace Knot

def leftOut {α : Type} : Cell α → Text
  | .list _ => "[...]".text
  | .tuple _ => "(...)".text
  | .set _ => "set(...)".text
  | .map _ => "\x7b...\x7d".text

def writeLink (write : Nat → Text) : Link Text → Text
  | .value t => t
  | .cell n => write n

def writeIn (cells : List (Cell Text)) : Nat → List Nat → Nat → Text
  | 0, _, _ => []
  | fuel + 1, around, n =>
    match cells[n]? with
    | none => []
    | some c =>
      if around.contains n then leftOut c
      else match c with
        | .list items => Text.ofItems (items.map (writeLink (writeIn cells fuel (n :: around))))
        | .tuple items => Text.ofTuple (items.map (writeLink (writeIn cells fuel (n :: around))))
        | .set members => Text.ofSet members
        | .map entries =>
          Text.ofEntries
            (entries.map fun e => (e.1, writeLink (writeIn cells fuel (n :: around)) e.2))

/-- The text of a cell of a knot, given the texts of what is no cell. No more cells than there are
can stand around another. -/
def write (cells : List (Cell Text)) (n : Nat) : Text := writeIn cells (cells.length + 1) [] n

end Knot

end ApiPages

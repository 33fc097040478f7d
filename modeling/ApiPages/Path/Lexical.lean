import ApiPages.Fault
import ApiPages.Text.Basic

/-!
Paths taken by their text alone: components, the place a path leads to from a directory, and the way
from one place to another. A place is the list of names on the way from the root.
-/
namespace ApiPages

namespace Lexical

def up : Text := ['.'.code, '.'.code]

def stay : Text := ['.'.code]

/-- What stands between slashes, without empty pieces and single dots. -/
def components (t : Text) : List Text :=
  (t.splitOn '/'.code).filter fun piece => !piece.isEmpty && piece != stay

def enter (here : List Text) (name : Text) : List Text :=
  if name = up then here.dropLast else here ++ [name]

/-- The place a path leads to from a directory. A path with a slash in front starts at the root. -/
def place (here : List Text) (t : Text) : List Text :=
  (components t).foldl enter (if t.head? = some '/'.code then [] else here)

def way : List Text → List Text → List Text
  | a :: source, b :: target =>
    if a = b then way source target
    else List.replicate (source.length + 1) up ++ b :: target
  | source, target => List.replicate source.length up ++ target

def continued (first second : Text) : Text :=
  if second.head? = some '/'.code then second
  else if first.isEmpty ∨ first.getLast? = some '/'.code then first ++ second
  else first ++ '/'.code :: second

/-- The path that leads from one path to another, both taken from the same directory. -/
def relative (here : List Text) (source target : Text) : Except Fault Text :=
  if target.isEmpty then .error .emptyPath
  else
    let steps := way (place here source) (place here target)
    .ok (if steps.isEmpty then stay else Text.join ['/'.code] steps)

end Lexical

end ApiPages

import ApiPages.Value.Basic

/-!
From numbered collections to values. A collection whose parts have values has a value itself; this
gives one to each that is on no cycle. Those that are left contain each other, and become knots.
-/
namespace ApiPages

namespace Value

structure Tying where
  cells : Array (Cell Value)
  known : Array (Option Value)

namespace Tying

def known? (s : Tying) (n : Nat) : Option Value := (s.known[n]?).join

def linked? (s : Tying) : Link Value → Option Value
  | .value v => some v
  | .cell n => s.known? n

def plain? (s : Tying) : Cell Value → Option Value
  | .list items => (items.mapM s.linked?).map .list
  | .tuple items => (items.mapM s.linked?).map .tuple
  | .set members => some (.set members)
  | .map entries => (entries.mapM fun e => (s.linked? e.2).map fun v => (e.1, v)).map .map

def within? (s : Tying) (group : List Nat) : Link Value → Option (Link Value)
  | .value v => some (.value v)
  | .cell n =>
    match group.idxOf? n with
    | some i => some (.cell i)
    | none => (s.known? n).map .value

def cellWithin? (s : Tying) (group : List Nat) (n : Nat) : Option (Cell Value) :=
  match s.cells[n]? with
  | some (.list items) => (items.mapM (s.within? group)).map .list
  | some (.tuple items) => (items.mapM (s.within? group)).map .tuple
  | some (.set members) => some (.set members)
  | some (.map entries) =>
    (entries.mapM fun e => (s.within? group e.2).map fun l => (e.1, l)).map .map
  | none => none

/-- What can be told of a collection and its group, by number; one that does not contain itself is
in no group. -/
def values (s : Tying) (group : List Nat) (n : Nat) : List (Nat × Value) :=
  if group.isEmpty then ((s.cells[n]?.bind s.plain?).map fun v => (n, v)).toList
  else match group.mapM (s.cellWithin? group) with
    | some cells => group.zipIdx.map fun (m, i) => (m, .knot cells i)
    | none => []

def learn (groups : Nat → List Nat) (s : Tying) (n : Nat) : Tying :=
  match s.known? n with
  | some _ => s
  | none => (s.values (groups n) n).foldl (fun s e =>
    { s with known := s.known.setIfInBounds e.1 (some e.2) }) s

def unknown (s : Tying) : List Nat :=
  (List.range s.cells.size).filter fun n => (s.known? n).isNone

/-- Goes through the collections without a value, the last one first, for as long as this tells the
value of another one. -/
def learnAll (groups : Nat → List Nat) : Nat → Tying → Tying
  | 0, s => s
  | fuel + 1, s =>
    let left := s.unknown
    let next := left.reverse.foldl (learn groups) s
    if next.unknown.length < left.length then learnAll groups fuel next else next

def heldBy (s : Tying) (n : Nat) : List Nat := (s.cells[n]?.map Cell.numbers).getD []

/-- Marks the collections that are reached from some, those themselves among them. A step takes one
number off the list. -/
def mark (s : Tying) : Nat → List Nat → Array Bool → Array Bool
  | 0, _, marks => marks
  | _ + 1, [], marks => marks
  | steps + 1, n :: rest, marks =>
    if marks[n]? = some false then
      s.mark steps (s.heldBy n ++ rest) (marks.setIfInBounds n true)
    else s.mark steps rest marks

def placeCount (s : Tying) : Nat := s.cells.foldl (fun count c => count + c.numbers.length) 0

def contained (s : Tying) (n : Nat) : Array Bool :=
  s.mark (2 * s.placeCount + 1) (s.heldBy n) (Array.replicate s.cells.size false)

def containment (s : Tying) : Array (Array Bool) :=
  s.unknown.foldl (fun (table : Array (Array Bool)) n => table.setIfInBounds n (s.contained n))
    (Array.replicate s.cells.size #[])

def group (table : Array (Array Bool)) (n : Nat) : List Nat :=
  let contains (m n : Nat) : Bool := (table[m]?.bind fun marks => marks[n]?).getD false
  if contains n n then (List.range table.size).filter fun m => contains n m && contains m n else []

end Tying

def tied (cells : List (Cell Value)) (n : Nat) : Value :=
  let start : Tying := ⟨cells.toArray, Array.replicate cells.length none⟩
  let trees := start.learnAll (fun _ => []) cells.length
  match trees.known? n with
  | some v => v
  | none =>
    let table := trees.containment
    ((trees.learnAll (Tying.group table) cells.length).known? n).getD .null

end Value

end ApiPages

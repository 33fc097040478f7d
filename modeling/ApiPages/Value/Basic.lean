import ApiPages.Fault
import ApiPages.Calendar.Moment
import ApiPages.Number.Shortest
import ApiPages.Value.Knot

/-!
Dynamic values, as a settings file or a catalogue file gives them. A mapping keeps its entries in
the order in which their keys came first. A collection that contains itself is part of a knot, and
is opened level by level.
-/
namespace ApiPages

inductive Value where
  | null
  | bool (b : Bool)
  | int (n : Int)
  | float (x : Binary64)
  | text (t : Text)
  | octets (bytes : List UInt8)
  | date (d : Date)
  | moment (m : Moment)
  | list (items : List Value)
  | tuple (items : List Value)
  /-- The members, in the order in which they are walked through. -/
  | set (members : List Value)
  | map (entries : List (Value × Value))
  /-- One of some collections each of which contains all of them. -/
  | knot (cells : List (Cell Value)) (start : Nat)

abbrev Mapping := List (Value × Value)

def Link.untied (cells : List (Cell Value)) : Link Value → Value
  | .value v => v
  | .cell n => .knot cells n

namespace Value

def opened : Value → Value
  | .knot cells start =>
    match cells[start]? with
    | some (.list items) => .list (items.map (Link.untied cells))
    | some (.tuple items) => .tuple (items.map (Link.untied cells))
    | some (.set members) => .set members
    | some (.map entries) => .map (entries.map fun e => (e.1, e.2.untied cells))
    | none => .null
  | v => v

/-- What counts as true: everything but null, false, zero and what is empty. -/
def truthy : Value → Bool
  | .null => false
  | .bool b => b
  | .int n => n != 0
  | .float x => !x.isZero
  | .text t => !t.isEmpty
  | .octets bytes => !bytes.isEmpty
  | .date _ => true
  | .moment _ => true
  | .list items => !items.isEmpty
  | .tuple items => !items.isEmpty
  | .set members => !members.isEmpty
  | .map entries => !entries.isEmpty
  | .knot _ _ => true

def kind (v : Value) : Text :=
  match v.opened with
  | .null => "NoneType".text
  | .bool _ => "bool".text
  | .int _ => "int".text
  | .float _ => "float".text
  | .text _ => "str".text
  | .octets _ => "bytes".text
  | .date _ => "datetime.date".text
  | .moment _ => "datetime.datetime".text
  | .list _ => "list".text
  | .tuple _ => "tuple".text
  | .set _ => "set".text
  | .map _ => "dict".text
  | .knot _ _ => []

/-- What is met when a value is walked through: the characters of a text, the items of a list, the
keys of a mapping. -/
def items? (v : Value) : Except Fault (List Value) :=
  match v.opened with
  | .text t => .ok (t.map fun c => .text [c])
  | .octets bytes => .ok (bytes.map fun b => .int b.toNat)
  | .list items => .ok items
  | .tuple items => .ok items
  | .set members => .ok members
  | .map entries => .ok (entries.map Prod.fst)
  | _ => .error (.notIterable v.kind)

def mapping? (v : Value) : Option Mapping :=
  match v.opened with
  | .map entries => some entries
  | _ => none

/-- The entries of a mapping, for an operation that only a mapping has. -/
def entries? (operation : Text) (v : Value) : Except Fault Mapping :=
  match v.mapping? with
  | some entries => .ok entries
  | none => .error (.lacks v.kind operation)

def text? : Value → Option Text
  | .text t => some t
  | _ => none

@[simp] theorem mapping?_map (entries : Mapping) : mapping? (.map entries) = some entries := rfl

end Value

end ApiPages

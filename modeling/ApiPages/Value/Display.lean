import ApiPages.Value.Basic
import ApiPages.Text.Quoted

/-!
Values as text: `display` is what a page shows, `quoted` is what stands in messages. They differ for
texts, dates and moments only.
-/
namespace ApiPages.Value

mutual

def quoted : Value → Text
  | .null => "None".text
  | .bool true => "True".text
  | .bool false => "False".text
  | .int n => Text.ofInt n
  | .float x => x.text
  | .text t => Text.quoted t
  | .octets bytes => Text.quotedOctets bytes
  | .date d => d.quoted
  | .moment m => m.quoted
  | .list items => Text.ofItems (quotedItems items)
  | .tuple items => Text.ofTuple (quotedItems items)
  | .set members => Text.ofSet (quotedItems members)
  | .map entries => Text.ofEntries (quotedEntries entries)
  | .knot cells start => Knot.write (quotedCells cells) start

def quotedItems : List Value → List Text
  | [] => []
  | x :: xs => quoted x :: quotedItems xs

def quotedEntries : List (Value × Value) → List (Text × Text)
  | [] => []
  | (k, v) :: rest => (quoted k, quoted v) :: quotedEntries rest

def quotedCells : List (Cell Value) → List (Cell Text)
  | [] => []
  | .list items :: rest => .list (quotedLinks items) :: quotedCells rest
  | .tuple items :: rest => .tuple (quotedLinks items) :: quotedCells rest
  | .set members :: rest => .set (quotedItems members) :: quotedCells rest
  | .map entries :: rest => .map (quotedPlaces entries) :: quotedCells rest

def quotedLinks : List (Link Value) → List (Link Text)
  | [] => []
  | .value v :: rest => .value (quoted v) :: quotedLinks rest
  | .cell n :: rest => .cell n :: quotedLinks rest

def quotedPlaces : List (Value × Link Value) → List (Text × Link Text)
  | [] => []
  | (k, .value v) :: rest => (quoted k, .value (quoted v)) :: quotedPlaces rest
  | (k, .cell n) :: rest => (quoted k, .cell n) :: quotedPlaces rest

end

def display : Value → Text
  | .text t => t
  | .date d => d.text
  | .moment m => m.text
  | v => quoted v

def mostDigits : Nat := 4300

mutual

def writable : Value → Bool
  | .int n => (Text.ofNat n.natAbs).length ≤ mostDigits
  | .list items => allWritable items
  | .tuple items => allWritable items
  | .set members => allWritable members
  | .map entries => entriesWritable entries
  | .knot cells _ => cellsWritable cells
  | _ => true

def allWritable : List Value → Bool
  | [] => true
  | x :: xs => writable x && allWritable xs

def entriesWritable : List (Value × Value) → Bool
  | [] => true
  | (k, v) :: rest => writable k && writable v && entriesWritable rest

def cellsWritable : List (Cell Value) → Bool
  | [] => true
  | .list items :: rest => linksWritable items && cellsWritable rest
  | .tuple items :: rest => linksWritable items && cellsWritable rest
  | .set members :: rest => allWritable members && cellsWritable rest
  | .map entries :: rest => placesWritable entries && cellsWritable rest

def linksWritable : List (Link Value) → Bool
  | [] => true
  | .value v :: rest => writable v && linksWritable rest
  | .cell _ :: rest => linksWritable rest

def placesWritable : List (Value × Link Value) → Bool
  | [] => true
  | (k, .value v) :: rest => writable k && writable v && placesWritable rest
  | (k, .cell _) :: rest => writable k && placesWritable rest

end

def display? (v : Value) : Except Fault Text :=
  if v.writable then .ok v.display else .error .tooManyDigits

@[simp] theorem display?_text (t : Text) : display? (.text t) = .ok t := rfl

end ApiPages.Value

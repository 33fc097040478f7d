import ApiPages.Yaml.Defect
import ApiPages.Yaml.Tag

/-!
The nodes of a document. They are numbered in the order in which they start, and a collection holds
the numbers of its parts; so a node that several aliases stand for is one node, and a collection may
hold a collection around it.
-/
namespace ApiPages.Yaml

inductive Node where
  | scalar (tag : Tag) (t : Text)
  | list (tag : Tag) (items : List Nat)
  | mapping (tag : Tag) (entries : List (Nat × Nat))
  deriving DecidableEq, Repr

abbrev Nodes := Array Node

namespace Node

def tag : Node → Tag
  | .scalar tag _ => tag
  | .list tag _ => tag
  | .mapping tag _ => tag

def itemCount : Node → Nat
  | .list _ items => items.length
  | _ => 0

def plainTag : Text := ['!'.code]

def scalarTag (explicit : Option Text) (t : Text) (plain : Bool) : Tag :=
  match explicit with
  | none => if plain then Tag.ofSpelling t else .text
  | some name => if name = plainTag then Tag.ofSpelling t else .ofText name

def collectionTag (explicit : Option Text) (kind : Tag) : Tag :=
  match explicit with
  | none => kind
  | some name => if name = plainTag then kind else .ofText name

def ofScalar (explicit : Option Text) (t : Text) (plain : Bool) : Node :=
  .scalar (scalarTag explicit t plain) t

def absent : Node := .ofScalar none [] true

def asText : Node → Node
  | .scalar _ t => .scalar .text t
  | .list _ items => .list .text items
  | .mapping _ entries => .mapping .text entries

end Node

namespace Nodes

def tagOf (nodes : Nodes) (n : Nat) : Tag := (nodes[n]?.map Node.tag).getD .unknown

def entriesOf (nodes : Nodes) (n : Nat) : List (Nat × Nat) :=
  match nodes[n]? with
  | some (.mapping _ entries) => entries
  | _ => []

def withEntries (nodes : Nodes) (n : Nat) (entries : List (Nat × Nat)) : Nodes :=
  match nodes[n]? with
  | some (.mapping tag _) => nodes.setIfInBounds n (.mapping tag entries)
  | _ => nodes

/-- The text of a node that is read as a scalar, within some steps: its own, or that of the default
value of a mapping. -/
def textWithin? (nodes : Nodes) : Nat → Nat → Except Defect Text
  | 0, _ => .error .tooDeep
  | steps + 1, n =>
    match nodes[n]? with
    | some (.scalar _ t) => .ok t
    | some (.mapping _ entries) =>
      match entries.find? fun e => nodes.tagOf e.1 = .default with
      | some (_, v) => nodes.textWithin? steps v
      | none => .error .malformed
    | _ => .error .malformed

/-- The text of a node that is read as a scalar. No more nodes than there are lead to it. -/
def scalarText? (nodes : Nodes) (n : Nat) : Except Defect Text :=
  nodes.textWithin? (nodes.size + 1) n

end Nodes

end ApiPages.Yaml

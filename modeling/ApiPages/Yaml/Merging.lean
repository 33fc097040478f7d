import ApiPages.Yaml.Node

/-!
Merge keys. Before a mapping gets a value, each merge key is taken out of it together with the
mappings that it names, and their entries are put in front of its own. A mapping that is named may
hold merge keys too, and may be the one that names it; as no merge key is taken out twice, this
ends.
-/
namespace ApiPages.Yaml

abbrev Merging := StateT Nodes (Except Defect)

namespace Nodes

def isMergeKey (nodes : Nodes) (n : Nat) : Bool := nodes.tagOf n == .merge

def mergeCount (nodes : Nodes) : Nat :=
  nodes.foldl (fun count x =>
    match x with
    | .mapping _ entries => count + entries.countP fun e => nodes.isMergeKey e.1
    | _ => count) 0

def merged? (nodes : Nodes) (n : Nat) : Except Defect (List Nat) :=
  let isMapping (n : Nat) : Bool := nodes[n]? matches some (.mapping _ _)
  match nodes[n]? with
  | some (.mapping _ _) => .ok [n]
  | some (.list _ items) => if items.all isMapping then .ok items else .error .malformed
  | _ => .error .malformed

def withTextKeys (nodes : Nodes) (n : Nat) : Nodes :=
  (nodes.entriesOf n).foldl (fun nodes e =>
    match nodes[e.1]? with
    | some key => if key.tag = .default then nodes.setIfInBounds e.1 key.asText else nodes
    | none => nodes) nodes

end Nodes

namespace Merging

def takeKey (n : Nat) : Merging (Option Nat) := do
  let nodes ← get
  let entries := nodes.entriesOf n
  match entries.find? fun e => nodes.isMergeKey e.1 with
  | none => return none
  | some (_, v) =>
    set (nodes.withEntries n (entries.eraseP fun e => nodes.isMergeKey e.1))
    return some v

def putInFront (n : Nat) (entries : List (Nat × Nat)) : Merging Unit :=
  modify fun nodes =>
    let nodes := nodes.withTextKeys n
    if entries.isEmpty then nodes else nodes.withEntries n (entries ++ nodes.entriesOf n)

/-- Takes all merge keys out of a mapping and gives the entries that they stand for. Of a list of
mappings the first counts most, so its entries come last. -/
def takeAll : Nat → Nat → Merging (List (Nat × Nat))
  | 0, _ => throw .malformed
  | fuel + 1, n => do
    match ← takeKey n with
    | none => return []
    | some v => do
      let mappings ← (← get).merged? v
      let these ← mappings.foldlM (fun entries m => do
        putInFront m (← takeAll fuel m)
        return (← get).entriesOf m ++ entries) []
      return these ++ (← takeAll fuel n)

/-- Merges into a mapping what its merge keys name. Between two merge keys taken out one call is
nested, which bounds the recursion. -/
def settle (merges : Nat) (n : Nat) : Merging Unit := do
  putInFront n (← takeAll (merges + 1) n)

end Merging

end ApiPages.Yaml

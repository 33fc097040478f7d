import ApiPages.Value.Equality
import ApiPages.Value.Tied
import ApiPages.Yaml.Merging
import ApiPages.Yaml.Number
import ApiPages.Yaml.Octets
import ApiPages.Yaml.Timestamp

/-!
From the nodes of a document to its value. Every node is made once. A list or a mapping that is met
is numbered and put aside, and its parts are made when its turn comes; so of several defects the one
nearest to the root counts, and of those on one level the first.
-/
namespace ApiPages.Yaml

/-- What is put aside: a collection by its node, or two parts to be put together. -/
inductive Aside where
  | node (n : Nat)
  | pair (first second : Link Value)

structure Building where
  nodes : Nodes
  made : Array (Option (Link Value))
  collections : Array Aside

abbrev Builder := StateT Building (Except Defect)

namespace Builder

def onNodes {α : Type} (step : Merging α) : Builder α := do
  let s ← get
  let (a, nodes) ← step.run s.nodes
  set { s with nodes }
  return a

def ofText? (tag : Tag) (t : Text) : Except Defect Value :=
  match tag with
  | .null => .ok .null
  | .bool => (Number.bool? t).map .bool
  | .int => (Number.int? t).map .int
  | .float => (Number.float? t).map .float
  | .text => .ok (.text t)
  | .moment => Timestamp.value? t
  | .octets => (Octets.ofText? t).map .octets
  | _ => .error .malformed

def scalar? (nodes : Nodes) (n : Nat) (tag : Tag) : Except Defect Value := do
  let t ← nodes.scalarText? n
  if tag = .moment && (nodes[n]? matches some (.mapping _ _)) then throw .momentOfMapping
  ofText? tag t

def putAside (c : Aside) : Builder (Link Value) :=
  modifyGet fun s => (.cell s.collections.size, { s with collections := s.collections.push c })

def make (n : Nat) : Builder (Link Value) := do
  let s ← get
  match (s.made[n]?).join with
  | some l => return l
  | none => do
    let l ← match s.nodes.tagOf n with
      | .list => putAside (.node n)
      | .pairs => putAside (.node n)
      | .set => putAside (.node n)
      | .mapping => putAside (.node n)
      | .merge => throw .malformed
      | .default => throw .malformed
      | .unknown => throw .malformed
      | tag => .value <$> scalar? s.nodes n tag
    modify fun s => { s with made := s.made.setIfInBounds n (some l) }
    return l

/-- A key, with the node that it was made from. Of numbers that are none, those that are named so
are one and the same, and no node is given. -/
structure Key where
  value : Value
  source : Option Nat

def Key.same (k l : Key) : Bool := k.value.same l.value || k.source == l.source

def namesNan (nodes : Nodes) (n : Nat) : Bool :=
  nodes.tagOf n == .float &&
    match nodes.scalarText? n with
    | .ok t => Number.namesNan t
    | _ => false

def makeKey (n : Nat) : Builder Key := do
  match ← make n with
  | .cell _ => throw .malformed
  | .value v => return ⟨v, if namesNan (← get).nodes n then none else some n⟩

def insert (key : Key) (l : Link Value) : List (Key × Link Value) → List (Key × Link Value)
  | [] => [(key, l)]
  | (k, old) :: rest => if k.same key then (k, l) :: rest else (k, old) :: insert key l rest

def makePair (n : Nat) : Builder (Link Value) := do
  match (← get).nodes.entriesOf n with
  | [e] => do
    let first ← make e.1
    putAside (.pair first (← make e.2))
  | _ => throw .malformed

def makeEntries (merges : Nat) (n : Nat) : Builder (List (Value × Link Value)) := do
  onNodes (Merging.settle merges n)
  let entries ← ((← get).nodes.entriesOf n).foldlM (fun entries e => do
    let key ← makeKey e.1
    return insert key (← make e.2) entries) []
  return entries.map fun e => (e.1.value, e.2)

def fill (merges : Nat) : Aside → Builder (Cell Value)
  | .pair first second => return .tuple [first, second]
  | .node n => do
    match (← get).nodes.tagOf n, (← get).nodes[n]? with
    | .list, some (.list _ items) => return .list (← items.mapM make)
    | .pairs, some (.list _ items) => return .list (← items.mapM makePair)
    | .mapping, some (.mapping _ _) => return .map (← makeEntries merges n)
    | .set, some (.mapping _ _) => return .set ((← makeEntries merges n).map Prod.fst)
    | _, _ => throw .malformed

def fillFrom (merges : Nat) : Nat → Nat → Builder (List (Cell Value))
  | 0, _ => return []
  | fuel + 1, number => do
    match (← get).collections[number]? with
    | none => return []
    | some aside => do
      let c ← fill merges aside
      return c :: (← fillFrom merges fuel (number + 1))

def value (merges : Nat) (fuel : Nat) (n : Nat) : Builder Value := do
  match ← make n with
  | .value v => return v
  | .cell number => return Value.tied (← fillFrom merges fuel 0) number

end Builder

/-- Each node is put aside at most once, and each item of a list once as a pair. -/
def Nodes.mostAside (nodes : Nodes) : Nat :=
  nodes.foldl (fun count node => count + 1 + node.itemCount) 0

def Nodes.value? (nodes : Nodes) (n : Nat) : Except Defect Value :=
  (Builder.value nodes.mergeCount (nodes.mostAside + 1) n).run'
    ⟨nodes, Array.replicate nodes.size none, #[]⟩

end ApiPages.Yaml

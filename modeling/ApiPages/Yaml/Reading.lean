import ApiPages.Yaml.Node
import ApiPages.Yaml.Token

/-!
From tokens to the nodes of a document. The reader takes tokens off the front of a list and
remembers the numbers of the nodes that anchors stand at.
-/
namespace ApiPages.Yaml

structure Reading where
  tokens : List Token
  handles : List (Text × Text)
  nodes : Nodes
  anchors : List (Text × Nat)
  depth : Nat

abbrev Reader := StateT Reading (Except Defect)

namespace Reader

/-- The next token. A defect shows as soon as it is looked at. -/
def peek : Reader (Option Token) := do
  match (← get).tokens.head? with
  | some (.broken d) => throw d
  | t => return t

def pop : Reader Unit := modify fun r => { r with tokens := r.tokens.tail }

def unexpected {α : Type} : Reader α := do
  let _ ← peek
  throw .malformed

def start : Reader Nat :=
  modifyGet fun r => (r.nodes.size, { r with nodes := r.nodes.push .absent })

def fill (n : Nat) (x : Node) : Reader Unit :=
  modify fun r => { r with nodes := r.nodes.setIfInBounds n x }

def absent : Reader Nat := start

def fullTag (name : TagName) : Reader Text := do
  match name.handle with
  | none => return name.rest
  | some handle =>
    match (← get).handles.lookup handle with
    | some start => return start ++ name.rest
    | none => throw .malformed

def anchor? : Reader (Option Text) := do
  match ← peek with
  | some (.anchor name) => do pop; return some name
  | _ => return none

def tag? : Reader (Option TagName) := do
  match ← peek with
  | some (.tag name) => do pop; return some name
  | _ => return none

def properties : Reader (Option Text × Option Text) := do
  let first ← anchor?
  let tag ← tag?
  let anchor ← if first.isNone && tag.isSome then anchor? else pure first
  return (anchor, ← tag.mapM fullTag)

/-- No more collections than this are read inside of each other. -/
def mostLevels : Nat := 489

def inside {α : Type} (read : Reader α) : Reader α := do
  if mostLevels ≤ (← get).depth then throw .tooDeep
  modify fun r => { r with depth := r.depth + 1 }
  let a ← read
  modify fun r => { r with depth := r.depth - 1 }
  return a

def register (anchor : Text) (n : Nat) : Reader Unit := do
  if ((← get).anchors.lookup anchor).isSome then throw .malformed
  modify fun r => { r with anchors := (anchor, n) :: r.anchors }

def aliased (anchor : Text) : Reader Nat := do
  match (← get).anchors.lookup anchor with
  | some n => return n
  | none => throw .malformed

def nextIsOneOf (ts : List Token) : Reader Bool := do return (← peek).any ts.contains

/-! The tokens that show that a node was left out, by the place of the node. -/

def afterListItem : List Token := [.item, .blockEnd]
def afterIndentedItem : List Token := [.item, .key, .value, .blockEnd]
def afterMappingPart : List Token := [.key, .value, .blockEnd]
def afterPairKey : List Token := [.value, .comma, .closeList]
def afterPairValue : List Token := [.comma, .closeList]
def afterEntryKey : List Token := [.value, .comma, .closeMapping]
def afterEntryValue : List Token := [.comma, .closeMapping]

inductive Place where
  | flow
  | block
  /-- A key or a value of a block mapping: the items of a list need no indentation there. -/
  | blockPart
  deriving DecidableEq, Repr

mutual

def node : Nat → Place → Reader Nat
  | 0, _ => unexpected
  | fuel + 1, place => do
    if let some (.alias anchor) ← peek then
      pop
      aliased anchor
    else
      let (anchor, tag) ← properties
      let _ ← peek
      let n ← start
      anchor.forM fun anchor => register anchor n
      fill n (← content fuel place tag (anchor.isSome || tag.isSome))
      return n

def content : Nat → Place → Option Text → Bool → Reader Node
  | 0, _, _, _ => unexpected
  | fuel + 1, place, tag, optional => do
    let list : List Nat → Node := .list (Node.collectionTag tag .list)
    let mapping : List (Nat × Nat) → Node := .mapping (Node.collectionTag tag .mapping)
    match ← peek, place with
    | some .item, .blockPart => return list (← inside (indentedItems fuel))
    | some (.scalar t plain), _ => do pop; return .ofScalar tag t plain
    | some .openList, _ => do pop; return list (← inside (flowItems fuel true))
    | some .openMapping, _ => do pop; return mapping (← inside (flowEntries fuel true))
    | some .blockList, .block => do pop; return list (← inside (blockItems fuel))
    | some .blockList, .blockPart => do pop; return list (← inside (blockItems fuel))
    | some .blockMapping, .block => do pop; return mapping (← inside (blockEntries fuel))
    | some .blockMapping, .blockPart => do pop; return mapping (← inside (blockEntries fuel))
    | _, _ => if optional then return .ofScalar tag [] true else unexpected

def nodeUnless : Nat → Place → List Token → Reader Nat
  | 0, _, _ => unexpected
  | fuel + 1, place, ts => do
    if ← nextIsOneOf ts then absent else node fuel place

def valueUnless : Nat → Place → List Token → Reader Nat
  | 0, _, _ => unexpected
  | fuel + 1, place, ts => do
    if ← nextIsOneOf [.value] then
      pop
      nodeUnless fuel place ts
    else absent

def blockItems : Nat → Reader (List Nat)
  | 0 => unexpected
  | fuel + 1 => do
    match ← peek with
    | some .item => do
      pop
      let x ← nodeUnless fuel .block afterListItem
      return x :: (← blockItems fuel)
    | some .blockEnd => do pop; return []
    | _ => unexpected

def indentedItems : Nat → Reader (List Nat)
  | 0 => unexpected
  | fuel + 1 => do
    if ← nextIsOneOf [.item] then
      pop
      let x ← nodeUnless fuel .block afterIndentedItem
      return x :: (← indentedItems fuel)
    else return []

def blockEntries : Nat → Reader (List (Nat × Nat))
  | 0 => unexpected
  | fuel + 1 => do
    match ← peek with
    | some .key => do
      pop
      let k ← nodeUnless fuel .blockPart afterMappingPart
      let v ← valueUnless fuel .blockPart afterMappingPart
      return (k, v) :: (← blockEntries fuel)
    | some .blockEnd => do pop; return []
    | _ => unexpected

def flowItems : Nat → Bool → Reader (List Nat)
  | 0, _ => unexpected
  | fuel + 1, first => do
    if ← nextIsOneOf [.closeList] then
      pop
      return []
    else
      if !first then
        if ← nextIsOneOf [.comma] then pop else unexpected
      match ← peek with
      | some .closeList => do pop; return []
      | some .key => do
        pop
        let n ← start
        let e ← inside do
          let k ← nodeUnless fuel .flow afterPairKey
          let v ← valueUnless fuel .flow afterPairValue
          return (k, v)
        fill n (.mapping .mapping [e])
        return n :: (← flowItems fuel false)
      | _ => do
        let x ← node fuel .flow
        return x :: (← flowItems fuel false)

/-- The entries of a mapping in braces. A node by itself is a key without a value. -/
def flowEntries : Nat → Bool → Reader (List (Nat × Nat))
  | 0, _ => unexpected
  | fuel + 1, first => do
    if ← nextIsOneOf [.closeMapping] then
      pop
      return []
    else
      if !first then
        if ← nextIsOneOf [.comma] then pop else unexpected
      match ← peek with
      | some .closeMapping => do pop; return []
      | some .key => do
        pop
        let k ← nodeUnless fuel .flow afterEntryKey
        let v ← valueUnless fuel .flow afterEntryValue
        return (k, v) :: (← flowEntries fuel false)
      | _ => do
        let k ← node fuel .flow
        let v ← absent
        return (k, v) :: (← flowEntries fuel false)

end

def standardHandles : List (Text × Text) :=
  [(['!'.code], ['!'.code]), (['!'.code, '!'.code], Tag.standard)]

/-- The directives of a document: the version at most once, and of the first generation, and each
handle at most once. -/
def directives : Nat → Bool → List (Text × Text) → Reader (List (Text × Text))
  | 0, _, _ => unexpected
  | fuel + 1, versioned, handles => do
    match ← peek with
    | some (.directive d) => do
      pop
      match d with
      | .version major =>
        if versioned ∨ major ≠ 1 then throw .malformed else directives fuel true handles
      | .handle handle start =>
        if (handles.lookup handle).isSome then throw .malformed
        else directives fuel versioned ((handle, start) :: handles)
      | .other => directives fuel versioned handles
    | _ => return handles

def endMarkers : Nat → Reader Unit
  | 0 => return ()
  | fuel + 1 => do
    if ← nextIsOneOf [.documentEnd] then
      pop
      endMarkers fuel

def markedDocument (fuel : Nat) : Reader Nat := do
  let handles ← directives fuel false []
  modify fun r => { r with handles := handles ++ standardHandles }
  if ← nextIsOneOf [.documentStart] then pop else unexpected
  match ← peek with
  | none => absent
  | some (.directive _) => absent
  | some .documentStart => absent
  | some .documentEnd => absent
  | some _ => node fuel .block

def document (fuel : Nat) : Reader (Option Nat) := do
  match ← peek with
  | none => return none
  | some t => do
    let marked := t matches .directive _ | .documentStart
    let n ← if marked then markedDocument fuel else node fuel .block
    endMarkers fuel
    match ← peek with
    | none => return n
    | some _ => do
      let _ ← directives fuel false []
      throw .malformed

end Reader

/-- The nodes of a list of tokens and the number of the one that stands for the document; without
any tokens there is none. Between two tokens taken no more than four calls are nested, which bounds
the recursion. -/
def Nodes.ofTokens? (ts : List Token) : Except Defect (Option (Nodes × Nat)) := do
  let (root, r) ← (Reader.document (4 * ts.length + 8)).run ⟨ts, Reader.standardHandles, #[], [], 0⟩
  return root.map fun n => (r.nodes, n)

end ApiPages.Yaml

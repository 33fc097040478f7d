import ApiPages.Value.Equality

/-!
A mapping merged into another: mappings at one key are merged in turn, the list of implicit roots is
extended, and everything else is replaced. A knot has no last level to merge at, so it replaces too.
-/
namespace ApiPages

/-- The key whose lists are extended by a merge instead of replaced. -/
def additiveKey : Text := "implicit_roots".text

namespace Value

def extend (items : List Value) : List Value → List Value
  | [] => items
  | x :: more =>
    if items.any (·.same x) then extend items more else extend (items ++ [x]) more

def sequence? (v : Value) : Option (List Value) :=
  match v.opened with
  | .list items => some items
  | .tuple items => some items
  | _ => none

/-- What takes the place of `current` when `update` comes at the same key and is no mapping. -/
def succeed (key : Value) (current : Option Value) (update : Value) : Value :=
  match key.same (.text additiveKey), current.bind sequence?, update.sequence? with
  | true, some items, some more => .list (extend items more)
  | _, _, _ => update

mutual

def mergeAt (key : Value) (current : Option Value) (update : Value) : Value :=
  match update with
  | .map entries =>
    match current.bind mapping? with
    | some base => .map (mergeEntries base entries)
    | none => .map entries
  | v => succeed key current v

def mergeEntries (base : Mapping) : Mapping → Mapping
  | [] => base
  | (key, value) :: rest =>
    mergeEntries (base.insert key (mergeAt key (base.get? key) value)) rest

end

end Value

namespace Mapping

def merge (base update : Mapping) : Mapping := Value.mergeEntries base update

def pair? (position : Nat) (v : Value) : Except Fault (Value × Value) :=
  match v.items? with
  | .error _ => .error (.notSequence position)
  | .ok [key, value] => .ok (key, value)
  | .ok items => .error (.notPair position items.length)

def ofPairs? (items : List Value) : Except Fault Mapping :=
  items.zipIdx.foldlM (fun m (item, position) => do
    let (key, value) ← pair? position item
    if key.hashable then .ok (m.insert key value)
    else .error (.unhashable key.unhashableKind)) []

def ofValue? (v : Value) : Except Fault Mapping :=
  match v.mapping? with
  | some entries => .ok entries
  | none => do ofPairs? (← v.items?)

end Mapping

def Value.merge? (base update : Value) : Except Fault Value := do
  let b ← Mapping.ofValue? base
  let u ← update.entries? "items".text
  return .map (b.merge u)

end ApiPages

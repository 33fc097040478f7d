import ApiPages.Value.Basic

/-!
Equality of values, and mappings looked up and written to under it. Numbers are compared by what
they count, truth values counting one and zero; sets and mappings regardless of order; lists are
never equal to tuples. A comparison of knots need not end, so nothing is equal to one.
-/
namespace ApiPages

namespace Value

def count? : Value → Option Int
  | .bool b => some (if b then 1 else 0)
  | .int n => some n
  | _ => none

def sameScalar : Value → Value → Bool
  | .null, .null => true
  | .text s, .text t => s == t
  | .octets s, .octets t => s == t
  | .date c, .date d => c == d
  | .moment l, .moment m => l.same m
  | .float x, .float y => x.same y
  | .float x, v => v.count?.any x.isInt
  | u, .float y => u.count?.any y.isInt
  | u, v => match u.count?, v.count? with
    | some m, some n => m == n
    | _, _ => false

mutual

def same : Value → Value → Bool
  | .list xs, .list ys => sameItems xs ys
  | .tuple xs, .tuple ys => sameItems xs ys
  | .set xs, .set ys => xs.length == ys.length && sameMembers xs ys
  | .map es, .map fs => es.length == fs.length && sameEntries es fs
  | u, v => sameScalar u v
termination_by structural u => u

def sameItems : List Value → List Value → Bool
  | [], [] => true
  | x :: xs, y :: ys => same x y && sameItems xs ys
  | _, _ => false
termination_by structural xs => xs

/-- Each member of the first set has an equal one in the second. -/
def sameMembers : List Value → List Value → Bool
  | [], _ => true
  | x :: xs, ys => (ys.any fun y => same x y) && sameMembers xs ys
termination_by structural xs => xs

def sameEntries : Mapping → Mapping → Bool
  | [], _ => true
  | (k, v) :: es, fs => (fs.any fun f => same k f.1 && same v f.2) && sameEntries es fs
termination_by structural es => es

end

mutual

/-- Whether a value can be a key: no list, no set and no mapping, nor a tuple that holds one. -/
def hashable : Value → Bool
  | .list _ => false
  | .set _ => false
  | .map _ => false
  | .knot _ _ => false
  | .tuple items => allHashable items
  | _ => true

def allHashable : List Value → Bool
  | [] => true
  | x :: xs => hashable x && allHashable xs

end

mutual

def unhashableKind : Value → Text
  | .tuple items => unhashableKindIn items
  | .knot cells start =>
    match (knot cells start).opened with
    | .tuple items => ((items.find? fun item => !item.hashable).map kind).getD []
    | v => v.kind
  | v => v.kind

def unhashableKindIn : List Value → Text
  | [] => []
  | x :: xs => if x.hashable then unhashableKindIn xs else unhashableKind x

end

end Value

namespace Mapping

def get? (m : Mapping) (key : Value) : Option Value :=
  (m.find? fun e => e.1.same key).map Prod.snd

def at? (m : Mapping) (key : Text) : Option Value := get? m (.text key)

/-- The mapping with a value at a key. A key that is there already stays as it is, in its place. -/
def insert (m : Mapping) (key value : Value) : Mapping :=
  match m with
  | [] => [(key, value)]
  | (k, v) :: rest =>
    if k.same key then (k, value) :: rest else (k, v) :: insert rest key value

def ofList (entries : List (Value × Value)) : Mapping :=
  entries.foldl (fun m e => insert m e.1 e.2) []

def keys (m : Mapping) : List Value := m.map Prod.fst

@[simp] theorem insert_nil (key value : Value) : insert [] key value = [(key, value)] := rfl

theorem keys_insert (m : Mapping) (key value : Value) :
    (insert m key value).keys =
      if m.any (fun e => e.1.same key) then m.keys else m.keys ++ [key] := by
  induction m with
  | nil => rfl
  | cons e rest ih =>
    obtain ⟨k, v⟩ := e
    by_cases h : k.same key = true
    · simp [insert, h, keys]
    · simp only [insert, h, keys, List.map_cons, List.any_cons, Bool.false_or] at ih ⊢
      simp only [Bool.false_eq_true, if_false, List.map_cons]
      rw [ih]
      split <;> simp

end Mapping

end ApiPages

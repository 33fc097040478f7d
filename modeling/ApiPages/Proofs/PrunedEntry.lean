import ApiPages.Proofs.EntryReading

/-!
What the reading of an entry takes notice of. Each reader of mappings knows some keys, and of these
a null counts like nothing at all, except where the return type of a method is looked for. So an
entry can be pruned at every level, and the type that is read or the reason why none is stays the
same.
-/
namespace ApiPages

namespace Value

def isNull : Value → Bool
  | .null => true
  | _ => false

def onItems (f : Value → Value) (v : Value) : Value :=
  match v.opened with
  | .list items => .list (items.map f)
  | _ => v

end Value

/-- What a reader of mappings takes notice of. -/
structure Notice where
  keys : List Text
  /-- Where null is told from nothing. -/
  nullable : List Text := []
  /-- What is done to the value at a key. -/
  inside : Text → Value → Value := fun _ v => v

namespace Mapping

/-- Whether something is lost with what stands at a key. -/
def noticed (n : Notice) (m : Mapping) (k : Value) : Bool :=
  n.keys.any fun key => k.same (.text key) && (n.nullable.contains key || !(m.valueAt key).isNull)

def pruneAt (n : Notice) : Value × Value → Value × Value
  | (.text key, v) => (.text key, n.inside key v)
  | e => e

/-- The mapping without the keys that are not read and, save for those that may be null, without
those whose value is null. -/
def pruned (n : Notice) (m : Mapping) : Mapping :=
  (m.filter fun e => noticed n m e.1).map (pruneAt n)

variable {n : Notice} {m : Mapping} {key : Text}

theorem noticed_text_iff {t : Text} : noticed n m (.text t) = true ↔
    t ∈ n.keys ∧ (t ∈ n.nullable ∨ (m.valueAt t).isNull = false) := by
  rw [noticed, List.any_eq_true]
  constructor
  · rintro ⟨key, hkey, hnoticed⟩
    obtain ⟨hsame, hnoticed⟩ := Bool.and_eq_true_iff.mp hnoticed
    obtain rfl := Value.text.inj (Value.same_text_iff.mp hsame)
    exact ⟨hkey, by simpa using hnoticed⟩
  · rintro ⟨hkey, hnoticed⟩
    refine ⟨t, hkey, Bool.and_eq_true_iff.mpr ⟨Value.same_text_iff.mpr rfl, ?_⟩⟩
    simpa using hnoticed

theorem noticed_iff (h : m.DistinctKeys) {t : Text} {v : Value} (he : (.text t, v) ∈ m) :
    noticed n m (.text t) = true ↔ t ∈ n.keys ∧ (t ∈ n.nullable ∨ v.isNull = false) := by
  have hv : m.valueAt t = v := by
    rw [valueAt, at?, get?_of_mem h (Value.same_text_iff.mpr rfl) he]
    rfl
  rw [noticed_text_iff, hv]

theorem fst_pruneAt (e : Value × Value) : (pruneAt n e).1 = e.1 := by
  obtain ⟨k, v⟩ := e
  cases k <;> rfl

theorem at?_filter {p : Value → Bool} :
    at? (m.filter fun e => p e.1) key = if p (.text key) = true then m.at? key else none := by
  induction m with
  | nil => simp
  | cons e m ih =>
    obtain ⟨k, v⟩ := e
    by_cases hk : k = .text key
    · subst hk
      cases hp : p (.text key) <;> simp [hp, ih, at?_cons_self]
    · rw [at?_cons_of_ne hk, ← ih, List.filter_cons]
      split
      · exact at?_cons_of_ne hk
      · rfl

theorem at?_map_pruneAt : at? (m.map (pruneAt n)) key = (m.at? key).map (n.inside key) := by
  induction m with
  | nil => rfl
  | cons e m ih =>
    obtain ⟨k, v⟩ := e
    by_cases hk : k = .text key
    · subst hk
      rw [at?_cons_self]
      exact at?_cons_self
    · have hne : (pruneAt n (k, v)).1 ≠ .text key := by rwa [fst_pruneAt]
      rw [at?_cons_of_ne hk, ← ih]
      exact at?_cons_of_ne hne

theorem at?_pruned (h : key ∈ n.keys) : (m.pruned n).at? key =
    if key ∈ n.nullable ∨ (m.valueAt key).isNull = false then
      (m.at? key).map (n.inside key) else none := by
  rw [pruned, at?_map_pruneAt, at?_filter]
  simp only [noticed_text_iff, h, true_and]
  split <;> rfl

theorem at?_pruned_of_nullable (h : key ∈ n.keys) (hnull : key ∈ n.nullable) :
    (m.pruned n).at? key = (m.at? key).map (n.inside key) := by
  rw [at?_pruned h, if_pos (.inl hnull)]

theorem valueAt_pruned (h : key ∈ n.keys) (hnull : n.inside key .null = .null) :
    (m.pruned n).valueAt key = n.inside key (m.valueAt key) := by
  rw [valueAt, at?_pruned h]
  split
  · rw [valueAt]
    cases m.at? key with
    | none => exact hnull.symm
    | some v => rfl
  · rename_i hno
    have hvalue : m.valueAt key = .null := by
      rw [not_or, Bool.not_eq_false] at hno
      cases hv : m.valueAt key <;> simp [hv, Value.isNull] at hno ⊢
    rw [hvalue, hnull]
    rfl

theorem textAt?_pruned (h : key ∈ n.keys) (hinside : n.inside key = id) :
    (m.pruned n).textAt? key = m.textAt? key := by
  rw [textAt?, valueAt_pruned h (by rw [hinside]; rfl), hinside]
  rfl

theorem modifiers?_pruned (hname : CatalogueKey.name ∈ n.keys)
    (hmodifiers : CatalogueKey.modifiers ∈ n.keys) (hn : n.inside CatalogueKey.name = id)
    (hm : n.inside CatalogueKey.modifiers = id) : (m.pruned n).modifiers? = m.modifiers? := by
  rw [modifiers?, valueAt_pruned hmodifiers (by rw [hm]; rfl), hm,
    valueAt_pruned hname (by rw [hn]; rfl), hn]
  rfl

theorem readAt?_pruned {α : Type} {read : Value → Except CatalogueError α} {f : Value → Value}
    (h : key ∈ n.keys) (hinside : n.inside key = Value.onItems f)
    (hread : ∀ x, read (f x) = read x) :
    (m.pruned n).readAt? key read = m.readAt? key read := by
  have hvalue := valueAt_pruned (m := m) h (by rw [hinside]; rfl)
  rw [hinside, Value.onItems] at hvalue
  split at hvalue
  · rename_i items hitems
    have hpruned : ((m.pruned n).valueAt key).opened = .list (items.map f) := by
      rw [hvalue]
      rfl
    rw [readAt?, readAt?, itemsAt?_of_opened hitems, itemsAt?_of_opened hpruned, liftM_ok, liftM_ok,
      ok_bind, ok_bind, List.mapM_map]
    exact congrArg (fun r => items.mapM r) (funext hread)
  · rw [readAt?, readAt?, itemsAt?, itemsAt?, hvalue]

end Mapping

def Value.pruned (n : Notice) (v : Value) : Value :=
  match v.mapping? with
  | some m => .map (m.pruned n)
  | none => v

theorem Value.read_pruned_of_mapping {α : Type} {n : Notice} {read : Value → α}
    (h : ∀ v m, v.mapping? = some m → read (.map (m.pruned n)) = read v) (v : Value) :
    read (v.pruned n) = read v := by
  rw [pruned]
  split
  · rename_i m hm
    exact h v m hm
  · rfl

namespace Ancestor

def notice : Notice where
  keys := [CatalogueKey.name, CatalogueKey.documented]

theorem ofValue?_pruned (v : Value) : ofValue? (v.pruned notice) = ofValue? v := by
  refine Value.read_pruned_of_mapping (fun v m hm => ?_) v
  have hname : (m.pruned notice).valueAt CatalogueKey.name = m.valueAt CatalogueKey.name :=
    Mapping.valueAt_pruned (by decide) rfl
  have hdocumented : (m.pruned notice).valueAt CatalogueKey.documented =
      m.valueAt CatalogueKey.documented := Mapping.valueAt_pruned (by decide) rfl
  simp only [ofValue?, hm, Value.mapping?_map, hname, hdocumented]

end Ancestor

namespace Parameter

def notice : Notice where
  keys := [CatalogueKey.name, CatalogueKey.type, CatalogueKey.comment]

theorem ofValue?_pruned (v : Value) : ofValue? (v.pruned notice) = ofValue? v := by
  refine Value.read_pruned_of_mapping (fun v m hm => ?_) v
  have htext {key : Text} (h : key ∈ notice.keys) :
      (m.pruned notice).textAt? key = m.textAt? key := Mapping.textAt?_pruned h rfl
  simp only [ofValue?, Value.entries?, hm, Value.mapping?_map, ok_bind]
  rw [htext (by decide), htext (by decide), htext (by decide)]

end Parameter

namespace Thrown

def notice : Notice where
  keys := [CatalogueKey.type, CatalogueKey.comment]

theorem ofValue?_pruned (v : Value) : ofValue? (v.pruned notice) = ofValue? v := by
  refine Value.read_pruned_of_mapping (fun v m hm => ?_) v
  have htext {key : Text} (h : key ∈ notice.keys) :
      (m.pruned notice).textAt? key = m.textAt? key := Mapping.textAt?_pruned h rfl
  simp only [ofValue?, Value.entries?, hm, Value.mapping?_map, ok_bind]
  rw [htext (by decide), htext (by decide)]

end Thrown

namespace Method

def notice : Notice where
  keys := [CatalogueKey.name, CatalogueKey.returns, CatalogueKey.parameters, CatalogueKey.comment,
    CatalogueKey.modifiers, CatalogueKey.returnComment, CatalogueKey.throws]
  nullable := [CatalogueKey.returns]
  inside key v :=
    if key = CatalogueKey.parameters then v.onItems (·.pruned Parameter.notice)
    else if key = CatalogueKey.throws then v.onItems (·.pruned Thrown.notice)
    else v

theorem returnType?_pruned (m : Mapping) : returnType? (m.pruned notice) = returnType? m := by
  have hreturns : (m.pruned notice).at? CatalogueKey.returns =
      (m.at? CatalogueKey.returns).map (notice.inside CatalogueKey.returns) :=
    Mapping.at?_pruned_of_nullable (by decide) (by decide)
  have htext : (m.pruned notice).textAt? CatalogueKey.returns = m.textAt? CatalogueKey.returns :=
    Mapping.textAt?_pruned (by decide) rfl
  rw [returnType?, returnType?, hreturns, htext]
  cases m.at? CatalogueKey.returns <;> rfl

theorem ofValue?_pruned (v : Value) : ofValue? (v.pruned notice) = ofValue? v := by
  refine Value.read_pruned_of_mapping (fun v m hm => ?_) v
  have htext {key : Text} (h : key ∈ notice.keys) (hinside : notice.inside key = id) :
      (m.pruned notice).textAt? key = m.textAt? key := Mapping.textAt?_pruned h hinside
  have hparameters : (m.pruned notice).readAt? CatalogueKey.parameters
        (fun p => liftM (Parameter.ofValue? p)) =
      m.readAt? CatalogueKey.parameters fun p => liftM (Parameter.ofValue? p) :=
    Mapping.readAt?_pruned (by decide) rfl fun p => congrArg liftM (Parameter.ofValue?_pruned p)
  have hthrows : (m.pruned notice).readAt? CatalogueKey.throws
        (fun t => liftM (Thrown.ofValue? t)) =
      m.readAt? CatalogueKey.throws fun t => liftM (Thrown.ofValue? t) :=
    Mapping.readAt?_pruned (by decide) rfl fun t => congrArg liftM (Thrown.ofValue?_pruned t)
  rw [ofValue?_of_mapping hm, ofValue?_of_mapping (Value.mapping?_map _), ofMapping?, ofMapping?,
    htext (by decide) rfl, htext (by decide) rfl, htext (by decide) rfl, returnType?_pruned,
    Mapping.modifiers?_pruned (by decide) (by decide) rfl rfl, hparameters, hthrows]

end Method

namespace Field

def notice : Notice where
  keys := [CatalogueKey.name, CatalogueKey.type, CatalogueKey.static, CatalogueKey.comment,
    CatalogueKey.modifiers, CatalogueKey.value]

theorem ofValue?_pruned (v : Value) : ofValue? (v.pruned notice) = ofValue? v := by
  refine Value.read_pruned_of_mapping (fun v m hm => ?_) v
  have hvalue {key : Text} (h : key ∈ notice.keys) :
      (m.pruned notice).valueAt key = m.valueAt key := Mapping.valueAt_pruned h rfl
  have htext {key : Text} (h : key ∈ notice.keys) :
      (m.pruned notice).textAt? key = m.textAt? key := Mapping.textAt?_pruned h rfl
  rw [ofValue?_of_mapping hm, ofValue?_of_mapping (Value.mapping?_map _), ofMapping?, ofMapping?,
    htext (by decide), htext (by decide), htext (by decide),
    Mapping.modifiers?_pruned (by decide) (by decide) rfl rfl, constantValue?, constantValue?,
    hvalue (by decide), hvalue (by decide)]

end Field

namespace TypeEntry

def notice : Notice where
  keys := [CatalogueKey.name, CatalogueKey.package, CatalogueKey.comment, CatalogueKey.ancestors,
    CatalogueKey.methods, CatalogueKey.fields]
  inside key v :=
    if key = CatalogueKey.ancestors then v.onItems (·.pruned Ancestor.notice)
    else if key = CatalogueKey.methods then v.onItems (·.pruned Method.notice)
    else if key = CatalogueKey.fields then v.onItems (·.pruned Field.notice)
    else v

/-- Whatever stands in the place of an entry is read to the same type, or refused for the same
reason, when it is stripped of the keys that nobody reads and of those whose value is null, in the
entry itself and in the ancestors, the methods, their parameters and exceptions, and the fields. -/
theorem pruning_is_invisible (v : Value) : ofValue? (v.pruned notice) = ofValue? v := by
  refine Value.read_pruned_of_mapping (fun v m hm => ?_) v
  have htext {key : Text} (h : key ∈ notice.keys) (hinside : notice.inside key = id) :
      (m.pruned notice).textAt? key = m.textAt? key := Mapping.textAt?_pruned h hinside
  have hancestors : (m.pruned notice).readAt? CatalogueKey.ancestors
        (fun a => liftM (Ancestor.ofValue? a)) =
      m.readAt? CatalogueKey.ancestors fun a => liftM (Ancestor.ofValue? a) :=
    Mapping.readAt?_pruned (by decide) rfl fun a => congrArg liftM (Ancestor.ofValue?_pruned a)
  have hmethods : (m.pruned notice).readAt? CatalogueKey.methods Method.ofValue? =
      m.readAt? CatalogueKey.methods Method.ofValue? :=
    Mapping.readAt?_pruned (by decide) rfl Method.ofValue?_pruned
  have hfields : (m.pruned notice).readAt? CatalogueKey.fields Field.ofValue? =
      m.readAt? CatalogueKey.fields Field.ofValue? :=
    Mapping.readAt?_pruned (by decide) rfl Field.ofValue?_pruned
  rw [ofValue?_of_mapping hm, ofValue?_of_mapping (Value.mapping?_map _), ofMapping?, ofMapping?,
    htext (by decide) rfl, htext (by decide) rfl, htext (by decide) rfl, hancestors, hmethods,
    hfields]

example : (Value.map
    [(.text CatalogueKey.name, .null),
     (.int 7, .text "seven".text),
     (.text CatalogueKey.methods, .list
       [.map [(.text CatalogueKey.returns, .null), (.text CatalogueKey.throws, .null)], .null])]
    ).pruned notice =
      .map [(.text CatalogueKey.methods, .list
        [.map [(.text CatalogueKey.returns, .null)], .null])] := rfl

end TypeEntry

end ApiPages

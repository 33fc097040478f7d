import ApiPages.Catalogue.Entry
import ApiPages.Proofs.Inversion
import ApiPages.Proofs.Mappings

/-!
Entries of a catalogue read from mappings. Methods, fields and types are refused when they are no
mappings, and apart from that they are read from the mapping alone.
-/
namespace ApiPages

theorem liftM_ok {α : Type} (a : α) :
    (liftM (Except.ok a : Except Fault α) : Except CatalogueError α) = .ok a := rfl

theorem Value.entries?_eq {v : Value} {m : Mapping} {operation : Text}
    (h : v.mapping? = some m) : v.entries? operation = .ok m := by
  rw [entries?, h]

theorem Value.text?_of_list {v : Value} {items : List Value} (h : v.opened = .list items) :
    v.text? = none := by
  cases v with
  | text => cases h
  | _ => rfl

theorem Mapping.itemsAt?_of_opened {m : Mapping} {key : Text} {items : List Value}
    (h : (m.valueAt key).opened = .list items) : m.itemsAt? key = .ok items := by
  rw [itemsAt?]
  cases htruthy : (m.valueAt key).truthy with
  | true => simp [Value.items?, h]
  | false =>
    generalize m.valueAt key = v at h htruthy
    cases v with
    | list xs =>
      cases h
      simpa [Value.truthy] using htruthy
    | knot cells start => cases htruthy
    | _ => cases h

/-- What is read from the items at a key, one by one. -/
def Mapping.readAt? {α : Type} (m : Mapping) (key : Text) (read : Value → Except CatalogueError α) :
    Except CatalogueError (List α) := do
  (← m.itemsAt? key).mapM read

def Method.ofMapping? (m : Mapping) : Except CatalogueError Method := do
  let name ← m.textAt? CatalogueKey.name
  let returnType ← Method.returnType? m
  let parameters ← m.readAt? CatalogueKey.parameters fun p => liftM (Parameter.ofValue? p)
  let comment ← m.textAt? CatalogueKey.comment
  let modifiers ← m.modifiers?
  let returnComment ← m.textAt? CatalogueKey.returnComment
  let throws ← m.readAt? CatalogueKey.throws fun t => liftM (Thrown.ofValue? t)
  return { name, returnType, parameters, comment, modifiers, returnComment, throws }

def Field.ofMapping? (m : Mapping) : Except CatalogueError Field := do
  let name ← m.textAt? CatalogueKey.name
  let type ← m.textAt? CatalogueKey.type
  let comment ← m.textAt? CatalogueKey.comment
  let modifiers ← m.modifiers?
  let constantValue ← Field.constantValue? m
  let isStatic := (m.valueAt CatalogueKey.static).truthy
  return { name, type, isStatic, comment, modifiers, constantValue }

def TypeEntry.ofMapping? (m : Mapping) : Except CatalogueError TypeEntry := do
  let name ← m.textAt? CatalogueKey.name
  let package ← m.textAt? CatalogueKey.package
  let comment ← m.textAt? CatalogueKey.comment
  let ancestors ← m.readAt? CatalogueKey.ancestors fun a => liftM (Ancestor.ofValue? a)
  let methods ← m.readAt? CatalogueKey.methods Method.ofValue?
  let fields ← m.readAt? CatalogueKey.fields Field.ofValue?
  return { name, package, comment, ancestors, methods, fields }

section OfMapping

variable {v : Value} {m : Mapping}

theorem Method.ofValue?_of_mapping (h : v.mapping? = some m) : ofValue? v = ofMapping? m := by
  simp only [ofValue?, ofMapping?, Mapping.readAt?, Value.entries?_eq h, liftM_ok, ok_bind,
    bind_assoc]

theorem Field.ofValue?_of_mapping (h : v.mapping? = some m) : ofValue? v = ofMapping? m := by
  simp only [ofValue?, ofMapping?, Value.entries?_eq h, liftM_ok, ok_bind]

theorem TypeEntry.ofValue?_of_mapping (h : v.mapping? = some m) : ofValue? v = ofMapping? m := by
  simp only [ofValue?, ofMapping?, Mapping.readAt?, Value.entries?_eq h, liftM_ok, ok_bind,
    bind_assoc]

end OfMapping

end ApiPages

import ApiPages.Model.TypeEntry
import ApiPages.Value.Display
import ApiPages.Value.Equality

/-!
Types read from values. What is missing or null is empty, a value of another kind counts by its
display, and only modifiers have to be a list or a single text.
-/
namespace ApiPages

inductive CatalogueError where
  | fault (f : Fault)
  /-- The modifiers of a member, whose name is given as it was found. -/
  | modifiersNotList (name modifiers : Value)

def CatalogueError.message? : CatalogueError → Option Text
  | .fault f => f.message?
  | .modifiersNotList name modifiers =>
    some ("\x27modifiers\x27 of ".text ++ name.quoted ++ " must be a list, got ".text ++
      modifiers.quoted)

instance : MonadLift (Except Fault) (Except CatalogueError) := ⟨Except.mapError .fault⟩

namespace CatalogueKey

def name : Text := "name".text
def package : Text := "package".text
def comment : Text := "comment".text
def ancestors : Text := "ancestors".text
def documented : Text := "documented".text
def methods : Text := "methods".text
def returns : Text := "returns".text
def parameters : Text := "parameters".text
def type : Text := "type".text
def modifiers : Text := "modifiers".text
def returnComment : Text := "return_comment".text
def throws : Text := "throws".text
def fields : Text := "fields".text
def static : Text := "static".text
def value : Text := "value".text

end CatalogueKey

def readOperation : Text := "get".text

namespace Mapping

def valueAt (m : Mapping) (key : Text) : Value := (m.at? key).getD .null

def textAt? (m : Mapping) (key : Text) : Except Fault Text :=
  match m.valueAt key with
  | .null => .ok []
  | v => v.display?

def itemsAt? (m : Mapping) (key : Text) : Except Fault (List Value) :=
  let v := m.valueAt key
  if v.truthy then v.items? else .ok []

/-- The modifiers of a member: a list, or a text that is the only one. -/
def modifiers? (m : Mapping) : Except CatalogueError (List Text) :=
  let v := m.valueAt CatalogueKey.modifiers
  match v.opened, v.text? with
  | .null, _ => .ok []
  | _, some t => .ok [t]
  | .list items, _ => (items.mapM Value.display?).mapError .fault
  | _, _ =>
    let name := m.valueAt CatalogueKey.name
    if name.writable && v.writable then .error (.modifiersNotList name v)
    else .error (.fault .tooManyDigits)

end Mapping

def Ancestor.ofValue? (v : Value) : Except Fault Ancestor :=
  match v.mapping? with
  | some m => do
    let name := m.valueAt CatalogueKey.name
    let qualifiedName ← if name.truthy then name.display? else pure []
    return ⟨qualifiedName, (m.valueAt CatalogueKey.documented).truthy⟩
  | none => do return ⟨← v.display?, false⟩

def Parameter.ofValue? (v : Value) : Except Fault Parameter := do
  let m ← v.entries? readOperation
  return ⟨← m.textAt? CatalogueKey.name, ← m.textAt? CatalogueKey.type,
    ← m.textAt? CatalogueKey.comment⟩

def Thrown.ofValue? (v : Value) : Except Fault Thrown := do
  let m ← v.entries? readOperation
  return ⟨← m.textAt? CatalogueKey.type, ← m.textAt? CatalogueKey.comment⟩

/-- The return type of a method; only when nothing at all is said it returns nothing. -/
def Method.returnType? (m : Mapping) : Except Fault Text :=
  match m.at? CatalogueKey.returns with
  | none => .ok voidType
  | some _ => m.textAt? CatalogueKey.returns

def Method.ofValue? (v : Value) : Except CatalogueError Method := do
  let m ← v.entries? readOperation
  let name ← m.textAt? CatalogueKey.name
  let returnType ← Method.returnType? m
  let parameters ← (← m.itemsAt? CatalogueKey.parameters).mapM fun p =>
    liftM (Parameter.ofValue? p)
  let comment ← m.textAt? CatalogueKey.comment
  let modifiers ← m.modifiers?
  let returnComment ← m.textAt? CatalogueKey.returnComment
  let throws ← (← m.itemsAt? CatalogueKey.throws).mapM fun t => liftM (Thrown.ofValue? t)
  return { name, returnType, parameters, comment, modifiers, returnComment, throws }

def Field.constantValue? (m : Mapping) : Except Fault (Option Text) :=
  match m.valueAt CatalogueKey.value with
  | .null => .ok none
  | v => v.display?.map some

def Field.ofValue? (v : Value) : Except CatalogueError Field := do
  let m ← v.entries? readOperation
  let name ← m.textAt? CatalogueKey.name
  let type ← m.textAt? CatalogueKey.type
  let comment ← m.textAt? CatalogueKey.comment
  let modifiers ← m.modifiers?
  let constantValue ← Field.constantValue? m
  let isStatic := (m.valueAt CatalogueKey.static).truthy
  return { name, type, isStatic, comment, modifiers, constantValue }

def TypeEntry.ofValue? (v : Value) : Except CatalogueError TypeEntry := do
  let m ← v.entries? readOperation
  let name ← m.textAt? CatalogueKey.name
  let package ← m.textAt? CatalogueKey.package
  let comment ← m.textAt? CatalogueKey.comment
  let ancestors ← (← m.itemsAt? CatalogueKey.ancestors).mapM fun a =>
    liftM (Ancestor.ofValue? a)
  let methods ← (← m.itemsAt? CatalogueKey.methods).mapM Method.ofValue?
  let fields ← (← m.itemsAt? CatalogueKey.fields).mapM Field.ofValue?
  return { name, package, comment, ancestors, methods, fields }

end ApiPages

import ApiPages.Model.Order
import ApiPages.Settings.Basic
import ApiPages.FileTree.Values

/-!
Settings read from a document. The document is merged over the defaults; it may hold no keys but the
known ones, and its implicit roots have to be a list of names.
-/
namespace ApiPages

inductive SettingsError where
  | notMapping (path : Path)
  | unknownKeys (path : Path) (keys : List Text)
  | rootsNotNames (path : Path) (got : Value)
  | fault (f : Fault)
  | unread (u : Unread)

def SettingsError.message? : SettingsError → Option Text
  | .notMapping path => some ("Configuration must be a mapping: ".text ++ path.text)
  | .unknownKeys path keys =>
    some ("Unknown configuration keys in ".text ++ path.text ++ ": ".text ++
      Text.join ", ".text keys)
  | .rootsNotNames path got =>
    some (Text.quoted SettingsKey.implicitRoots ++ " in ".text ++ path.text ++
      " must be a list of names, got ".text ++ got.quoted)
  | .fault f => f.message?
  | .unread _ => none

namespace Settings

def defaults : Mapping := ({} : Context).mapping

def unknownKeys (m : Mapping) : List Value :=
  m.keys.filter fun k => !SettingsKey.all.any fun known => k.same (.text known)

def isNames (v : Value) : Bool :=
  match v.opened with
  | .list items => items.all fun v => v.text?.isSome
  | _ => false

/-- Refuses unknown keys. They are named in order, if all of them are texts. -/
def checkKeys (path : Path) (m : Mapping) : Except SettingsError Unit :=
  let unknown := unknownKeys m
  if unknown.isEmpty then .ok ()
  else match unknown.mapM Value.text? with
    | none => .error (.fault .unlisted)
    | some keys => .error (.unknownKeys path (Order.sortBy Text.atMost keys))

def checkRoots (path : Path) (m : Mapping) : Except SettingsError Unit :=
  match m.at? SettingsKey.implicitRoots with
  | none => .ok ()
  | some roots =>
    if isNames roots then .ok ()
    else if roots.writable then .error (.rootsNotNames path roots)
    else .error (.fault .tooManyDigits)

/-- The entries of a document; one that counts as false has none. -/
def entriesOf? (path : Path) (document : Value) : Except SettingsError Mapping :=
  if !document.truthy then .ok []
  else match document.mapping? with
    | some m => .ok m
    | none => .error (.notMapping path)

def ofDocument? (path : Path) (document : Value) : Except SettingsError Mapping := do
  let m ← entriesOf? path document
  checkKeys path m
  checkRoots path m
  return defaults.merge m

/-- The settings of the file that a path leads to. Without a path, or without a file there, they are
the defaults. -/
def read? (read : DocumentReader) (t : FileTree) (path : Option Text) :
    Except SettingsError Mapping :=
  match path with
  | none => .ok defaults
  | some [] => .ok defaults
  | some name =>
    let p := Path.ofText name
    match t.exists? p with
    | .error r => .error (.unread (.refused ⟨r, p⟩))
    | .ok false => .ok defaults
    | .ok true =>
      match t.readValue read p with
      | .error u => .error (.unread u)
      | .ok document => ofDocument? p document

def load? (read : DocumentReader) (t : FileTree) (path : Option Text) :
    Except SettingsError Settings :=
  (read? read t path).map ofMapping

end Settings

end ApiPages

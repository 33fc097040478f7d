import ApiPages.Catalogue.Entry
import ApiPages.FileTree.Values

/-!
The catalogue of types that a document lists.
-/
namespace ApiPages

namespace CatalogueKey

def types : Text := "types".text

end CatalogueKey

inductive CatalogueFailure where
  | noTypes (path : Path)
  | entry (e : CatalogueError)
  | unread (u : Unread)

def CatalogueFailure.message? : CatalogueFailure → Option Text
  | .noTypes path => some ("No \x27types\x27 list found in: ".text ++ path.text)
  | .entry e => e.message?
  | .unread _ => none

namespace Catalogue

def listed? (document : Value) : Option (List Value) := do
  let m ← document.mapping?
  match (m.valueAt CatalogueKey.types).opened with
  | .list items => some items
  | _ => none

def ofDocument? (path : Path) (document : Value) : Except CatalogueFailure (List TypeEntry) :=
  match listed? document with
  | none => .error (.noTypes path)
  | some items => (items.mapM TypeEntry.ofValue?).mapError .entry

def load? (read : DocumentReader) (t : FileTree) (path : Path) :
    Except CatalogueFailure (List TypeEntry) :=
  match t.readValue read path with
  | .error u => .error (.unread u)
  | .ok document => ofDocument? path document

end Catalogue

end ApiPages

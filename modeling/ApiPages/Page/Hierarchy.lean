import ApiPages.Markdown.Code
import ApiPages.Model.TypeEntry
import ApiPages.Page.Context
import ApiPages.Path.Lexical

/-!
The inheritance chain of a type, with links to the pages of documented ancestors. Links are laid out
for one directory per package, whatever directory the pages are written to.
-/
namespace ApiPages

def pageName (extension name : Text) : Text := name ++ extension

def packagePath (package : Text) : Text := package.map fun c => if c = '.'.code then '/'.code else c

def relativePagePath (here : List Text) (extension source target name : Text) :
    Except Fault Text :=
  let sourcePath := packagePath source
  Lexical.relative here (if sourcePath.isEmpty then Lexical.stay else sourcePath)
    (Lexical.continued (packagePath target) (pageName extension name))

def Ancestor.rendered (a : Ancestor) (here : List Text) (extension source : Text) :
    Except Fault Text :=
  if a.documented then do
    return Markdown.link a.name (← relativePagePath here extension source a.package a.name)
  else .ok (Markdown.code a.qualifiedName)

namespace TypeEntry

def shownAncestors (t : TypeEntry) (implicitRoots : List Text) : List Ancestor :=
  t.ancestors.filter fun a => !implicitRoots.contains a.qualifiedName

def boldName (t : TypeEntry) : Text := "**".text ++ t.name ++ "**".text

/-- The chain from the root to the type itself, or nothing if it shows no ancestor. -/
def hierarchy (t : TypeEntry) (style : PageStyle) (here : List Text) : Except Fault Text := do
  let shown := t.shownAncestors style.implicitRoots
  if shown.isEmpty then return []
  let links ← shown.mapM fun a => do
    if a.documented then a.rendered here (← style.fileExtension) t.package
    else a.rendered here [] t.package
  return Text.join (← style.separator) (links ++ [t.boldName])

end TypeEntry

end ApiPages

import ApiPages.FileTree.Basic
import ApiPages.Text.Order
import ApiPages.Text.Quoted

/-!
Refusals as they are reported, and directories made together with the missing ones above them.
-/
namespace ApiPages

structure RefusedPath where
  refusal : Refusal
  path : Path
  deriving DecidableEq, Repr

def Refusal.text : Refusal → Text
  | .noEntry => "[Errno 2] No such file or directory".text
  | .exists => "[Errno 17] File exists".text
  | .notDirectory => "[Errno 20] Not a directory".text
  | .isDirectory => "[Errno 21] Is a directory".text
  | .nameTooLong => "[Errno 36] File name too long".text

def RefusedPath.text (r : RefusedPath) : Text :=
  r.refusal.text ++ ": ".text ++ Text.quoted r.path.text

namespace FileTree

/-- A refusal to make a directory is no matter when the directory is there. -/
def unlessDirectory (t : FileTree) (p : Path) (refusal : Refusal) : Except RefusedPath Unit :=
  match t.isDirectory? p with
  | .ok true => .ok ()
  | .ok false => .error ⟨refusal, p⟩
  | .error r => .error ⟨r, p⟩

/-- Makes the directory whose parts, last one first, are given, and the missing ones above it. What
was made stays when a later step is refused. -/
def makeAll (root : PathRoot) : List Text → FileTree → Except RefusedPath Unit × FileTree
  | [], t =>
    match t.makeDirectory ⟨root, []⟩ with
    | .ok t => (.ok (), t)
    | .error .noEntry => (.error ⟨.noEntry, ⟨root, []⟩⟩, t)
    | .error r => (t.unlessDirectory ⟨root, []⟩ r, t)
  | name :: above, t =>
    let p : Path := ⟨root, (name :: above).reverse⟩
    match t.makeDirectory p with
    | .ok t => (.ok (), t)
    | .error .noEntry =>
      match makeAll root above t with
      | (.error r, t) => (.error r, t)
      | (.ok (), t) =>
        match t.makeDirectory p with
        | .ok t => (.ok (), t)
        | .error .noEntry => (.error ⟨.noEntry, p⟩, t)
        | .error r => (t.unlessDirectory p r, t)
    | .error r => (t.unlessDirectory p r, t)

def makeDirectories (t : FileTree) (p : Path) : Except RefusedPath Unit × FileTree :=
  makeAll p.root p.parts.reverse t

def below (t : FileTree) (place : List Text) : List (Text × Entry) :=
  let inside := t.entries.filterMap fun (p, e) =>
    if place.isPrefixOf p ∧ p.length ≠ place.length then
      some (Text.join ['/'.code] (p.drop place.length), e)
    else none
  inside.mergeSort fun a b => a.1.atMost b.1

end FileTree

end ApiPages

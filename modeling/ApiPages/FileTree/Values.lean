import ApiPages.FileTree.Directories
import ApiPages.Value.Basic
import ApiPages.Yaml.Defect

/-!
Values read from the files of a tree, by a reader of documents that is left open.
-/
namespace ApiPages

abbrev DocumentReader := Text → Except Yaml.Defect Value

inductive Unread where
  | refused (r : RefusedPath)
  | fault (f : Fault)
  | notUtf8
  | defect (d : Yaml.Defect)
  deriving DecidableEq, Repr

namespace FileTree

def withLineFeeds : Text → Text
  | [] => []
  | .carriageReturn :: .lineFeed :: rest => .lineFeed :: withLineFeeds rest
  | c :: rest => (if c = .carriageReturn then .lineFeed else c) :: withLineFeeds rest

def readValue (read : DocumentReader) (t : FileTree) (p : Path) : Except Unread Value :=
  match p.fault? with
  | some fault => .error (.fault fault)
  | none =>
    match t.readFile p with
    | .error r => .error (.refused ⟨r, p⟩)
    | .ok octets =>
      match Utf8.decode octets with
      | none => .error .notUtf8
      | some text => (read (withLineFeeds text)).mapError .defect

end FileTree

end ApiPages

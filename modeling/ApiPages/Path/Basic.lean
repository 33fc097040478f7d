import ApiPages.Path.Lexical
import ApiPages.Text.Utf8

/-!
Paths of files and directories. Empty components and single dots vanish, double dots stay: what they
mean depends on the file tree.
-/
namespace ApiPages

/-- Where a path starts: at the working directory or at the root. Two slashes in front are kept
apart from one, or from three and more, which count as one. -/
inductive PathRoot where
  | none
  | single
  | double
  deriving DecidableEq, Repr

def PathRoot.text : PathRoot → Text
  | .none => []
  | .single => ['/'.code]
  | .double => ['/'.code, '/'.code]

structure Path where
  root : PathRoot
  parts : List Text
  deriving DecidableEq, Repr

namespace Path

def rootOf (t : Text) : PathRoot :=
  match (t.takeWhile (· == '/'.code)).length with
  | 0 => .none
  | 2 => .double
  | _ => .single

def ofText (t : Text) : Path := ⟨rootOf t, Lexical.components t⟩

def text (p : Path) : Text :=
  if p.root = .none ∧ p.parts.isEmpty then Lexical.stay
  else p.root.text ++ Text.join ['/'.code] p.parts

def append (p : Path) (t : Text) : Path :=
  let q := ofText t
  if q.root = .none then ⟨p.root, p.parts ++ q.parts⟩ else q

def parent (p : Path) : Path := ⟨p.root, p.parts.dropLast⟩

/-- Why the system cannot be given a path. It takes names by their octets, and none of them null. -/
def fault? (p : Path) : Option Fault :=
  if p.parts.any fun part => !Utf8.encodable part then some (.notEncodable p.text)
  else if p.parts.any fun part => part.contains '\x00'.code then some .nullInPath
  else none

end Path

end ApiPages

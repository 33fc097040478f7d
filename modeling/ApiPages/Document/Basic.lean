import ApiPages.Document.Lines
import ApiPages.Fault
import ApiPages.World

/-!
A document: a buffer bound to a file. Lines are only ever added, and the file is written once, when
the document is finalized.
-/
namespace ApiPages

inductive SinkError where
  | cannotCreate (path : Path) (cause : RefusedPath)
  | isDirectory (path : Path)
  | alreadyFinalized (path : Path)
  | cannotWrite (path : Path) (cause : RefusedPath)
  | noSpace (path : Path)
  deriving DecidableEq, Repr

def SinkError.message : SinkError → Text
  | .cannotCreate path cause =>
    "Cannot create output directory for ".text ++ path.text ++ ": ".text ++ cause.text
  | .isDirectory path => "Output path is a directory: ".text ++ path.text
  | .alreadyFinalized path => "Document already finalized: ".text ++ path.text
  | .cannotWrite path cause =>
    "Cannot write ".text ++ path.text ++ ": ".text ++ cause.text
  | .noSpace path =>
    "Cannot write ".text ++ path.text ++ ": [Errno 28] No space left on device".text

inductive PageError where
  | sink (e : SinkError)
  /-- The system refused to say whether the path is a directory. -/
  | refused (r : RefusedPath)
  | fault (f : Fault)
  deriving DecidableEq, Repr

structure Document where
  path : Path
  lines : Lines
  finalized : Bool
  deriving DecidableEq, Repr

namespace Document

/-- A new document for a path. The directory it will be written to is made. -/
def create (path : Path) : Job PageError Document := fun w =>
  match path.parent.fault? with
  | some fault => .error (.fault fault) w
  | none =>
    match w.tree.makeDirectories path.parent with
    | (.error r, tree) => .error (.sink (.cannotCreate path r)) { w with tree }
    | (.ok (), tree) =>
      match tree.isDirectory? path with
      | .error r => .error (.refused ⟨r, path⟩) { w with tree }
      | .ok true => .error (.sink (.isDirectory path)) { w with tree }
      | .ok false => .ok ⟨path, [], false⟩ { w with tree }

def append (d : Document) (lines : Lines) : Except SinkError Document :=
  if d.finalized then .error (.alreadyFinalized d.path)
  else .ok { d with lines := d.lines ++ lines }

def appendHeading (d : Document) (level : Nat) (t : Text) : Except SinkError Document :=
  d.append (d.lines.headingLines level t)

/-- Adds a text line by line. There is nothing to add of an empty text, so it is never refused. -/
def appendText (d : Document) (t : Text) : Except SinkError Document :=
  if t.isEmpty then .ok d else d.append (Text.lines t)

/-- Adds the members that can be rendered. The drops so far are there also when the document takes
no lines. -/
def appendMembers {α : Type} (place : Text) (render : α → Except Rejection Lines)
    (d : Document) : List α → Except SinkError Document × List Drop
  | [] => (.ok d, [])
  | member :: rest =>
    match render member with
    | .error r =>
      let (outcome, drops) := appendMembers place render d rest
      (outcome, ⟨place, r⟩ :: drops)
    | .ok lines =>
      match d.append lines with
      | .error e => (.error e, [])
      | .ok d => appendMembers place render d rest

def closed (d : Document) : Document := { d with finalized := true }

def finalize (d : Document) : Job PageError Unit := fun w =>
  if d.finalized then .error (.sink (.alreadyFinalized d.path)) w
  else match d.path.fault? with
    | some fault => .error (.fault fault) w
    | none =>
      match w.tree.writeFile d.path (Utf8.encode? d.lines.render) with
      | (.error (.refused r), tree) =>
        .error (.sink (.cannotWrite d.path ⟨r, d.path⟩)) { w with tree }
      | (.error .notEncodable, tree) =>
        .error (.fault (.notEncodable d.lines.render)) { w with tree }
      | (.error .noSpace, tree) => .error (.sink (.noSpace d.path)) { w with tree }
      | (.ok (), tree) => .ok () ⟨tree, w.log ++ [.linesWritten d.lines.length d.path]⟩

theorem append_of_open {d : Document} (h : d.finalized = false) (lines : Lines) :
    d.append lines = .ok { d with lines := d.lines ++ lines } := by
  simp [append, h]

theorem append_of_finalized {d : Document} (h : d.finalized = true) (lines : Lines) :
    d.append lines = .error (.alreadyFinalized d.path) := by
  simp [append, h]

end Document

end ApiPages

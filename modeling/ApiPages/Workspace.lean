import ApiPages.Catalogue.Document
import ApiPages.Page.Batch
import ApiPages.Settings.Document
import ApiPages.Yaml.Document

/-!
A workspace: a file tree with the settings and the types loaded last, worked on by commands.
-/
namespace ApiPages

structure Workspace where
  tree : FileTree
  settings : Settings
  types : List TypeEntry

inductive Command where
  | put (path : Path) (octets : List UInt8)
  | makeDirectory (path : Path)
  | loadSettings (path : Text)
  | loadCatalogue (path : Path)
  /-- Builds the page of the type at a position; negative positions count from the end. -/
  | build (position : Int) (directory : Path)
  | write (directory : Path)
  deriving DecidableEq, Repr

inductive CommandError where
  | refused (r : RefusedPath)
  | unwritten (path : Path) (failure : WriteFailure)
  | fault (f : Fault)
  | settings (e : SettingsError)
  | catalogue (e : CatalogueFailure)
  | noSuchType
  | page (e : PageError)
  | batch (e : BatchError)

inductive Answer where
  | nothing
  | settings (s : Settings)
  | names (names : List Text)
  | page (r : PageReport)
  | pages (rs : List PageReport)

structure Outcome where
  answer : Except CommandError Answer
  log : List LogRecord
  workspace : Workspace

namespace Workspace

def ofTree (tree : FileTree) : Workspace := ⟨tree, .default, []⟩

def typeAt? (w : Workspace) (position : Int) : Option TypeEntry :=
  let index := if position < 0 then position + w.types.length else position
  if index < 0 then none else w.types[index.toNat]?

def ofFiles (w : Workspace) : Except CommandError Unit × FileTree → Outcome
  | (result, tree) => ⟨result.map fun _ => .nothing, [], { w with tree }⟩

def ofJob {ε α : Type} (w : Workspace) (fails : ε → CommandError) (answers : α → Answer)
    (job : Job ε α) : Outcome :=
  match job ⟨w.tree, []⟩ with
  | .ok a after => ⟨.ok (answers a), after.log, { w with tree := after.tree }⟩
  | .error e after => ⟨.error (fails e), after.log, { w with tree := after.tree }⟩

def putFile (t : FileTree) (path : Path) (octets : List UInt8) :
    Except CommandError Unit × FileTree :=
  match path.fault? with
  | some fault => (.error (.fault fault), t)
  | none =>
    match t.makeDirectories path.parent with
    | (.error r, t) => (.error (.refused r), t)
    | (.ok (), t) =>
      let (result, t) := t.writeFile path (some octets)
      (result.mapError (.unwritten path), t)

def putDirectory (t : FileTree) (path : Path) : Except CommandError Unit × FileTree :=
  match path.fault? with
  | some fault => (.error (.fault fault), t)
  | none =>
    let (result, t) := t.makeDirectories path
    (result.mapError .refused, t)

/-- Runs one command. One that fails keeps the settings and the types. -/
def run (w : Workspace) : Command → Outcome
  | .put path octets => w.ofFiles (putFile w.tree path octets)
  | .makeDirectory path => w.ofFiles (putDirectory w.tree path)
  | .loadSettings path =>
    match Settings.load? Yaml.value? w.tree (some path) with
    | .error e => ⟨.error (.settings e), [], w⟩
    | .ok settings => ⟨.ok (.settings settings), [], { w with settings }⟩
  | .loadCatalogue path =>
    match Catalogue.load? Yaml.value? w.tree path with
    | .error e => ⟨.error (.catalogue e), [], w⟩
    | .ok types => ⟨.ok (.names (types.map TypeEntry.qualifiedName)), [], { w with types }⟩
  | .build position directory =>
    match w.typeAt? position with
    | none => ⟨.error .noSuchType, [], w⟩
    | some t => w.ofJob .page .page (Page.build w.settings.style t directory)
  | .write directory => w.ofJob .batch .pages (Batch.write w.settings.style w.types directory)

def runAll (w : Workspace) : List Command → List Outcome
  | [] => []
  | c :: rest =>
    let outcome := w.run c
    outcome :: runAll outcome.workspace rest

def runWhileOk (w : Workspace) : List Command → Outcome
  | [] => ⟨.ok .nothing, [], w⟩
  | [c] => w.run c
  | c :: rest =>
    let outcome := w.run c
    match outcome.answer with
    | .error _ => outcome
    | .ok _ => runWhileOk outcome.workspace rest

end Workspace

end ApiPages

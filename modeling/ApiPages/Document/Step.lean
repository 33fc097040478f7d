import ApiPages.Document.Basic

/-!
Documents driven step by step. A step that fails leaves the document as it was, except that it stays
finalized once it has been asked to finalize.
-/
namespace ApiPages

inductive StepError where
  | rejected (r : Rejection)
  | page (e : PageError)
  deriving DecidableEq, Repr

inductive StepValue where
  | nothing
  | text (t : Text)
  | drops (drops : List Drop)
  deriving DecidableEq, Repr

inductive Step where
  | heading (level : Nat) (t : Text)
  | text (t : Text)
  | newLine
  | startMethodTable
  | methodRow (v : MethodView)
  | startFieldTable
  | fieldRow (f : Field)
  | fieldBlock (f : Field)
  | methodBlock (v : MethodView)
  | methods (place : Text) (asRows : Bool) (views : List MethodView)
  | fields (place : Text) (asRows : Bool) (members : List Field)
  | render
  | finalize
  /-- Somebody else makes a directory in the document's place. -/
  | obstruct
  deriving DecidableEq, Repr

structure StepResult where
  outcome : Except StepError StepValue
  document : Document
  world : World

namespace Step

def ofAppend (d : Document) (w : World) : Except SinkError Document → StepResult
  | .ok d => ⟨.ok .nothing, d, w⟩
  | .error e => ⟨.error (.page (.sink e)), d, w⟩

/-- A member is rendered before the document is looked at. -/
def ofMember (d : Document) (w : World) : Except Rejection Lines → StepResult
  | .ok lines => ofAppend d w (d.append lines)
  | .error r => ⟨.error (.rejected r), d, w⟩

def row (cells : Except Rejection (List Text)) : Except Rejection Lines :=
  cells.map fun cells => [Markdown.tableRow cells]

def ofMembers (d : Document) (w : World) : Except SinkError Document × List Drop → StepResult
  | (outcome, drops) =>
    let w := { w with log := w.log ++ drops.map .memberSkipped }
    match outcome with
    | .ok d => ⟨.ok (.drops drops), d, w⟩
    | .error e => ⟨.error (.page (.sink e)), d, w⟩

def run (language : Text) (d : Document) (w : World) : Step → StepResult
  | .heading level t => ofAppend d w (d.appendHeading level t)
  | .text t => ofAppend d w (d.appendText t)
  | .newLine => ofAppend d w (d.append [[]])
  | .startMethodTable => ofAppend d w (d.append methodTableHead)
  | .methodRow v => ofMember d w (row v.summaryRow)
  | .startFieldTable => ofAppend d w (d.append fieldTableHead)
  | .fieldRow f => ofMember d w (row f.summaryRow)
  | .fieldBlock f => ofMember d w f.detailBlock
  | .methodBlock v => ofMember d w (v.detailBlock language)
  | .methods place asRows views =>
    let render (v : MethodView) := if asRows then row v.summaryRow else v.detailBlock language
    ofMembers d w (d.appendMembers place render views)
  | .fields place asRows members =>
    let render (f : Field) := if asRows then row f.summaryRow else f.detailBlock
    ofMembers d w (d.appendMembers place render members)
  | .render => ⟨.ok (.text d.lines.render), d, w⟩
  | .finalize =>
    match d.finalize w with
    | .ok () w => ⟨.ok .nothing, d.closed, w⟩
    | .error e w => ⟨.error (.page e), d.closed, w⟩
  | .obstruct =>
    match w.tree.makeDirectories d.path with
    | (.ok (), tree) => ⟨.ok .nothing, d, { w with tree }⟩
    | (.error r, tree) => ⟨.error (.page (.refused r)), d, { w with tree }⟩

def runAll (language : Text) : List Step → Document → World → List StepResult
  | [], _, _ => []
  | step :: rest, d, w =>
    let result := step.run language d w
    result :: runAll language rest result.document result.world

end Step

end ApiPages

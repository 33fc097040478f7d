import ApiPages.Document.Lines
import ApiPages.Log
import ApiPages.Model.Order
import ApiPages.Page.Hierarchy

/-!
The body of a page: header, summary, fields, methods, laid out one after the other on a buffer of
lines. Malformed members are left out and listed as drops.
-/
namespace ApiPages

namespace Heading

def summary : Text := "Summary".text
def fields : Text := "Fields".text
def methods : Text := "Methods".text

end Heading

namespace Place

def summary : Text := "summary".text
def fields : Text := "fields".text
def methods : Text := "methods".text

end Place

structure Body where
  lines : Lines
  drops : List Drop
  deriving DecidableEq, Repr

structure Stop where
  drops : List Drop
  fault : Fault
  deriving DecidableEq, Repr

def renderMembers {α : Type} (place : Text) (render : α → Except Rejection Lines) :
    List α → Body
  | [] => ⟨[], []⟩
  | member :: rest =>
    let others := renderMembers place render rest
    match render member with
    | .ok lines => { others with lines := lines ++ others.lines }
    | .error r => { others with drops := ⟨place, r⟩ :: others.drops }

namespace Body

def ofLines (lines : Lines) : Body := ⟨lines, []⟩

def append (b c : Body) : Body := ⟨b.lines ++ c.lines, b.drops ++ c.drops⟩

def appendLines (b : Body) (lines : Lines) : Body := { b with lines := b.lines ++ lines }

def titled (b : Body) (title : Text) : Body :=
  { b with lines := Lines.heading (b.lines ++ [[]]) 2 title }

end Body

namespace Page

def defaultPackage : Text := "(default package)".text

def headingsBeforeMethods (t : TypeEntry) : List Text :=
  [t.name] ++ (if t.hasFields || t.hasMethods then [Heading.summary] else []) ++
    (if t.hasFields then [Heading.fields] else []) ++
    (if t.hasMethods then [Heading.methods] else [])

def views (t : TypeEntry) : List MethodView :=
  methodViews (headingsBeforeMethods t) (orderMethods t.methods)

def packageLine (t : TypeEntry) (target lineBreak : Text) : Text :=
  "Package ".text ++
    Markdown.linkTo (if t.package.isEmpty then defaultPackage else t.package) target ++ lineBreak

def header (style : PageStyle) (here : List Text) (t : TypeEntry) : Except Fault Lines := do
  let target ← style.indexTarget
  let lineBreak ← style.lineBreak
  let chain ← t.hierarchy style here
  let comment := if t.comment.isEmpty then [] else [] :: Text.lines t.comment
  return Lines.heading [] 1 t.name ++ Text.lines (packageLine t target lineBreak) ++
    Text.lines chain ++ comment

def methodRow (v : MethodView) : Except Rejection Lines :=
  v.summaryRow.map fun cells => [Markdown.tableRow cells]

def fieldRow (f : Field) : Except Rejection Lines :=
  f.summaryRow.map fun cells => [Markdown.tableRow cells]

def summary (style : PageStyle) (t : TypeEntry) (b : Body) : Body :=
  if t.hasFields || t.hasMethods then
    let b := b.titled Heading.summary
    let b :=
      if t.hasMethods then
        (b.appendLines methodTableHead).append (renderMembers Place.summary methodRow (views t))
      else b
    if style.summarizeFields && t.hasFields then
      let b := if t.hasMethods then b.appendLines [[]] else b
      (b.appendLines fieldTableHead).append
        (renderMembers Place.summary fieldRow (orderFields t.fields))
    else b
  else b

def fields (t : TypeEntry) (b : Body) : Body :=
  if t.hasFields then
    ((b.titled Heading.fields).appendLines fieldTableHead).append
      (renderMembers Place.fields Field.detailBlock (orderFields t.fields))
  else b

/-- The blocks of all methods. A language that cannot be written stops at the first method that is
well-formed. -/
def methods (style : PageStyle) (t : TypeEntry) (b : Body) : Except Stop Body :=
  if t.hasMethods then
    let b := b.titled Heading.methods
    let all (language : Text) (vs : List MethodView) : Body :=
      b.append (renderMembers Place.methods (·.detailBlock language) vs)
    match style.codeLanguage with
    | .ok language => .ok (all language (views t))
    | .error fault =>
      let malformed := (views t).takeWhile fun v => !v.method.valid
      if malformed.length = (views t).length then .ok (all [] malformed)
      else .error ⟨(all [] malformed).drops, fault⟩
  else .ok b

def body (style : PageStyle) (here : List Text) (t : TypeEntry) : Except Stop Body :=
  match header style here t with
  | .error fault => .error ⟨[], fault⟩
  | .ok lines => methods style t (fields t (summary style t (.ofLines lines)))

end Page

end ApiPages

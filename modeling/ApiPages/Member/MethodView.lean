import ApiPages.Member.Rejection
import ApiPages.Markdown.Anchor
import ApiPages.Markdown.Code
import ApiPages.Markdown.Link
import ApiPages.Markdown.Sentence
import ApiPages.Markdown.Table

/-!
A method on its page: a row in the summary that links to a block with everything known about it. The
anchors of the blocks are foretold from the headings that come before them.
-/
namespace ApiPages

structure MethodView where
  method : Method
  /-- The anchor of the method's heading. Without one the summary does not link to it. -/
  anchor : Option Text := none
  deriving DecidableEq, Repr

namespace Heading

def parameters : Text := "Parameters".text
def returns : Text := "Returns".text
def throws : Text := "Throws".text

/-- A heading line. A level below one has no marks. -/
def line (level : Nat) (t : Text) : Text := List.replicate level '#'.code ++ ' '.code :: t

end Heading

def methodTitles : List Text := ["Type".text, "Method".text, "Description".text]
def parameterTitles : List Text := ["Name".text, "Type".text, "Description".text]

def typeLabel (isStatic : Bool) (type : Text) : Text :=
  if isStatic then "static ".text ++ type else type

namespace Method

def headings (m : Method) : List Text :=
  [m.name] ++ (if m.parameters.isEmpty then [] else [Heading.parameters]) ++
    (if m.returnType = voidType then [] else [Heading.returns]) ++
    (if m.throws.isEmpty then [] else [Heading.throws])

def paragraph (comment : Text) : List Text :=
  if Text.blank comment then [] else [Text.trim comment, []]

def parameterRow (p : Parameter) : Text :=
  Markdown.tableRow [Markdown.code p.name, Markdown.code p.type, p.comment]

def parameterLines (m : Method) : List Text :=
  if m.parameters.isEmpty then []
  else [Heading.line 4 Heading.parameters, []] ++ Markdown.tableHead parameterTitles ++
    m.parameters.map parameterRow ++ [[]]

def returnLines (m : Method) : List Text :=
  if m.returnType = voidType then []
  else [Heading.line 4 Heading.returns, [],
    "**Type:** ".text ++ Markdown.code m.returnType, []] ++ paragraph m.returnComment

def thrownLine (t : Thrown) : Text :=
  Text.trimEnd ("- ".text ++ Markdown.code t.type ++ ' '.code :: Text.collapse t.comment)

def thrownLines (m : Method) : List Text :=
  if m.throws.isEmpty then []
  else [Heading.line 4 Heading.throws, []] ++ m.throws.map thrownLine ++ [[]]

/-- The lines of a method's block; the declaration and the comments may hold line breaks. -/
def blockLines (m : Method) (language : Text) : List Text :=
  [Heading.line 3 m.name, [], Markdown.codeBlock language m.signature, []] ++
    paragraph m.comment ++ m.parameterLines ++ m.returnLines ++ m.thrownLines

end Method

namespace MethodView

def label (v : MethodView) : Text :=
  match v.anchor with
  | some (c :: anchor) => Markdown.link v.method.name ('#'.code :: c :: anchor)
  | _ => v.method.name

def rowCells (v : MethodView) : List Text :=
  [Markdown.code (typeLabel v.method.isStatic v.method.returnType),
   v.label ++ Markdown.code v.method.flatParameters,
   Markdown.firstSentence v.method.comment]

def summaryRow (v : MethodView) : Except Rejection (List Text) :=
  match v.method.rejection? with
  | some r => .error r
  | none => .ok v.rowCells

def detailBlock (v : MethodView) (language : Text) : Except Rejection (List Text) :=
  match v.method.rejection? with
  | some r => .error r
  | none => .ok (v.method.blockLines language)

end MethodView

/-- Methods in the order of their blocks, with anchors for those that can be rendered. A malformed
method has no heading on the page and takes no anchor. -/
def methodViewsFrom (r : AnchorRegistry) : List Method → List MethodView
  | [] => []
  | m :: rest =>
    if m.valid then
      match m.headings with
      | [] => ⟨m, none⟩ :: methodViewsFrom r rest
      | own :: others =>
        let (anchor, r) := r.next own
        ⟨m, some anchor⟩ :: methodViewsFrom (r.skip others) rest
    else ⟨m, none⟩ :: methodViewsFrom r rest

def methodViews (preceding : List Text) (methods : List Method) : List MethodView :=
  methodViewsFrom (AnchorRegistry.empty.skip preceding) methods

end ApiPages

import ApiPages.Member.MethodView

/-!
A field on its page: a table row, with the first sentence of its comment in the summary and with the
whole comment among the fields.
-/
namespace ApiPages

def fieldTitles : List Text := ["Type".text, "Field".text, "Description".text]

namespace Field

def label (f : Field) : Text :=
  match f.constantValue with
  | none => Markdown.code f.name
  | some value => Markdown.code f.name ++ " = ".text ++ Markdown.code value

def row (f : Field) (description : Text) : Except Rejection (List Text) :=
  match f.rejection? with
  | some r => .error r
  | none => .ok [Markdown.code (typeLabel f.isStatic f.type), f.label, description]

def summaryRow (f : Field) : Except Rejection (List Text) :=
  f.row (Markdown.firstSentence f.comment)

def detailBlock (f : Field) : Except Rejection (List Text) :=
  (f.row f.comment).map fun cells => [Markdown.tableRow cells]

end Field

end ApiPages

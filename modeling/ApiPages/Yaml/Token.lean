import ApiPages.Yaml.Property

/-!
The signs of a document in order. Indentation is made explicit: block collections have a start and
an end, and every key has a sign in front of it.
-/
namespace ApiPages.Yaml

inductive Token where
  | directive (d : Directive)
  | documentStart
  | documentEnd
  /-- The start of a block list or a block mapping, and the end of either. -/
  | blockList
  | blockMapping
  | blockEnd
  | openList
  | closeList
  | openMapping
  | closeMapping
  | item
  | comma
  | key
  | value
  | alias (name : Text)
  | anchor (name : Text)
  | tag (name : TagName)
  | scalar (t : Text) (plain : Bool)
  | broken (d : Defect)
  deriving DecidableEq, Repr

end ApiPages.Yaml

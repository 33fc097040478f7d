import ApiPages.Yaml.Building
import ApiPages.Yaml.Layout
import ApiPages.Yaml.Reading

/-!
The value of a text that holds one document.
-/
namespace ApiPages.Yaml

/-- The value of the only document of a text; a text without any has null. -/
def value? (t : Text) : Except Defect Value :=
  if t.all isAllowed then do
    match ← Nodes.ofTokens? (tokens t) with
    | none => return .null
    | some (nodes, n) => nodes.value? n
  else .error .malformed

end ApiPages.Yaml

/-!
Why a document has no value. A defect has no wording of its own.
-/
namespace ApiPages.Yaml

inductive Defect where
  | malformed
  | unreadable
  | emptyNumber
  | notTruth
  | notMoment
  | momentOfMapping
  /-- A code point, or the unit of a part of a number, is beyond what can be counted with. -/
  | tooLarge
  /-- Collections are nested too deeply, or the default value of a mapping leads back to that
  mapping. -/
  | tooDeep
  deriving DecidableEq, Repr

end ApiPages.Yaml

import ApiPages.Text.Pattern

/-!
What kind of value a node is read as, by an explicit tag or by the spelling of a plain scalar.
-/
namespace ApiPages.Yaml

inductive Tag where
  | null
  | bool
  | int
  | float
  | text
  | moment
  | octets
  | list
  /-- A list of tuples of two, given as a list of mappings with one entry each. -/
  | pairs
  /-- The keys of a mapping. -/
  | set
  | mapping
  /-- A key whose value is merged into the mapping. -/
  | merge
  /-- A key for the value that stands for a whole mapping. -/
  | default
  | unknown
  deriving DecidableEq, Repr

namespace Tag

def standard : Text := "tag:yaml.org,2002:".text

def names : List (Text × Tag) :=
  [("null".text, .null), ("bool".text, .bool), ("int".text, .int), ("float".text, .float),
   ("str".text, .text), ("timestamp".text, .moment), ("binary".text, .octets),
   ("seq".text, .list), ("omap".text, .pairs), ("pairs".text, .pairs), ("set".text, .set),
   ("map".text, .mapping), ("merge".text, .merge), ("value".text, .default)]

def ofText (t : Text) : Tag :=
  if standard.isPrefixOf t then ((names.lookup (t.drop standard.length)).getD .unknown)
  else .unknown

end Tag

namespace Spelling

def digit : Pattern := .one CodePoint.isDigit

def digits : Pattern := .many (.one fun c => c.isDigit || c == '_'.code)

def sign : Pattern := .optional (.among "+-".text)

def words (t : List String) : Pattern := .choice (t.map fun w => .literal w.text)

def bool : Pattern :=
  words ["yes", "Yes", "YES", "no", "No", "NO", "true", "True", "TRUE", "false", "False", "FALSE",
    "on", "On", "ON", "off", "Off", "OFF"]

def sixtieths : Pattern :=
  .atLeastOne (.sequence [.char ':'.code, .optional (.among "012345".text), digit])

def exponent : Pattern :=
  .optional (.sequence [.among "eE".text, .among "+-".text, .atLeastOne digit])

def float : Pattern :=
  .choice [
    .sequence [sign, digit, digits, .char '.'.code, digits, exponent],
    .sequence [.char '.'.code, digit, digits, exponent],
    .sequence [sign, digit, digits, sixtieths, .char '.'.code, digits],
    .sequence [sign, .char '.'.code, words ["inf", "Inf", "INF"]],
    .sequence [.char '.'.code, words ["nan", "NaN", "NAN"]]]

def hexDigit (c : CodePoint) : Bool :=
  c.isDigit || (97 ≤ c.toNat && c.toNat ≤ 102) || (65 ≤ c.toNat && c.toNat ≤ 70) || c == '_'.code

def int : Pattern :=
  .next sign (.choice [
    .next (.literal "0b".text) (.atLeastOne (.among "01_".text)),
    .next (.char '0'.code) (.atLeastOne (.among "01234567_".text)),
    .char '0'.code,
    .sequence [.among "123456789".text, digits],
    .next (.literal "0x".text) (.atLeastOne (.one hexDigit)),
    .sequence [.among "123456789".text, digits, sixtieths]])

def null : Pattern := words ["~", "null", "Null", "NULL"]

def oneOrTwoDigits : Pattern := .next digit (.optional digit)

def twoDigits : Pattern := .next digit digit

def year : Pattern := .sequence [twoDigits, twoDigits, .char '-'.code]

def offset : Pattern :=
  .optional (.next (.many (.among " \t".text)) (.either (.char 'Z'.code)
    (.sequence [.among "+-".text, oneOrTwoDigits, .optional (.next (.char ':'.code) twoDigits)])))

def moment : Pattern :=
  .next year (.either
    (.sequence [twoDigits, .char '-'.code, twoDigits])
    (.sequence [oneOrTwoDigits, .char '-'.code, oneOrTwoDigits,
      .either (.among "Tt".text) (.atLeastOne (.among " \t".text)),
      oneOrTwoDigits, .char ':'.code, twoDigits, .char ':'.code, twoDigits,
      .optional (.next (.char '.'.code) (.many digit)), offset]))

def kinds : List (Pattern × Tag) :=
  [(bool, .bool), (float, .float), (int, .int), (.literal "<<".text, .merge), (null, .null),
   (moment, .moment), (.char '='.code, .default), (.among "!&*".text, .unknown)]

def withoutFinalBreak (t : Text) : Text := if t.getLast? = some '\n'.code then t.dropLast else t

end Spelling

namespace Tag

/-- The tag of a plain scalar. The empty one is null, and one that is spelled like nothing else is a
text. A line feed at the end makes no difference. -/
def ofSpelling (t : Text) : Tag :=
  if t.isEmpty then .null
  else
    let spelled := Spelling.withoutFinalBreak t
    ((Spelling.kinds.find? fun (p, _) => p.accepts spelled).map Prod.snd).getD .text

end Tag

end ApiPages.Yaml

import ApiPages.Text.Quoted

/-!
Why a value could not be used where it stood, with the kind of the value and the wording of it.
-/
namespace ApiPages

inductive Fault where
  /-- Values of this kind cannot do what was asked of one. -/
  | lacks (kind operation : Text)
  | notIterable (kind : Text)
  | unhashable (kind : Text)
  | notText (position : Nat) (kind : Text)
  | notOctets (position : Nat) (kind : Text)
  | notAppended (kind : Text)
  | notPair (position length : Nat)
  | notSequence (position : Nat)
  /-- Keys that are not all texts are not put in order and joined. At which of them this fails is up
  to the order in which a set is walked through. -/
  | unlisted
  | tooManyDigits
  /-- A relative path leads to a place that has a name. -/
  | emptyPath
  | nullInPath
  /-- There are no octets for the surrogates in a text. -/
  | notEncodable (t : Text)
  deriving DecidableEq, Repr

namespace Fault

/-- Which characters of a text have no octets: the first of them, with those right behind it. -/
def unencoded (t : Text) : Text :=
  let start := (t.takeWhile fun c => !c.isSurrogate).length
  match (t.drop start).takeWhile CodePoint.isSurrogate with
  | [c] => "character ".text ++ Text.quoted [c] ++ " in position ".text ++ Text.ofNat start
  | run => "characters in position ".text ++ Text.ofNat start ++ "-".text ++
    Text.ofNat (start + run.length - 1)

def message? : Fault → Option Text
  | lacks kind operation =>
    some (Text.quoted kind ++ " object has no attribute ".text ++ Text.quoted operation)
  | notIterable kind => some (Text.quoted kind ++ " object is not iterable".text)
  | unhashable kind => some ("unhashable type: ".text ++ Text.quoted kind)
  | notText position kind =>
    some ("sequence item ".text ++ Text.ofNat position ++ ": expected str instance, ".text ++
      kind ++ " found".text)
  | notOctets position kind =>
    some ("sequence item ".text ++ Text.ofNat position ++
      ": expected a bytes-like object, ".text ++ kind ++ " found".text)
  | notAppended kind =>
    some ("can only concatenate str (not \x22".text ++ kind ++ "\x22) to str".text)
  | notPair position length =>
    some ("dictionary update sequence element #".text ++ Text.ofNat position ++
      " has length ".text ++ Text.ofNat length ++ "; 2 is required".text)
  | notSequence position =>
    some ("cannot convert dictionary update sequence element #".text ++ Text.ofNat position ++
      " to a sequence".text)
  | unlisted => none
  | tooManyDigits =>
    some ("Exceeds the limit (4300 digits) for integer string conversion; ".text ++
      "use sys.set_int_max_str_digits() to increase the limit".text)
  | emptyPath => some "no path specified".text
  | nullInPath => some "embedded null byte".text
  | notEncodable t =>
    some ("\x27utf-8\x27 codec can\x27t encode ".text ++ unencoded t ++
      ": surrogates not allowed".text)

end Fault

end ApiPages

import ApiPages.Yaml.Defect
import ApiPages.Text.Utf8

/-!
Octets as scalars spell them, in base sixty-four. Characters that are no digits are passed over, so
are equals signs that come too early; where one completes a group of four digits the text may go on,
but is not read any further.
-/
namespace ApiPages.Yaml

namespace Octets

def digit? (c : CodePoint) : Option Nat :=
  if 65 ≤ c.toNat ∧ c.toNat ≤ 90 then some (c.toNat - 65)
  else if 97 ≤ c.toNat ∧ c.toNat ≤ 122 then some (c.toNat - 71)
  else if c.isDigit then some (c.toNat + 4)
  else if c = '+'.code then some 62
  else if c = '/'.code then some 63
  else none

/-- What has been read of a group of four digits: how many there are, the bits of the last one that
belong to the next octet, and how many equals signs stand behind it. -/
structure Group where
  size : Nat
  bits : Nat
  signs : Nat

def Group.empty : Group := ⟨0, 0, 0⟩

/-- One more digit, with the octet that it completes. -/
def Group.add (g : Group) (digit : Nat) : Option UInt8 × Group :=
  match g.size with
  | 0 => (none, ⟨1, digit, 0⟩)
  | 1 => (some (g.bits * 4 + digit / 16).toUInt8, ⟨2, digit % 16, 0⟩)
  | 2 => (some (g.bits * 16 + digit / 4).toUInt8, ⟨3, digit % 4, 0⟩)
  | _ => (some (g.bits * 64 + digit).toUInt8, .empty)

def readFrom? (g : Group) : Text → Option (List UInt8)
  | [] => if g.size = 0 then some [] else none
  | c :: rest =>
    if c = '='.code then
      if g.size < 2 then readFrom? g rest
      else if g.size + g.signs < 3 then readFrom? { g with signs := g.signs + 1 } rest
      else some []
    else
      match digit? c with
      | none => readFrom? g rest
      | some digit =>
        let (octet?, g) := g.add digit
        (readFrom? g rest).map (octet?.toList ++ ·)

def ofText? (t : Text) : Except Defect (List UInt8) :=
  if t.all fun c => c.toNat < 128 then (readFrom? .empty t).elim (.error .malformed) .ok
  else .error .malformed

end Octets

end ApiPages.Yaml

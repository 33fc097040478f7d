import ApiPages.Model.TypeEntry
import ApiPages.Text.Blank

/-!
Malformed members. A method or a field needs names and types that are not blank; the first part
missing is why it is rejected.
-/
namespace ApiPages

inductive MissingPart where
  | name
  | returnType
  | parameterName (position : Nat)
  /-- The type of the parameter of this name. -/
  | parameterType (parameter : Text)
  | thrownType
  | fieldType
  deriving DecidableEq, Repr

def MissingPart.text : MissingPart → Text
  | .name => "name".text
  | .returnType => "return type".text
  | .parameterName position => "name of parameter ".text ++ Text.ofNat position
  | .parameterType parameter => "type of parameter ".text ++ parameter
  | .thrownType => "thrown exception type".text
  | .fieldType => "type".text

structure Rejection where
  member : Text
  missing : MissingPart
  deriving DecidableEq, Repr

namespace Rejection

def reason (r : Rejection) : Text := "missing ".text ++ r.missing.text

def message (r : Rejection) : Text :=
  (if r.member.isEmpty then "<unnamed>".text else r.member) ++ ": ".text ++ r.reason

end Rejection

def missingInParameters? (position : Nat) : List Parameter → Option MissingPart
  | [] => none
  | p :: rest =>
    if Text.blank p.name then some (.parameterName position)
    else if Text.blank p.type then some (.parameterType p.name)
    else missingInParameters? (position + 1) rest

namespace Method

/-- The first part missing: name, return type, parameters from left to right, thrown types. -/
def missing? (m : Method) : Option MissingPart :=
  if Text.blank m.name then some .name
  else if Text.blank m.returnType then some .returnType
  else match missingInParameters? 0 m.parameters with
    | some part => some part
    | none => if m.throws.any fun t => Text.blank t.type then some .thrownType else none

def rejection? (m : Method) : Option Rejection := m.missing?.map (⟨m.name, ·⟩)

def valid (m : Method) : Bool := m.rejection?.isNone

end Method

namespace Field

def missing? (f : Field) : Option MissingPart :=
  if Text.blank f.name then some .name
  else if Text.blank f.type then some .fieldType
  else none

def rejection? (f : Field) : Option Rejection := f.missing?.map (⟨f.name, ·⟩)

def valid (f : Field) : Bool := f.rejection?.isNone

end Field

end ApiPages

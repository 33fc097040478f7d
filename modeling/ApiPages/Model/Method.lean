import ApiPages.Text.Basic

/-!
Methods as they are declared and commented on.
-/
namespace ApiPages

structure Parameter where
  name : Text
  type : Text
  comment : Text := []
  deriving DecidableEq, Repr

structure Thrown where
  type : Text
  comment : Text := []
  deriving DecidableEq, Repr

def voidType : Text := "void".text

structure Method where
  name : Text
  returnType : Text := voidType
  parameters : List Parameter := []
  comment : Text := []
  modifiers : List Text := []
  returnComment : Text := []
  throws : List Thrown := []
  deriving DecidableEq, Repr

namespace Method

def staticModifier : Text := "static".text

def isStatic (m : Method) : Bool := m.modifiers.contains staticModifier

def flatParameters (m : Method) : Text :=
  '('.code :: Text.join ", ".text (m.parameters.map Parameter.type) ++ [')'.code]

def signature (m : Method) : Text :=
  let parameters := m.parameters.map fun p => p.type ++ ' '.code :: p.name
  let throws :=
    if m.throws.isEmpty then []
    else " throws ".text ++ Text.join ", ".text (m.throws.map Thrown.type)
  Text.join [' '.code] (m.modifiers ++ [m.returnType, m.name]) ++
    '('.code :: Text.join ", ".text parameters ++ ')'.code :: throws

end Method

end ApiPages

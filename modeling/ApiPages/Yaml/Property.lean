import ApiPages.Number.Numeral
import ApiPages.Text.Utf8
import ApiPages.Yaml.Block
import ApiPages.Yaml.Quoted

/-!
What may stand in front of a node or of a document: anchors, tags and directives.
-/
namespace ApiPages.Yaml

/-- A tag as it is written: what the handle stands for is put before the rest. -/
structure TagName where
  handle : Option Text
  rest : Text
  deriving DecidableEq, Repr

inductive Directive where
  | version (major : Nat)
  | handle (handle start : Text)
  | other
  deriving DecidableEq, Repr

namespace Cursor

def afterAnchor : Text := "?:,]\x7d%@\x60".text

def name? (c : Cursor) : Except Defect (Text × Cursor) :=
  let (t, e) := c.span isNameCharacter
  if t.isEmpty then .error .malformed else .ok (t, e)

def anchor? (c : Cursor) : Except Defect (Text × Cursor) := do
  let (t, e) ← c.next.name?
  if separates e.peek || e.peek.any afterAnchor.contains then return (t, e) else throw .malformed

/-- The handle at a position: an exclamation mark alone in front of a space, or two with a name
between them. -/
def handle? (c : Cursor) : Except Defect (Text × Cursor) :=
  if c.peek ≠ some '!'.code then .error .malformed
  else if c.next.peek = some ' '.code then .ok (['!'.code], c.next)
  else
    let (t, e) := c.next.span isNameCharacter
    if e.peek = some '!'.code then .ok ('!'.code :: t ++ ['!'.code], e.next) else .error .malformed

def escapedOctets? : Text → Except Defect (List UInt8 × Nat)
  | .percent :: a :: b :: rest =>
    match Quoted.hexNumber? [a, b] with
    | none => .error .malformed
    | some n => (escapedOctets? rest).map fun (octets, length) => (n.toUInt8 :: octets, length + 3)
  | .percent :: _ => .error .malformed
  | _ => .ok ([], 0)

def tagCharacters? (c : Cursor) : Nat → Except Defect (Text × Cursor)
  | 0 => .ok ([], c)
  | fuel + 1 => do
    let (t, c) := c.span isTagCharacter
    if c.peek ≠ some '%'.code then return (t, c)
    else
      let (octets, length) ← escapedOctets? c.rest
      match Utf8.decode octets with
      | none => throw .malformed
      | some escaped => do
        let (more, e) ← (c.skip length).tagCharacters? fuel
        return (t ++ escaped ++ more, e)

def tagText? (c : Cursor) : Except Defect (Text × Cursor) := do
  let (t, e) ← c.tagCharacters? (c.rest.length + 1)
  if t.isEmpty then throw .malformed else return (t, e)

def hasHandle (c : Cursor) : Bool :=
  (c.rest.takeWhile fun x => !endsTag (some x)).contains '!'.code

def tag? (c : Cursor) : Except Defect (TagName × Cursor) := do
  let (name, e) ←
    if c.next.peek = some '<'.code then do
      let (t, e) ← c.next.next.tagText?
      if e.peek = some '>'.code then pure (TagName.mk none t, e.next) else throw .malformed
    else if separates c.next.peek then pure (TagName.mk none ['!'.code], c.next)
    else if c.next.hasHandle then do
      let (handle, e) ← c.handle?
      let (t, e) ← e.tagText?
      pure (TagName.mk (some handle) t, e)
    else do
      let (t, e) ← c.next.tagText?
      pure (TagName.mk (some ['!'.code]) t, e)
  if endsTag e.peek then return (name, e) else throw .malformed

def number? (c : Cursor) : Except Defect (Nat × Cursor) :=
  let (t, e) := c.span CodePoint.isDigit
  if t.isEmpty then .error .malformed
  else match Numeral.int? 10 t with
    | some n => .ok (n.toNat, e)
    | none => .error .unreadable

def version? (c : Cursor) : Except Defect (Directive × Cursor) := do
  let (major, e) ← c.skipSpaces.number?
  if e.peek ≠ some '.'.code then throw .malformed
  let (_, e) ← e.next.number?
  if endsTag e.peek then return (.version major, e) else throw .malformed

def handleDirective? (c : Cursor) : Except Defect (Directive × Cursor) := do
  let (handle, e) ← c.skipSpaces.handle?
  if e.peek ≠ some ' '.code then throw .malformed
  let (start, e) ← e.skipSpaces.tagText?
  if endsTag e.peek then return (.handle handle start, e) else throw .malformed

def directive? (c : Cursor) : Except Defect (Directive × Cursor) := do
  let (name, e) ← c.next.name?
  if !endsTag e.peek then throw .malformed
  let (directive, e) ←
    if name = "YAML".text then e.version?
    else if name = "TAG".text then e.handleDirective?
    else pure (.other, (e.span fun x => !isBreak x).2)
  return (directive, ← e.endLine?)

end Cursor

end ApiPages.Yaml

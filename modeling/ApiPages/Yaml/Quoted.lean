import ApiPages.Text.Digit
import ApiPages.Yaml.Cursor
import ApiPages.Yaml.Defect

/-!
Scalars between quotes. Line breaks in them are read as in plain scalars; between double quotes a
backslash starts an escape. An escape may give a surrogate.
-/
namespace ApiPages.Yaml

namespace Quoted

def escapes : List (Char × Char) :=
  [('0', '\x00'), ('a', '\x07'), ('b', '\x08'), ('t', '\t'), ('\t', '\t'), ('n', '\n'),
   ('v', '\x0b'), ('f', '\x0c'), ('r', '\r'), ('e', '\x1b'), (' ', ' '), ('\x22', '\x22'),
   ('\\', '\\'), ('/', '/'), ('N', '\x85'), ('_', '\xa0'), ('L', '\u2028'), ('P', '\u2029')]

def escaped? (c : CodePoint) : Option CodePoint :=
  (escapes.find? fun e => e.1.code = c).map fun e => e.2.code

def codeDigits? (c : CodePoint) : Option Nat :=
  if c = 'x'.code then some 2
  else if c = 'u'.code then some 4
  else if c = 'U'.code then some 8
  else none

def hexDigit? (c : CodePoint) : Option Nat := if c.toNat < 128 then Text.digitIn? 16 c else none

def hexNumber? (t : Text) : Option Nat :=
  (t.mapM hexDigit?).map fun digits => digits.foldl (fun n d => 16 * n + d) 0

/-- Numbers from here on are too large to be taken for a code point at all. -/
def codeBound : Nat := 0x80000000

def codePoint? (n : Nat) : Except Defect CodePoint :=
  if h : n < 0x110000 then .ok ⟨n, h⟩
  else if n < codeBound then .error .unreadable
  else .error .tooLarge

def escape? : Text → Except Defect (CodePoint × Nat)
  | [] => .error .malformed
  | c :: rest =>
    match escaped? c, codeDigits? c with
    | some d, _ => .ok (d, 1)
    | none, none => .error .malformed
    | none, some n =>
      match (if n ≤ rest.length then hexNumber? (rest.take n) else none) with
      | none => .error .malformed
      | some code => (codePoint? code).map fun d => (d, n + 1)

inductive Gap where
  | spaces (t : Text)
  /-- A line break and further ones; a first break that was escaped counts for nothing. -/
  | lines (first : Option CodePoint) (more : Text)
  deriving DecidableEq, Repr

namespace Gap

def none : Gap := .spaces []

def text : Gap → Text
  | .spaces t => t
  | .lines Option.none more => more
  | .lines (some x) more =>
    if x ≠ '\n'.code then x :: more else if more.isEmpty then [' '.code] else more

def addSpace (c : CodePoint) : Gap → Gap
  | .spaces t => .spaces (t ++ [c])
  | g => g

def addBreak (c : CodePoint) : Gap → Gap
  | .spaces _ => .lines (some c) []
  | .lines first more => .lines first (more ++ [c])

end Gap

/-- What is read next: the end of the scalar, a blank, or a code point, which may be written with
more than one character. -/
inductive Piece where
  | done
  | space (c : CodePoint)
  | lineBreak (c : CodePoint)
  | escapedBreak
  | character (c : CodePoint) (more : Nat)
  deriving DecidableEq, Repr

def piece? (double : Bool) (c : CodePoint) (rest : Text) : Except Defect Piece :=
  if isSpaceOrTab c then .ok (.space c)
  else if isBreak c then .ok (.lineBreak (breakText c))
  else if double then
    if c = '\x22'.code then .ok .done
    else if c = '\\'.code then
      if rest.head?.any isBreak then .ok .escapedBreak
      else (escape? rest).map fun (d, n) => .character d n
    else .ok (.character c 0)
  else if c = '\x27'.code then
    .ok (if rest.head? = some '\x27'.code then .character c 1 else .done)
  else .ok (.character c 0)

def read (double : Bool) (gap : Gap) (c : Cursor) : Except Defect (Text × Cursor) :=
  match _h : c.rest with
  | [] => .error .malformed
  | x :: rest => do
    match ← piece? double x rest with
    | .done => return (gap.text, c.next)
    | .space s => read double (gap.addSpace s) c.next
    | .lineBreak b =>
      if c.next.atMarker then .error .malformed
      else read double (gap.addBreak b) c.next
    | .escapedBreak =>
      if c.next.next.atMarker then .error .malformed
      else do
        let (t, e) ← read double (.lines .none []) c.next.next
        return (gap.text ++ t, e)
    | .character d n =>
      let (t, e) ← read double .none (c.next.skip n)
      return (gap.text ++ d :: t, e)
termination_by c.rest.length
decreasing_by all_goals (simp [_h]; try omega)

end Quoted

namespace Cursor

def quoted (c : Cursor) (double : Bool) : Except Defect (Text × Cursor) :=
  Quoted.read double .none c.next

end Cursor

end ApiPages.Yaml

import ApiPages.Text.Basic

/-!
Sets of texts described by patterns. A text belongs to the set of a pattern if, character by
character, what the pattern leaves to be read shrinks to something that may be empty.
-/
namespace ApiPages

inductive Pattern where
  | never
  | empty
  | one (accepted : CodePoint → Bool)
  | either (p q : Pattern)
  | next (p q : Pattern)
  | many (p : Pattern)

namespace Pattern

def acceptsEmpty : Pattern → Bool
  | .never => false
  | .empty => true
  | .one _ => false
  | .either p q => p.acceptsEmpty || q.acceptsEmpty
  | .next p q => p.acceptsEmpty && q.acceptsEmpty
  | .many _ => true

def orElse : Pattern → Pattern → Pattern
  | .never, q => q
  | p, .never => p
  | p, q => .either p q

/-- A sequence, kept small when one part accepts nothing or only the empty text. -/
def followedBy : Pattern → Pattern → Pattern
  | .never, _ => .never
  | .empty, q => q
  | _, .never => .never
  | p, q => .next p q

def after (c : CodePoint) : Pattern → Pattern
  | .never => .never
  | .empty => .never
  | .one accepted => if accepted c then .empty else .never
  | .either p q => (p.after c).orElse (q.after c)
  | .next p q =>
    let left := (p.after c).followedBy q
    if p.acceptsEmpty then left.orElse (q.after c) else left
  | .many p => (p.after c).followedBy (.many p)

def accepts (p : Pattern) : Text → Bool
  | [] => p.acceptsEmpty
  | c :: rest => (p.after c).accepts rest

def char (c : CodePoint) : Pattern := .one (· == c)

def among (t : Text) : Pattern := .one t.contains

def sequence : List Pattern → Pattern
  | [] => .empty
  | p :: rest => .next p (sequence rest)

def choice : List Pattern → Pattern
  | [] => .never
  | p :: rest => .either p (choice rest)

def literal (t : Text) : Pattern := sequence (t.map char)

def optional (p : Pattern) : Pattern := .either .empty p

def atLeastOne (p : Pattern) : Pattern := .next p (.many p)

end Pattern

end ApiPages

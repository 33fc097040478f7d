import ApiPages.Yaml.Plain
import ApiPages.Yaml.Token

/-!
From text to tokens. Keys are known only by the colon behind them, so a place where one may start is
kept as a candidate until the colon comes or the line ends.
-/
namespace ApiPages.Yaml

structure Candidate where
  count : Nat
  required : Bool
  line : Nat
  column : Nat
  index : Nat
  deriving DecidableEq, Repr

/-- The state of reading. The margin is one more than the column of the innermost open block
collection, and zero outside all of them. -/
structure Layout where
  cursor : Cursor
  margin : Nat
  outerMargins : List Nat
  candidate : Option Candidate
  /-- The candidates outside, one for each open bracket. -/
  outerCandidates : List (Option Candidate)
  keyAllowed : Bool
  tokens : List Token
  count : Nat
  deriving DecidableEq, Repr

namespace Layout

def start (t : Text) : Layout where
  cursor := .ofText t
  margin := 0
  outerMargins := []
  candidate := none
  outerCandidates := []
  keyAllowed := true
  tokens := []
  count := 0

def inFlow (s : Layout) : Bool := !s.outerCandidates.isEmpty

def add (s : Layout) (t : Token) : Layout :=
  { s with tokens := t :: s.tokens, count := s.count + 1 }

def addAfter (s : Layout) (n : Nat) (t : Token) : Layout :=
  let (later, earlier) := s.tokens.splitAt (s.count - n)
  { s with tokens := later ++ t :: earlier, count := s.count + 1 }

def skipBlanks (inComment : Bool) (brokeLine : Bool) (c : Cursor) : Bool × Cursor :=
  match _h : c.rest with
  | [] => (brokeLine, c)
  | x :: _ =>
    if isBreak x then skipBlanks false true c.next
    else if inComment || x = ' '.code then skipBlanks inComment brokeLine c.next
    else if x = '#'.code then skipBlanks true brokeLine c.next
    else (brokeLine, c)
termination_by c.rest.length
decreasing_by all_goals simp [_h]

/-- A candidate cannot be a key any more: the line has ended, or it is too far back. -/
def expired (c : Cursor) (k : Candidate) : Bool := k.line ≠ c.line || 1024 < c.index - k.index

def refresh (c : Cursor) : Option Candidate → Except Defect (Option Candidate)
  | none => .ok none
  | some k =>
    if !expired c k then .ok (some k) else if k.required then .error .malformed else .ok none

def dropExpired (s : Layout) : Except Defect Layout := do
  let candidate ← refresh s.cursor s.candidate
  let outerCandidates ← s.outerCandidates.mapM (refresh s.cursor)
  return { s with candidate, outerCandidates }

def dropCandidate (s : Layout) : Except Defect Layout :=
  if s.candidate.any Candidate.required then .error .malformed
  else .ok { s with candidate := none }

def noteCandidate (s : Layout) : Except Defect Layout :=
  if s.keyAllowed then do
    let s ← s.dropCandidate
    let required := !s.inFlow && s.margin == s.cursor.column + 1
    return { s with
      candidate := some ⟨s.count, required, s.cursor.line, s.cursor.column, s.cursor.index⟩ }
  else .ok s

def closeBlocks (margin : Nat) : List Nat → Layout → Layout
  | [], s => s
  | outer :: rest, s =>
    if margin < s.margin then
      closeBlocks margin rest { s.add .blockEnd with margin := outer, outerMargins := rest }
    else s

def unwind (s : Layout) (margin : Nat) : Layout :=
  if s.inFlow then s else closeBlocks margin s.outerMargins s

def opens (s : Layout) (column : Nat) : Bool := s.margin < column + 1

def indent (s : Layout) (column : Nat) : Layout :=
  { s with margin := column + 1, outerMargins := s.margin :: s.outerMargins }

def openBlock (s : Layout) (t : Token) : Layout :=
  if s.opens s.cursor.column then (s.indent s.cursor.column).add t else s

def take (s : Layout) (t : Token) (length : Nat) : Layout :=
  { s.add t with cursor := s.cursor.skip length }

def takeTo (s : Layout) (t : Token) (c : Cursor) : Layout := { s.add t with cursor := c }

def atTopLevel (s : Layout) : Except Defect Layout := do
  let s ← (s.unwind 0).dropCandidate
  return { s with keyAllowed := false }

def openFlow (s : Layout) (t : Token) : Except Defect Layout := do
  let s ← s.noteCandidate
  return { s.take t 1 with
    candidate := none, outerCandidates := s.candidate :: s.outerCandidates, keyAllowed := true }

def closeFlow (s : Layout) (t : Token) : Except Defect Layout :=
  match s.outerCandidates with
  | [] => .error .malformed
  | candidate :: outerCandidates =>
    .ok { s.take t 1 with candidate, outerCandidates, keyAllowed := false }

def comma (s : Layout) : Except Defect Layout := do
  let s ← s.dropCandidate
  return { s.take .comma 1 with keyAllowed := true }

def openBlock? (s : Layout) (t : Token) : Except Defect Layout :=
  if s.inFlow then .ok s
  else if s.keyAllowed then .ok (s.openBlock t)
  else .error .malformed

def item (s : Layout) : Except Defect Layout := do
  let s ← (← s.openBlock? .blockList).dropCandidate
  return { s.take .item 1 with keyAllowed := true }

def key (s : Layout) : Except Defect Layout := do
  let s ← (← s.openBlock? .blockMapping).dropCandidate
  return { s.take .key 1 with keyAllowed := !s.inFlow }

def value (s : Layout) : Except Defect Layout :=
  match s.candidate with
  | some k =>
    let s := { s with candidate := none, keyAllowed := false }.addAfter k.count .key
    let s :=
      if !s.inFlow && s.opens k.column then
        (s.indent k.column).addAfter k.count .blockMapping
      else s
    .ok (s.take .value 1)
  | none => do
    let s ← s.openBlock? .blockMapping
    return { s.take .value 1 with keyAllowed := !s.inFlow }

def property (s : Layout) (read : Cursor → Except Defect (Token × Cursor)) :
    Except Defect Layout := do
  let s ← s.noteCandidate
  let (t, c) ← read s.cursor
  return { s.takeTo t c with keyAllowed := false }

def quoted (s : Layout) (double : Bool) : Except Defect Layout :=
  s.property fun c => (c.quoted double).map fun (t, e) => (.scalar t false, e)

def plain (s : Layout) : Except Defect Layout := do
  let s ← s.noteCandidate
  let p := s.cursor.plain s.inFlow s.margin
  return { s.takeTo (.scalar p.text true) p.cursor with keyAllowed := p.brokeLine }

def block (s : Layout) (folded : Bool) : Except Defect Layout := do
  let s ← s.dropCandidate
  let (t, c) ← s.cursor.block folded s.margin
  return { s.takeTo (.scalar t false) c with keyAllowed := true }

def indicators : Text := "-?:,[]\x7b\x7d#&*!|>\x27\x22%@\x60".text

def startsPlain (inFlow : Bool) (c : CodePoint) (following : Option CodePoint) : Bool :=
  !(separates (some c) || indicators.contains c) ||
    (!separates following && (c == '-'.code || (!inFlow && (c == '?'.code || c == ':'.code))))

def token (s : Layout) (x : CodePoint) : Except Defect Layout :=
  let following := s.cursor.peekAt 1
  let alone := s.inFlow || separates following
  if x = '%'.code ∧ s.cursor.column = 0 then do
    let s ← s.atTopLevel
    let (d, c) ← s.cursor.directive?
    return s.takeTo (.directive d) c
  else if s.cursor.atMarkerOf Cursor.startMarker then do
    return (← s.atTopLevel).take .documentStart 3
  else if s.cursor.atMarkerOf Cursor.endMarker then do
    return (← s.atTopLevel).take .documentEnd 3
  else if x = '['.code then s.openFlow .openList
  else if x = '{'.code then s.openFlow .openMapping
  else if x = ']'.code then s.closeFlow .closeList
  else if x = '}'.code then s.closeFlow .closeMapping
  else if x = ','.code then s.comma
  else if x = '-'.code ∧ separates following then s.item
  else if x = '?'.code ∧ alone then s.key
  else if x = ':'.code ∧ alone then s.value
  else if x = '*'.code then s.property fun c => c.anchor?.map fun (t, e) => (.alias t, e)
  else if x = '&'.code then s.property fun c => c.anchor?.map fun (t, e) => (.anchor t, e)
  else if x = '!'.code then s.property fun c => c.tag?.map fun (t, e) => (.tag t, e)
  else if x = '|'.code ∧ !s.inFlow then s.block false
  else if x = '>'.code ∧ !s.inFlow then s.block true
  else if x = '\x27'.code then s.quoted false
  else if x = '\x22'.code then s.quoted true
  else if startsPlain s.inFlow x following then s.plain
  else .error .malformed

def advance (s : Layout) : Except Defect Layout := do
  let marked := s.cursor.index = 0 ∧ s.cursor.peek = some byteOrderMark
  let (brokeLine, c) := skipBlanks false false (if marked then s.cursor.next else s.cursor)
  let s ← { s with cursor := c, keyAllowed := s.keyAllowed || (brokeLine && !s.inFlow) }.dropExpired
  return s.unwind (c.column + 1)

def finish (s : Layout) : Except Defect Layout := (s.unwind 0).dropCandidate

def certain (s : Layout) : List Token :=
  let live := (s.candidate :: s.outerCandidates).filterMap fun k? =>
    k?.bind fun k => if expired s.cursor k then none else some k.count
  s.tokens.reverse.take (live.foldl min s.count)

/-- All tokens from a state on. Behind a defect nothing is read, and what is not certain by then
never becomes so. -/
def tokensFrom : Nat → Layout → List Token
  | 0, s => s.tokens.reverse
  | fuel + 1, s =>
    match s.advance with
    | .error d => s.certain ++ [.broken d]
    | .ok front =>
      match front.cursor.peek with
      | none =>
        match front.finish with
        | .error d => s.certain ++ [.broken d]
        | .ok s => s.tokens.reverse
      | some x =>
        match front.token x with
        | .error d => s.certain ++ [.broken d]
        | .ok s => tokensFrom fuel s

end Layout

def tokens (t : Text) : List Token := (Layout.start t).tokensFrom (t.length + 1)

end ApiPages.Yaml

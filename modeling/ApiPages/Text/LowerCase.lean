import ApiPages.Text.CaseTable

/-!
Lower case. Most letters have a form of their own; two need more: the dotted capital I becomes two
characters, and a capital sigma at the end of a word becomes the final sigma.
-/
namespace ApiPages.Text

def lowerCode : List CaseRun → Nat → Nat
  | [], n => n
  | run :: rest, n =>
    if n < run.first then n
    else if n ≤ run.last then
      if (n - run.first) % run.stride = 0 then ((n : Int) + run.shift).toNat else n
    else lowerCode rest n

def lowerChar (c : CodePoint) : CodePoint := CodePoint.ofNat (lowerCode capitalRuns c.toNat)

def isCased (c : CodePoint) : Bool := inRanges casedRanges c.toNat

def isPassedOver (c : CodePoint) : Bool := inRanges passedOverRanges c.toNat

def casedAhead (t : Text) : Bool :=
  match t.dropWhile isPassedOver with
  | [] => false
  | c :: _ => isCased c

/-- Lower case after a text whose last character, those passed over left out, carries case or
not. -/
def lowerAfter (cased : Bool) : Text → Text
  | [] => []
  | c :: rest =>
    let written :=
      if c = '\u03a3'.code then [if cased && !casedAhead rest then '\u03c2'.code else '\u03c3'.code]
      else if c = '\u0130'.code then ['i'.code, '\u0307'.code]
      else [lowerChar c]
    written ++ lowerAfter (if isPassedOver c then cased else isCased c) rest

def lower (t : Text) : Text := lowerAfter false t

end ApiPages.Text

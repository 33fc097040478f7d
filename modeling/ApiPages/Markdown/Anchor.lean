import ApiPages.Text.LowerCase
import ApiPages.Text.WordCharacter
import ApiPages.Text.Blank

/-!
Anchors of headings. A heading's slug is its text in lower case without punctuation; the anchors of
a page are the slugs, numbered from the second time on that a slug comes up.
-/
namespace ApiPages

def keptInSlug (c : CodePoint) : Bool := Text.isWordCharacter c || c == '-'.code || c == ' '.code

def emptySlug : Text := "section".text

def slug (heading : Text) : Text :=
  let kept := (Text.lower (Text.trim heading)).filter keptInSlug
  let hyphened := kept.map fun c => if c = ' '.code then '-'.code else c
  if hyphened.isEmpty then emptySlug else hyphened

structure AnchorRegistry where
  counts : List (Text × Nat)
  deriving DecidableEq, Repr

namespace AnchorRegistry

def empty : AnchorRegistry := ⟨[]⟩

def count (r : AnchorRegistry) (s : Text) : Nat := (r.counts.lookup s).getD 0

def register (r : AnchorRegistry) (s : Text) : AnchorRegistry :=
  ⟨(s, r.count s + 1) :: r.counts.filter fun e => e.1 != s⟩

def numbered (s : Text) (n : Nat) : Text := if n = 0 then s else s ++ '-'.code :: Text.ofNat n

def next (r : AnchorRegistry) (heading : Text) : Text × AnchorRegistry :=
  let s := slug heading
  (numbered s (r.count s), r.register s)

/-- The registry after some headings whose anchors nobody asks for. -/
def skip (r : AnchorRegistry) (headings : List Text) : AnchorRegistry :=
  headings.foldl (fun r heading => (r.next heading).2) r

def anchorsFrom (r : AnchorRegistry) : List Text → List Text
  | [] => []
  | heading :: rest =>
    let (anchor, r) := r.next heading
    anchor :: anchorsFrom r rest

@[simp] theorem count_empty (s : Text) : empty.count s = 0 := rfl

end AnchorRegistry

def anchors (headings : List Text) : List Text := AnchorRegistry.empty.anchorsFrom headings

end ApiPages

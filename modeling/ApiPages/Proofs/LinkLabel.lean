import Mathlib.Algebra.Ring.Parity
import ApiPages.Proofs.CrossLink
import ApiPages.Text.CodeRange

/-!
Where the label of a link ends. A reader goes from left to right, and a backslash escapes the
punctuation character directly after it. The brackets of a label get backslashes, but its own
backslashes do not: an odd number of them before a bracket takes away the bracket's escape, and an
odd number at the end escapes the bracket that should close the label. These are the only labels
that go wrong; the target is never at risk.
-/
namespace ApiPages.Markdown

open Text

/-- The punctuation of ASCII, the backslash included. -/
def punctuationRanges : List CodeRange := [(33, 47), (58, 64), (91, 96), (123, 126)]

def isPunctuation (c : CodePoint) : Bool := inRanges punctuationRanges c.toNat

/-- Whether punctuation behind a text is escaped. At the beginning of the text it is as `escaping`
says. -/
def escapesFrom (escaping : Bool) : Text → Bool
  | [] => escaping
  | c :: rest => escapesFrom (c == '\\'.code && !(escaping && isPunctuation c)) rest

def isEscaped (before : Text) (c : CodePoint) : Bool := escapesFrom false before && isPunctuation c

def IsBracket (c : CodePoint) : Prop := c = '['.code ∨ c = ']'.code

instance (c : CodePoint) : Decidable (IsBracket c) := inferInstanceAs (Decidable (_ ∨ _))

def unescapeBrackets : Text → Text
  | .backslash :: .leftBracket :: rest => '['.code :: unescapeBrackets rest
  | .backslash :: .rightBracket :: rest => ']'.code :: unescapeBrackets rest
  | c :: rest => c :: unescapeBrackets rest
  | [] => []

/-- A link shows a label in brackets and leads to a target in parentheses. Both can be read back,
and nothing in the target ends it. -/
structure IsLink (link label target shown escaped : Text) : Prop where
  written : link = '['.code :: shown ++ "](".text ++ escaped ++ [')'.code]
  label : unescapeBrackets shown = label
  closed : ' '.code ∉ escaped ∧ '('.code ∉ escaped ∧ ')'.code ∉ escaped
  target : '%'.code ∉ target → unescapeTarget escaped = target

/-- What a reader takes for the label behind an opening bracket: everything up to the first closing
bracket that is not escaped. -/
def readLabel? (escaping : Bool) : Text → Option (Text × Text)
  | [] => none
  | c :: rest =>
    if c = ']'.code ∧ escaping = false then some ([], rest)
    else (readLabel? (c == '\\'.code && !(escaping && isPunctuation c)) rest).map
      fun (label, behind) => (c :: label, behind)

/-- A reader passes every bracket of the label and stops at the one behind it. -/
structure EndsBehind (shown : Text) : Prop where
  inside : ∀ before c after, shown = before ++ c :: after → IsBracket c →
    isEscaped ('['.code :: before) c = true
  ending : isEscaped ('['.code :: shown) ']'.code = false
  stops : ∀ behind, readLabel? false (shown ++ ']'.code :: behind) = some (shown, behind)

def backslashesAtEnd (t : Text) : Nat := (t.reverse.takeWhile (· == '\\'.code)).length

/-- Backslashes stand in pairs before the brackets of a text and at its end. -/
structure PairsBackslashes (t : Text) : Prop where
  before : ∀ front c behind, t = front ++ c :: behind → IsBracket c → Even (backslashesAtEnd front)
  atEnd : Even (backslashesAtEnd t)

theorem IsBracket.isPunctuation {c : CodePoint} (h : IsBracket c) : isPunctuation c = true := by
  rcases h with rfl | rfl <;> decide

theorem IsBracket.ne_backslash {c : CodePoint} (h : IsBracket c) : c ≠ '\\'.code := by
  rcases h with rfl | rfl <;> decide

theorem escapeLabel_cons (c : CodePoint) (rest : Text) :
    escapeLabel (c :: rest) =
      (if IsBracket c then ['\\'.code, c] else [c]) ++ escapeLabel rest := rfl

theorem escapeLabel_cons_bracket {c : CodePoint} (h : IsBracket c) (rest : Text) :
    escapeLabel (c :: rest) = '\\'.code :: c :: escapeLabel rest := by
  rw [escapeLabel_cons, if_pos h]
  rfl

theorem escapeLabel_cons_other {c : CodePoint} (h : ¬IsBracket c) (rest : Text) :
    escapeLabel (c :: rest) = c :: escapeLabel rest := by
  rw [escapeLabel_cons, if_neg h]
  rfl

theorem escapeLabel_append (s t : Text) :
    escapeLabel (s ++ t) = escapeLabel s ++ escapeLabel t := List.flatMap_append

theorem escapesFrom_append (escaping : Bool) (s t : Text) :
    escapesFrom escaping (s ++ t) = escapesFrom (escapesFrom escaping s) t := by
  induction s generalizing escaping with
  | nil => rfl
  | cons c s ih => exact ih _

theorem escapesFrom_other {c : CodePoint} (h : c ≠ '\\'.code) (escaping : Bool) (rest : Text) :
    escapesFrom escaping (c :: rest) = escapesFrom false rest := by
  have hc : (c == '\\'.code) = false := beq_eq_false_iff_ne.mpr h
  rw [escapesFrom, hc, Bool.false_and]

theorem escapesFrom_backslash (escaping : Bool) (rest : Text) :
    escapesFrom escaping ('\\'.code :: rest) = escapesFrom (!escaping) rest := by
  have hbackslash : isPunctuation '\\'.code = true := by decide
  rw [escapesFrom, hbackslash, Bool.and_true, beq_self_eq_true, Bool.true_and]

/-- Behind a bracket nothing is escaped, with a backslash before it and without. So the escaping of
brackets makes no difference to what comes later. -/
theorem escapesFrom_escapeLabel (escaping : Bool) (t : Text) :
    escapesFrom escaping (escapeLabel t) = escapesFrom escaping t := by
  induction t generalizing escaping with
  | nil => rfl
  | cons c rest ih =>
    by_cases hc : IsBracket c
    · rw [escapeLabel_cons_bracket hc, escapesFrom_backslash, escapesFrom_other hc.ne_backslash,
        escapesFrom_other hc.ne_backslash, ih]
    · rw [escapeLabel_cons_other hc, escapesFrom, escapesFrom, ih]

theorem backslashesAtEnd_concat (t : Text) (c : CodePoint) :
    backslashesAtEnd (t ++ [c]) = if c = '\\'.code then backslashesAtEnd t + 1 else 0 := by
  by_cases hc : c = '\\'.code <;> simp [backslashesAtEnd, hc]

theorem escapesFrom_eq_false_iff (t : Text) :
    escapesFrom false t = false ↔ Even (backslashesAtEnd t) := by
  induction t using List.reverseRecOn with
  | nil => exact iff_of_true rfl Even.zero
  | append_singleton t c ih =>
    rw [escapesFrom_append, backslashesAtEnd_concat]
    by_cases hc : c = '\\'.code
    · rw [if_pos hc, hc, escapesFrom_backslash, Nat.even_add_one, ← ih]
      simp [escapesFrom]
    · rw [if_neg hc, escapesFrom_other hc]
      exact iff_of_true rfl Even.zero

theorem isEscaped_behind_open (before : Text) (c : CodePoint) :
    isEscaped ('['.code :: before) c = (escapesFrom false before && isPunctuation c) := by
  rw [isEscaped, escapesFrom_other (by decide)]

theorem exists_of_escapeLabel {label before after : Text} {c : CodePoint} (hc : IsBracket c)
    (h : escapeLabel label = before ++ c :: after) :
    ∃ front behind, label = front ++ c :: behind ∧ before = escapeLabel front ++ ['\\'.code] := by
  induction label generalizing before with
  | nil => simp [escapeLabel] at h
  | cons d rest ih =>
    by_cases hd : IsBracket d
    · rw [escapeLabel_cons_bracket hd] at h
      cases before with
      | nil => exact absurd (List.cons.inj h).1.symm hc.ne_backslash
      | cons b before =>
        rw [List.cons_append] at h
        obtain ⟨rfl, hbehind⟩ := List.cons.inj h
        cases before with
        | nil =>
          obtain ⟨rfl, -⟩ := List.cons.inj hbehind
          exact ⟨[], rest, rfl, rfl⟩
        | cons b before =>
          rw [List.cons_append] at hbehind
          obtain ⟨rfl, hrest⟩ := List.cons.inj hbehind
          obtain ⟨front, behind, rfl, rfl⟩ := ih hrest
          refine ⟨d :: front, behind, rfl, ?_⟩
          rw [escapeLabel_cons_bracket hd]
          rfl
    · rw [escapeLabel_cons_other hd] at h
      cases before with
      | nil => exact absurd ((List.cons.inj h).1 ▸ hc) hd
      | cons b before =>
        rw [List.cons_append] at h
        obtain ⟨rfl, hrest⟩ := List.cons.inj h
        obtain ⟨front, behind, rfl, rfl⟩ := ih hrest
        refine ⟨d :: front, behind, rfl, ?_⟩
        rw [escapeLabel_cons_other hd]
        rfl

/-- The backslash put before a bracket escapes it, unless an odd number of the label's own stands
before that. -/
theorem isEscaped_bracket {c : CodePoint} (hc : IsBracket c) (front : Text) :
    isEscaped ('['.code :: (escapeLabel front ++ ['\\'.code])) c = true ↔
      Even (backslashesAtEnd front) := by
  rw [isEscaped_behind_open, escapesFrom_append, escapesFrom_escapeLabel, escapesFrom_backslash,
    hc.isPunctuation, Bool.and_true, ← escapesFrom_eq_false_iff]
  simp [escapesFrom]

theorem isEscaped_ending (label : Text) :
    isEscaped ('['.code :: escapeLabel label) ']'.code = false ↔ Even (backslashesAtEnd label) := by
  have hbracket : isPunctuation ']'.code = true := by decide
  rw [isEscaped_behind_open, escapesFrom_escapeLabel, hbracket, Bool.and_true,
    escapesFrom_eq_false_iff]

theorem readLabel?_of_escaped {escaping : Bool} {shown : Text}
    (hinside : ∀ before after, shown = before ++ ']'.code :: after →
      escapesFrom escaping before = true)
    (hending : escapesFrom escaping shown = false) (behind : Text) :
    readLabel? escaping (shown ++ ']'.code :: behind) = some (shown, behind) := by
  induction shown generalizing escaping with
  | nil =>
    have hopen : escaping = false := hending
    rw [List.nil_append, readLabel?, if_pos ⟨rfl, hopen⟩]
  | cons c shown ih =>
    have hpass : ¬(c = ']'.code ∧ escaping = false) := by
      rintro ⟨rfl, hopen⟩
      have hescaped : escaping = true := hinside [] shown rfl
      rw [hopen] at hescaped
      exact Bool.noConfusion hescaped
    rw [List.cons_append, readLabel?, if_neg hpass, ih ?_ hending]
    · rfl
    · intro before after hshown
      exact hinside (c :: before) after (by rw [hshown, List.cons_append])

theorem endsBehind_escapeLabel_iff (label : Text) :
    EndsBehind (escapeLabel label) ↔ PairsBackslashes label := by
  constructor
  · intro h
    refine ⟨?_, (isEscaped_ending label).mp h.ending⟩
    intro front c behind hlabel hc
    apply (isEscaped_bracket hc front).mp
    apply h.inside _ c (escapeLabel behind) _ hc
    rw [hlabel, escapeLabel_append, escapeLabel_cons_bracket hc, List.append_assoc]
    rfl
  · intro h
    have hinside : ∀ before c after, escapeLabel label = before ++ c :: after → IsBracket c →
        isEscaped ('['.code :: before) c = true := by
      intro before c after hshown hc
      obtain ⟨front, behind, hlabel, rfl⟩ := exists_of_escapeLabel hc hshown
      exact (isEscaped_bracket hc front).mpr (h.before front c behind hlabel hc)
    refine ⟨hinside, (isEscaped_ending label).mpr h.atEnd, ?_⟩
    apply readLabel?_of_escaped
    · intro before after hshown
      have hescaped := hinside before ']'.code after hshown (.inr rfl)
      rw [isEscaped_behind_open, Bool.and_eq_true] at hescaped
      exact hescaped.1
    · rw [escapesFrom_escapeLabel]
      exact (escapesFrom_eq_false_iff label).mpr h.atEnd

theorem unescapeBrackets_cons {c : CodePoint} {rest : Text}
    (h : c = '\\'.code → rest.head? ≠ some '['.code ∧ rest.head? ≠ some ']'.code) :
    unescapeBrackets (c :: rest) = c :: unescapeBrackets rest := by
  rw [unescapeBrackets]
  · rintro more hc rfl
    exact (h hc).1 rfl
  · rintro more hc rfl
    exact (h hc).2 rfl

theorem unescapeBrackets_escapeLabel (label : Text) :
    unescapeBrackets (escapeLabel label) = label := by
  induction label with
  | nil => rfl
  | cons c rest ih =>
    by_cases hc : IsBracket c
    · rw [escapeLabel_cons_bracket hc]
      rcases hc with rfl | rfl
      · exact congrArg ('['.code :: ·) ih
      · exact congrArg (']'.code :: ·) ih
    · have hhead : ∀ d, IsBracket d → (escapeLabel rest).head? ≠ some d := by
        intro d hd hsome
        obtain ⟨more, hmore⟩ := List.head?_eq_some_iff.mp hsome
        have hfirst : escapeLabel rest = [] ++ d :: more := hmore
        obtain ⟨front, -, -, hnil⟩ := exists_of_escapeLabel hd hfirst
        simp at hnil
      rw [escapeLabel_cons_other hc,
        unescapeBrackets_cons fun _ => ⟨hhead _ (.inl rfl), hhead _ (.inr rfl)⟩, ih]

theorem isLink_link (label target : Text) :
    IsLink (link label target) label target (escapeLabel label) (escapeTarget target) where
  written := rfl
  label := unescapeBrackets_escapeLabel label
  closed := by
    refine ⟨?_, ?_, ?_⟩ <;> exact not_mem_escapeTarget (by decide) target
  target := unescapeTarget_escapeTarget

theorem IsLink.shown_eq {link label target shown escaped shown' escaped' : Text}
    (h : IsLink link label target shown escaped)
    (h' : IsLink link label target shown' escaped') : shown = shown' := by
  have hsplit := splitLast?_parenthesized h.closed.2.1 shown
  rw [← h.written, h'.written, splitLast?_parenthesized h'.closed.2.1 shown'] at hsplit
  have hbefore := (Prod.mk.inj (Option.some.inj hsplit)).1
  exact (List.append_cancel_right (List.cons.inj hbefore).2).symm

/-- Every link can be taken apart and read back. Its label ends where it should if and only if the
backslashes in it stand in pairs before brackets and at its end. -/
theorem label_ends_where_it_should_iff (label target : Text) :
    IsLink (link label target) label target (escapeLabel label) (escapeTarget target) ∧
      ((∃ shown escaped, IsLink (link label target) label target shown escaped ∧
        EndsBehind shown) ↔ PairsBackslashes label) := by
  refine ⟨isLink_link label target, ?_⟩
  rw [← endsBehind_escapeLabel_iff]
  constructor
  · rintro ⟨shown, escaped, hshows, hends⟩
    rwa [hshows.shown_eq (isLink_link label target)] at hends
  · intro hends
    exact ⟨_, _, isLink_link label target, hends⟩

namespace Sample

/-- A name with a separator at its end. -/
def openLabel : Text := "Acme\\".text

end Sample

theorem sample_label_stays_open : ¬∃ shown escaped,
    IsLink (link Sample.openLabel "README.md".text) Sample.openLabel "README.md".text
      shown escaped ∧ EndsBehind shown := by
  rintro ⟨shown, escaped, hshows, hends⟩
  rw [hshows.shown_eq (isLink_link _ _), endsBehind_escapeLabel_iff] at hends
  exact absurd hends.atEnd (by decide)

end ApiPages.Markdown

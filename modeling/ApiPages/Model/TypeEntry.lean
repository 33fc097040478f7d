import ApiPages.Model.Method

/-!
Documented types with their fields, their methods and the chain of their ancestors.
-/
namespace ApiPages

structure Field where
  name : Text
  type : Text
  isStatic : Bool := false
  comment : Text := []
  modifiers : List Text := []
  constantValue : Option Text := none
  deriving DecidableEq, Repr

structure Ancestor where
  qualifiedName : Text
  /-- There is a page for it. -/
  documented : Bool := false
  deriving DecidableEq, Repr

def splitLast? (c : CodePoint) : Text → Option (Text × Text)
  | [] => none
  | d :: rest =>
    match splitLast? c rest with
    | some (before, after) => some (d :: before, after)
    | none => if d = c then some ([], rest) else none

theorem splitLast?_eq_none_iff {c : CodePoint} {t : Text} : splitLast? c t = none ↔ c ∉ t := by
  induction t with
  | nil => simp [splitLast?]
  | cons d rest ih =>
    rw [splitLast?, List.mem_cons, not_or, ← ih]
    cases splitLast? c rest with
    | some parts => simp
    | none => simp [eq_comm]

theorem splitLast?_append_cons {c : CodePoint} {after : Text} (h : c ∉ after) (before : Text) :
    splitLast? c (before ++ c :: after) = some (before, after) := by
  induction before with
  | nil =>
    rw [List.nil_append, splitLast?, splitLast?_eq_none_iff.mpr h]
    exact if_pos rfl
  | cons d before ih => rw [List.cons_append, splitLast?, ih]

theorem not_mem_of_splitLast? {c : CodePoint} {t before after : Text}
    (h : splitLast? c t = some (before, after)) : c ∉ after := by
  induction t generalizing before with
  | nil => cases h
  | cons d rest ih =>
    rw [splitLast?] at h
    cases hrest : splitLast? c rest with
    | some parts =>
      rw [hrest] at h
      cases h
      exact ih hrest
    | none =>
      rw [hrest] at h
      dsimp only at h
      split at h
      · cases h
        exact splitLast?_eq_none_iff.mp hrest
      · cases h

namespace Ancestor

def name (a : Ancestor) : Text :=
  ((splitLast? '.'.code a.qualifiedName).map Prod.snd).getD a.qualifiedName

def package (a : Ancestor) : Text := ((splitLast? '.'.code a.qualifiedName).map Prod.fst).getD []

end Ancestor

structure TypeEntry where
  name : Text
  package : Text
  comment : Text := []
  /-- From the root of the chain on, without the type itself. -/
  ancestors : List Ancestor := []
  methods : List Method := []
  fields : List Field := []
  deriving DecidableEq, Repr

namespace TypeEntry

def qualifiedName (t : TypeEntry) : Text :=
  if t.package.isEmpty then t.name else t.package ++ '.'.code :: t.name

def hasMethods (t : TypeEntry) : Bool := !t.methods.isEmpty

def hasFields (t : TypeEntry) : Bool := !t.fields.isEmpty

end TypeEntry

end ApiPages

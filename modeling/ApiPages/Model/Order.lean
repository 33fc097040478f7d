import ApiPages.Model.TypeEntry
import ApiPages.Text.Order

/-!
The order of members on a page: by name, code point by code point, with declaration order among
equal names. Fields come with the instance fields before the static ones.
-/
namespace ApiPages

namespace Order

/-- The list with one more element, put in front of the first element it does not exceed. -/
def insertBy {α : Type} (le : α → α → Bool) (a : α) : List α → List α
  | [] => [a]
  | b :: rest => if le a b then a :: b :: rest else b :: insertBy le a rest

def sortBy {α : Type} (le : α → α → Bool) : List α → List α
  | [] => []
  | a :: rest => insertBy le a (sortBy le rest)

def byName {α : Type} (name : α → Text) (a b : α) : Bool := (name a).atMost (name b)

theorem insertBy_perm {α : Type} (le : α → α → Bool) (a : α) (l : List α) :
    (insertBy le a l).Perm (a :: l) := by
  induction l with
  | nil => exact .refl _
  | cons b rest ih =>
    simp only [insertBy]
    split
    · exact .refl _
    · exact (ih.cons b).trans (.swap a b rest)

theorem sortBy_perm {α : Type} (le : α → α → Bool) (l : List α) : (sortBy le l).Perm l := by
  induction l with
  | nil => exact .refl _
  | cons a rest ih => exact (insertBy_perm le a _).trans (ih.cons a)

end Order

def orderMembers {α : Type} (name : α → Text) (members : List α) : List α :=
  Order.sortBy (Order.byName name) members

def orderMethods (methods : List Method) : List Method := orderMembers Method.name methods

def splitFields (fields : List Field) : List Field × List Field :=
  (fields.filter fun f => !f.isStatic, fields.filter fun f => f.isStatic)

def orderFields (fields : List Field) : List Field :=
  let (instances, statics) := splitFields (orderMembers Field.name fields)
  instances ++ statics

end ApiPages

import Mathlib.Data.List.Basic
import ApiPages.Proofs.Order

/-!
The order of fields is one stable sort. Sorting by name and taking the instance fields in front,
sorting once with the static fields behind the others, and sorting the two groups one by one come to
the same list: each keeps fields of one key as they stood, and only one list in order does that.
-/
namespace ApiPages

namespace Order

/-- A list in ascending order of its keys, with the elements of each key as they stood before. -/
structure IsStableSort {α κ : Type} [DecidableEq κ] (key : α → κ) (le : κ → κ → Bool)
    (l m : List α) : Prop where
  same : SameWithin key l m
  ascending : m.Pairwise fun a b => le (key a) (key b) = true

section Sorting

variable {α κ : Type} [DecidableEq κ] {key : α → κ} {le : κ → κ → Bool} {l m : List α}

theorem isStableSort_sortBy (h : OrdersKeys le) (key : α → κ) (l : List α) :
    IsStableSort key le l (sortBy (fun a b => le (key a) (key b)) l) where
  same := by
    refine ⟨(sortBy_perm _ l).symm, ?_⟩
    intro k
    symm
    apply filter_sortBy
    intro a b ha hb
    rw [decide_eq_true_eq] at ha hb
    rw [ha, hb]
    exact h.refl k
  ascending := sortBy_ordered (h.lawful key) l

theorem isStableSort_iff (h : OrdersKeys le) :
    IsStableSort key le l m ↔ m = sortBy (fun a b => le (key a) (key b)) l := by
  constructor
  · intro hm
    apply eq_sortBy (h.lawful key) hm.ascending
    intro a
    rw [h.tied_eq key]
    exact (hm.same.within (key a)).symm
  · rintro rfl
    exact isStableSort_sortBy h key l

theorem IsStableSort.again (h : IsStableSort key le l m) : IsStableSort key le m m where
  same := ⟨.refl m, fun _ => rfl⟩
  ascending := h.ascending

end Sorting

/-- By name among fields that are both static or both not, and the static ones last. -/
def staticLast (a b : Text × Bool) : Bool :=
  (!a.2 && b.2) || (a.2 == b.2 && a.1.atMost b.1)

theorem static_of_staticLast {a b : Text × Bool} (h : staticLast a b = true) (ha : a.2 = true) :
    b.2 = true := by
  simp only [staticLast, ha, Bool.not_true, Bool.false_and, Bool.false_or, Bool.and_eq_true,
    beq_iff_eq] at h
  exact h.1.symm

theorem ordersKeys_staticLast : OrdersKeys staticLast where
  total := by
    rintro ⟨s, x⟩ ⟨t, y⟩
    have hnames := Text.atMost_total s t
    cases x <;> cases y <;> simp_all [staticLast]
  trans := by
    rintro ⟨s, x⟩ ⟨t, y⟩ ⟨u, z⟩ hst htu
    cases x <;> cases y <;> cases z <;> simp_all [staticLast]
    all_goals exact Text.atMost_trans hst htu
  antisymm := by
    rintro ⟨s, x⟩ ⟨t, y⟩ hst hts
    cases x <;> cases y <;> simp_all [staticLast]
    all_goals exact Text.atMost_antisymm hst hts

end Order

open ApiPages.Order

theorem orderMembers_ascending {fields : List Field} {s : Bool}
    (h : ∀ f ∈ fields, f.isStatic = s) :
    (orderMembers Field.name fields).Pairwise fun f g => staticLast f.key g.key = true := by
  have hnames : Ordered (byName Field.name) (orderMembers Field.name fields) :=
    sortBy_ordered (byName_lawful Field.name) fields
  refine hnames.imp_of_mem ?_
  intro f g hf hg hle
  have hfs := h f ((orderMembers_perm Field.name fields).mem_iff.mp hf)
  have hgs := h g ((orderMembers_perm Field.name fields).mem_iff.mp hg)
  have hle : f.name.atMost g.name = true := hle
  simp [staticLast, Field.key, hfs, hgs, hle]

theorem orderFields_ascending (fields : List Field) :
    (orderFields fields).Pairwise fun f g => staticLast f.key g.key = true := by
  have hinstance : ∀ f ∈ fields.filter (fun f => !f.isStatic), f.isStatic = false := by
    intro f hf
    simpa using (List.mem_filter.mp hf).2
  have hstatic : ∀ f ∈ fields.filter (fun f => f.isStatic), f.isStatic = true := by
    intro f hf
    exact (List.mem_filter.mp hf).2
  rw [orderFields_eq, List.pairwise_append]
  refine ⟨orderMembers_ascending hinstance, orderMembers_ascending hstatic, ?_⟩
  intro f hf g hg
  have hfs := hinstance f ((orderMembers_perm Field.name _).mem_iff.mp hf)
  have hgs := hstatic g ((orderMembers_perm Field.name _).mem_iff.mp hg)
  simp [staticLast, Field.key, hfs, hgs]

theorem orderFields_sameWithin (fields : List Field) :
    SameWithin Field.key fields (orderFields fields) where
  perm := (orderFields_perm fields).symm
  within := by
    rintro ⟨name, s⟩
    have hnames : ∀ f g : Field, decide (f.key = (name, s)) = true →
        decide (g.key = (name, s)) = true → byName Field.name f g = true := by
      intro f g hf hg
      have hfname : f.name = name := congrArg Prod.fst (of_decide_eq_true hf)
      have hgname : g.name = name := congrArg Prod.fst (of_decide_eq_true hg)
      change f.name.atMost g.name = true
      rw [hfname, hgname, Text.atMost_refl]
    rw [orderFields_eq, List.filter_append, orderMembers, orderMembers, filter_sortBy hnames,
      filter_sortBy hnames, List.filter_filter, List.filter_filter]
    cases s <;> simp [Field.key]

theorem isStableSort_orderFields (fields : List Field) :
    IsStableSort Field.key staticLast fields (orderFields fields) :=
  ⟨orderFields_sameWithin fields, orderFields_ascending fields⟩

theorem orderFields_eq_sortBy (fields : List Field) :
    orderFields fields = sortBy (fun f g => staticLast f.key g.key) fields :=
  (isStableSort_iff ordersKeys_staticLast).mp (isStableSort_orderFields fields)

theorem orderFields_again (fields : List Field) :
    orderFields (orderFields fields) = orderFields fields := by
  have hagain := (isStableSort_orderFields fields).again
  rw [orderFields_eq_sortBy (orderFields fields)]
  exact ((isStableSort_iff ordersKeys_staticLast).mp hagain).symm

/-- One sort, two sorts and a sort with two filters give the same list, and that again. -/
structure SortedOnce (fields : List Field) : Prop where
  perm : (orderFields fields).Perm fields
  stable_sort : ∀ m, IsStableSort Field.key staticLast fields m ↔ m = orderFields fields
  one_sort : orderFields fields = sortBy (fun f g => staticLast f.key g.key) fields
  two_sorts : orderFields fields = orderMembers Field.name (fields.filter fun f => !f.isStatic) ++
    orderMembers Field.name (fields.filter fun f => f.isStatic)
  again : orderFields (orderFields fields) = orderFields fields

theorem sortedOnce (fields : List Field) : SortedOnce fields where
  perm := orderFields_perm fields
  stable_sort := by
    intro m
    rw [isStableSort_iff ordersKeys_staticLast, orderFields_eq_sortBy]
  one_sort := orderFields_eq_sortBy fields
  two_sorts := orderFields_eq fields
  again := orderFields_again fields

/-- Fields are sorted once by a key, and members of any kind have one stable sort by name, which is
their order. -/
theorem order_is_the_stable_sort :
    (∀ fields, SortedOnce fields) ∧
      ∀ (α : Type) (name : α → Text) (l m : List α),
        IsStableSort name Text.atMost l m ↔ m = orderMembers name l := by
  refine ⟨sortedOnce, ?_⟩
  intro α name l m
  exact isStableSort_iff ordersKeys_atMost

end ApiPages

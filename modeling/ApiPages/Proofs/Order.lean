import Mathlib.Data.List.Basic
import ApiPages.Model.Order

/-!
The stable sort behind the order of members. What it gives is in order and keeps elements that the
order does not tell apart as they stood, and no other list is and does both. So the order in which
members are declared is seen only among members of one name, and it makes no difference whether
members are left out before they are sorted or after.
-/
namespace ApiPages

namespace Order

structure Lawful {α : Type} (le : α → α → Bool) : Prop where
  total : ∀ a b, (le a b || le b a) = true
  trans : ∀ {a b c}, le a b = true → le b c = true → le a c = true

def tied {α : Type} (le : α → α → Bool) (a b : α) : Bool := le a b && le b a

def Ordered {α : Type} (le : α → α → Bool) (l : List α) : Prop :=
  l.Pairwise fun a b => le a b = true

/-- The same elements, with those of one key in the same order. -/
structure SameWithin {α κ : Type} [DecidableEq κ] (key : α → κ) (l m : List α) : Prop where
  perm : l.Perm m
  within : ∀ k, l.filter (fun a => key a = k) = m.filter (fun a => key a = k)

theorem SameWithin.swap {α κ : Type} [DecidableEq κ] {key : α → κ} {a b : α} (h : key a ≠ key b)
    (l m : List α) : SameWithin key (l ++ a :: b :: m) (l ++ b :: a :: m) where
  perm := (List.Perm.swap b a m).append_left l
  within k := by
    rw [List.filter_append, List.filter_append]
    congr 1
    by_cases ha : key a = k
    · have hb : key b ≠ k := fun hb => h (ha.trans hb.symm)
      simp [ha, hb]
    · simp [List.filter_cons, ha]

section Sorting

variable {α : Type} {le : α → α → Bool}

theorem Lawful.refl (h : Lawful le) (a : α) : le a a = true := by
  simpa using h.total a a

theorem Lawful.tied_self (h : Lawful le) (a : α) : tied le a a = true := by
  simp [tied, h.refl a]

theorem mem_insertBy {a b : α} {l : List α} : b ∈ insertBy le a l ↔ b = a ∨ b ∈ l := by
  rw [(insertBy_perm le a l).mem_iff, List.mem_cons]

theorem insertBy_ordered (h : Lawful le) (a : α) {l : List α} (hl : Ordered le l) :
    Ordered le (insertBy le a l) := by
  induction l with
  | nil => simp [insertBy, Ordered]
  | cons b rest ih =>
    obtain ⟨hb, hrest⟩ := List.pairwise_cons.mp hl
    by_cases hab : le a b = true
    · rw [insertBy, if_pos hab]
      refine List.pairwise_cons.mpr ⟨?_, hl⟩
      intro c hc
      rcases List.mem_cons.mp hc with rfl | hc
      · exact hab
      · exact h.trans hab (hb c hc)
    · rw [insertBy, if_neg hab]
      refine List.pairwise_cons.mpr ⟨?_, ih hrest⟩
      intro c hc
      rcases mem_insertBy.mp hc with rfl | hc
      · simpa [hab] using h.total c b
      · exact hb c hc

theorem sortBy_ordered (h : Lawful le) (l : List α) : Ordered le (sortBy le l) := by
  induction l with
  | nil => exact .nil
  | cons a rest ih => exact insertBy_ordered h a ih

theorem filter_insertBy {p : α → Bool} (hp : ∀ a b, p a = true → p b = true → le a b = true)
    (a : α) (l : List α) : (insertBy le a l).filter p = (a :: l).filter p := by
  induction l with
  | nil => rfl
  | cons b rest ih =>
    by_cases hab : le a b = true
    · rw [insertBy, if_pos hab]
    · rw [insertBy, if_neg hab, List.filter_cons, ih]
      by_cases ha : p a = true
      · have hb : p b = false := by
          by_contra hb
          exact hab (hp a b ha (by simpa using hb))
        simp [ha, hb]
      · simp [ha, List.filter_cons]

theorem filter_sortBy {p : α → Bool} (hp : ∀ a b, p a = true → p b = true → le a b = true)
    (l : List α) : (sortBy le l).filter p = l.filter p := by
  induction l with
  | nil => rfl
  | cons a rest ih => rw [sortBy, filter_insertBy hp, List.filter_cons, List.filter_cons, ih]

theorem filter_tied_sortBy (h : Lawful le) (a : α) (l : List α) :
    (sortBy le l).filter (tied le a) = l.filter (tied le a) := by
  apply filter_sortBy
  intro b c hb hc
  simp only [tied, Bool.and_eq_true] at hb hc
  exact h.trans hb.2 hc.1

theorem head_le_of_filter_tied (h : Lawful le) {a b : α} {l m : List α} (hl : Ordered le (a :: l))
    (hf : (a :: l).filter (tied le b) = (b :: m).filter (tied le b)) : le a b = true := by
  have hb : b ∈ (b :: m).filter (tied le b) := by simp [h.tied_self b]
  rw [← hf] at hb
  rcases List.mem_cons.mp (List.mem_filter.mp hb).1 with rfl | hb
  · exact h.refl b
  · exact List.rel_of_pairwise_cons hl hb

theorem eq_of_ordered_of_filter_tied (h : Lawful le) {l m : List α} (hl : Ordered le l)
    (hm : Ordered le m) (hf : ∀ a, l.filter (tied le a) = m.filter (tied le a)) : l = m := by
  induction l generalizing m with
  | nil =>
    cases m with
    | nil => rfl
    | cons b m => simpa [h.tied_self b] using hf b
  | cons a l ih =>
    cases m with
    | nil => simpa [h.tied_self a] using hf a
    | cons b m =>
      have hab := head_le_of_filter_tied h hl (hf b)
      have hba := head_le_of_filter_tied h hm (hf a).symm
      have hfa := hf a
      have htied : tied le a b = true := by simp [tied, hab, hba]
      rw [List.filter_cons_of_pos (h.tied_self a), List.filter_cons_of_pos htied] at hfa
      obtain ⟨rfl, -⟩ := List.cons.inj hfa
      congr 1
      apply ih hl.of_cons hm.of_cons
      intro c
      have hfc := hf c
      by_cases hc : tied le c a = true
      · rw [List.filter_cons_of_pos hc, List.filter_cons_of_pos hc] at hfc
        exact (List.cons.inj hfc).2
      · rwa [List.filter_cons_of_neg hc, List.filter_cons_of_neg hc] at hfc

/-- The stable sort is the only ordered list that keeps tied elements as they stood. -/
theorem eq_sortBy (h : Lawful le) {l m : List α} (hm : Ordered le m)
    (hf : ∀ a, m.filter (tied le a) = l.filter (tied le a)) : m = sortBy le l := by
  apply eq_of_ordered_of_filter_tied h hm (sortBy_ordered h l)
  intro a
  rw [hf, filter_tied_sortBy h]

theorem sortBy_congr (h : Lawful le) {l m : List α}
    (hf : ∀ a, l.filter (tied le a) = m.filter (tied le a)) : sortBy le l = sortBy le m := by
  apply eq_sortBy h (sortBy_ordered h l)
  intro a
  rw [filter_tied_sortBy h, hf]

theorem sortBy_filter (h : Lawful le) (p : α → Bool) (l : List α) :
    sortBy le (l.filter p) = (sortBy le l).filter p := by
  symm
  apply eq_sortBy h ((sortBy_ordered h l).filter p)
  intro a
  rw [List.filter_comm, filter_tied_sortBy h, List.filter_comm]

end Sorting

structure OrdersKeys {κ : Type} (le : κ → κ → Bool) : Prop extends Lawful le where
  antisymm : ∀ {a b}, le a b = true → le b a = true → a = b

section Keys

variable {α κ : Type} {le : κ → κ → Bool}

theorem OrdersKeys.lawful (h : OrdersKeys le) (key : α → κ) :
    Lawful fun a b => le (key a) (key b) where
  total a b := h.total (key a) (key b)
  trans hab hbc := h.trans hab hbc

theorem OrdersKeys.tied_eq [DecidableEq κ] (h : OrdersKeys le) (key : α → κ) (a : α) :
    tied (fun a b => le (key a) (key b)) a = fun b => decide (key b = key a) := by
  funext b
  rw [Bool.eq_iff_iff]
  simp only [tied, Bool.and_eq_true, decide_eq_true_eq]
  constructor
  · rintro ⟨hab, hba⟩
    exact h.antisymm hba hab
  · intro hkey
    simp [hkey, h.refl]

end Keys

section Names

variable {α : Type} (name : α → Text)

theorem ordersKeys_atMost : OrdersKeys Text.atMost where
  total := Text.atMost_total
  trans := Text.atMost_trans
  antisymm := Text.atMost_antisymm

theorem byName_lawful : Lawful (byName name) := ordersKeys_atMost.lawful name

theorem tied_byName (a : α) : tied (byName name) a = fun b => decide (name b = name a) :=
  ordersKeys_atMost.tied_eq name a

end Names

end Order

open ApiPages.Order

theorem orderMembers_filter {α : Type} (name : α → Text) (p : α → Bool) (members : List α) :
    orderMembers name (members.filter p) = (orderMembers name members).filter p :=
  sortBy_filter (byName_lawful name) p members

theorem orderMembers_perm {α : Type} (name : α → Text) (members : List α) :
    (orderMembers name members).Perm members := sortBy_perm _ members

theorem orderMembers_congr {α : Type} {name : α → Text} {l m : List α}
    (h : SameWithin name l m) : orderMembers name l = orderMembers name m := by
  apply sortBy_congr (byName_lawful name)
  intro a
  rw [tied_byName]
  exact h.within (name a)

theorem orderFields_eq (fields : List Field) :
    orderFields fields = orderMembers Field.name (fields.filter fun f => !f.isStatic) ++
      orderMembers Field.name (fields.filter fun f => f.isStatic) := by
  simp only [orderFields, splitFields, orderMembers_filter]

theorem orderFields_filter (p : Field → Bool) (fields : List Field) :
    orderFields (fields.filter p) = (orderFields fields).filter p := by
  rw [orderFields_eq, orderFields_eq, List.filter_append, ← orderMembers_filter,
    ← orderMembers_filter, List.filter_comm, List.filter_comm (fun f : Field => f.isStatic)]

theorem orderFields_perm (fields : List Field) : (orderFields fields).Perm fields := by
  have h := List.filter_append_perm (fun f : Field => f.isStatic) (orderMembers Field.name fields)
  exact List.perm_append_comm.trans (h.trans (orderMembers_perm _ fields))

def Field.key (f : Field) : Text × Bool := (f.name, f.isStatic)

theorem SameWithin.ofStatic {l m : List Field} (h : SameWithin Field.key l m) (s : Bool) :
    SameWithin Field.name (l.filter fun f => f.isStatic == s)
      (m.filter fun f => f.isStatic == s) where
  perm := h.perm.filter _
  within k := by
    have hw := h.within (k, s)
    simp only [Field.key, Prod.mk.injEq, Bool.decide_and] at hw
    simpa only [List.filter_filter, Bool.beq_eq_decide_eq] using hw

theorem orderFields_congr {l m : List Field} (h : SameWithin Field.key l m) :
    orderFields l = orderFields m := by
  have hi := orderMembers_congr (SameWithin.ofStatic h false)
  have hs := orderMembers_congr (SameWithin.ofStatic h true)
  simp only [beq_false, beq_true] at hi hs
  rw [orderFields_eq, orderFields_eq, hi, hs]

end ApiPages

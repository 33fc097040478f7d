import Mathlib.Data.List.Nodup
import ApiPages.Proofs.Anchors
import ApiPages.Proofs.Layout

/-!
How anchors are numbered. A registry counts every slug it is given, so a slug that comes up again
never gets the anchor of an earlier one. Nobody looks whether a slug with its number is the slug of
another heading: anchors meet exactly then.
-/
namespace ApiPages

/-- Each slug with the number of times it came up before, the earlier ones included. -/
def occurrencesAfter (earlier : List Text) : List Text → List (Text × Nat)
  | [] => []
  | s :: rest => (s, earlier.count s) :: occurrencesAfter (earlier ++ [s]) rest

theorem mem_occurrencesAfter {earlier slugs : List Text} {s : Text} {k : Nat} :
    (s, k) ∈ occurrencesAfter earlier slugs ↔
      earlier.count s ≤ k ∧ k < earlier.count s + slugs.count s := by
  induction slugs generalizing earlier with
  | nil =>
    refine iff_of_false List.not_mem_nil ?_
    rw [List.count_nil]
    omega
  | cons t rest ih =>
    rw [occurrencesAfter, List.mem_cons, ih, Prod.mk.injEq, List.count_append, List.count_singleton,
      List.count_cons]
    by_cases h : t = s
    · subst h
      simp only [beq_self_eq_true, if_true, true_and]
      omega
    · have hs : ¬s = t := fun hs => h hs.symm
      simp only [beq_iff_eq, h, hs, false_and, if_false, false_or]
      omega

theorem occurrencesAfter_nodup (earlier slugs : List Text) :
    (occurrencesAfter earlier slugs).Nodup := by
  induction slugs generalizing earlier with
  | nil => exact .nil
  | cons s rest ih =>
    refine List.nodup_cons.mpr ⟨?_, ih _⟩
    intro h
    have hlater := (mem_occurrencesAfter.mp h).1
    rw [List.count_append, List.count_singleton_self] at hlater
    omega

namespace AnchorRegistry

theorem hyphen_not_mem_ofNat (n : Nat) : '-'.code ∉ Text.ofNat n := by
  intro h
  exact absurd (Text.isDigit_of_mem_ofNat h) (by decide)

theorem splitLast?_numbered {s : Text} {k : Nat} (hk : 0 < k) :
    splitLast? '-'.code (numbered s k) = some (s, Text.ofNat k) := by
  rw [numbered, if_neg (Nat.ne_of_gt hk)]
  exact splitLast?_append_cons (hyphen_not_mem_ofNat k) s

/-- What stands behind the last hyphen tells the number, and what stands before it the slug. -/
theorem numbered_injective {s t : Text} {j k : Nat} (hj : 0 < j) (hk : 0 < k)
    (h : numbered s j = numbered t k) : s = t ∧ j = k := by
  have hparts := splitLast?_numbered (s := s) hj
  rw [h, splitLast?_numbered hk] at hparts
  obtain ⟨hslug, hnumber⟩ := Prod.mk.inj (Option.some.inj hparts)
  exact ⟨hslug.symm, Text.ofNat_injective hnumber.symm⟩

theorem numbered_ne {s : Text} {j k : Nat} (h : j ≠ k) : numbered s j ≠ numbered s k := by
  have hlonger : ∀ n, 0 < n → s ≠ numbered s n := by
    intro n hn he
    have hlength := congrArg List.length he
    rw [numbered, if_neg (Nat.ne_of_gt hn), List.length_append, List.length_cons] at hlength
    omega
  intro he
  rcases Nat.eq_zero_or_pos j with rfl | hj
  · exact hlonger k (Nat.pos_of_ne_zero h.symm) he
  · rcases Nat.eq_zero_or_pos k with rfl | hk
    · exact hlonger j hj he.symm
    · exact h (numbered_injective hj hk he).2

theorem count_register (r : AnchorRegistry) (s t : Text) :
    (r.register s).count t = r.count t + if s = t then 1 else 0 := by
  by_cases h : s = t
  · simp [register, count, h]
  · have hne : (t == s) = false := beq_false_of_ne (Ne.symm h)
    have hkept : (r.counts.filter fun e => e.1 != s).lookup t = r.counts.lookup t := by
      induction r.counts with
      | nil => rfl
      | cons e rest ih =>
        obtain ⟨a, n⟩ := e
        by_cases ha : a = s
        · rw [List.filter_cons_of_neg (by simp [ha]), ih, List.lookup_cons, ha, hne]
        · rw [List.filter_cons_of_pos (by simp [ha]), List.lookup_cons, List.lookup_cons, ih]
    rw [register, count, List.lookup_cons, hne, hkept, if_neg h, Nat.add_zero]
    rfl

theorem count_next (r : AnchorRegistry) (heading s : Text) :
    (r.next heading).2.count s = r.count s + if slug heading = s then 1 else 0 :=
  count_register r (slug heading) s

/-- The registry has been given these slugs, in whatever order. -/
def Counts (r : AnchorRegistry) (slugs : List Text) : Prop := ∀ s, r.count s = slugs.count s

theorem counts_empty : empty.Counts [] := fun _ => rfl

theorem Counts.next {r : AnchorRegistry} {slugs : List Text} (h : r.Counts slugs)
    (heading : Text) : (r.next heading).2.Counts (slugs ++ [slug heading]) := by
  intro s
  rw [count_next, h s, List.count_append, List.count_singleton]
  simp only [beq_iff_eq]

theorem Counts.anchorsFrom {r : AnchorRegistry} {slugs : List Text} (h : r.Counts slugs)
    (headings : List Text) :
    r.anchorsFrom headings =
      (occurrencesAfter slugs (headings.map slug)).map fun e => numbered e.1 e.2 := by
  induction headings generalizing r slugs with
  | nil => rfl
  | cons heading headings ih =>
    have hown : (r.next heading).1 = numbered (slug heading) (slugs.count (slug heading)) := by
      rw [← h (slug heading)]
      rfl
    rw [anchorsFrom_cons, ih (h.next heading), hown]
    rfl

theorem count_skip (r : AnchorRegistry) (headings : List Text) (s : Text) :
    (r.skip headings).count s = r.count s + (headings.map slug).count s := by
  induction headings generalizing r with
  | nil => rfl
  | cons heading headings ih =>
    change ((r.next heading).2.skip headings).count s = _
    rw [ih, count_next, List.map_cons, List.count_cons]
    simp only [beq_iff_eq]
    omega

theorem count_le_skip (r : AnchorRegistry) (headings : List Text) (s : Text) :
    r.count s ≤ (r.skip headings).count s :=
  count_skip r headings s ▸ Nat.le_add_right _ _

end AnchorRegistry

open AnchorRegistry

/-- No slug is one that comes up more often with one of the numbers it is given. -/
def Unambiguous (slugs : List Text) : Prop :=
  ∀ s k, 0 < k → k < slugs.count s → numbered s k ∉ slugs

theorem anchors_eq (headings : List Text) :
    anchors headings =
      (occurrencesAfter [] (headings.map slug)).map fun e => numbered e.1 e.2 :=
  counts_empty.anchorsFrom headings

theorem anchors_nodup_iff (headings : List Text) :
    (anchors headings).Nodup ↔ Unambiguous (headings.map slug) := by
  rw [anchors_eq, List.nodup_map_iff_inj_on (occurrencesAfter_nodup _ _)]
  have hmem : ∀ s k, (s, k) ∈ occurrencesAfter [] (headings.map slug) ↔
      k < (headings.map slug).count s := by
    intro s k
    rw [mem_occurrencesAfter]
    simp
  constructor
  · intro hinj s k hk hcount hslug
    have hfirst := (hmem (numbered s k) 0).mpr (List.count_pos_iff.mpr hslug)
    have heq := hinj _ ((hmem s k).mpr hcount) _ hfirst rfl
    exact absurd (congrArg Prod.snd heq) (Nat.ne_of_gt hk)
  · rintro hclear ⟨s, j⟩ hj ⟨t, k⟩ hk heq
    have hj := (hmem s j).mp hj
    have hk := (hmem t k).mp hk
    have hs : s ∈ headings.map slug := List.count_pos_iff.mp (Nat.zero_lt_of_lt hj)
    have ht : t ∈ headings.map slug := List.count_pos_iff.mp (Nat.zero_lt_of_lt hk)
    rcases Nat.eq_zero_or_pos j with rfl | hjpos
    · rcases Nat.eq_zero_or_pos k with rfl | hkpos
      · exact congrArg (·, 0) heq
      · have hsame : s = numbered t k := heq
        exact absurd (hsame ▸ hs) (hclear t k hkpos hk)
    · rcases Nat.eq_zero_or_pos k with rfl | hkpos
      · have hsame : numbered s j = t := heq
        exact absurd (hsame ▸ ht) (hclear s j hjpos hj)
      · obtain ⟨rfl, rfl⟩ := numbered_injective hjpos hkpos heq
        rfl

/-- The headings a registry is given while the views of some methods are made. -/
def headingsOfCall (preceding : List Text) (methods : List Method) : List Text :=
  preceding ++ (methods.filter Method.valid).flatMap Method.headings

theorem anchorsFrom_headings (r : AnchorRegistry) (m : Method) (rest : List Text) :
    ∃ others, r.anchorsFrom (m.headings ++ rest) =
      (r.next m.name).1 :: (others ++ (r.skip m.headings).anchorsFrom rest) :=
  ⟨_, anchorsFrom_append r m.headings rest⟩

theorem methodViewsFrom_drawn (r : AnchorRegistry) (methods : List Method) :
    ((methodViewsFrom r methods).filterMap MethodView.anchor).Sublist
      (r.anchorsFrom ((methods.filter Method.valid).flatMap Method.headings)) := by
  induction methods generalizing r with
  | nil => exact .slnil
  | cons m rest ih =>
    by_cases hm : m.valid = true
    · obtain ⟨others, hothers⟩ :=
        anchorsFrom_headings r m ((rest.filter Method.valid).flatMap Method.headings)
      rw [methodViewsFrom_of_valid hm, List.filter_cons_of_pos hm, List.flatMap_cons, hothers]
      exact ((ih _).trans (List.sublist_append_right others _)).cons_cons _
    · rw [methodViewsFrom, if_neg hm, List.filter_cons_of_neg hm]
      exact ih r

theorem methodViews_drawn (preceding : List Text) (methods : List Method) :
    ((methodViews preceding methods).filterMap MethodView.anchor).Sublist
      (anchors (headingsOfCall preceding methods)) := by
  rw [headingsOfCall, anchors, anchorsFrom_append]
  exact (methodViewsFrom_drawn _ methods).trans (List.sublist_append_right _ _)

theorem anchor_of_mem_methodViewsFrom {r : AnchorRegistry} {methods : List Method}
    {v : MethodView} {anchor : Text} (hv : v ∈ methodViewsFrom r methods)
    (ha : v.anchor = some anchor) :
    ∃ k, r.count (slug v.method.name) ≤ k ∧ anchor = numbered (slug v.method.name) k := by
  induction methods generalizing r with
  | nil => simp [methodViewsFrom] at hv
  | cons m rest ih =>
    by_cases hm : m.valid = true
    · rw [methodViewsFrom_of_valid hm] at hv
      rcases List.mem_cons.mp hv with rfl | hv
      · exact ⟨_, Nat.le_refl _, (Option.some.inj ha).symm⟩
      · obtain ⟨k, hk, heq⟩ := ih hv
        exact ⟨k, Nat.le_trans (count_le_skip r m.headings _) hk, heq⟩
    · rw [methodViewsFrom, if_neg hm] at hv
      rcases List.mem_cons.mp hv with rfl | hv
      · cases ha
      · exact ih hv

def MethodView.SameAnchor (v u : MethodView) : Prop := v.anchor.isSome ∧ v.anchor = u.anchor

theorem methodViewsFrom_pairwise (r : AnchorRegistry) (methods : List Method) :
    (methodViewsFrom r methods).Pairwise fun v u =>
      v.SameAnchor u → slug v.method.name ≠ slug u.method.name := by
  induction methods generalizing r with
  | nil => exact .nil
  | cons m rest ih =>
    by_cases hm : m.valid = true
    · rw [methodViewsFrom_of_valid hm]
      refine List.pairwise_cons.mpr ⟨?_, ih _⟩
      rintro u hu ⟨-, hsame⟩ hslug
      obtain ⟨k, hk, heq⟩ := anchor_of_mem_methodViewsFrom hu hsame.symm
      have hstep : r.count (slug m.name) < (r.skip m.headings).count (slug m.name) := by
        have hnext := count_next r m.name (slug m.name)
        rw [if_pos rfl] at hnext
        have hskip := count_le_skip (r.next m.name).2 m.headings.tail (slug m.name)
        exact Nat.lt_of_lt_of_le (hnext ▸ Nat.lt_succ_self _) hskip
      change slug m.name = slug u.method.name at hslug
      rw [← hslug] at hk heq
      exact numbered_ne (Nat.ne_of_lt (Nat.lt_of_lt_of_le hstep hk)) heq
    · rw [methodViewsFrom, if_neg hm]
      refine List.pairwise_cons.mpr ⟨?_, ih r⟩
      rintro u - ⟨hsome, -⟩
      exact absurd hsome Bool.false_ne_true

theorem unambiguous_of_plain {slugs : List Text} (h : ∀ s ∈ slugs, '-'.code ∉ s) :
    Unambiguous slugs := by
  intro s k hk _ hmem
  apply h _ hmem
  rw [numbered, if_neg (Nat.ne_of_gt hk)]
  exact List.mem_append_right s List.mem_cons_self

/-- What the anchors are worth that a registry hands out while views are made. -/
structure AnchorsOfCall (preceding : List Text) (methods : List Method) : Prop where
  /-- The anchors in the views are among them, each at a place of its own. -/
  drawn : ((methodViews preceding methods).filterMap MethodView.anchor).Sublist
    (anchors (headingsOfCall preceding methods))
  distinct_iff : (anchors (headingsOfCall preceding methods)).Nodup ↔
    Unambiguous ((headingsOfCall preceding methods).map slug)
  distinct_of_plain : (∀ heading ∈ headingsOfCall preceding methods, '-'.code ∉ slug heading) →
    (anchors (headingsOfCall preceding methods)).Nodup
  /-- Methods of one name have different anchors whatever else is on the page. -/
  overloads : (methodViews preceding methods).Pairwise fun v u =>
    v.SameAnchor u → slug v.method.name ≠ slug u.method.name

/-- The anchors are distinct exactly if no slug is a repeated one with one of its numbers. -/
theorem method_anchors_distinct_iff (preceding : List Text) (methods : List Method) :
    AnchorsOfCall preceding methods where
  drawn := methodViews_drawn preceding methods
  distinct_iff := anchors_nodup_iff _
  distinct_of_plain hplain := by
    refine (anchors_nodup_iff _).mpr (unambiguous_of_plain ?_)
    intro s hs
    obtain ⟨heading, hheading, rfl⟩ := List.mem_map.mp hs
    exact hplain heading hheading
  overloads := methodViewsFrom_pairwise _ methods

namespace Sample

def runs : List Method :=
  [{ name := "run".text }, { name := "run".text, parameters := [⟨['n'.code], "int".text, []⟩] },
   { name := "run 1".text }]

end Sample

/-- The second overload and the method after it are linked to one anchor. -/
theorem sample_anchors_meet :
    (∀ m ∈ Sample.runs, m.valid = true) ∧
      (methodViews [] Sample.runs).map MethodView.anchor =
        [some "run".text, some "run-1".text, some "run-1".text] ∧
      ¬(anchors (headingsOfCall [] Sample.runs)).Nodup := by
  decide +kernel

end ApiPages

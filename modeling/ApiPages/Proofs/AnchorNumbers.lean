import ApiPages.Proofs.Numbering

/-!
The number in an anchor, position by position. It says how often the slug came up before, and it is
left out the first time. So two positions get one anchor only where a slug that comes up for the
first time reads like another slug with its number.
-/
namespace ApiPages

open AnchorRegistry

theorem getElem?_occurrencesAfter {earlier slugs : List Text} {i : Nat} {s : Text}
    (h : slugs[i]? = some s) :
    (occurrencesAfter earlier slugs)[i]? = some (s, (earlier ++ slugs.take i).count s) := by
  induction slugs generalizing earlier i with
  | nil => simp at h
  | cons t rest ih =>
    cases i with
    | zero =>
      cases h
      simp [occurrencesAfter]
    | succ i =>
      rw [List.getElem?_cons_succ] at h
      rw [occurrencesAfter, List.getElem?_cons_succ, ih h]
      simp

theorem length_anchors (headings : List Text) : (anchors headings).length = headings.length :=
  length_anchorsFrom _ _

section Positions

variable (headings : List Text)

def slugAt (i : Fin headings.length) : Text := slug headings[i]

/-- How many headings before a position have the slug that comes up there. -/
def earlierAt (i : Fin headings.length) : Nat :=
  ((headings.take i).map slug).count (slugAt headings i)

def anchorAt (i : Fin headings.length) : Text :=
  (anchors headings).get (i.cast (length_anchors headings).symm)

theorem occurrence_at (i : Fin headings.length) :
    (occurrencesAfter [] (headings.map slug))[i.val]? =
      some (slugAt headings i, earlierAt headings i) := by
  have hslug : (headings.map slug)[i.val]? = some (slugAt headings i) := by
    rw [List.getElem?_map, List.getElem?_eq_getElem i.isLt]
    rfl
  rw [getElem?_occurrencesAfter hslug, List.nil_append, ← List.map_take]
  rfl

theorem anchorAt_eq (i : Fin headings.length) :
    anchorAt headings i = numbered (slugAt headings i) (earlierAt headings i) := by
  have hanchor : (anchors headings)[i.val]? = some (anchorAt headings i) :=
    List.getElem?_eq_getElem _
  rw [anchors_eq, List.getElem?_map, occurrence_at] at hanchor
  exact (Option.some.inj hanchor).symm

theorem occurrence_injective {i j : Fin headings.length}
    (hslug : slugAt headings i = slugAt headings j)
    (hearlier : earlierAt headings i = earlierAt headings j) : i = j := by
  have hlength : i.val < (occurrencesAfter [] (headings.map slug)).length :=
    (List.getElem?_eq_some_iff.mp (occurrence_at headings i)).1
  apply Fin.ext
  apply (List.getElem?_inj hlength (occurrencesAfter_nodup _ _)).mp
  rw [occurrence_at, occurrence_at, hslug, hearlier]

/-- A slug that comes up for the first time reads like another slug with its number. -/
structure ReadsLike (i j : Fin headings.length) : Prop where
  slugs : slugAt headings i ≠ slugAt headings j
  first : earlierAt headings i = 0
  later : 0 < earlierAt headings j
  text : slugAt headings i = slugAt headings j ++ '-'.code :: Text.ofNat (earlierAt headings j)

variable {headings} in
theorem ReadsLike.anchors {i j : Fin headings.length} (h : ReadsLike headings i j) :
    anchorAt headings i = anchorAt headings j := by
  rw [anchorAt_eq, anchorAt_eq, h.first, numbered, if_pos rfl, numbered,
    if_neg (Nat.ne_of_gt h.later), h.text]

theorem anchorAt_ne_of_slugAt_eq {i j : Fin headings.length} (hij : i ≠ j)
    (h : slugAt headings i = slugAt headings j) : anchorAt headings i ≠ anchorAt headings j := by
  rw [anchorAt_eq, anchorAt_eq, h]
  exact numbered_ne (mt (occurrence_injective headings h) hij)

theorem anchorAt_ne_of_later {i j : Fin headings.length} (hij : i ≠ j)
    (hi : 0 < earlierAt headings i) (hj : 0 < earlierAt headings j) :
    anchorAt headings i ≠ anchorAt headings j := by
  rw [anchorAt_eq, anchorAt_eq]
  intro h
  obtain ⟨hslug, hearlier⟩ := numbered_injective hi hj h
  exact hij (occurrence_injective headings hslug hearlier)

theorem readsLike_of_anchorAt_eq {i j : Fin headings.length}
    (hslugs : slugAt headings i ≠ slugAt headings j) (hi : earlierAt headings i = 0)
    (hj : 0 < earlierAt headings j) (h : anchorAt headings i = anchorAt headings j) :
    ReadsLike headings i j where
  slugs := hslugs
  first := hi
  later := hj
  text := by
    rwa [anchorAt_eq, anchorAt_eq, hi, numbered, if_pos rfl, numbered,
      if_neg (Nat.ne_of_gt hj)] at h

theorem anchorAt_eq_iff {i j : Fin headings.length} (hij : i ≠ j) :
    anchorAt headings i = anchorAt headings j ↔
      ReadsLike headings i j ∨ ReadsLike headings j i := by
  constructor
  · intro h
    have hslugs : slugAt headings i ≠ slugAt headings j := fun hslug =>
      anchorAt_ne_of_slugAt_eq headings hij hslug h
    rcases Nat.eq_zero_or_pos (earlierAt headings i) with hi | hi
    · rcases Nat.eq_zero_or_pos (earlierAt headings j) with hj | hj
      · rw [anchorAt_eq, anchorAt_eq, hi, hj] at h
        exact absurd h hslugs
      · exact .inl (readsLike_of_anchorAt_eq headings hslugs hi hj h)
    · rcases Nat.eq_zero_or_pos (earlierAt headings j) with hj | hj
      · exact .inr (readsLike_of_anchorAt_eq headings hslugs.symm hj hi h.symm)
      · exact absurd h (anchorAt_ne_of_later headings hij hi hj)
  · rintro (h | h)
    · exact h.anchors
    · exact h.anchors.symm

/-- How a fresh registry numbers the headings that it is given. -/
structure Numbering : Prop where
  one_each : (anchors headings).length = headings.length
  first : ∀ i, (∀ j < i, slugAt headings j ≠ slugAt headings i) →
    anchorAt headings i = slugAt headings i
  later : ∀ i, (∃ j < i, slugAt headings j = slugAt headings i) → 0 < earlierAt headings i ∧
    anchorAt headings i = slugAt headings i ++ '-'.code :: Text.ofNat (earlierAt headings i)
  meet_iff : ∀ i j, i ≠ j → (anchorAt headings i = anchorAt headings j ↔
    ReadsLike headings i j ∨ ReadsLike headings j i)
  same_slug_apart : ∀ i j, i ≠ j → slugAt headings i = slugAt headings j →
    anchorAt headings i ≠ anchorAt headings j
  numbers_apart : ∀ i j, i ≠ j → 0 < earlierAt headings i → 0 < earlierAt headings j →
    anchorAt headings i ≠ anchorAt headings j

theorem earlierAt_eq_zero_iff (i : Fin headings.length) :
    earlierAt headings i = 0 ↔ ∀ j < i, slugAt headings j ≠ slugAt headings i := by
  rw [earlierAt, List.count_eq_zero]
  constructor
  · intro h j hj hslug
    apply h
    rw [← hslug]
    exact List.mem_map_of_mem (List.mem_take_iff_getElem.mpr ⟨j, by omega, rfl⟩)
  · intro h hmem
    obtain ⟨heading, hheading, hslug⟩ := List.mem_map.mp hmem
    obtain ⟨j, hj, rfl⟩ := List.mem_take_iff_getElem.mp hheading
    exact h ⟨j, by omega⟩ (Fin.lt_def.mpr (by simp only; omega)) hslug

/-- Anchors are numbered by what came before, and they meet exactly where a slug reads like another
one with its number. -/
theorem anchor_numbering_law : Numbering headings where
  one_each := length_anchors headings
  first i h := by
    rw [anchorAt_eq, (earlierAt_eq_zero_iff headings i).mpr h, numbered, if_pos rfl]
  later i h := by
    obtain ⟨j, hj, hslug⟩ := h
    have hpos : 0 < earlierAt headings i := by
      apply Nat.pos_of_ne_zero
      intro hzero
      exact (earlierAt_eq_zero_iff headings i).mp hzero j hj hslug
    refine ⟨hpos, ?_⟩
    rw [anchorAt_eq, numbered, if_neg (Nat.ne_of_gt hpos)]
  meet_iff _ _ := anchorAt_eq_iff headings
  same_slug_apart _ _ := anchorAt_ne_of_slugAt_eq headings
  numbers_apart _ _ := anchorAt_ne_of_later headings

end Positions

/-- The third heading reads like the second `run`. -/
example : anchors ["run".text, "Run!".text, "run 1".text, "run".text] =
    ["run".text, "run-1".text, "run-1".text, "run-2".text] := by decide +kernel

end ApiPages

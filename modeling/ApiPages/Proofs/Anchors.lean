import Mathlib.Data.List.Basic
import ApiPages.Member.MethodView

/-!
Anchors of headings that follow one another. The anchor of a heading is decided by the headings
before it, and it stands in a link as it is: a slug keeps word characters and hyphens alone.
-/
namespace ApiPages

namespace AnchorRegistry

theorem anchorsFrom_cons (r : AnchorRegistry) (heading : Text) (rest : List Text) :
    r.anchorsFrom (heading :: rest) = (r.next heading).1 :: (r.next heading).2.anchorsFrom rest :=
  rfl

theorem anchorsFrom_append (r : AnchorRegistry) (before after : List Text) :
    r.anchorsFrom (before ++ after) =
      r.anchorsFrom before ++ (r.skip before).anchorsFrom after := by
  induction before generalizing r with
  | nil => rfl
  | cons heading before ih =>
    rw [List.cons_append, anchorsFrom_cons, anchorsFrom_cons, List.cons_append, ih]
    rfl

theorem length_anchorsFrom (r : AnchorRegistry) (headings : List Text) :
    (r.anchorsFrom headings).length = headings.length := by
  induction headings generalizing r with
  | nil => rfl
  | cons heading headings ih => rw [anchorsFrom_cons, List.length_cons, List.length_cons, ih]

end AnchorRegistry

def AnchorText (t : Text) : Prop := ∀ c ∈ t, Text.isWordCharacter c = true ∨ c = '-'.code

theorem anchorText_append {s t : Text} (hs : AnchorText s) (ht : AnchorText t) :
    AnchorText (s ++ t) := by
  intro c hc
  rcases List.mem_append.mp hc with hc | hc
  · exact hs c hc
  · exact ht c hc

theorem anchorText_ofNat (n : Nat) : AnchorText (Text.ofNat n) := by
  intro c hc
  have hdigit : c.isDigit = true := Text.isDigit_of_mem_ofNat hc
  exact .inl (Text.isWordCharacter_of_isAlphanum (by simp [CodePoint.isAlphanum, hdigit]))

theorem slug_ne_nil (heading : Text) : slug heading ≠ [] := by
  simp only [slug]
  split
  · decide
  · rename_i h
    exact fun hnil => h (List.isEmpty_iff.mpr hnil)

theorem slug_anchorText (heading : Text) : AnchorText (slug heading) := by
  have hempty : emptySlug.all Text.isWordCharacter = true := by decide +kernel
  intro c hc
  simp only [slug] at hc
  split at hc
  · exact .inl (List.all_eq_true.mp hempty c hc)
  · obtain ⟨d, hd, rfl⟩ := List.mem_map.mp hc
    have hkept := (List.mem_filter.mp hd).2
    simp only [keptInSlug, Bool.or_eq_true, beq_iff_eq] at hkept
    by_cases hspace : d = ' '.code
    · exact .inr (if_pos hspace)
    · rw [if_neg hspace]
      rcases hkept with (hword | hhyphen) | hblank
      · exact .inl hword
      · exact .inr hhyphen
      · exact absurd hblank hspace

namespace AnchorRegistry

theorem numbered_ne_nil (heading : Text) (k : Nat) : numbered (slug heading) k ≠ [] := by
  have hslug := slug_ne_nil heading
  unfold numbered
  split
  · exact hslug
  · exact List.append_ne_nil_of_left_ne_nil hslug _

theorem numbered_anchorText (heading : Text) (k : Nat) :
    AnchorText (numbered (slug heading) k) := by
  have hslug := slug_anchorText heading
  unfold numbered
  split
  · exact hslug
  · refine anchorText_append hslug (anchorText_append (s := ['-'.code]) ?_ (anchorText_ofNat _))
    intro c hc
    exact .inr (List.mem_singleton.mp hc)

theorem next_ne_nil (r : AnchorRegistry) (heading : Text) : (r.next heading).1 ≠ [] :=
  numbered_ne_nil heading _

theorem next_anchorText (r : AnchorRegistry) (heading : Text) : AnchorText (r.next heading).1 :=
  numbered_anchorText heading _

end AnchorRegistry

theorem AnchorText.escapeTarget {anchor : Text} (h : AnchorText anchor) :
    Markdown.escapeTarget ('#'.code :: anchor) = '#'.code :: anchor := by
  have hspace : ¬(Text.isWordCharacter ' '.code = true ∨ ' '.code = '-'.code) := by decide +kernel
  have hopen : ¬(Text.isWordCharacter '('.code = true ∨ '('.code = '-'.code) := by decide +kernel
  have hclose : ¬(Text.isWordCharacter ')'.code = true ∨ ')'.code = '-'.code) := by decide +kernel
  have hkept : ∀ c ∈ anchor, Markdown.escapeTargetChar c = [c] := by
    intro c hc
    have hkeep := h c hc
    have hs : c ≠ ' '.code := fun he => hspace (he ▸ hkeep)
    have ho : c ≠ '('.code := fun he => hopen (he ▸ hkeep)
    have hc : c ≠ ')'.code := fun he => hclose (he ▸ hkeep)
    rw [Markdown.escapeTargetChar, if_neg hs, if_neg ho, if_neg hc]
  have hanchor : anchor.flatMap Markdown.escapeTargetChar = anchor := by
    rw [List.flatMap_congr hkept, List.flatMap_singleton']
  change '#'.code :: anchor.flatMap Markdown.escapeTargetChar = '#'.code :: anchor
  rw [hanchor]

theorem MethodView.label_eq_linkTo {v : MethodView} {anchor : Text} (hv : v.anchor = some anchor)
    (hne : anchor ≠ []) (h : AnchorText anchor) :
    v.label = Markdown.linkTo v.method.name ('#'.code :: anchor) := by
  cases anchor with
  | nil => exact absurd rfl hne
  | cons c rest =>
    rw [MethodView.label, hv]
    change Markdown.linkTo v.method.name (Markdown.escapeTarget ('#'.code :: c :: rest)) = _
    rw [h.escapeTarget]

end ApiPages

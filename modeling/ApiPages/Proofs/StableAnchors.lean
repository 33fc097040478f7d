import ApiPages.Proofs.Blank
import ApiPages.Proofs.LowerCase
import ApiPages.Proofs.Numbering

/-!
Anchors are stable. The anchor of a heading, with or without a number, holds nothing that trimming,
lower case or the slug's choice of characters would change, so it is its own slug; and nothing in it
is escaped in a link. Every well-formed method has such a link in its row.
-/
namespace ApiPages

namespace Text

theorem blankRanges_not_word : ∀ r ∈ blankRanges, ∀ n ∈ List.range' r.1 (r.2 + 1 - r.1),
    inRanges wordRanges n = false := by
  decide +kernel

theorem not_isBlank_of_isWordCharacter {c : CodePoint} (h : isWordCharacter c = true) :
    isBlank c = false := by
  by_contra hblank
  rw [Bool.not_eq_false] at hblank
  obtain ⟨r, hr, hfirst, hlast⟩ := exists_range_of_inRanges hblank
  have hmem : c.toNat ∈ List.range' r.1 (r.2 + 1 - r.1) := by
    rw [List.mem_range'_1]
    omega
  rw [isWordCharacter, blankRanges_not_word r hr _ hmem] at h
  exact Bool.noConfusion h

theorem isLower_of_isDigit {c : CodePoint} (h : c.isDigit = true) : IsLower c := by
  have table : ∀ n < 58, IsLower (CodePoint.ofNat n) := by decide +kernel
  have hn : c.toNat < 58 := by
    rw [CodePoint.isDigit, Bool.and_eq_true, decide_eq_true_eq, decide_eq_true_eq] at h
    exact Nat.lt_succ_of_le h.2
  have hlower := table c.toNat hn
  rwa [CodePoint.ofNat_toNat] at hlower

end Text

open Text

theorem AnchorText.not_isBlank {t : Text} (h : AnchorText t) {c : CodePoint} (hc : c ∈ t) :
    isBlank c = false := by
  rcases h c hc with hword | rfl
  · exact not_isBlank_of_isWordCharacter hword
  · decide

theorem slug_of_anchorText {t : Text} (hne : t ≠ []) (h : AnchorText t)
    (hlower : ∀ c ∈ t, IsLower c) : slug t = t := by
  have hkept : t.filter keptInSlug = t := by
    rw [List.filter_eq_self]
    intro c hc
    rcases h c hc with hword | hhyphen
    · simp [keptInSlug, hword]
    · simp [keptInSlug, hhyphen]
  have hspace : isBlank ' '.code = true := by decide
  have hhyphened : t.map (fun c => if c = ' '.code then '-'.code else c) = t := by
    rw [List.map_congr_left (g := id), List.map_id]
    intro c hc
    rw [if_neg, id]
    rintro rfl
    rw [h.not_isBlank hc] at hspace
    exact Bool.noConfusion hspace
  have hnonempty : ¬t.isEmpty = true := mt List.isEmpty_iff.mp hne
  rw [slug, trim_of_not_isBlank fun c => h.not_isBlank, lower_of_isLower hlower, hkept]
  simp only [hhyphened, if_neg hnonempty]

theorem isLower_hyphen : IsLower '-'.code := by decide +kernel

theorem isLower_of_mem_slug {heading : Text} {c : CodePoint} (hc : c ∈ slug heading) :
    IsLower c := by
  have hempty : emptySlug.all (fun d => decide (IsLower d)) = true := by decide +kernel
  simp only [slug] at hc
  split at hc
  · exact of_decide_eq_true (List.all_eq_true.mp hempty c hc)
  · obtain ⟨d, hd, rfl⟩ := List.mem_map.mp hc
    split
    · exact isLower_hyphen
    · exact isLower_of_mem_lower (List.mem_filter.mp hd).1

theorem mem_numbered {s : Text} {k : Nat} {c : CodePoint} (hc : c ∈ AnchorRegistry.numbered s k) :
    c ∈ s ∨ c = '-'.code ∨ c.isDigit = true := by
  rw [AnchorRegistry.numbered] at hc
  split at hc
  · exact .inl hc
  · rcases List.mem_append.mp hc with hc | hc
    · exact .inl hc
    · rcases List.mem_cons.mp hc with hc | hc
      · exact .inr (.inl hc)
      · exact .inr (.inr (Text.isDigit_of_mem_ofNat hc))

/-- An anchor that may stand in a link and be taken for a heading without a change. -/
structure StableAnchor (anchor : Text) : Prop where
  ne_nil : anchor ≠ []
  characters : ∀ c ∈ anchor, isWordCharacter c = true ∨ c = '-'.code
  own_slug : slug anchor = anchor
  link : ∀ label, Markdown.link label ('#'.code :: anchor) =
    '['.code :: Markdown.escapeLabel label ++ "](#".text ++ anchor ++ [')'.code]

theorem stableAnchor_numbered (heading : Text) (k : Nat) :
    StableAnchor (AnchorRegistry.numbered (slug heading) k) := by
  have hne := AnchorRegistry.numbered_ne_nil heading k
  have hcharacters := AnchorRegistry.numbered_anchorText heading k
  refine ⟨hne, hcharacters, slug_of_anchorText hne hcharacters ?_, ?_⟩
  · intro c hc
    rcases mem_numbered hc with hc | rfl | hc
    · exact isLower_of_mem_slug hc
    · exact isLower_hyphen
    · exact isLower_of_isDigit hc
  · intro label
    rw [Markdown.link, hcharacters.escapeTarget, Markdown.linkTo]
    simp

theorem stableAnchor_of_mem_anchors {headings : List Text} {anchor : Text}
    (h : anchor ∈ anchors headings) : StableAnchor anchor := by
  rw [anchors_eq] at h
  obtain ⟨⟨s, k⟩, hmem, rfl⟩ := List.mem_map.mp h
  have hcount := (mem_occurrencesAfter.mp hmem).2
  have hslug : s ∈ headings.map slug := by
    rw [List.count_nil, Nat.zero_add] at hcount
    exact List.count_pos_iff.mp (Nat.zero_lt_of_lt hcount)
  obtain ⟨heading, -, rfl⟩ := List.mem_map.mp hslug
  exact stableAnchor_numbered heading k

theorem exists_anchor_of_valid {r : AnchorRegistry} {methods : List Method} {v : MethodView}
    (hv : v ∈ methodViewsFrom r methods) (hvalid : v.method.valid = true) :
    ∃ anchor, v.anchor = some anchor := by
  induction methods generalizing r with
  | nil => simp [methodViewsFrom] at hv
  | cons m rest ih =>
    by_cases hm : m.valid = true
    · rw [methodViewsFrom_of_valid hm] at hv
      rcases List.mem_cons.mp hv with rfl | hv
      · exact ⟨_, rfl⟩
      · exact ih hv
    · rw [methodViewsFrom, if_neg hm] at hv
      rcases List.mem_cons.mp hv with rfl | hv
      · exact absurd hvalid hm
      · exact ih hv

/-- The row of a method links to the anchor, with nothing of the anchor escaped. -/
structure LinkedRow (v : MethodView) (anchor : Text) : Prop where
  target : v.anchor = some anchor
  row : v.summaryRow = .ok [Markdown.code (typeLabel v.method.isStatic v.method.returnType),
    '['.code :: Markdown.escapeLabel v.method.name ++ "](#".text ++ anchor ++ [')'.code] ++
      Markdown.code v.method.flatParameters,
    Markdown.firstSentence v.method.comment]

theorem linkedRow_of_stableAnchor {v : MethodView} {anchor : Text} (hvalid : v.method.valid = true)
    (hanchor : v.anchor = some anchor) (h : StableAnchor anchor) : LinkedRow v anchor where
  target := hanchor
  row := by
    rw [v.summaryRow_of_valid hvalid, MethodView.rowCells,
      MethodView.label_eq_linkTo hanchor h.ne_nil h.characters, Markdown.linkTo]
    simp

/-- Every anchor is a text of word characters and hyphens that is its own slug and stands in a link
as it is; and every well-formed method has a row with a link to such an anchor. -/
theorem anchors_are_stable (headings : List Text) (methods : List Method) :
    (∀ anchor ∈ anchors headings, StableAnchor anchor) ∧
      ∀ v ∈ methodViews headings methods, v.method.valid = true →
        ∃ anchor, StableAnchor anchor ∧ LinkedRow v anchor := by
  refine ⟨fun _ => stableAnchor_of_mem_anchors, ?_⟩
  intro v hv hvalid
  obtain ⟨anchor, hanchor⟩ := exists_anchor_of_valid hv hvalid
  obtain ⟨k, -, hnumbered⟩ := anchor_of_mem_methodViewsFrom hv hanchor
  have hstable : StableAnchor anchor := hnumbered ▸ stableAnchor_numbered v.method.name k
  exact ⟨anchor, hstable, linkedRow_of_stableAnchor hvalid hanchor hstable⟩

namespace Sample

/-- A final sigma, a dotted capital I, blanks inside and around, and punctuation alone. -/
def headings : List Text :=
  ["\u039f\u0394\u039f\u03a3".text, "\u0130x".text, " A\u2028 b ".text, "?!".text,
    "\u03bf\u03b4\u03bf\u03c2".text]

end Sample

theorem sample_anchors_stable :
    anchors Sample.headings = ["\u03bf\u03b4\u03bf\u03c2".text, "ix".text, "a-b".text,
        "section".text, "\u03bf\u03b4\u03bf\u03c2-1".text] ∧
      StableAnchor "\u03bf\u03b4\u03bf\u03c2-1".text ∧
      ∃ v ∈ methodViews Sample.headings Sample.runs, v.method.valid = true ∧
        ∃ anchor, StableAnchor anchor ∧ LinkedRow v anchor := by
  have hanchors : anchors Sample.headings = ["\u03bf\u03b4\u03bf\u03c2".text, "ix".text,
      "a-b".text, "section".text, "\u03bf\u03b4\u03bf\u03c2-1".text] := by decide +kernel
  have hviews : methodViews Sample.headings Sample.runs ≠ [] := by decide +kernel
  have hvalid : ∀ v ∈ methodViews Sample.headings Sample.runs, v.method.valid = true := by
    decide +kernel
  obtain ⟨hstable, hrows⟩ := anchors_are_stable Sample.headings Sample.runs
  obtain ⟨v, hv⟩ := List.exists_mem_of_ne_nil _ hviews
  exact ⟨hanchors, hstable _ (by simp [hanchors]), v, hv, hvalid v hv, hrows v hv (hvalid v hv)⟩

end ApiPages

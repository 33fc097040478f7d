import ApiPages.Proofs.PageHeadings
import ApiPages.Proofs.StableAnchors

/-!
Headings in the comment of a type. A reader counts them with all others of the page, and they come
before those of the methods; but the links of the summary are made without them. So a link misses
the heading of its method exactly if the comment has a heading with the method's slug, and then it
is short by as many as there are.
-/
namespace ApiPages

open Text

theorem slug_trim (heading : Text) : slug (trim heading) = slug heading := by
  rw [slug, slug, trim_trim]

namespace AnchorRegistry

theorem anchorsFrom_map_trim (r : AnchorRegistry) (headings : List Text) :
    r.anchorsFrom (headings.map trim) = r.anchorsFrom headings := by
  induction headings generalizing r with
  | nil => rfl
  | cons heading headings ih =>
    have hnext : r.next (trim heading) = r.next heading := by rw [next, next, slug_trim]
    rw [List.map_cons, anchorsFrom_cons, anchorsFrom_cons, hnext, ih]

theorem length_along (r : AnchorRegistry) (titles : List Title) :
    (r.along titles).length = titles.length := by
  rw [along, List.length_zip, length_anchorsFrom, List.length_map, Nat.min_self]

theorem along_map_trimmed (r : AnchorRegistry) (titles : List Title) :
    r.along (titles.map Title.trimmed) = (r.along titles).map (Prod.map Title.trimmed id) := by
  have htexts : (titles.map Title.trimmed).map Title.text = (titles.map Title.text).map trim := by
    rw [List.map_map, List.map_map]
    rfl
  rw [along, htexts, anchorsFrom_map_trim, along, List.zip_map_left]

/-- One registry has been given what the other has, and these slugs besides. -/
def Ahead (r' r : AnchorRegistry) (slugs : List Text) : Prop :=
  ∀ s, r'.count s = r.count s + slugs.count s

theorem Ahead.skip {r' r : AnchorRegistry} {slugs : List Text} (h : r'.Ahead r slugs)
    (headings : List Text) : (r'.skip headings).Ahead (r.skip headings) slugs := by
  intro s
  rw [count_skip, count_skip, h s]
  omega

end AnchorRegistry

open AnchorRegistry

/-- How a link that is made without some slugs meets the heading that it is for. -/
structure LinkedWithout (slugs : List Text) (v : MethodView) (heading : Title × Text) : Prop where
  own : heading.1 = ⟨3, trim v.method.name⟩
  /-- The heading is numbered further by as many of the slugs as are its own. -/
  numbers : ∃ k, LinkedRow v (numbered (slug v.method.name) k) ∧
    heading.2 = numbered (slug v.method.name) (k + slugs.count (slug v.method.name))
  reaches_iff : LinkedRow v heading.2 ↔ slug v.method.name ∉ slugs

theorem linkedWithout_of_ahead {r' r : AnchorRegistry} {slugs : List Text} (h : r'.Ahead r slugs)
    {m : Method} (hm : m.valid = true) :
    LinkedWithout slugs ⟨m, some (r.next m.name).1⟩ (⟨3, trim m.name⟩, (r'.next m.name).1) := by
  have hrow : LinkedRow ⟨m, some (r.next m.name).1⟩
      (numbered (slug m.name) (r.count (slug m.name))) :=
    linkedRow_of_stableAnchor hm rfl (stableAnchor_numbered m.name _)
  have hnumber : (r'.next m.name).1 =
      numbered (slug m.name) (r.count (slug m.name) + slugs.count (slug m.name)) := by
    rw [← h (slug m.name)]
    rfl
  refine ⟨rfl, ⟨_, hrow, hnumber⟩, ?_⟩
  constructor
  · intro hreached hmem
    have hanchor := Option.some.inj (hrow.target.symm.trans hreached.target)
    have hmore : 0 < slugs.count (slug m.name) := List.count_pos_iff.mpr hmem
    rw [hnumber] at hanchor
    exact numbered_ne (by omega) hanchor
  · intro hnone
    rw [hnumber, List.count_eq_zero.mpr hnone]
    exact hrow

theorem methodViewsFrom_linkedWithout {r' r : AnchorRegistry} {slugs : List Text}
    (h : r'.Ahead r slugs) (methods : List Method) :
    List.Forall₂ (LinkedWithout slugs) ((methodViewsFrom r methods).filter fun v => v.method.valid)
      (((r'.along ((methods.filter Method.valid).flatMap Method.outline)).filter
        fun e => e.1.ofMethod).map (Prod.map Title.trimmed id)) := by
  induction methods generalizing r r' with
  | nil => exact .nil
  | cons m rest ih =>
    by_cases hm : m.valid = true
    · rw [methodViewsFrom_of_valid hm, List.filter_cons, List.filter_cons, if_pos hm, if_pos hm,
        List.flatMap_cons, along_append, List.filter_append, filter_ofMethod_along,
        Method.outline_map_text]
      exact .cons (linkedWithout_of_ahead h hm) (ih (h.skip m.headings))
    · rw [methodViewsFrom, if_neg hm, List.filter_cons, List.filter_cons, if_neg hm, if_neg hm]
      exact ih h

namespace Page

variable {style : PageStyle} {here : List Text} {t : TypeEntry}

def commentSlugs (t : TypeEntry) : List Text := (titles t.comment).map fun title => slug title.text

/-- The headings of a page with their anchors, without the title and those of the comment. -/
def anchoredBelow (t : TypeEntry) (page : Text) : List (Title × Text) :=
  (AnchorRegistry.empty.along (titles page)).drop (1 + (titles t.comment).length)

/-- What a reader finds on a page, and how the rows of the summary link to it. -/
structure CommentCounts (t : TypeEntry) (page : Text) : Prop where
  headings : titles page =
    ⟨1, trim t.name⟩ :: titles t.comment ++ (outline t).tail.map Title.trimmed
  links : List.Forall₂ (LinkedWithout (commentSlugs t)) (validViews t)
    ((anchoredBelow t page).filter fun e => e.1.ofMethod)

/-- The registry that a reader has behind the title of a page and the comment. -/
def registryBelow (t : TypeEntry) : AnchorRegistry :=
  AnchorRegistry.empty.skip (trim t.name :: (titles t.comment).map Title.text)

theorem anchoredBelow_eq {page : Text}
    (h : titles page = ⟨1, trim t.name⟩ :: titles t.comment ++ (outline t).tail.map Title.trimmed) :
    anchoredBelow t page =
      ((registryBelow t).along (outline t).tail).map (Prod.map Title.trimmed id) := by
  have hlength : (AnchorRegistry.empty.along (⟨1, trim t.name⟩ :: titles t.comment)).length =
      1 + (titles t.comment).length := by
    rw [length_along, List.length_cons, Nat.add_comm]
  rw [anchoredBelow, h, along_append, List.drop_left' hlength, along_map_trimmed]
  rfl

/-- A reader is ahead of the links by the headings of the comment. -/
theorem ahead_of_comment (t : TypeEntry) :
    ((registryBelow t).skip ((sectionTitles t).map Title.text)).Ahead
      (AnchorRegistry.empty.skip (headingsBeforeMethods t)) (commentSlugs t) := by
  intro s
  rw [registryBelow, count_skip, count_skip, count_skip, headingsBeforeMethods_eq, commentSlugs]
  simp only [count_empty, List.map_cons, List.count_cons, slug_trim, List.map_map,
    Function.comp_def]
  omega

/-- The comment counts for a reader and not for the links. -/
theorem comment_headings_not_foretold (h : PlainPage style here t) {b : Body}
    (hb : body style here t = .ok b) : CommentCounts t b.lines.render where
  headings := titles_page h hb
  links := by
    have hown : ((registryBelow t).along (outline t).tail).filter (fun e => e.1.ofMethod) =
        (((registryBelow t).skip ((sectionTitles t).map Title.text)).along
          (((orderMethods t.methods).filter Method.valid).flatMap Method.outline)).filter
            fun e => e.1.ofMethod := by
      rw [outline, List.cons_append, List.tail_cons, along_append, List.filter_append,
        filter_ofMethod_sectionTitles, List.nil_append]
    have htrimmed : (fun e : Title × Text => e.1.ofMethod) ∘ Prod.map Title.trimmed id =
        fun e => e.1.ofMethod := rfl
    rw [anchoredBelow_eq (titles_page h hb), List.filter_map, htrimmed, hown]
    exact methodViewsFrom_linkedWithout (ahead_of_comment t) (orderMethods t.methods)

namespace Sample

def job : TypeEntry where
  name := "Job".text
  package := "app".text
  comment := "# Run\nStarts a job.\n~~~\n# Stop\n~~~".text
  methods := [{ name := "run".text, comment := "Runs.".text }, { name := "stop".text }]

end Sample

theorem sample_comment_heading_counts :
    ∃ b, body ({} : Context).style [] Sample.job = .ok b ∧
      PlainPage ({} : Context).style [] Sample.job ∧ CommentCounts Sample.job b.lines.render := by
  have hheader : PlainHeader ({} : Context).style [] Sample.job := by
    apply plainHeader_of_relative_package <;> decide +kernel
  have hplain : PlainPage ({} : Context).style [] Sample.job := by
    refine ⟨hheader, ?_, by decide +kernel, by decide +kernel, by decide +kernel⟩
    intro chain hchain
    cases hchain
    rfl
  have hlaid : (body ({} : Context).style [] Sample.job).isOk = true := by decide +kernel
  cases hb : body ({} : Context).style [] Sample.job with
  | error stop =>
    rw [hb] at hlaid
    exact absurd hlaid Bool.false_ne_true
  | ok b => exact ⟨b, rfl, hplain, comment_headings_not_foretold hplain hb⟩

/-- The link of `run` leads to the heading of the comment, and that of `stop` to its method. -/
theorem sample_link_misses_method :
    ∃ b ∈ (body ({} : Context).style [] Sample.job).toOption,
      "| `void` | [run](#run)`()` | Runs. |".text ∈ b.lines ∧
        "| `void` | [stop](#stop)`()` |  |".text ∈ b.lines ∧
        AnchorRegistry.empty.along (titles b.lines.render) =
          [(⟨1, "Job".text⟩, "job".text), (⟨1, "Run".text⟩, "run".text),
            (⟨2, "Summary".text⟩, "summary".text), (⟨2, "Methods".text⟩, "methods".text),
            (⟨3, "run".text⟩, "run-1".text), (⟨3, "stop".text⟩, "stop".text)] := by
  decide +kernel

end Page

end ApiPages

import ApiPages.Proofs.Anchors
import ApiPages.Proofs.CodeFence
import ApiPages.Proofs.Header
import ApiPages.Proofs.Layout

/-!
The outline of a page: its headings with their levels, told from the type alone. The links of the
summary are made before any heading is laid out, and they agree with the headings that come.
-/
namespace ApiPages

structure Title where
  level : Nat
  text : Text
  deriving DecidableEq, Repr

def Title.line (title : Title) : Text := Heading.line title.level title.text

@[simp] theorem isHeading_nil : isHeading [] = false := rfl

theorem isHeading_line (level : Nat) (t : Text) :
    isHeading (Heading.line (level + 1) t) = true := rfl

theorem filter_isHeading_tableHead (titles : List Text) :
    (Markdown.tableHead titles).filter isHeading = [] := rfl

theorem filter_isHeading_map {α : Type} {line : α → Text} (h : ∀ a, isHeading (line a) = false)
    (members : List α) : (members.map line).filter isHeading = [] := by
  rw [List.filter_eq_nil_iff]
  intro t ht
  obtain ⟨a, -, rfl⟩ := List.mem_map.mp ht
  rw [h a]
  exact Bool.false_ne_true

theorem isHeading_codeBlock (language t : Text) :
    isHeading (Markdown.codeBlock language t) = false := by
  rw [isHeading, Markdown.codeBlock, List.append_assoc, List.append_assoc, Markdown.head?_fence]
  rfl

namespace Method

def outline (m : Method) : List Title :=
  ⟨3, m.name⟩ :: ((if m.parameters.isEmpty then [] else [⟨4, Heading.parameters⟩]) ++
    (if m.returnType = voidType then [] else [⟨4, Heading.returns⟩]) ++
    (if m.throws.isEmpty then [] else [⟨4, Heading.throws⟩]))

theorem outline_map_text (m : Method) : m.outline.map Title.text = m.headings := by
  unfold outline headings
  split <;> split <;> split <;> rfl

theorem level_of_mem_outline_tail {m : Method} {title : Title} (h : title ∈ m.outline.tail) :
    title.level = 4 := by
  simp only [outline, List.tail_cons, List.mem_append] at h
  rcases h with (h | h) | h
  all_goals split at h <;> simp_all

theorem filter_isHeading_paragraph {comment : Text}
    (h : isHeading (Text.trim comment) = false) :
    (paragraph comment).filter isHeading = [] := by
  unfold paragraph
  split
  · rfl
  · simp [h]

theorem isHeading_parameterRow (p : Parameter) : isHeading (parameterRow p) = false := rfl

theorem filter_isHeading_parameterLines (m : Method) :
    m.parameterLines.filter isHeading =
      if m.parameters.isEmpty then [] else [Heading.line 4 Heading.parameters] := by
  unfold parameterLines
  split
  · rfl
  · have hrows := filter_isHeading_map isHeading_parameterRow m.parameters
    rw [List.filter_append, List.filter_append, List.filter_append, hrows,
      filter_isHeading_tableHead]
    rfl

theorem filter_isHeading_returnLines {m : Method}
    (h : isHeading (Text.trim m.returnComment) = false) :
    m.returnLines.filter isHeading =
      if m.returnType = voidType then [] else [Heading.line 4 Heading.returns] := by
  unfold returnLines
  split
  · rfl
  · rw [List.filter_append, filter_isHeading_paragraph h]
    rfl

theorem isHeading_thrownLine (t : Thrown) : isHeading (thrownLine t) = false := by
  have hdash : Text.isBlank '-'.code = false := by decide
  have hline : ∃ rest, thrownLine t = '-'.code :: rest := ⟨_, Text.trimEnd_cons hdash _⟩
  obtain ⟨rest, hrest⟩ := hline
  rw [hrest]
  rfl

theorem filter_isHeading_thrownLines (m : Method) :
    m.thrownLines.filter isHeading =
      if m.throws.isEmpty then [] else [Heading.line 4 Heading.throws] := by
  unfold thrownLines
  split
  · rfl
  · have hlines := filter_isHeading_map isHeading_thrownLine m.throws
    rw [List.filter_append, List.filter_append, hlines]
    rfl

theorem filter_isHeading_blockLines {m : Method}
    (hcomment : isHeading (Text.trim m.comment) = false)
    (hreturn : isHeading (Text.trim m.returnComment) = false) (language : Text) :
    (m.blockLines language).filter isHeading = m.outline.map Title.line := by
  have hfirst : [Heading.line 3 m.name, [], Markdown.codeBlock language m.signature, []].filter
      isHeading = [Heading.line 3 m.name] := by
    rw [List.filter_cons_of_pos (isHeading_line 2 m.name)]
    simp [isHeading_codeBlock]
  rw [blockLines, List.filter_append, List.filter_append, List.filter_append, List.filter_append,
    hfirst, filter_isHeading_paragraph hcomment, filter_isHeading_parameterLines,
    filter_isHeading_returnLines hreturn, filter_isHeading_thrownLines]
  unfold outline
  split <;> split <;> split <;> rfl

end Method

def AnchorRegistry.along (r : AnchorRegistry) (titles : List Title) : List (Title × Text) :=
  titles.zip (r.anchorsFrom (titles.map Title.text))

theorem AnchorRegistry.along_append (r : AnchorRegistry) (before after : List Title) :
    r.along (before ++ after) =
      r.along before ++ (r.skip (before.map Title.text)).along after := by
  rw [along, List.map_append, anchorsFrom_append, List.zip_append]
  · rfl
  · rw [length_anchorsFrom, List.length_map]

def Title.ofMethod (title : Title) : Bool := title.level == 3

/-- The row of the summary links to the heading by its anchor. -/
structure LinksTo (v : MethodView) (heading : Title × Text) : Prop where
  text : heading.1.text = v.method.name
  row : v.summaryRow = .ok [Markdown.code (typeLabel v.method.isStatic v.method.returnType),
    Markdown.linkTo v.method.name ('#'.code :: heading.2) ++ Markdown.code v.method.flatParameters,
    Markdown.firstSentence v.method.comment]

theorem linksTo_next {m : Method} (h : m.valid = true) (r : AnchorRegistry) :
    LinksTo ⟨m, some (r.next m.name).1⟩ (⟨3, m.name⟩, (r.next m.name).1) where
  text := rfl
  row := by
    rw [MethodView.summaryRow_of_valid h, MethodView.rowCells,
      MethodView.label_eq_linkTo rfl (r.next_ne_nil m.name) (r.next_anchorText m.name)]

theorem filter_ofMethod_along (m : Method) (r : AnchorRegistry) :
    (r.along m.outline).filter (fun e => e.1.ofMethod) = [(⟨3, m.name⟩, (r.next m.name).1)] := by
  rw [AnchorRegistry.along, Method.outline, List.map_cons, AnchorRegistry.anchorsFrom_cons,
    List.zip_cons_cons, List.filter_cons_of_pos rfl]
  congr 1
  rw [List.filter_eq_nil_iff]
  intro e he
  have hlevel := m.level_of_mem_outline_tail (List.of_mem_zip he).1
  simp [Title.ofMethod, hlevel]

/-- Views foretold from a registry link to the headings that come after it. -/
theorem methodViewsFrom_links (r : AnchorRegistry) (methods : List Method) :
    List.Forall₂ LinksTo ((methodViewsFrom r methods).filter fun v => v.method.valid)
      ((r.along ((methods.filter Method.valid).flatMap Method.outline)).filter
        fun e => e.1.ofMethod) := by
  induction methods generalizing r with
  | nil => exact .nil
  | cons m rest ih =>
    by_cases hm : m.valid = true
    · rw [methodViewsFrom_of_valid hm, List.filter_cons, List.filter_cons, if_pos hm, if_pos hm,
        List.flatMap_cons, AnchorRegistry.along_append, List.filter_append,
        filter_ofMethod_along, Method.outline_map_text]
      exact .cons (linksTo_next hm r) (ih _)
    · rw [methodViewsFrom, if_neg hm, List.filter_cons, List.filter_cons, if_neg hm, if_neg hm]
      exact ih r

namespace Page

def sectionTitles (t : TypeEntry) : List Title :=
  (if t.hasFields || t.hasMethods then [⟨2, Heading.summary⟩] else []) ++
    (if t.hasFields then [⟨2, Heading.fields⟩] else []) ++
    (if t.hasMethods then [⟨2, Heading.methods⟩] else [])

/-- The headings of a page: its name, its sections, and the blocks of the well-formed methods. -/
def outline (t : TypeEntry) : List Title :=
  ⟨1, t.name⟩ :: sectionTitles t ++
    ((orderMethods t.methods).filter Method.valid).flatMap Method.outline

/-- Each heading with the anchor it has on the page. -/
def anchoredOutline (t : TypeEntry) : List (Title × Text) :=
  (outline t).zip (anchors ((outline t).map Title.text))

theorem anchoredOutline_eq (t : TypeEntry) :
    anchoredOutline t = AnchorRegistry.empty.along (outline t) := rfl

theorem headingsBeforeMethods_eq (t : TypeEntry) :
    headingsBeforeMethods t = (⟨1, t.name⟩ :: sectionTitles t : List Title).map Title.text := by
  unfold headingsBeforeMethods sectionTitles
  split <;> split <;> split <;> rfl

theorem filter_isHeading_titleLines (title : Text) :
    (titleLines title).filter isHeading = [Heading.line 2 title] := rfl

theorem filter_isHeading_methodRows (t : TypeEntry) : (methodRows t).filter isHeading = [] := by
  rw [methodRows]
  apply filter_isHeading_map
  intro v
  rfl

theorem filter_isHeading_fieldRows (description : Field → Text) (t : TypeEntry) :
    (fieldRows description t).filter isHeading = [] := by
  rw [fieldRows]
  apply filter_isHeading_map
  intro f
  rfl

theorem filter_isHeading_summaryLines (style : PageStyle) (t : TypeEntry) :
    (summaryLines style t).filter isHeading =
      if t.hasFields || t.hasMethods then [Heading.line 2 Heading.summary] else [] := by
  have hmethods : (if t.hasMethods then methodTableHead ++ methodRows t else []).filter isHeading
      = [] := by
    split
    · rw [List.filter_append, filter_isHeading_methodRows]
      rfl
    · rfl
  have hfields : (if style.summarizeFields && t.hasFields then fieldSummaryLines t else []).filter
      isHeading = [] := by
    split
    · rw [fieldSummaryLines, List.filter_append, List.filter_append, filter_isHeading_fieldRows]
      split <;> rfl
    · rfl
  unfold summaryLines
  split
  · rw [List.filter_append, List.filter_append, filter_isHeading_titleLines, hmethods, hfields]
    rfl
  · rfl

theorem filter_isHeading_fieldLines (t : TypeEntry) :
    (fieldLines t).filter isHeading =
      if t.hasFields then [Heading.line 2 Heading.fields] else [] := by
  unfold fieldLines
  split
  · rw [List.filter_append, List.filter_append, filter_isHeading_titleLines,
      filter_isHeading_fieldRows]
    rfl
  · rfl

theorem filter_isHeading_methodLines {style : PageStyle} {t : TypeEntry}
    (hplain : ∀ m ∈ t.methods, isHeading (Text.trim m.comment) = false ∧
      isHeading (Text.trim m.returnComment) = false) :
    (methodLines style t).filter isHeading =
      (if t.hasMethods then [Heading.line 2 Heading.methods] else []) ++
        (((orderMethods t.methods).filter Method.valid).flatMap Method.outline).map Title.line := by
  have hblock : ∀ v ∈ validViews t, (v.method.blockLines style.language).filter isHeading =
      v.method.outline.map Title.line := by
    intro v hv
    obtain ⟨hcomment, hreturn⟩ := hplain v.method (method_mem_of_mem_validViews hv)
    exact Method.filter_isHeading_blockLines hcomment hreturn style.language
  unfold methodLines
  split
  · rw [List.filter_append, filter_isHeading_titleLines, List.filter_flatMap,
      List.flatMap_congr hblock, ← validViews_map_method, List.map_flatMap, List.flatMap_map]
  · rename_i hnone
    have hnil : t.methods = [] := by simpa [TypeEntry.hasMethods] using hnone
    simp [hnil, orderMethods, orderMembers, Order.sortBy]

theorem filter_isHeading_memberLines {style : PageStyle} {t : TypeEntry}
    (hplain : ∀ m ∈ t.methods, isHeading (Text.trim m.comment) = false ∧
      isHeading (Text.trim m.returnComment) = false) :
    (memberLines style t).filter isHeading = (sectionTitles t ++
      ((orderMethods t.methods).filter Method.valid).flatMap Method.outline).map Title.line := by
  rw [memberLines, List.filter_append, List.filter_append, filter_isHeading_summaryLines,
    filter_isHeading_fieldLines, filter_isHeading_methodLines hplain, List.map_append,
    ← List.append_assoc]
  congr 1
  unfold sectionTitles
  split <;> split <;> split <;> rfl

theorem level_of_mem_sectionTitles {t : TypeEntry} {title : Title} (h : title ∈ sectionTitles t) :
    title.level = 2 := by
  simp only [sectionTitles, List.mem_append] at h
  rcases h with (h | h) | h
  all_goals split at h <;> simp_all

theorem filter_ofMethod_sectionTitles (t : TypeEntry) (r : AnchorRegistry) :
    (r.along (sectionTitles t)).filter (fun e => e.1.ofMethod) = [] := by
  rw [List.filter_eq_nil_iff]
  intro e he
  have hlevel := level_of_mem_sectionTitles (List.of_mem_zip he).1
  simp [Title.ofMethod, hlevel]

theorem filter_ofMethod_top (t : TypeEntry) (r : AnchorRegistry) :
    (r.along (⟨1, t.name⟩ :: sectionTitles t)).filter (fun e => e.1.ofMethod) = [] := by
  rw [AnchorRegistry.along, List.map_cons, AnchorRegistry.anchorsFrom_cons, List.zip_cons_cons,
    List.filter_cons_of_neg Bool.false_ne_true]
  exact filter_ofMethod_sectionTitles t _

theorem validViews_links (t : TypeEntry) :
    List.Forall₂ LinksTo (validViews t)
      ((anchoredOutline t).filter fun e => e.1.ofMethod) := by
  rw [anchoredOutline_eq, outline, AnchorRegistry.along_append, List.filter_append,
    filter_ofMethod_top, List.nil_append, ← headingsBeforeMethods_eq]
  exact methodViewsFrom_links _ _

/-- The headings are those of the outline, and the rows of the summary link to the methods' own
headings in order. -/
structure Navigable (t : TypeEntry) (lines : Lines) : Prop where
  headings : lines.filter isHeading = (outline t).map Title.line
  links : List.Forall₂ LinksTo (validViews t) ((anchoredOutline t).filter fun e => e.1.ofMethod)

namespace Sample

def builder : TypeEntry where
  name := "Builder".text
  package := "app.core".text
  comment := "Builds.".text
  ancestors := [{ qualifiedName := "app.Base".text, documented := true }]
  methods := [{ name := "builder".text }, { name := "parameters".text },
    { name := "add".text, parameters := [{ name := ['x'.code], type := "int".text }] }]

end Sample

example : ((anchoredOutline Sample.builder).filter fun e => e.1.ofMethod).map Prod.snd =
    ["add".text, "builder-1".text, "parameters-1".text] := by decide +kernel

end Page

end ApiPages

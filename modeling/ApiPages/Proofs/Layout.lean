import Mathlib.Data.List.TakeWhile
import ApiPages.Page.Body
import ApiPages.Proofs.FieldOrder

/-!
What stands below the header of a page. Summary, fields and methods are made of a title and of lines
that come from well-formed members alone; every other member is a drop, once for each place it is
missing from. None of this depends on how the header ends.
-/
namespace ApiPages

def Renders {α : Type} (rejection? : α → Option Rejection) (lines : α → Lines)
    (render : α → Except Rejection Lines) : Prop :=
  ∀ a, render a = match rejection? a with
    | some r => .error r
    | none => .ok (lines a)

theorem renderMembers_eq {α : Type} {rejection? : α → Option Rejection} {lines : α → Lines}
    {render : α → Except Rejection Lines} (h : Renders rejection? lines render) (place : Text)
    (members : List α) :
    renderMembers place render members =
      ⟨(members.filter fun a => (rejection? a).isNone).flatMap lines,
       (members.filterMap rejection?).map (Drop.mk place)⟩ := by
  induction members with
  | nil => rfl
  | cons a rest ih =>
    rw [renderMembers, ih, h a]
    cases hr : rejection? a with
    | none => simp [hr]
    | some r => simp [hr]

def Field.rowCells (f : Field) (description : Text) : List Text :=
  [Markdown.code (typeLabel f.isStatic f.type), f.label, description]

theorem MethodView.summaryRow_of_valid {v : MethodView} (h : v.method.valid = true) :
    v.summaryRow = .ok v.rowCells := by
  rw [Method.valid, Option.isNone_iff_eq_none] at h
  rw [MethodView.summaryRow, h]

theorem MethodView.detailBlock_of_valid {v : MethodView} (h : v.method.valid = true)
    (language : Text) : v.detailBlock language = .ok (v.method.blockLines language) := by
  rw [Method.valid, Option.isNone_iff_eq_none] at h
  rw [MethodView.detailBlock, h]

theorem Field.row_of_valid {f : Field} (h : f.valid = true) (description : Text) :
    f.row description = .ok (f.rowCells description) := by
  rw [Field.valid, Option.isNone_iff_eq_none] at h
  rw [Field.row, h, Field.rowCells]

theorem Body.titled_eq (b : Body) (title : Text) :
    b.titled title = b.appendLines [[], Heading.line 2 title, []] := by
  simp [Body.titled, Body.appendLines, Lines.heading, Lines.headingLines]

/-- The language of the blocks; none is written where there is no block. -/
def PageStyle.language (style : PageStyle) : Text :=
  match style.codeLanguage with
  | .ok language => language
  | .error _ => []

theorem methodViewsFrom_of_valid {m : Method} (h : m.valid = true) (r : AnchorRegistry)
    (rest : List Method) :
    methodViewsFrom r (m :: rest) =
      ⟨m, some (r.next m.name).1⟩ :: methodViewsFrom (r.skip m.headings) rest := by
  rw [methodViewsFrom, if_pos h]
  rfl

theorem methodViewsFrom_map_method (r : AnchorRegistry) (methods : List Method) :
    (methodViewsFrom r methods).map MethodView.method = methods := by
  induction methods generalizing r with
  | nil => rfl
  | cons m rest ih =>
    by_cases hm : m.valid = true
    · rw [methodViewsFrom_of_valid hm, List.map_cons, ih]
    · rw [methodViewsFrom, if_neg hm, List.map_cons, ih]

namespace Page

def validViews (t : TypeEntry) : List MethodView := (views t).filter fun v => v.method.valid

def validFields (t : TypeEntry) : List Field := (orderFields t.fields).filter Field.valid

def methodRejections (t : TypeEntry) : List Rejection :=
  (orderMethods t.methods).filterMap Method.rejection?

def fieldRejections (t : TypeEntry) : List Rejection :=
  (orderFields t.fields).filterMap Field.rejection?

def titleLines (title : Text) : Lines := [[], Heading.line 2 title, []]

def methodRows (t : TypeEntry) : Lines :=
  (validViews t).map fun v => Markdown.tableRow v.rowCells

def fieldRows (description : Field → Text) (t : TypeEntry) : Lines :=
  (validFields t).map fun f => Markdown.tableRow (f.rowCells (description f))

def fieldSummaryLines (t : TypeEntry) : Lines :=
  (if t.hasMethods then [[]] else []) ++ fieldTableHead ++
    fieldRows (fun f => Markdown.firstSentence f.comment) t

def summaryLines (style : PageStyle) (t : TypeEntry) : Lines :=
  if t.hasFields || t.hasMethods then
    titleLines Heading.summary ++ (if t.hasMethods then methodTableHead ++ methodRows t else []) ++
      (if style.summarizeFields && t.hasFields then fieldSummaryLines t else [])
  else []

def fieldLines (t : TypeEntry) : Lines :=
  if t.hasFields then titleLines Heading.fields ++ fieldTableHead ++ fieldRows Field.comment t
  else []

def methodLines (style : PageStyle) (t : TypeEntry) : Lines :=
  if t.hasMethods then
    titleLines Heading.methods ++
      (validViews t).flatMap fun v => v.method.blockLines style.language
  else []

def memberLines (style : PageStyle) (t : TypeEntry) : Lines :=
  summaryLines style t ++ fieldLines t ++ methodLines style t

def summaryDrops (style : PageStyle) (t : TypeEntry) : List Drop :=
  (methodRejections t).map (Drop.mk Place.summary) ++
    (if style.summarizeFields then (fieldRejections t).map (Drop.mk Place.summary) else [])

def fieldDrops (t : TypeEntry) : List Drop := (fieldRejections t).map (Drop.mk Place.fields)

def methodDrops (t : TypeEntry) : List Drop := (methodRejections t).map (Drop.mk Place.methods)

def memberDrops (style : PageStyle) (t : TypeEntry) : List Drop :=
  summaryDrops style t ++ fieldDrops t ++ methodDrops t

/-- The fault of a language that cannot be written, if there is a block to write it in. -/
def languageFault? (style : PageStyle) (t : TypeEntry) : Option Fault :=
  match style.codeLanguage with
  | .ok _ => none
  | .error fault => if (validViews t).isEmpty then none else some fault

def sections (style : PageStyle) (t : TypeEntry) (top : Lines) : Except Stop Body :=
  methods style t (fields t (summary style t (.ofLines top)))

theorem views_map_method (t : TypeEntry) :
    (views t).map MethodView.method = orderMethods t.methods :=
  methodViewsFrom_map_method _ _

theorem validViews_map_method (t : TypeEntry) :
    (validViews t).map MethodView.method = (orderMethods t.methods).filter Method.valid := by
  rw [← views_map_method, List.filter_map]
  rfl

theorem views_filterMap_rejection (t : TypeEntry) :
    (views t).filterMap (fun v => v.method.rejection?) = methodRejections t := by
  rw [methodRejections, ← views_map_method, List.filterMap_map]
  rfl

theorem renders_methodRow : Renders (fun v : MethodView => v.method.rejection?)
    (fun v => [Markdown.tableRow v.rowCells]) methodRow := by
  intro v
  cases hr : v.method.rejection? <;> simp [methodRow, MethodView.summaryRow, hr, Except.map]

theorem renders_methodBlock (language : Text) :
    Renders (fun v : MethodView => v.method.rejection?)
      (fun v => v.method.blockLines language) (·.detailBlock language) := by
  intro v
  cases hr : v.method.rejection? <;> simp [MethodView.detailBlock, hr]

theorem renders_field {render : Field → Except Rejection Lines} {description : Field → Text}
    (hrender : ∀ f, render f = (f.row (description f)).map fun cells => [Markdown.tableRow cells]) :
    Renders Field.rejection? (fun f => [Markdown.tableRow (f.rowCells (description f))])
      render := by
  intro f
  rw [hrender f]
  cases hr : f.rejection? <;> simp [Field.row, Field.rowCells, hr, Except.map]

theorem renders_fieldRow : Renders Field.rejection?
    (fun f => [Markdown.tableRow (f.rowCells (Markdown.firstSentence f.comment))]) fieldRow :=
  renders_field fun _ => rfl

theorem renders_fieldBlock : Renders Field.rejection?
    (fun f => [Markdown.tableRow (f.rowCells f.comment)]) Field.detailBlock :=
  renders_field fun _ => rfl

theorem methodRows_eq (t : TypeEntry) :
    renderMembers Place.summary methodRow (views t) =
      ⟨methodRows t, (methodRejections t).map (Drop.mk Place.summary)⟩ := by
  rw [renderMembers_eq renders_methodRow, views_filterMap_rejection, ← List.map_eq_flatMap]
  rfl

theorem fieldRows_eq (place : Text) (render : Field → Except Rejection Lines)
    (description : Field → Text) (t : TypeEntry)
    (hrender : ∀ f, render f = (f.row (description f)).map fun cells => [Markdown.tableRow cells]) :
    renderMembers place render (orderFields t.fields) =
      ⟨fieldRows description t, (fieldRejections t).map (Drop.mk place)⟩ := by
  rw [renderMembers_eq (renders_field hrender), ← List.map_eq_flatMap]
  rfl

theorem methodBlocks_eq (language : Text) (vs : List MethodView) :
    renderMembers Place.methods (·.detailBlock language) vs =
      ⟨(vs.filter fun v => v.method.valid).flatMap fun v => v.method.blockLines language,
       (vs.filterMap fun v => v.method.rejection?).map (Drop.mk Place.methods)⟩ :=
  renderMembers_eq (renders_methodBlock language) _ _

theorem methodRejections_of_none {t : TypeEntry} (h : t.hasMethods = false) :
    methodRejections t = [] := by
  have hm : t.methods = [] := by simpa [TypeEntry.hasMethods] using h
  simp [methodRejections, hm, orderMethods, orderMembers, Order.sortBy]

theorem fieldRejections_of_none {t : TypeEntry} (h : t.hasFields = false) :
    fieldRejections t = [] := by
  have hf : t.fields = [] := by simpa [TypeEntry.hasFields] using h
  simp [fieldRejections, hf, orderFields, splitFields, orderMembers, Order.sortBy]

theorem summary_eq (style : PageStyle) (t : TypeEntry) (b : Body) :
    summary style t b = b.append ⟨summaryLines style t, summaryDrops style t⟩ := by
  have hfields := fieldRows_eq Place.summary fieldRow
    (fun f => Markdown.firstSentence f.comment) t (fun _ => rfl)
  cases hf : t.hasFields <;> cases hm : t.hasMethods <;> cases hs : style.summarizeFields <;>
    simp [summary, summaryLines, summaryDrops, fieldSummaryLines, titleLines, Body.titled_eq,
      Body.append, Body.appendLines, methodRows_eq, hfields, hf, hm, hs,
      methodRejections_of_none, fieldRejections_of_none]

theorem fields_eq (t : TypeEntry) (b : Body) :
    fields t b = b.append ⟨fieldLines t, fieldDrops t⟩ := by
  have hfields := fieldRows_eq Place.fields Field.detailBlock Field.comment t (fun _ => rfl)
  cases hf : t.hasFields <;>
    simp [fields, fieldLines, fieldDrops, titleLines, Body.titled_eq, Body.append,
      Body.appendLines, hfields, hf, fieldRejections_of_none]

theorem takeWhile_malformed_length {t : TypeEntry} :
    ((views t).takeWhile fun v => !v.method.valid).length = (views t).length ↔
      validViews t = [] := by
  rw [validViews, List.filter_eq_nil_iff]
  constructor
  · intro h v hv
    have hw := (List.takeWhile_prefix _).eq_of_length h
    rw [List.takeWhile_eq_self_iff] at hw
    simpa using hw v hv
  · intro h
    rw [List.takeWhile_eq_self_iff.mpr]
    intro v hv
    simpa using h v hv

theorem methods_eq {style : PageStyle} {t : TypeEntry} (h : languageFault? style t = none)
    (b : Body) : methods style t b = .ok (b.append ⟨methodLines style t, methodDrops t⟩) := by
  cases hm : t.hasMethods with
  | false =>
    simp [methods, hm, methodLines, methodDrops, methodRejections_of_none, Body.append]
  | true =>
    cases hl : style.codeLanguage with
    | ok language =>
      simp [methods, hm, hl, methodLines, methodDrops, titleLines, PageStyle.language,
        Body.titled_eq, Body.append, Body.appendLines, methodBlocks_eq, validViews,
        views_filterMap_rejection]
    | error fault =>
      have hv : validViews t = [] := by simpa [languageFault?, hl] using h
      have hall := takeWhile_malformed_length.mpr hv
      have heq := (List.takeWhile_prefix _).eq_of_length hall
      simp only [methods, hm, hl, if_true, heq]
      rw [methodBlocks_eq]
      simp [methodLines, methodDrops, titleLines, hm, hv, Body.titled_eq, Body.append,
        Body.appendLines, views_filterMap_rejection, ← validViews.eq_def]

theorem methods_fault {style : PageStyle} {t : TypeEntry} {fault : Fault}
    (h : languageFault? style t = some fault) (b : Body) :
    ∃ drops, methods style t b = .error ⟨drops, fault⟩ := by
  cases hl : style.codeLanguage with
  | ok language => simp [languageFault?, hl] at h
  | error other =>
    have hv : validViews t ≠ [] ∧ other = fault := by
      by_cases hv : validViews t = []
      · simp [languageFault?, hl, hv] at h
      · exact ⟨hv, by simpa [languageFault?, hl, hv] using h⟩
    have hm : t.hasMethods = true := by
      by_contra hm
      have hnil : t.methods = [] := by simpa [TypeEntry.hasMethods] using hm
      apply hv.1
      simp [validViews, views, hnil, orderMethods, orderMembers, Order.sortBy, methodViews,
        methodViewsFrom]
    have hlen := mt takeWhile_malformed_length.mp hv.1
    simp [methods, hm, hl, hlen, hv.2]

theorem sections_eq {style : PageStyle} {t : TypeEntry} (h : languageFault? style t = none)
    (top : Lines) :
    sections style t top = .ok ⟨top ++ memberLines style t, memberDrops style t⟩ := by
  rw [sections, summary_eq, fields_eq, methods_eq h]
  simp [Body.append, Body.ofLines, memberLines, memberDrops]

theorem sections_fault {style : PageStyle} {t : TypeEntry} {fault : Fault}
    (h : languageFault? style t = some fault) (top : Lines) :
    ∃ drops, sections style t top = .error ⟨drops, fault⟩ := methods_fault h _

theorem sections_eq_ok_iff {style : PageStyle} {t : TypeEntry} {top : Lines} {b : Body} :
    sections style t top = .ok b ↔ languageFault? style t = none ∧
      b = ⟨top ++ memberLines style t, memberDrops style t⟩ := by
  cases h : languageFault? style t with
  | none => simp [sections_eq h, eq_comm]
  | some fault =>
    obtain ⟨drops, hd⟩ := sections_fault h top
    simp [hd]

theorem body_eq (style : PageStyle) (here : List Text) (t : TypeEntry) :
    body style here t = match header style here t with
      | .error fault => .error ⟨[], fault⟩
      | .ok top => sections style t top := rfl

theorem body_eq_ok_iff {style : PageStyle} {here : List Text} {t : TypeEntry} {b : Body} :
    body style here t = .ok b ↔ ∃ top, header style here t = .ok top ∧
      languageFault? style t = none ∧ b = ⟨top ++ memberLines style t, memberDrops style t⟩ := by
  rw [body_eq]
  cases header style here t with
  | error fault => simp
  | ok top => simp [sections_eq_ok_iff]

theorem validMethods_perm (t : TypeEntry) :
    ((validViews t).map MethodView.method).Perm (t.methods.filter Method.valid) := by
  rw [validViews_map_method]
  exact (orderMembers_perm Method.name t.methods).filter _

theorem method_mem_of_mem_validViews {t : TypeEntry} {v : MethodView} (hv : v ∈ validViews t) :
    v.method ∈ t.methods := by
  have hv := List.mem_map_of_mem (f := MethodView.method) hv
  exact List.mem_of_mem_filter ((validMethods_perm t).mem_iff.mp hv)

theorem validFields_perm (t : TypeEntry) :
    (validFields t).Perm (t.fields.filter Field.valid) := (orderFields_perm t.fields).filter _

theorem validFields_instances_first (t : TypeEntry) :
    (validFields t).Pairwise fun f g => f.isStatic = true → g.isStatic = true := by
  apply List.Pairwise.filter
  apply (orderFields_ascending t.fields).imp
  intro f g hle hf
  exact Order.static_of_staticLast hle hf

/-- What the lines below the header are, whatever the header is. -/
structure SectionsLayout (style : PageStyle) (t : TypeEntry) : Prop where
  lines : ∀ top b, sections style t top = .ok b → b.lines = top ++ memberLines style t
  /-- Nothing but a block in a language that cannot be written is in the way. -/
  laid_out : ∀ top, (∃ b, sections style t top = .ok b) ↔
    validViews t = [] ∨ ∃ language, style.codeLanguage = .ok language
  below_header : ∀ here b, body style here t = .ok b ↔
    ∃ top, header style here t = .ok top ∧ sections style t top = .ok b
  method_order : (validViews t).map MethodView.method =
    (orderMethods t.methods).filter Method.valid
  each_method_once : ((validViews t).map MethodView.method).Perm (t.methods.filter Method.valid)
  method_rendered : ∀ v ∈ validViews t, v.summaryRow = .ok v.rowCells ∧
    ∀ language, v.detailBlock language = .ok (v.method.blockLines language)
  each_field_once : (validFields t).Perm (t.fields.filter Field.valid)
  field_rendered : ∀ f ∈ validFields t, ∀ description,
    f.row description = .ok (f.rowCells description)
  instances_first : (validFields t).Pairwise fun f g => f.isStatic = true → g.isStatic = true

/-- Below any header, each well-formed member stands once in every place that its kind has on the
page, and nothing else does but titles, table heads and the blank lines between sections. -/
theorem member_sections_layout (style : PageStyle) (t : TypeEntry) : SectionsLayout style t where
  lines top b h := by
    obtain ⟨-, rfl⟩ := sections_eq_ok_iff.mp h
    rfl
  laid_out top := by
    simp only [sections_eq_ok_iff, exists_and_left, exists_eq, and_true, languageFault?]
    cases style.codeLanguage <;> simp
  below_header here b := by
    rw [body_eq]
    cases header style here t <;> simp
  method_order := validViews_map_method t
  each_method_once := validMethods_perm t
  method_rendered v hv := by
    have h := (List.mem_filter.mp hv).2
    exact ⟨v.summaryRow_of_valid h, v.detailBlock_of_valid h⟩
  each_field_once := validFields_perm t
  field_rendered f hf description := f.row_of_valid (List.mem_filter.mp hf).2 description
  instances_first := validFields_instances_first t

end Page

end ApiPages

import ApiPages.Proofs.Dependence
import ApiPages.Proofs.Encodable
import ApiPages.Proofs.Exits

/-!
Fields in the summary. Whether they are listed there is one flag of the style, and two builds that
differ in it alone come to finalize documents that differ in one piece: the table of the fields
behind that of the methods. What comes before it and what comes after it, links and blocks of the
methods included, does not depend on the flag.
-/
namespace ApiPages

open Job

def PageStyle.summarizing (style : PageStyle) (flag : Bool) : PageStyle :=
  { style with summarizeFields := flag }

namespace Page

/-- A document as it is when it is finalized, and the members dropped from it. -/
structure Draft where
  document : Document
  drops : List Drop
  deriving DecidableEq, Repr

def opened? (style : PageStyle) (t : TypeEntry) (directory : Path) (w : World) :
    Option (Document × World) :=
  match style.fileExtension with
  | .error _ => none
  | .ok extension =>
    match Document.create (path extension t directory) w with
    | .error _ _ => none
    | .ok d v => some (d, v)

/-- What a build comes to finalize, if it gets there. -/
def draft? (style : PageStyle) (t : TypeEntry) (directory : Path) (w : World) :
    Option (Draft × World) :=
  match opened? style t directory w with
  | none => none
  | some (d, v) =>
    match body style v.tree.workingDirectory t with
    | .error _ => none
    | .ok b => some (⟨{ d with lines := b.lines }, b.drops⟩, v)

namespace Draft

def report (draft : Draft) : PageReport := ⟨draft.document.path, draft.drops⟩

def finish (draft : Draft) : Job PageError PageReport := do
  Job.record (draft.drops.map .memberSkipped)
  draft.document.finalize
  Job.record [closingRecord draft.report]
  return draft.report

variable {draft : Draft} {r : PageReport} {v u : World}

/-- The document can be written where it is to be. -/
def Writable (draft : Draft) (tree : FileTree) : Prop :=
  draft.document.finalized = false ∧ draft.document.path.fault? = none ∧
    Utf8.encodable draft.document.lines.render = true ∧
      ∃ place, tree.openAt draft.document.path = .ok place ∧
        tree.Fits place draft.document.lines.render

theorem finish_of_writable (h : draft.Writable v.tree) :
    ∃ u, draft.finish v = .ok draft.report u := by
  obtain ⟨hopen, hclean, hencodable, place, hopened, hfits⟩ := h
  have hoctets := Utf8.encode?_eq_some_iff.mpr ⟨hencodable, rfl⟩
  have hskipped : (record (draft.drops.map .memberSkipped) : Job PageError Unit) v =
    .ok () { v with log := v.log ++ draft.drops.map .memberSkipped } := rfl
  have hfinalized := Document.finalize_of_openAt hopen hclean
    (w := { v with log := v.log ++ draft.drops.map .memberSkipped }) hopened hoctets hfits
  rw [finish, bind_of_ok hskipped, bind_of_ok hfinalized]
  exact ⟨_, rfl⟩

theorem writable_of_finish (h : draft.finish v = .ok r u) :
    r = draft.report ∧ draft.Writable v.tree := by
  obtain ⟨_, _, hskipped, h⟩ := bind_ok_iff.mp h
  cases hskipped
  obtain ⟨_, x, hfinalized, h⟩ := bind_ok_iff.mp h
  have hclosing := Document.finalize_closing draft.document
    { v with log := v.log ++ draft.drops.map .memberSkipped }
  rw [hfinalized] at hclosing
  obtain ⟨place, octets, hopen, hclean, hopened, hoctets, hfits, -⟩ := hclosing.done
  cases h
  obtain ⟨hencodable, rfl⟩ := Utf8.encode?_eq_some_iff.mp hoctets
  exact ⟨rfl, hopen, hclean, hencodable, place, hopened, hfits⟩

theorem finishes_iff : (∃ r u, draft.finish v = .ok r u) ↔ draft.Writable v.tree := by
  constructor
  · rintro ⟨r, u, h⟩
    exact (writable_of_finish h).2
  · exact fun h => ⟨_, finish_of_writable h⟩

end Draft

section Build

variable {style : PageStyle} {t : TypeEntry} {directory : Path} {w v : World} {draft : Draft}

theorem build_of_opened {d : Document} (h : opened? style t directory w = some (d, v)) :
    build style t directory w =
      match body style v.tree.workingDirectory t with
      | .error stop => .error (.fault stop.fault)
          { v with log := v.log ++ stop.drops.map .memberSkipped }
      | .ok b => Draft.finish ⟨{ d with lines := b.lines }, b.drops⟩ v := by
  unfold opened? at h
  split at h
  · cases h
  · rename_i extension hextension
    split at h
    · cases h
    · rename_i hcreate
      cases h
      have hget : (get : Job PageError World) v = .ok v v := rfl
      rw [build, bind_of_ok (ofExcept_of_ok hextension w), bind_of_ok hcreate, bind_of_ok hget]
      cases body style v.tree.workingDirectory t <;> rfl

theorem build_of_not_opened (h : opened? style t directory w = none) :
    ∃ e u, build style t directory w = .error e u := by
  unfold opened? at h
  split at h
  · rename_i fault hextension
    exact ⟨_, _, build_of_fault hextension⟩
  · rename_i extension hextension
    split at h
    · rename_i e u hcreate
      refine ⟨e, u, ?_⟩
      rw [build, bind_of_ok (ofExcept_of_ok hextension w), bind_of_error hcreate]
    · cases h

theorem build_of_draft (h : draft? style t directory w = some (draft, v)) :
    build style t directory w = draft.finish v := by
  unfold draft? at h
  split at h
  · cases h
  · rename_i d u hopened
    split at h
    · cases h
    · rename_i b hbody
      cases h
      rw [build_of_opened hopened, hbody]

theorem build_of_no_draft (h : draft? style t directory w = none) :
    ∃ e u, build style t directory w = .error e u := by
  unfold draft? at h
  split at h
  · rename_i hopened
    exact build_of_not_opened hopened
  · rename_i d v hopened
    split at h
    · rename_i stop hbody
      rw [build_of_opened hopened, hbody]
      exact ⟨_, _, rfl⟩
    · cases h

end Build

def upToMethods (t : TypeEntry) : Lines :=
  titleLines Heading.summary ++ (if t.hasMethods then methodTableHead ++ methodRows t else [])

def belowSummary (style : PageStyle) (t : TypeEntry) : Lines := fieldLines t ++ methodLines style t

section Flag

variable {style : PageStyle} {t : TypeEntry}

theorem memberLines_of_no_field (h : t.hasFields = false) (flag : Bool) :
    memberLines (style.summarizing flag) t = memberLines style t := by
  rw [memberLines, memberLines, summaryLines, summaryLines, h, Bool.and_false, Bool.and_false]
  rfl

theorem memberLines_of_fields (h : t.hasFields = true) (flag : Bool) :
    memberLines (style.summarizing flag) t =
      upToMethods t ++ (if flag then fieldSummaryLines t else []) ++ belowSummary style t := by
  rw [memberLines, summaryLines, h, Bool.true_or, if_pos rfl, Bool.and_true, List.append_assoc]
  rfl

theorem memberDrops_summarizing (style : PageStyle) (t : TypeEntry) (flag : Bool) :
    memberDrops (style.summarizing flag) t =
      (methodRejections t).map (Drop.mk Place.summary) ++
        (if flag then (fieldRejections t).map (Drop.mk Place.summary) else []) ++
        (fieldDrops t ++ methodDrops t) := by
  rw [memberDrops, summaryDrops, List.append_assoc]
  rfl

/-- Whether a page can be laid out does not depend on the flag. -/
theorem body_summarizing (style : PageStyle) (here : List Text) (t : TypeEntry) :
    (∀ flag, ∃ stop, body (style.summarizing flag) here t = .error stop) ∨
      ∃ top, ∀ flag, body (style.summarizing flag) here t =
        .ok ⟨top ++ memberLines (style.summarizing flag) t,
          memberDrops (style.summarizing flag) t⟩ := by
  have hheader : ∀ flag, header (style.summarizing flag) here t = header style here t :=
    fun _ => rfl
  have hlanguage : ∀ flag, languageFault? (style.summarizing flag) t = languageFault? style t :=
    fun _ => rfl
  cases htop : header style here t with
  | error fault =>
    refine .inl fun flag => ⟨⟨[], fault⟩, ?_⟩
    rw [body_eq, hheader, htop]
  | ok top =>
    cases hfault : languageFault? style t with
    | some fault =>
      refine .inl fun flag => ?_
      obtain ⟨drops, hstops⟩ := sections_fault ((hlanguage flag).trans hfault) top
      refine ⟨⟨drops, fault⟩, ?_⟩
      rw [body_eq, hheader, htop]
      exact hstops
    | none =>
      refine .inr ⟨top, fun flag => ?_⟩
      rw [body_eq, hheader, htop]
      exact sections_eq ((hlanguage flag).trans hfault) top

/-- The drafts that the flag decides between, below the same header. -/
def draftBelow (style : PageStyle) (t : TypeEntry) (d : Document) (top : Lines) (flag : Bool) :
    Draft :=
  ⟨{ d with lines := top ++ memberLines (style.summarizing flag) t },
    memberDrops (style.summarizing flag) t⟩

theorem draft?_summarizing (style : PageStyle) (t : TypeEntry) (directory : Path) (w : World) :
    (∀ flag, draft? (style.summarizing flag) t directory w = none) ∨
      ∃ d top v, ∀ flag, draft? (style.summarizing flag) t directory w =
        some (draftBelow style t d top flag, v) := by
  have hopened : ∀ flag, opened? (style.summarizing flag) t directory w =
    opened? style t directory w := fun _ => rfl
  cases hdocument : opened? style t directory w with
  | none =>
    refine .inl fun flag => ?_
    rw [draft?, hopened, hdocument]
  | some e =>
    obtain ⟨d, v⟩ := e
    rcases body_summarizing style v.tree.workingDirectory t with hstops | ⟨top, hlaid⟩
    · refine .inl fun flag => ?_
      obtain ⟨stop, hstop⟩ := hstops flag
      rw [draft?, hopened, hdocument]
      dsimp only
      rw [hstop]
    · refine .inr ⟨d, top, v, fun flag => ?_⟩
      rw [draft?, hopened, hdocument]
      dsimp only
      rw [hlaid flag]
      rfl

theorem fieldRows_summary (t : TypeEntry) :
    List.Forall₂ (fun (f : Field) line => ∃ cells, f.summaryRow = .ok cells ∧
      line = Markdown.tableRow cells) (validFields t)
      (fieldRows (fun f => Markdown.firstSentence f.comment) t) := by
  rw [fieldRows, List.forall₂_map_right_iff, List.forall₂_same]
  intro f hf
  have hvalid : f.valid = true := (List.mem_filter.mp hf).2
  exact ⟨_, f.row_of_valid hvalid _, rfl⟩

theorem encodable_fieldSummaryLines (style : PageStyle) (h : t.hasFields = true)
    (hbelow : (belowSummary style t).all Utf8.encodable = true) :
    (fieldSummaryLines t).all Utf8.encodable = true := by
  have hdetails : (fieldRows Field.comment t).all Utf8.encodable = true := by
    rw [belowSummary, fieldLines, if_pos h, List.all_append, List.all_append] at hbelow
    exact (Bool.and_eq_true_iff.mp (Bool.and_eq_true_iff.mp hbelow).1).2
  have hrows : (fieldRows (fun f => Markdown.firstSentence f.comment) t).all Utf8.encodable =
      true := by
    rw [fieldRows, List.all_map, List.all_eq_true] at hdetails ⊢
    intro f hf
    have hdetail := hdetails f hf
    simp only [Function.comp_apply, Utf8.encodable_tableRow, Field.rowCells, List.all_cons,
      List.all_nil, Bool.and_true, Bool.and_eq_true] at hdetail ⊢
    obtain ⟨htype, hlabel, hcomment⟩ := hdetail
    exact ⟨htype, hlabel, Utf8.encodable_firstSentence hcomment⟩
  have hhead : fieldTableHead.all Utf8.encodable = true := by decide
  rw [fieldSummaryLines, List.all_append, List.all_append, hhead, hrows]
  split <;> rfl

theorem encodable_draftBelow (style : PageStyle) (t : TypeEntry) (d : Document) (top : Lines) :
    Utf8.encodable (draftBelow style t d top true).document.lines.render =
      Utf8.encodable (draftBelow style t d top false).document.lines.render := by
  simp only [draftBelow, Utf8.encodable_render, List.all_append]
  cases hfields : t.hasFields with
  | false => rw [memberLines_of_no_field hfields, memberLines_of_no_field hfields]
  | true =>
    rw [memberLines_of_fields hfields, memberLines_of_fields hfields, if_pos rfl,
      if_neg Bool.false_ne_true]
    simp only [List.all_append, List.all_nil]
    cases hbelow : (belowSummary style t).all Utf8.encodable with
    | true => rw [encodable_fieldSummaryLines style hfields hbelow]
    | false => simp only [Bool.and_false]

end Flag

/-- Two drafts that differ in the fields of the summary: `listed` has them and `plain` has not. -/
structure FieldsInserted (style : PageStyle) (t : TypeEntry) (plain listed : Draft) : Prop where
  path : listed.document.path = plain.document.path
  no_field : t.fields = [] → listed = plain
  lines : t.fields ≠ [] → ∃ top rows,
    List.Forall₂ (fun (f : Field) line => ∃ cells, f.summaryRow = .ok cells ∧
      line = Markdown.tableRow cells) ((orderFields t.fields).filter Field.valid) rows ∧
    plain.document.lines = top ++ upToMethods t ++ belowSummary style t ∧
    listed.document.lines = top ++ upToMethods t ++
      ((if t.hasMethods then [[]] else []) ++ fieldTableHead ++ rows) ++ belowSummary style t
  drops : ∃ others, plain.drops = (methodRejections t).map (Drop.mk Place.summary) ++ others ∧
    listed.drops = (methodRejections t).map (Drop.mk Place.summary) ++
      (fieldRejections t).map (Drop.mk Place.summary) ++ others

/-- Two builds that end alike: each finishes its draft, and both report it or neither does, unless
there is room for only one of the two texts. -/
structure ReportedAlike (plain listed : Draft) (v : World)
    (first second : EStateM.Result PageError World PageReport) : Prop where
  plain_finished : first = plain.finish v
  listed_finished : second = listed.finish v
  written_iff : (∀ place, v.tree.openAt plain.document.path = .ok place →
      (v.tree.Fits place plain.document.lines.render ↔
        v.tree.Fits place listed.document.lines.render)) →
    ((∃ r u, first = .ok r u) ↔ ∃ r u, second = .ok r u)
  plain_report : ∀ r u, first = .ok r u → r = plain.report
  listed_report : ∀ r u, second = .ok r u → r = listed.report

theorem fieldsInserted_draftBelow (style : PageStyle) (t : TypeEntry) (d : Document) (top : Lines) :
    FieldsInserted style t (draftBelow style t d top false) (draftBelow style t d top true) where
  path := rfl
  no_field h := by
    have hfields : t.hasFields = false := by simp [TypeEntry.hasFields, h]
    simp only [draftBelow, memberLines_of_no_field hfields, memberDrops_summarizing,
      fieldRejections_of_none hfields, List.map_nil, ite_self]
  lines h := by
    have hfields : t.hasFields = true := by simp [TypeEntry.hasFields, h]
    refine ⟨top, _, fieldRows_summary t, ?_, ?_⟩
    · simp only [draftBelow, memberLines_of_fields hfields, Bool.false_eq_true, if_false,
        List.append_nil, List.append_assoc]
    · simp only [draftBelow, memberLines_of_fields hfields, if_true, fieldSummaryLines,
        List.append_assoc]
  drops := by
    refine ⟨fieldDrops t ++ methodDrops t, ?_, ?_⟩
    · simp only [draftBelow, memberDrops_summarizing, Bool.false_eq_true, if_false,
        List.append_nil]
    · simp only [draftBelow, memberDrops_summarizing, if_true]

theorem reportedAlike {plain listed : Draft} {v : World}
    (hpath : listed.document.path = plain.document.path)
    (hopen : listed.document.finalized = plain.document.finalized)
    (hencodable : Utf8.encodable listed.document.lines.render =
      Utf8.encodable plain.document.lines.render) :
    ReportedAlike plain listed v (plain.finish v) (listed.finish v) := by
  refine ⟨rfl, rfl, fun hfits => ?_, ?_, ?_⟩
  · rw [Draft.finishes_iff, Draft.finishes_iff, Draft.Writable, Draft.Writable, hpath, hopen,
      hencodable]
    refine and_congr_right fun _ => and_congr_right fun _ => and_congr_right fun _ => ?_
    exact exists_congr fun place => and_congr_right (hfits place)
  · intro r u h
    exact (Draft.writable_of_finish h).1
  · intro r u h
    exact (Draft.writable_of_finish h).1

/-- Listing the fields in the summary inserts their table there and changes nothing else: neither
what comes before it nor what comes after, neither whether the page is written, as far as there is
room for it, nor where; and the members it drops are reported behind the methods dropped from the
summary. -/
theorem field_summary_is_inserted (style : PageStyle) (t : TypeEntry) (directory : Path)
    (w : World) :
    (∀ flag, draft? (style.summarizing flag) t directory w = none ∧
        ∃ e u, build (style.summarizing flag) t directory w = .error e u) ∨
      ∃ plain listed v, draft? (style.summarizing false) t directory w = some (plain, v) ∧
        draft? (style.summarizing true) t directory w = some (listed, v) ∧
        FieldsInserted style t plain listed ∧
        ReportedAlike plain listed v (build (style.summarizing false) t directory w)
          (build (style.summarizing true) t directory w) := by
  rcases draft?_summarizing style t directory w with hnone | ⟨d, top, v, hdraft⟩
  · exact .inl fun flag => ⟨hnone flag, build_of_no_draft (hnone flag)⟩
  · refine .inr ⟨_, _, v, hdraft false, hdraft true, fieldsInserted_draftBelow style t d top, ?_⟩
    rw [build_of_draft (hdraft false), build_of_draft (hdraft true)]
    exact reportedAlike rfl rfl (encodable_draftBelow style t d top)

/-- Three fields, one of them without a type: two lines of head, two rows and an empty line. -/
example : [false, true].map (fun flag =>
      (draft? (({} : Context).style.summarizing flag) Sample.box ⟨.none, []⟩ ⟨.bare [], []⟩).map
        fun e => (e.1.document.lines.length, e.1.drops.length)) =
    [some (43, 3), some (48, 4)] := by decide +kernel

end Page

end ApiPages

import ApiPages.Proofs.Dependence
import ApiPages.Proofs.Run

/-!
The ledger of a page. What a member must have is a list of parts, and the first one that is blank is
why it is dropped, in every place where it would have stood. The report, its flag and the log of a
page that was written tell of the same drops in the same order.
-/
namespace ApiPages

/-- A part that a member must have, and the text that is there for it. -/
structure Requirement where
  part : MissingPart
  value : Text
  deriving DecidableEq, Repr

def firstBlank? (requirements : List Requirement) : Option MissingPart :=
  (requirements.find? fun q => Text.blank q.value).map Requirement.part

theorem firstBlank?_cons (q : Requirement) (rest : List Requirement) :
    firstBlank? (q :: rest) = if Text.blank q.value then some q.part else firstBlank? rest := by
  rw [firstBlank?, List.find?_cons]
  cases Text.blank q.value <;> rfl

theorem firstBlank?_append (before after : List Requirement) :
    firstBlank? (before ++ after) = (firstBlank? before).or (firstBlank? after) := by
  rw [firstBlank?, List.find?_append, Option.map_or]
  rfl

def Parameter.requirements (p : Parameter) (position : Nat) : List Requirement :=
  [⟨.parameterName position, p.name⟩, ⟨.parameterType p.name, p.type⟩]

def parameterRequirements (position : Nat) (parameters : List Parameter) : List Requirement :=
  (parameters.zipIdx position).flatMap fun e => e.1.requirements e.2

theorem parameterRequirements_cons (position : Nat) (p : Parameter) (rest : List Parameter) :
    parameterRequirements position (p :: rest) =
      ⟨.parameterName position, p.name⟩ :: ⟨.parameterType p.name, p.type⟩ ::
        parameterRequirements (position + 1) rest := by
  rw [parameterRequirements, List.zipIdx_cons, List.flatMap_cons]
  rfl

theorem missingInParameters?_eq (position : Nat) (parameters : List Parameter) :
    missingInParameters? position parameters =
      firstBlank? (parameterRequirements position parameters) := by
  induction parameters generalizing position with
  | nil => rfl
  | cons p rest ih =>
    rw [missingInParameters?, parameterRequirements_cons, firstBlank?_cons, firstBlank?_cons, ih]

namespace Method

/-- Name, return type, each parameter's name and type from left to right, thrown types. -/
def requirements (m : Method) : List Requirement :=
  ⟨.name, m.name⟩ :: ⟨.returnType, m.returnType⟩ ::
    (parameterRequirements 0 m.parameters ++ m.throws.map fun t => ⟨.thrownType, t.type⟩)

theorem firstBlank?_throws (throws : List Thrown) :
    firstBlank? (throws.map fun t => ⟨.thrownType, t.type⟩) =
      if throws.any fun t => Text.blank t.type then some .thrownType else none := by
  induction throws with
  | nil => rfl
  | cons t rest ih =>
    rw [List.map_cons, firstBlank?_cons, ih, List.any_cons]
    cases Text.blank t.type <;> rfl

theorem missing?_eq (m : Method) : m.missing? = firstBlank? m.requirements := by
  rw [requirements, firstBlank?_cons, firstBlank?_cons, firstBlank?_append, firstBlank?_throws,
    ← missingInParameters?_eq, missing?]
  cases missingInParameters? 0 m.parameters <;> rfl

theorem rejection?_eq (m : Method) :
    m.rejection? = (firstBlank? m.requirements).map (Rejection.mk m.name) := by
  rw [rejection?, missing?_eq]

/-- The method is malformed, and where it would have stood it is rejected for want of this part. -/
structure FailsFor (m : Method) (part : MissingPart) : Prop where
  malformed : m.valid = false
  row : ∀ anchor, MethodView.summaryRow ⟨m, anchor⟩ = .error ⟨m.name, part⟩
  block : ∀ anchor language, MethodView.detailBlock ⟨m, anchor⟩ language = .error ⟨m.name, part⟩

theorem failsFor_of_firstBlank? {m : Method} {part : MissingPart}
    (h : firstBlank? m.requirements = some part) : m.FailsFor part := by
  have hr : m.rejection? = some ⟨m.name, part⟩ := by rw [rejection?_eq, h, Option.map_some]
  refine ⟨?_, ?_, ?_⟩
  · rw [valid, hr]
    rfl
  · intro anchor
    rw [MethodView.summaryRow, hr]
  · intro anchor language
    rw [MethodView.detailBlock, hr]

theorem valid_iff {m : Method} : m.valid = true ↔ firstBlank? m.requirements = none := by
  rw [valid, rejection?_eq, Option.isNone_map, Option.isNone_iff_eq_none]

end Method

namespace Field

def requirements (f : Field) : List Requirement := [⟨.name, f.name⟩, ⟨.fieldType, f.type⟩]

theorem rejection?_eq (f : Field) :
    f.rejection? = (firstBlank? f.requirements).map (Rejection.mk f.name) := by
  rw [requirements, firstBlank?_cons, firstBlank?_cons]
  rfl

structure FailsFor (f : Field) (part : MissingPart) : Prop where
  malformed : f.valid = false
  row : f.summaryRow = .error ⟨f.name, part⟩
  block : f.detailBlock = .error ⟨f.name, part⟩

theorem failsFor_of_firstBlank? {f : Field} {part : MissingPart}
    (h : firstBlank? f.requirements = some part) : f.FailsFor part := by
  have hr : f.rejection? = some ⟨f.name, part⟩ := by rw [rejection?_eq, h, Option.map_some]
  have hrow : ∀ description, f.row description = .error ⟨f.name, part⟩ := by
    intro description
    rw [row, hr]
  refine ⟨?_, hrow _, ?_⟩
  · rw [valid, hr]
    rfl
  · rw [detailBlock, hrow]
    rfl

theorem valid_iff {f : Field} : f.valid = true ↔ firstBlank? f.requirements = none := by
  rw [valid, rejection?_eq, Option.isNone_map, Option.isNone_iff_eq_none]

end Field

/-- One failure for each malformed member, in the order of the members. -/
def failuresAt {α : Type} (place : Text) (name : α → Text) (requirements : α → List Requirement)
    (members : List α) : List Drop :=
  members.filterMap fun a => (firstBlank? (requirements a)).map fun part => ⟨place, name a, part⟩

theorem failuresAt_eq {α : Type} {name : α → Text} {requirements : α → List Requirement}
    {rejection? : α → Option Rejection}
    (h : ∀ a, rejection? a = (firstBlank? (requirements a)).map (Rejection.mk (name a)))
    (place : Text) (members : List α) :
    (members.filterMap rejection?).map (Drop.mk place) =
      failuresAt place name requirements members := by
  rw [List.map_filterMap, failuresAt]
  apply List.filterMap_congr
  intro a _
  rw [h a, Option.map_map]
  rfl

theorem failuresAt_eq_nil_iff {α : Type} {place : Text} {name : α → Text}
    {requirements : α → List Requirement} {members : List α} :
    failuresAt place name requirements members = [] ↔
      ∀ a ∈ members, firstBlank? (requirements a) = none := by
  rw [failuresAt, List.filterMap_eq_nil_iff]
  simp only [Option.map_eq_none_iff]

namespace Page

/-- Summary, fields, methods: what is missing from each, each in its own order. -/
def ledger (style : PageStyle) (t : TypeEntry) : List Drop :=
  failuresAt Place.summary Method.name Method.requirements (orderMethods t.methods) ++
    (if style.summarizeFields then
      failuresAt Place.summary Field.name Field.requirements (orderFields t.fields) else []) ++
    failuresAt Place.fields Field.name Field.requirements (orderFields t.fields) ++
    failuresAt Place.methods Method.name Method.requirements (orderMethods t.methods)

theorem memberDrops_eq_ledger (style : PageStyle) (t : TypeEntry) :
    memberDrops style t = ledger style t := by
  have hm := fun place => failuresAt_eq Method.rejection?_eq place (orderMethods t.methods)
  have hf := fun place => failuresAt_eq Field.rejection?_eq place (orderFields t.fields)
  simp only [memberDrops, summaryDrops, fieldDrops, methodDrops, methodRejections,
    fieldRejections, ledger, hm, hf]

theorem ledger_eq_nil_iff {style : PageStyle} {t : TypeEntry} :
    ledger style t = [] ↔
      (∀ m ∈ t.methods, m.valid = true) ∧ ∀ f ∈ t.fields, f.valid = true := by
  have hm : ∀ place, failuresAt place Method.name Method.requirements (orderMethods t.methods) = []
      ↔ ∀ m ∈ t.methods, m.valid = true := by
    intro place
    rw [failuresAt_eq_nil_iff]
    simp only [Method.valid_iff, orderMethods, (orderMembers_perm Method.name t.methods).mem_iff]
  have hf : ∀ place, failuresAt place Field.name Field.requirements (orderFields t.fields) = []
      ↔ ∀ f ∈ t.fields, f.valid = true := by
    intro place
    rw [failuresAt_eq_nil_iff]
    simp only [Field.valid_iff, (orderFields_perm t.fields).mem_iff]
  simp only [ledger, List.append_eq_nil_iff, hm, hf]
  constructor
  · rintro ⟨⟨⟨hmethods, -⟩, hfields⟩, -⟩
    exact ⟨hmethods, hfields⟩
  · rintro ⟨hmethods, hfields⟩
    refine ⟨⟨⟨hmethods, ?_⟩, hfields⟩, hmethods⟩
    split
    · exact (hf _).mpr hfields
    · rfl

/-- Report, flag and log agree on what is not on the page. -/
structure ExactLedger (style : PageStyle) (t : TypeEntry) (before : List LogRecord)
    (r : PageReport) (after : List LogRecord) : Prop where
  failures : r.drops = ledger style t
  method_reason : ∀ m ∈ t.methods, m.valid = true ∧ firstBlank? m.requirements = none ∨
    ∃ part, firstBlank? m.requirements = some part ∧ m.FailsFor part
  field_reason : ∀ f ∈ t.fields, f.valid = true ∧ firstBlank? f.requirements = none ∨
    ∃ part, firstBlank? f.requirements = some part ∧ f.FailsFor part
  degraded_iff : r.degraded = true ↔
    (∃ m ∈ t.methods, m.valid = false) ∨ ∃ f ∈ t.fields, f.valid = false
  /-- A record for each failure, one for the document, and the one that closes the page. -/
  log : ∃ lines, after = before ++ r.drops.map .memberSkipped ++ [.linesWritten lines r.path,
    if r.degraded then .pageDegraded r.path r.drops.length else .pageWritten r.path]
  levels : (after.drop before.length).map LogRecord.level =
    List.replicate r.drops.length .warning ++ [.debug, if r.degraded then .warning else .info]

/-- The failures of a page that was written are exactly its malformed members, place by place. -/
theorem failure_ledger_exact {style : PageStyle} {t : TypeEntry} {directory : Path} {w u : World}
    {r : PageReport} (h : build style t directory w = .ok r u) :
    ExactLedger style t w.log r u.log := by
  obtain ⟨b, hwritten⟩ := build_written h
  obtain ⟨here, hbody⟩ := hwritten.laid_out
  obtain ⟨top, -, -, rfl⟩ := body_eq_ok_iff.mp hbody
  have hdrops : r.drops = ledger style t := hwritten.drops.trans (memberDrops_eq_ledger style t)
  refine ⟨hdrops, ?_, ?_, ?_, ⟨_, hwritten.log⟩, ?_⟩
  · intro m _
    cases hm : firstBlank? m.requirements with
    | none => exact .inl ⟨Method.valid_iff.mpr hm, rfl⟩
    | some part => exact .inr ⟨part, rfl, Method.failsFor_of_firstBlank? hm⟩
  · intro f _
    cases hf : firstBlank? f.requirements with
    | none => exact .inl ⟨Field.valid_iff.mpr hf, rfl⟩
    | some part => exact .inr ⟨part, rfl, Field.failsFor_of_firstBlank? hf⟩
  · have hnone : r.degraded = false ↔ ledger style t = [] := by
      rw [PageReport.degraded, hdrops]
      simp
    rw [← Bool.not_eq_false, hnone, ledger_eq_nil_iff, not_and_or]
    simp
  · rw [hwritten.log, List.append_assoc, List.drop_left, List.map_append, List.map_map]
    have hskipped : r.drops.map (LogRecord.level ∘ LogRecord.memberSkipped) =
        List.replicate r.drops.length .warning := List.map_const' ..
    rw [hskipped, closingRecord]
    split <;> rfl

theorem sample_ledger :
    ∃ r u, build ({ summarizeFields := true } : Context).style Sample.box ⟨.none, ["out".text]⟩
        ⟨.bare ["srv".text], []⟩ = .ok r u ∧
      ExactLedger ({ summarizeFields := true } : Context).style Sample.box [] r u.log := by
  have hwritten : (Job.outcome? (build ({ summarizeFields := true } : Context).style Sample.box
      ⟨.none, ["out".text]⟩) ⟨.bare ["srv".text], []⟩).isSome := by decide +kernel
  obtain ⟨r, hr⟩ := Option.isSome_iff_exists.mp hwritten
  obtain ⟨u, h⟩ := Job.outcome?_eq_some_iff.mp hr
  exact ⟨r, u, h, failure_ledger_exact h⟩

example : (ledger ({ summarizeFields := true } : Context).style Sample.box).map
    (fun d => (d.place, d.rejection.message)) =
      [("summary".text, "get: missing return type".text),
       ("summary".text, "m: missing type".text),
       ("fields".text, "m: missing type".text),
       ("methods".text, "get: missing return type".text)] := by decide +kernel

end Page

end ApiPages

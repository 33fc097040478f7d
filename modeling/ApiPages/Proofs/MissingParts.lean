import ApiPages.Proofs.Ledger

/-!
The row and the block of a member stand or fall together. Both are there exactly if nothing that the
member must have is blank, and otherwise both are rejected for the first part that is: the name
comes first, then the type, then the parameters from left to right, each with its name before its
type, and last the thrown types.
-/
namespace ApiPages

def Text.Visible (t : Text) : Prop := ∃ c ∈ t, isBlank c = false

theorem Text.blank_eq_false_iff {t : Text} : blank t = false ↔ t.Visible := by
  rw [blank, List.all_eq_false]
  simp only [Visible, Bool.not_eq_true]

/-- The first of these requirements that is not met. -/
structure FirstMissing (requirements : List Requirement) (q : Requirement) : Prop where
  unmet : ¬q.value.Visible
  first : ∃ before after, requirements = before ++ q :: after ∧ ∀ b ∈ before, b.value.Visible

theorem firstBlank?_eq_none_iff {requirements : List Requirement} :
    firstBlank? requirements = none ↔ ∀ q ∈ requirements, q.value.Visible := by
  rw [firstBlank?, Option.map_eq_none_iff, List.find?_eq_none]
  simp only [← Text.blank_eq_false_iff, Bool.not_eq_true]

theorem exists_firstMissing {requirements : List Requirement} {part : MissingPart}
    (h : firstBlank? requirements = some part) :
    ∃ q, FirstMissing requirements q ∧ q.part = part := by
  obtain ⟨q, hq, hpart⟩ := Option.map_eq_some_iff.mp h
  obtain ⟨hblank, before, after, hsplit, hbefore⟩ := List.find?_eq_some_iff_append.mp hq
  refine ⟨q, ⟨?_, before, after, hsplit, ?_⟩, hpart⟩
  · intro hvisible
    rw [Text.blank_eq_false_iff.mpr hvisible] at hblank
    cases hblank
  · intro b hb
    exact Text.blank_eq_false_iff.mp (by simpa using hbefore b hb)

theorem visible_parameterRequirements_iff {position : Nat} {parameters : List Parameter} :
    (∀ q ∈ parameterRequirements position parameters, q.value.Visible) ↔
      ∀ p ∈ parameters, p.name.Visible ∧ p.type.Visible := by
  induction parameters generalizing position with
  | nil => simp [parameterRequirements]
  | cons p rest ih =>
    rw [parameterRequirements_cons, List.forall_mem_cons, List.forall_mem_cons, ih,
      List.forall_mem_cons, and_assoc]

/-- Nothing that the method must have is blank. -/
structure Method.Complete (m : Method) : Prop where
  name : m.name.Visible
  returnType : m.returnType.Visible
  parameters : ∀ p ∈ m.parameters, p.name.Visible ∧ p.type.Visible
  throws : ∀ t ∈ m.throws, t.type.Visible

theorem Method.complete_iff {m : Method} :
    m.Complete ↔ firstBlank? m.requirements = none := by
  rw [firstBlank?_eq_none_iff, requirements, List.forall_mem_cons, List.forall_mem_cons,
    List.forall_mem_append, visible_parameterRequirements_iff, List.forall_mem_map]
  constructor
  · rintro ⟨hname, htype, hparameters, hthrows⟩
    exact ⟨hname, htype, hparameters, hthrows⟩
  · rintro ⟨hname, htype, hparameters, hthrows⟩
    exact ⟨hname, htype, hparameters, hthrows⟩

structure Field.Complete (f : Field) : Prop where
  name : f.name.Visible
  type : f.type.Visible

theorem Field.complete_iff {f : Field} : f.Complete ↔ firstBlank? f.requirements = none := by
  rw [firstBlank?_eq_none_iff, requirements, List.forall_mem_cons, List.forall_mem_singleton]
  exact ⟨fun h => ⟨h.name, h.type⟩, fun h => ⟨h.1, h.2⟩⟩

/-- Two renderings of a member are both there if it is complete, and otherwise both rejected, for
want of the first part missing. -/
structure StandTogether (complete : Prop) (requirements : List Requirement) (name : Text)
    (row block : Except Rejection (List Text)) : Prop where
  row_iff : (∃ cells, row = .ok cells) ↔ complete
  block_iff : (∃ lines, block = .ok lines) ↔ complete
  rejected : ¬complete → ∃ q, FirstMissing requirements q ∧
    row = .error ⟨name, q.part⟩ ∧ block = .error ⟨name, q.part⟩

theorem standTogether {complete : Prop} {requirements : List Requirement} {name : Text}
    {row block : Except Rejection (List Text)}
    (hcomplete : complete ↔ firstBlank? requirements = none)
    (hrendered : complete → (∃ cells, row = .ok cells) ∧ ∃ lines, block = .ok lines)
    (hrejected : ∀ part, firstBlank? requirements = some part →
      row = .error ⟨name, part⟩ ∧ block = .error ⟨name, part⟩) :
    StandTogether complete requirements name row block := by
  cases hfirst : firstBlank? requirements with
  | none =>
    have h := hcomplete.mpr hfirst
    obtain ⟨hrow, hblock⟩ := hrendered h
    exact ⟨⟨fun _ => h, fun _ => hrow⟩, ⟨fun _ => h, fun _ => hblock⟩, fun hn => absurd h hn⟩
  | some part =>
    have h : ¬complete := by
      intro h
      rw [hcomplete.mp h] at hfirst
      cases hfirst
    obtain ⟨hrow, hblock⟩ := hrejected part hfirst
    obtain ⟨q, hq, rfl⟩ := exists_firstMissing hfirst
    refine ⟨⟨?_, fun hc => absurd hc h⟩, ⟨?_, fun hc => absurd hc h⟩, fun _ => ?_⟩
    · rintro ⟨cells, hok⟩
      rw [hrow] at hok
      cases hok
    · rintro ⟨lines, hok⟩
      rw [hblock] at hok
      cases hok
    · exact ⟨q, hq, hrow, hblock⟩

theorem Method.standTogether (m : Method) (anchor : Option Text) (language : Text) :
    StandTogether m.Complete m.requirements m.name (MethodView.summaryRow ⟨m, anchor⟩)
      (MethodView.detailBlock ⟨m, anchor⟩ language) := by
  apply ApiPages.standTogether complete_iff
  · intro h
    have hvalid := valid_iff.mpr (complete_iff.mp h)
    exact ⟨⟨_, MethodView.summaryRow_of_valid hvalid⟩,
      ⟨_, MethodView.detailBlock_of_valid hvalid language⟩⟩
  · intro part hpart
    have hfails := failsFor_of_firstBlank? hpart
    exact ⟨hfails.row anchor, hfails.block anchor language⟩

theorem Field.standTogether (f : Field) :
    StandTogether f.Complete f.requirements f.name f.summaryRow f.detailBlock := by
  apply ApiPages.standTogether complete_iff
  · intro h
    have hrow := row_of_valid (valid_iff.mpr (complete_iff.mp h))
    refine ⟨⟨_, hrow _⟩, ?_⟩
    rw [detailBlock, hrow]
    exact ⟨_, rfl⟩
  · intro part hpart
    have hfails := failsFor_of_firstBlank? hpart
    exact ⟨hfails.row, hfails.block⟩

/-- The row and the block of a member are both there or neither is, whatever its anchor and the
language; a method says beforehand which. They are there exactly if every part that the member must
have holds a character that is not blank, and the first part without one is why they are not. -/
theorem row_and_block_stand_together :
    (∀ (m : Method) (anchor : Option Text) (language : Text), (m.valid = true ↔ m.Complete) ∧
      StandTogether m.Complete m.requirements m.name (MethodView.summaryRow ⟨m, anchor⟩)
        (MethodView.detailBlock ⟨m, anchor⟩ language)) ∧
    ∀ f : Field, StandTogether f.Complete f.requirements f.name f.summaryRow f.detailBlock := by
  refine ⟨fun m anchor language => ⟨?_, m.standTogether anchor language⟩, Field.standTogether⟩
  rw [Method.valid_iff, Method.complete_iff]

/-- The second parameter lacks its type, and a thrown type is blank as well. -/
example : (MethodView.summaryRow { method :=
      { name := "put".text
        parameters := [⟨['k'.code], "int".text, []⟩, ⟨['v'.code], [' '.code], []⟩, ⟨[], [], []⟩]
        throws := [⟨[], []⟩] } }).mapError Rejection.message =
    .error "put: missing type of parameter v".text := by decide +kernel

end ApiPages

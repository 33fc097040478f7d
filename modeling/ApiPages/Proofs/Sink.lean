import ApiPages.Document.Step
import ApiPages.Proofs.Exits

/-!
Documents over whole runs of steps. A step adds lines at the end of the buffer or none at all, and
none if it fails. Once a document was finalized, whether or not its file could be written, no step
changes it and none writes a file; so what the file holds is the buffer as it was at that moment.
-/
namespace ApiPages

open FileTree

namespace Document

/-- The one document has come from the other by lines put at its end, and by none if it is
finalized. -/
structure GrownFrom (e d : Document) : Prop where
  path : e.path = d.path
  finalized : e.finalized = d.finalized
  lines : d.lines <+: e.lines
  settled : d.finalized = true → e = d

theorem grownFrom_self (d : Document) : d.GrownFrom d := ⟨rfl, rfl, List.prefix_rfl, fun _ => rfl⟩

theorem GrownFrom.trans {c d e : Document} (h : e.GrownFrom d) (k : d.GrownFrom c) :
    e.GrownFrom c where
  path := h.path.trans k.path
  finalized := h.finalized.trans k.finalized
  lines := k.lines.trans h.lines
  settled hc := (h.settled (k.finalized.trans hc)).trans (k.settled hc)

theorem grownFrom_of_append {d e : Document} {lines : Lines} (h : d.append lines = .ok e) :
    e.GrownFrom d := by
  cases hd : d.finalized with
  | true =>
    rw [append_of_finalized hd] at h
    cases h
  | false =>
    rw [append_of_open hd] at h
    cases h
    exact ⟨rfl, rfl, List.prefix_append _ _, fun hfinalized => by simp [hd] at hfinalized⟩

theorem grownFrom_of_appendText {d e : Document} {t : Text} (h : d.appendText t = .ok e) :
    e.GrownFrom d := by
  unfold appendText at h
  split at h
  · cases h
    exact grownFrom_self _
  · exact grownFrom_of_append h

theorem grownFrom_of_appendMembers {α : Type} {place : Text} {render : α → Except Rejection Lines}
    {members : List α} {d e : Document} (h : (d.appendMembers place render members).1 = .ok e) :
    e.GrownFrom d := by
  induction members generalizing d with
  | nil =>
    cases h
    exact grownFrom_self _
  | cons member rest ih =>
    unfold appendMembers at h
    split at h
    · exact ih h
    · split at h
      · cases h
      · rename_i hadded
        exact (ih h).trans (grownFrom_of_append hadded)

end Document

namespace Step

structure Moment where
  document : Document
  world : World

def Moment.next (m : Moment) (language : Text) (step : Step) : Moment :=
  let result := step.run language m.document m.world
  ⟨result.document, result.world⟩

def Moment.after (m : Moment) (language : Text) (steps : List Step) : Moment :=
  steps.foldl (fun m step => m.next language step) m

def Moment.succeeds (m : Moment) (language : Text) (step : Step) : Prop :=
  ∃ v, (step.run language m.document m.world).outcome = .ok v

def isAppend : Step → Bool
  | .heading _ _ | .text _ | .newLine | .startMethodTable | .methodRow _ | .startFieldTable
  | .fieldRow _ | .fieldBlock _ | .methodBlock _ => true
  | _ => false

section OneStep

variable {language : Text} {d : Document} {w : World}

/-- Nothing but the document changes, and that grows; a failure changes nothing. -/
structure Adds (d : Document) (w : World) (r : StepResult) : Prop where
  document : r.document.GrownFrom d
  world : r.world = w
  failed : ∀ e, r.outcome = .error e → r.document = d

theorem adds_ofAppend {result : Except SinkError Document}
    (h : ∀ e, result = .ok e → e.GrownFrom d) : Adds d w (ofAppend d w result) := by
  cases result with
  | ok e => exact ⟨h e rfl, rfl, fun _ hfalse => nomatch hfalse⟩
  | error e => exact ⟨d.grownFrom_self, rfl, fun _ _ => rfl⟩

theorem adds_ofMember (rendered : Except Rejection Lines) : Adds d w (ofMember d w rendered) := by
  cases rendered with
  | ok lines => exact adds_ofAppend fun _ => Document.grownFrom_of_append
  | error r => exact ⟨d.grownFrom_self, rfl, fun _ _ => rfl⟩

theorem run_adds {step : Step} (h : step.isAppend = true) :
    Adds d w (step.run language d w) := by
  cases step with
  | heading level t => exact adds_ofAppend fun _ => Document.grownFrom_of_append
  | text t => exact adds_ofAppend fun _ => Document.grownFrom_of_appendText
  | newLine => exact adds_ofAppend fun _ => Document.grownFrom_of_append
  | startMethodTable => exact adds_ofAppend fun _ => Document.grownFrom_of_append
  | methodRow v => exact adds_ofMember _
  | startFieldTable => exact adds_ofAppend fun _ => Document.grownFrom_of_append
  | fieldRow f => exact adds_ofMember _
  | fieldBlock f => exact adds_ofMember _
  | methodBlock v => exact adds_ofMember _
  | methods => cases h
  | fields => cases h
  | render => cases h
  | finalize => cases h
  | obstruct => cases h

theorem ofMembers_grows {result : Except SinkError Document × List Drop}
    (h : ∀ e, result.1 = .ok e → e.GrownFrom d) :
    (ofMembers d w result).document.GrownFrom d ∧ (ofMembers d w result).world.tree = w.tree := by
  obtain ⟨outcome, drops⟩ := result
  cases outcome with
  | ok e => exact ⟨h e rfl, rfl⟩
  | error e => exact ⟨d.grownFrom_self, rfl⟩

theorem run_grows {step : Step} (h : step ≠ .finalize) :
    (step.run language d w).document.GrownFrom d := by
  cases hstep : step.isAppend with
  | true => exact (run_adds hstep).document
  | false =>
    cases step with
    | methods place asRows views =>
      exact (ofMembers_grows fun _ => Document.grownFrom_of_appendMembers).1
    | fields place asRows members =>
      exact (ofMembers_grows fun _ => Document.grownFrom_of_appendMembers).1
    | render => exact d.grownFrom_self
    | finalize => exact absurd rfl h
    | obstruct =>
      rw [run]
      split <;> exact d.grownFrom_self
    | _ => cases hstep

theorem run_finalize_document :
    (Step.finalize.run language d w).document = d.closed := by
  rw [run]
  split <;> rfl

theorem run_tree {step : Step} (hfinalize : step ≠ .finalize) (hobstruct : step ≠ .obstruct) :
    (step.run language d w).world.tree = w.tree := by
  cases hstep : step.isAppend with
  | true => rw [(run_adds hstep).world]
  | false =>
    cases step with
    | methods place asRows views =>
      exact (ofMembers_grows fun _ => Document.grownFrom_of_appendMembers).2
    | fields place asRows members =>
      exact (ofMembers_grows fun _ => Document.grownFrom_of_appendMembers).2
    | render => rfl
    | finalize => exact absurd rfl hfinalize
    | obstruct => exact absurd rfl hobstruct
    | _ => cases hstep

theorem run_obstruct_adds :
    AddsDirectories d.path w.tree (Step.obstruct.run language d w).world.tree := by
  have hmade := (makeDirectories_made w.tree d.path).adds
  rw [run]
  split
  · rename_i hdone
    rwa [hdone] at hmade
  · rename_i hrefused
    rwa [hrefused] at hmade

theorem run_finalize_of_finalized (h : d.finalized = true) :
    (Step.finalize.run language d w).world = w := by
  have hrefused : d.finalize w = .error (.sink (.alreadyFinalized d.path)) w := by
    rw [Document.finalize, if_pos h]
  rw [run, hrefused]

end OneStep

section Runs

variable {language : Text} {m : Moment}

theorem closed_of_finalized {d : Document} (h : d.finalized = true) : d.closed = d := by
  rw [Document.closed, ← h]

theorem next_lines (m : Moment) (step : Step) :
    m.document.lines <+: (m.next language step).document.lines := by
  by_cases hstep : step = .finalize
  · subst hstep
    have hclosed : (m.next language .finalize).document = m.document.closed := run_finalize_document
    rw [hclosed]
    exact List.prefix_rfl
  · exact (run_grows hstep).lines

theorem next_tree_of_finalized {step : Step} (h : m.document.finalized = true)
    (hstep : step ≠ .obstruct) : (m.next language step).world.tree = m.world.tree := by
  by_cases hfinalize : step = .finalize
  · subst hfinalize
    exact congrArg World.tree (run_finalize_of_finalized h)
  · exact run_tree hfinalize hstep

theorem next_of_finalized (language : Text) (h : m.document.finalized = true) (step : Step) :
    (m.next language step).document = m.document ∧
      AddsDirectories m.document.path m.world.tree (m.next language step).world.tree := by
  constructor
  · by_cases hfinalize : step = .finalize
    · subst hfinalize
      exact run_finalize_document.trans (closed_of_finalized h)
    · exact (run_grows hfinalize).settled h
  · by_cases hobstruct : step = .obstruct
    · subst hobstruct
      exact run_obstruct_adds
    · rw [next_tree_of_finalized h hobstruct]
      exact .refl _ _

theorem after_of_finalized (language : Text) (h : m.document.finalized = true) (steps : List Step) :
    (m.after language steps).document = m.document ∧
      AddsDirectories m.document.path m.world.tree (m.after language steps).world.tree := by
  induction steps generalizing m with
  | nil => exact ⟨rfl, .refl _ _⟩
  | cons step rest ih =>
    obtain ⟨hdocument, hadds⟩ := next_of_finalized language h step
    obtain ⟨hlater, hlaterAdds⟩ := ih (m := m.next language step) (hdocument ▸ h)
    rw [hdocument] at hlater hlaterAdds
    exact ⟨hlater, hadds.trans hlaterAdds⟩

theorem after_lines (m : Moment) (steps : List Step) :
    m.document.lines <+: (m.after language steps).document.lines := by
  induction steps generalizing m with
  | nil => exact List.prefix_rfl
  | cons step rest ih => exact (next_lines m step).trans (ih (m.next language step))

theorem next_finalize_document (m : Moment) :
    (m.next language .finalize).document = m.document.closed := run_finalize_document

theorem readFile_next_finalize (h : m.succeeds language .finalize) :
    (m.next language .finalize).world.tree.readFile m.document.path =
      .ok (Utf8.encode m.document.lines.render) := by
  obtain ⟨v, h⟩ := h
  have hclosing := Document.finalize_closing m.document m.world
  rw [Moment.next]
  rw [run] at h ⊢
  cases hfinalize : m.document.finalize m.world with
  | error e w =>
    rw [hfinalize] at h
    cases h
  | ok _ w =>
    rw [hfinalize] at hclosing
    obtain ⟨place, octets, -, -, hopened, hoctets, -, rfl⟩ := hclosing.done
    obtain ⟨-, rfl⟩ := Utf8.encode?_eq_some_iff.mp hoctets
    exact readFile_set_of_openAt hopened _

theorem getElem?_runAll (m : Moment) (before : List Step) (step : Step) (rest : List Step) :
    (runAll language (before ++ step :: rest) m.document m.world)[before.length]? =
      some (step.run language (m.after language before).document
        (m.after language before).world) := by
  induction before generalizing m with
  | nil => rfl
  | cons first before ih => exact ih (m.next language first)

def SameFiles (t u : FileTree) : Prop :=
  ∀ place octets, u.get? place = some (.file octets) ↔ t.get? place = some (.file octets)

/-- How a run goes on from a moment at which a step is taken and others follow. -/
structure Lawful (language : Text) (m : Moment) (step : Step) (rest : List Step) : Prop where
  grows : ∀ more, more <+: rest →
    m.document.lines <+: ((m.next language step).after language more).document.lines
  failed_append : step.isAppend = true → ¬m.succeeds language step → m.next language step = m
  sealed : step = .finalize → ∀ more, more <+: rest →
    ((m.next language step).after language more).document = m.document.closed
  files : step = .finalize → ∀ more, more <+: rest →
    SameFiles (m.next language step).world.tree
      ((m.next language step).after language more).world.tree
  /-- Of all that follows, only what others do is seen in the tree. -/
  untouched : step = .finalize → ∀ more other, more ++ [other] <+: rest → other ≠ .obstruct →
    let now := (m.next language step).after language more
    (now.next language other).world.tree = now.world.tree
  written : step = .finalize → m.succeeds language step → ∀ more, more <+: rest →
    ((m.next language step).after language more).world.tree.readFile m.document.path =
      .ok (Utf8.encode m.document.lines.render)

theorem not_succeeds_iff {step : Step} :
    ¬m.succeeds language step ↔
      ∃ e, (step.run language m.document m.world).outcome = .error e := by
  rw [Moment.succeeds]
  cases (step.run language m.document m.world).outcome <;> simp

/-- At every step of every run: the buffer only grows, a failed append leaves everything as it is,
and a document that is finalized, for better or worse, stays as it is and its file is not written
again. -/
theorem append_only_and_write_once (language : Text) (start : Moment) (before : List Step)
    (step : Step) (rest : List Step) :
    (runAll language (before ++ step :: rest) start.document start.world)[before.length]? =
        some (step.run language (start.after language before).document
          (start.after language before).world) ∧
      Lawful language (start.after language before) step rest := by
  refine ⟨getElem?_runAll start before step rest, ?_⟩
  generalize start.after language before = m
  have hfinalized : step = .finalize → (m.next language step).document.finalized = true := by
    rintro rfl
    rw [next_finalize_document]
    rfl
  have hlater := fun h : step = .finalize => after_of_finalized language (hfinalized h)
  refine ⟨?_, ?_, ?_, ?_, ?_, ?_⟩
  · intro more _
    exact (next_lines m step).trans (after_lines _ more)
  · intro happend hfails
    obtain ⟨e, he⟩ := not_succeeds_iff.mp hfails
    have hadds : Adds m.document m.world (step.run language m.document m.world) := run_adds happend
    rw [Moment.next, hadds.failed e he, hadds.world]
  · intro hstep more _
    rw [(hlater hstep more).1, hstep]
    exact next_finalize_document m
  · intro hstep more _ place octets
    exact (hlater hstep more).2.file_iff
  · intro hstep more other _ hother
    have hdocument := (hlater hstep more).1
    exact next_tree_of_finalized (hdocument ▸ hfinalized hstep) hother
  · intro hstep hdone more _
    have hadds := (hlater hstep more).2
    subst hstep
    exact hadds.readFile (readFile_next_finalize hdone)

end Runs

end Step

end ApiPages

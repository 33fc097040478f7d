import ApiPages.Proofs.Layout
import ApiPages.Proofs.Sink

/-!
What a finalized document answers. A step that would add lines, or finalize the document again, is
refused and leaves everything as it is. A malformed member is rejected before the document is looked
at, as it is when the document is open; and the empty text, of which there is nothing to add, is
taken by every document.
-/
namespace ApiPages

namespace Step

/-- Why the member of a step cannot be rendered, if the step has one and it cannot. -/
def rejection? : Step → Option Rejection
  | .methodRow v | .methodBlock v => v.method.rejection?
  | .fieldRow f | .fieldBlock f => f.rejection?
  | _ => none

def isLate (step : Step) : Prop := step.isAppend = true ∨ step = .finalize

section Late

variable {language : Text} {d : Document} {w : World}

/-- Why a finalized document does not take what has been rendered or rejected. -/
def lateError (d : Document) : Option Rejection → StepError
  | some r => .rejected r
  | none => .page (.sink (.alreadyFinalized d.path))

theorem ofAppend_of_finalized (h : d.finalized = true) (lines : Lines) :
    ofAppend d w (d.append lines) = ⟨.error (lateError d none), d, w⟩ := by
  rw [Document.append_of_finalized h]
  rfl

theorem ofMember_of_finalized {α : Type} {rejection? : α → Option Rejection} {lines : α → Lines}
    {render : α → Except Rejection Lines} (hrender : Renders rejection? lines render)
    (h : d.finalized = true) (a : α) :
    ofMember d w (render a) = ⟨.error (lateError d (rejection? a)), d, w⟩ := by
  rw [hrender a]
  cases rejection? a with
  | some r => rfl
  | none => exact ofAppend_of_finalized h (lines a)

theorem run_append_of_finalized (h : d.finalized = true) {step : Step}
    (hstep : step.isAppend = true) (htext : step ≠ .text []) :
    step.run language d w = ⟨.error (lateError d step.rejection?), d, w⟩ := by
  cases step with
  | heading level t => exact ofAppend_of_finalized h _
  | text t =>
    have hempty : ¬t.isEmpty = true := by
      intro hnil
      exact htext (congrArg Step.text (List.isEmpty_iff.mp hnil))
    rw [run, Document.appendText, if_neg hempty]
    exact ofAppend_of_finalized h _
  | newLine => exact ofAppend_of_finalized h _
  | startMethodTable => exact ofAppend_of_finalized h _
  | methodRow v => exact ofMember_of_finalized Page.renders_methodRow h v
  | startFieldTable => exact ofAppend_of_finalized h _
  | fieldRow f => exact ofMember_of_finalized Page.renders_fieldRow h f
  | fieldBlock f => exact ofMember_of_finalized Page.renders_fieldBlock h f
  | methodBlock v => exact ofMember_of_finalized (Page.renders_methodBlock language) h v
  | methods => cases hstep
  | fields => cases hstep
  | render => cases hstep
  | finalize => cases hstep
  | obstruct => cases hstep

theorem run_finalize_again (h : d.finalized = true) :
    Step.finalize.run language d w = ⟨.error (lateError d none), d, w⟩ := by
  have hrefused : d.finalize w = .error (.sink (.alreadyFinalized d.path)) w := by
    rw [Document.finalize, if_pos h]
  rw [run, hrefused]
  dsimp only
  rw [closed_of_finalized h]
  rfl

theorem run_late_of_finalized (h : d.finalized = true) {step : Step} (hstep : step.isLate)
    (htext : step ≠ .text []) :
    step.run language d w = ⟨.error (lateError d step.rejection?), d, w⟩ := by
  rcases hstep with hstep | rfl
  · exact run_append_of_finalized h hstep htext
  · exact run_finalize_again h

theorem isLate_of_rejection? {step : Step} {r : Rejection} (h : step.rejection? = some r) :
    step.isLate ∧ step ≠ .text [] := by
  cases step with
  | methodRow | fieldRow | fieldBlock | methodBlock => exact ⟨.inl rfl, Step.noConfusion⟩
  | _ => cases h

end Late

/-- How a finalized document answers to every step that would add to it or finalize it again. -/
structure Shut (language : Text) (now : Moment) : Prop where
  refused : ∀ step : Step, step.isLate → step ≠ .text [] → step.rejection? = none →
    (step.run language now.document now.world).outcome =
      .error (.page (.sink (.alreadyFinalized now.document.path)))
  rejected : ∀ (step : Step) r, step.rejection? = some r →
    (step.run language now.document now.world).outcome = .error (.rejected r)
  nothing_to_add :
    ((Step.text []).run language now.document now.world).outcome = .ok .nothing
  /-- The document, the file tree and the log. -/
  unchanged : ∀ step : Step, step.isLate → now.next language step = now

theorem shut_of_finalized (language : Text) {now : Moment} (h : now.document.finalized = true) :
    Shut language now where
  refused step hstep htext hnone := by
    rw [run_late_of_finalized h hstep htext, hnone]
    rfl
  rejected step r hr := by
    obtain ⟨hstep, htext⟩ := isLate_of_rejection? hr
    rw [run_late_of_finalized h hstep htext, hr]
    rfl
  nothing_to_add := rfl
  unchanged step hstep := by
    by_cases htext : step = .text []
    · subst htext
      rfl
    · rw [Moment.next, run_late_of_finalized h hstep htext]

/-- Once a document was asked to finalize, for better or worse, whatever has been tried since: it is
as it was then, and everything that would add lines or write it again is refused without a trace,
but that a malformed member is rejected as such and that the empty text is no addition. -/
theorem finalized_document_is_shut (language : Text) (start : Moment) (since : List Step) :
    ((start.next language .finalize).after language since).document = start.document.closed ∧
      Shut language ((start.next language .finalize).after language since) := by
  have hclosed : (start.next language .finalize).document = start.document.closed :=
    next_finalize_document start
  have hfinalized : (start.next language .finalize).document.finalized = true := by
    rw [hclosed]
    rfl
  obtain ⟨hdocument, -⟩ := after_of_finalized language hfinalized since
  refine ⟨hdocument.trans hclosed, shut_of_finalized language ?_⟩
  rw [hdocument]
  exact hfinalized

end Step

namespace Sample

def written : Step.Moment :=
  (⟨⟨⟨.none, ["Box.md".text]⟩, [], false⟩, ⟨.bare [], []⟩⟩ : Step.Moment).next [] .finalize

def unnamed : MethodView := { method := { name := [] } }

end Sample

open Sample

/-- Two steps that a finalized document does not refuse: the empty text is taken, and a malformed
method is rejected as it is by an open document. -/
theorem Step.sample_late_steps :
    written.document.finalized = true ∧
      ((Step.text []).run [] written.document written.world).outcome = .ok .nothing ∧
      ((Step.methodRow unnamed).run [] written.document written.world).outcome =
        .error (.rejected ⟨[], .name⟩) ∧
      ¬∀ step : Step, step.isLate → ∃ e,
        (step.run [] written.document written.world).outcome = .error (.page (.sink e)) := by
  have htaken : ((Step.text []).run [] written.document written.world).outcome = .ok .nothing := rfl
  refine ⟨by decide +kernel, htaken, by decide +kernel, ?_⟩
  intro hrefused
  obtain ⟨e, he⟩ := hrefused (.text []) (.inl rfl)
  rw [htaken] at he
  cases he

end ApiPages

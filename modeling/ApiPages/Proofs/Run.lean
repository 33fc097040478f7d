import Mathlib.Data.List.Forall2
import ApiPages.Page.Batch
import ApiPages.Proofs.Exits

/-!
Runs that went through. Each says what it needed on the way: a page that was written had a layout
and a document that was finalized, and a batch had every page of its types.
-/
namespace ApiPages

open Job

namespace Page

/-- What a page was made of that went through, and what it left in the log. -/
structure Written (style : PageStyle) (t : TypeEntry) (directory : Path) (before : List LogRecord)
    (r : PageReport) (after : List LogRecord) (b : Body) : Prop where
  laid_out : ∃ here, body style here t = .ok b
  path : ∃ extension, style.fileExtension = .ok extension ∧ r.path = path extension t directory
  drops : r.drops = b.drops
  log : after = before ++ r.drops.map .memberSkipped ++
    [.linesWritten b.lines.length r.path, closingRecord r]

theorem build_written {style : PageStyle} {t : TypeEntry} {directory : Path} {w u : World}
    {r : PageReport} (h : build style t directory w = .ok r u) :
    ∃ b, Written style t directory w.log r u.log b := by
  cases hextension : style.fileExtension with
  | error fault =>
    rw [build_of_fault hextension] at h
    cases h
  | ok extension =>
    have hends : Ends style t (path extension t directory) w (build style t directory w) :=
      build_ends hextension
    rw [h] at hends
    cases hends with
    | @written d v u b hopening hbody hclosing =>
      cases hopening with
      | opened =>
        cases hclosing with
        | written =>
          refine ⟨b, ⟨_, hbody⟩, ⟨extension, hextension, rfl⟩, rfl, ?_⟩
          simp

end Page

namespace Batch

/-- Every type has the report of a build that went through. -/
def Reports (style : PageStyle) (directory : Path) : List TypeEntry → List PageReport → Prop :=
  List.Forall₂ fun t r => ∃ w u, Page.build style t directory w = .ok r u

variable {style : PageStyle} {directory : Path} {total done : Nat} {t : TypeEntry}
  {types rest : List TypeEntry} {reports : List PageReport} {w u : World}

theorem checkPaths_eq_ok_iff {extension : Text} (h : style.fileExtension = .ok extension)
    {taken : List (Path × Text)} :
    checkPaths style directory taken types = .ok () ↔
      (types.map fun t => Page.path extension t directory).Nodup ∧
        ∀ t ∈ types, taken.lookup (Page.path extension t directory) = none := by
  induction types generalizing taken with
  | nil => simp [checkPaths]
  | cons t rest ih =>
    unfold checkPaths
    rw [h]
    dsimp only
    cases htaken : taken.lookup (Page.path extension t directory) with
    | some earlier =>
      constructor
      · intro h
        cases h
      · rintro ⟨-, hfree⟩
        rw [hfree t List.mem_cons_self] at htaken
        cases htaken
    | none =>
      dsimp only
      rw [ih]
      simp only [List.map_cons, List.nodup_cons, List.mem_map, List.mem_cons, forall_eq_or_imp,
        htaken, List.lookup_cons]
      constructor
      · rintro ⟨hnodup, hfree⟩
        refine ⟨⟨?_, hnodup⟩, trivial, fun s hs => ?_⟩
        · rintro ⟨s, hs, hpath⟩
          simpa [hpath] using hfree s hs
        · have hs := hfree s hs
          split at hs
          · cases hs
          · exact hs
      · rintro ⟨⟨hnew, hnodup⟩, -, hfree⟩
        refine ⟨hnodup, fun s hs => ?_⟩
        have hne : Page.path extension s directory ≠ Page.path extension t directory :=
          fun hpath => hnew ⟨s, hs, hpath⟩
        rw [beq_false_of_ne hne]
        exact hfree s hs

/-- The world in which the build goes on when so many pages are there. -/
def progressed (total done : Nat) (w : World) : World :=
  if done % progressStep = 0 then { w with log := w.log ++ [.batchProgress done total] } else w

@[simp] theorem progressed_tree : (progressed total done w).tree = w.tree := by
  unfold progressed
  split <;> rfl

theorem buildAll_cons_of_ok {r : PageReport} {v : World}
    (h : Page.build style t directory w = .ok r v) :
    buildAll style directory total done (t :: rest) w =
      (do
        let others ← buildAll style directory total (done + 1) rest
        return r :: others : Job PageError (List PageReport)) (progressed total (done + 1) v) := by
  rw [buildAll, bind_of_ok h]
  unfold progressed
  split <;> rfl

theorem buildAll_cons_eq_ok_iff :
    buildAll style directory total done (t :: rest) w = .ok reports u ↔
      ∃ r v others, Page.build style t directory w = .ok r v ∧
        buildAll style directory total (done + 1) rest (progressed total (done + 1) v) =
          .ok others u ∧ reports = r :: others := by
  constructor
  · intro h
    cases hbuild : Page.build style t directory w with
    | error e v =>
      rw [buildAll, bind_of_error hbuild] at h
      cases h
    | ok r v =>
      rw [buildAll_cons_of_ok hbuild] at h
      obtain ⟨others, _, hothers, hreports⟩ := bind_ok_iff.mp h
      cases hreports
      exact ⟨r, v, others, rfl, hothers, rfl⟩
  · rintro ⟨r, v, others, hbuild, hothers, rfl⟩
    rw [buildAll_cons_of_ok hbuild, bind_of_ok hothers]
    rfl

theorem write_of_checkPaths (h : checkPaths style directory [] types = .ok ()) (w : World) :
    write style types directory w =
      match buildAll style directory types.length 0 types
          { w with log := w.log ++ [.batchStarted types.length] } with
      | .error e v => .error (.page e) v
      | .ok reports v => .ok reports { v with log := v.log ++ [.batchFinished types.length
          (reports.filter PageReport.degraded).length directory] } := by
  have hread : ofExcept id (Except.ok () : Except BatchError Unit) w = .ok () w := rfl
  have hstarted : (record [.batchStarted types.length] : Job BatchError Unit) w =
    .ok () { w with log := w.log ++ [.batchStarted types.length] } := rfl
  have hget : ∀ v, (get : Job BatchError World) v = .ok v v := fun _ => rfl
  rw [write, h, bind_of_ok hread, bind_of_ok hstarted, bind_of_ok (hget _)]
  cases buildAll style directory types.length 0 types
      { w with log := w.log ++ [.batchStarted types.length] } <;> rfl

theorem write_eq_ok_iff :
    write style types directory w = .ok reports u ↔
      checkPaths style directory [] types = .ok () ∧
        ∃ v, buildAll style directory types.length 0 types
            { w with log := w.log ++ [.batchStarted types.length] } = .ok reports v ∧
          u = { v with log := v.log ++ [.batchFinished types.length
            (reports.filter PageReport.degraded).length directory] } := by
  constructor
  · intro h
    cases hcheck : checkPaths style directory [] types with
    | error e =>
      rw [write, hcheck] at h
      cases h
    | ok _ =>
      rw [write_of_checkPaths hcheck] at h
      split at h
      · cases h
      · rename_i v hbuilt
        cases h
        exact ⟨rfl, v, hbuilt, rfl⟩
  · rintro ⟨hcheck, v, hbuilt, rfl⟩
    rw [write_of_checkPaths hcheck, hbuilt]

theorem buildAll_reports (h : buildAll style directory total done types w = .ok reports u) :
    Reports style directory types reports := by
  induction types generalizing done reports w with
  | nil =>
    cases h
    exact .nil
  | cons t rest ih =>
    obtain ⟨r, v, others, hbuild, hothers, rfl⟩ := buildAll_cons_eq_ok_iff.mp h
    exact .cons ⟨w, v, hbuild⟩ (ih hothers)

theorem write_reports (h : write style types directory w = .ok reports u) :
    Reports style directory types reports := by
  obtain ⟨-, v, hbuilt, -⟩ := write_eq_ok_iff.mp h
  exact buildAll_reports hbuilt

theorem Reports.written (h : Reports style directory types reports) {t : TypeEntry}
    {r : PageReport} (hmem : (t, r) ∈ types.zip reports) :
    ∃ before after b, Page.Written style t directory before r after b := by
  obtain ⟨w, u, hbuild⟩ := List.forall₂_zip h hmem
  exact ⟨w.log, u.log, Page.build_written hbuild⟩

end Batch

end ApiPages

import ApiPages.Proofs.Regeneration

/-!
The log of a batch that went through. It is put together page by page: each page logs its drops, its
document and how it ended, and behind every fiftieth page stands how far the batch is. So every drop
and every degraded page has one warning, and there is no further one.
-/
namespace ApiPages

open Job

namespace Batch

/-- A page as the log of its batch tells of it. -/
structure LoggedPage where
  report : PageReport
  /-- The lines of its document. -/
  lines : Nat
  deriving DecidableEq, Repr

def warningCount (records : List LogRecord) : Nat := records.countP fun r => r.level = .warning

namespace LoggedPage

def records (p : LoggedPage) : List LogRecord :=
  p.report.drops.map .memberSkipped ++ [.linesWritten p.lines p.report.path,
    if p.report.drops = [] then .pageWritten p.report.path
    else .pageDegraded p.report.path p.report.drops.length]

/-- The page is that of a type, as it is laid out from this working directory. -/
structure IsOf (p : LoggedPage) (style : PageStyle) (directory : Path) (here : List Text)
    (t : TypeEntry) : Prop where
  path : ∃ extension, style.fileExtension = .ok extension ∧
    p.report.path = Page.path extension t directory
  laid_out : ∃ b, Page.body style here t = .ok b ∧ p.report.drops = b.drops ∧
    p.lines = b.lines.length

theorem records_eq (path : Path) (b : Body) :
    records ⟨⟨path, b.drops⟩, b.lines.length⟩ = Page.recordsOf path b := by
  rw [records, Page.recordsOf, Page.closingRecord, PageReport.degraded]
  cases b.drops <;> rfl

theorem level_records (p : LoggedPage) :
    p.records.map LogRecord.level = List.replicate p.report.drops.length .warning ++
      [.debug, if p.report.degraded then .warning else .info] := by
  have hskipped : p.report.drops.map (LogRecord.level ∘ LogRecord.memberSkipped) =
      List.replicate p.report.drops.length .warning := List.map_const' ..
  rw [records, List.map_append, List.map_map, hskipped, PageReport.degraded]
  cases p.report.drops <;> rfl

theorem warningCount_records (p : LoggedPage) :
    warningCount p.records = p.report.drops.length + if p.report.degraded then 1 else 0 := by
  have hlevels : warningCount p.records = (p.records.map LogRecord.level).count .warning := by
    rw [warningCount, List.count, List.countP_map]
    rfl
  rw [hlevels, level_records, List.count_append, List.count_replicate_self]
  cases p.report.degraded <;> rfl

theorem progress_not_mem_records (p : LoggedPage) (number total : Nat) :
    LogRecord.batchProgress number total ∉ p.records := by
  intro h
  rw [records, List.mem_append] at h
  rcases h with h | h
  · obtain ⟨d, -, hd⟩ := List.mem_map.mp h
    cases hd
  · split at h <;> simp at h

end LoggedPage

/-- The records of pages that are numbered from here on. -/
def pageRecords (total number : Nat) (pages : List LoggedPage) : List LogRecord :=
  (pages.zipIdx number).flatMap fun e => e.1.records ++ progressRecords total e.2

def batchRecords (directory : Path) (pages : List LoggedPage) : List LogRecord :=
  .batchStarted pages.length :: pageRecords pages.length 1 pages ++
    [.batchFinished pages.length (pages.filter fun p => p.report.degraded).length directory]

theorem length_filter_degraded (pages : List LoggedPage) :
    ((pages.map LoggedPage.report).filter PageReport.degraded).length =
      (pages.filter fun p => p.report.degraded).length := by
  rw [List.filter_map, List.length_map]
  rfl

section Records

variable {total number : Nat} {pages : List LoggedPage}

theorem pageRecords_cons (total number : Nat) (p : LoggedPage) (pages : List LoggedPage) :
    pageRecords total number (p :: pages) =
      p.records ++ progressRecords total number ++ pageRecords total (number + 1) pages := by
  rw [pageRecords, List.zipIdx_cons, List.flatMap_cons]
  rfl

theorem warningCount_progressRecords (total number : Nat) :
    warningCount (progressRecords total number) = 0 := by
  rw [progressRecords]
  split <;> rfl

theorem warningCount_pageRecords (total number : Nat) (pages : List LoggedPage) :
    warningCount (pageRecords total number pages) =
      (pages.flatMap fun p => p.report.drops).length +
        (pages.filter fun p => p.report.degraded).length := by
  induction pages generalizing number with
  | nil => rfl
  | cons p pages ih =>
    have happend : ∀ a b, warningCount (a ++ b) = warningCount a + warningCount b :=
      fun _ _ => List.countP_append
    rw [pageRecords_cons, happend, happend, ih, warningCount_progressRecords,
      p.warningCount_records, List.flatMap_cons, List.length_append, List.filter_cons]
    by_cases hp : p.report.degraded = true
    · rw [if_pos hp, if_pos hp, List.length_cons]
      omega
    · rw [if_neg hp, if_neg hp]
      omega

theorem progress_mem_progressRecords_iff {k n : Nat} :
    .batchProgress k n ∈ progressRecords total number ↔ n = total ∧ k = number ∧ 50 ∣ number := by
  have hstep : number % progressStep = 0 ↔ 50 ∣ number := Nat.dvd_iff_mod_eq_zero.symm
  rw [progressRecords, ← hstep]
  split <;> simp_all [and_comm]

theorem progress_mem_pageRecords_iff {k n : Nat} :
    .batchProgress k n ∈ pageRecords total number pages ↔
      n = total ∧ number ≤ k ∧ k < number + pages.length ∧ 50 ∣ k := by
  induction pages generalizing number with
  | nil =>
    simp only [pageRecords, List.zipIdx_nil, List.flatMap_nil, List.not_mem_nil, List.length_nil,
      false_iff]
    omega
  | cons p pages ih =>
    have hp := p.progress_not_mem_records k n
    rw [pageRecords_cons, List.mem_append, List.mem_append, ih, progress_mem_progressRecords_iff,
      List.length_cons]
    constructor
    · rintro ((hrecord | ⟨rfl, rfl, hmultiple⟩) | ⟨rfl, hfrom, hto, hmultiple⟩)
      · exact absurd hrecord hp
      · exact ⟨rfl, Nat.le_refl _, by omega, hmultiple⟩
      · exact ⟨rfl, by omega, by omega, hmultiple⟩
    · rintro ⟨rfl, hfrom, hto, hmultiple⟩
      by_cases hk : k = number
      · subst hk
        exact .inl (.inr ⟨rfl, rfl, hmultiple⟩)
      · exact .inr ⟨rfl, by omega, by omega, hmultiple⟩

end Records

section Run

variable {style : PageStyle} {directory : Path} {total done : Nat} {types : List TypeEntry}
  {reports : List PageReport} {w u : World}

theorem page_logged {t : TypeEntry} {r : PageReport}
    (h : Page.build style t directory w = .ok r u) :
    ∃ p : LoggedPage, p.IsOf style directory w.tree.workingDirectory t ∧ p.report = r ∧
      u.log = w.log ++ p.records ∧ u.tree.workingDirectory = w.tree.workingDirectory := by
  obtain ⟨⟨extension, hextension, -⟩, -⟩ := (Page.build_effect style t directory w).written r u h
  obtain ⟨hsettled, rfl, hlog⟩ := Page.settled_of_build hextension h
  refine ⟨⟨_, (Page.layoutFrom style t w.tree.workingDirectory).lines.length⟩, ?_, rfl, ?_, ?_⟩
  · exact ⟨⟨extension, hextension, rfl⟩, _, hsettled.ready.laid_out, rfl, rfl⟩
  · rw [LoggedPage.records_eq, hlog]
  · exact hsettled.directories.workingDirectory

theorem pages_logged (h : buildAll style directory total done types w = .ok reports u) :
    ∃ pages : List LoggedPage,
      List.Forall₂ (fun t (p : LoggedPage) => p.IsOf style directory w.tree.workingDirectory t)
        types pages ∧
      pages.map LoggedPage.report = reports ∧
      u.log = w.log ++ pageRecords total (done + 1) pages := by
  induction types generalizing done w reports with
  | nil =>
    cases h
    exact ⟨[], .nil, rfl, (List.append_nil _).symm⟩
  | cons t rest ih =>
    obtain ⟨r, v, others, hbuild, hothers, rfl⟩ := buildAll_cons_eq_ok_iff.mp h
    obtain ⟨p, hp, hreport, hlog, hhere⟩ := page_logged hbuild
    obtain ⟨pages, hpages, hreports, hlater⟩ := ih hothers
    rw [progressed_eq] at hpages hlater
    rw [hhere] at hpages
    refine ⟨p :: pages, .cons hp hpages, ?_, ?_⟩
    · rw [List.map_cons, hreport, hreports]
    · rw [hlater, hlog, pageRecords_cons]
      simp only [List.append_assoc]

/-- What the log tells of a batch, its reports and its types. -/
structure Accounted (style : PageStyle) (types : List TypeEntry) (directory : Path)
    (here : List Text) (reports : List PageReport) (pages : List LoggedPage)
    (logged : List LogRecord) : Prop where
  total : pages.length = types.length
  each_type : List.Forall₂ (fun t (p : LoggedPage) => p.IsOf style directory here t) types pages
  each_report : pages.map LoggedPage.report = reports
  in_order : logged = batchRecords directory pages
  levels : ∀ p ∈ pages, p.records.map LogRecord.level =
    List.replicate p.report.drops.length .warning ++
      [.debug, if p.report.degraded then .warning else .info]
  progress_iff : ∀ k n, LogRecord.batchProgress k n ∈ logged ↔
    n = types.length ∧ 0 < k ∧ k ≤ types.length ∧ 50 ∣ k
  warnings : warningCount logged =
    (reports.flatMap PageReport.drops).length + (reports.filter PageReport.degraded).length

theorem accounted {here : List Text} {pages : List LoggedPage}
    (hpages : List.Forall₂ (fun t (p : LoggedPage) => p.IsOf style directory here t) types pages) :
    Accounted style types directory here (pages.map LoggedPage.report) pages
      (batchRecords directory pages) where
  total := hpages.length_eq.symm
  each_type := hpages
  each_report := rfl
  in_order := rfl
  levels p _ := p.level_records
  progress_iff := by
    intro k n
    have hpage : LogRecord.batchProgress k n ∈ batchRecords directory pages ↔
        .batchProgress k n ∈ pageRecords pages.length 1 pages := by
      simp [batchRecords]
    rw [hpage, progress_mem_pageRecords_iff, hpages.length_eq]
    omega
  warnings := by
    have hends : warningCount (batchRecords directory pages) =
        warningCount (pageRecords pages.length 1 pages) := by
      simp [warningCount, batchRecords, LogRecord.level]
    rw [hends, warningCount_pageRecords, List.flatMap_map, length_filter_degraded]

/-- The log of a batch that went through has a record at either end and, page by page, all that was
dropped and how each page ended. -/
theorem batch_log_accounts (h : write style types directory w = .ok reports u) :
    ∃ pages logged, u.log = w.log ++ logged ∧
      Accounted style types directory w.tree.workingDirectory reports pages logged := by
  obtain ⟨-, v, hbuilt, rfl⟩ := write_eq_ok_iff.mp h
  obtain ⟨pages, hpages, rfl, hlog⟩ := pages_logged hbuilt
  refine ⟨pages, batchRecords directory pages, ?_, accounted hpages⟩
  rw [hlog, length_filter_degraded, hpages.length_eq, batchRecords]
  simp

end Run

end Batch

namespace Sample

def uneven : TypeEntry where
  name := "Uneven".text
  package := "lib".text
  methods := [{ name := "run".text }, { name := [] }]
  fields := [{ name := "size".text, type := [' '.code] }]

def fifty : List TypeEntry :=
  uneven :: (List.range 49).map fun n => { name := 'T'.code :: Text.ofNat n, package := "lib".text }

theorem outcome?_fifty :
    (Job.outcome? (Batch.write ({} : Context).style fifty site) ⟨.bare ["srv".text], []⟩).map
      (fun reports => ((reports.flatMap PageReport.drops).length,
        (reports.filter PageReport.degraded).length)) = some (3, 1) := by decide +kernel

end Sample

open Sample

theorem sample_batch_log :
    ∃ reports u, Batch.write ({} : Context).style fifty site ⟨.bare ["srv".text], []⟩ =
        .ok reports u ∧
      ∃ pages logged, u.log = [] ++ logged ∧
        Batch.Accounted ({} : Context).style fifty site ["srv".text] reports pages logged ∧
        Batch.warningCount logged = 4 ∧ LogRecord.batchProgress 50 50 ∈ logged := by
  obtain ⟨reports, hreports, hcounts⟩ := Option.map_eq_some_iff.mp outcome?_fifty
  obtain ⟨hdrops, hdegraded⟩ := Prod.mk.inj hcounts
  obtain ⟨u, h⟩ := Job.outcome?_eq_some_iff.mp hreports
  obtain ⟨pages, logged, hlog, haccounted⟩ := Batch.batch_log_accounts h
  refine ⟨reports, u, h, pages, logged, hlog, haccounted, ?_, ?_⟩
  · rw [haccounted.warnings, hdrops, hdegraded]
  · exact (haccounted.progress_iff 50 50).mpr (by decide)

end ApiPages

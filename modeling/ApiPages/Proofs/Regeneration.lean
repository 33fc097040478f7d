import ApiPages.Proofs.BatchPlaces

/-!
A batch written once more. After a batch went through, every page is ready to be built again, and a
second run writes the entries that are there: of the pages in one place the last one wins again. So
the second run reports and logs what the first one did and leaves the tree as it was.
-/
namespace ApiPages

open Job FileTree

namespace FileTree

section Put

variable {place other : List Text} {e f : Entry} {entries : List (List Text × Entry)}

theorem put_put : put place e (put place f entries) = put place e entries := by
  induction entries with
  | nil => simp [put]
  | cons head rest ih =>
    obtain ⟨q, old⟩ := head
    by_cases hq : q = place
    · simp [put, hq]
    · simp [put, hq, ih]

theorem put_of_lookup (h : entries.lookup place = some e) : put place e entries = entries := by
  induction entries with
  | nil => cases h
  | cons head rest ih =>
    obtain ⟨q, old⟩ := head
    rw [lookup_entry_cons] at h
    rw [put]
    by_cases hq : q = place
    · rw [if_pos hq.symm] at h
      rw [if_pos hq, Option.some.inj h]
    · rw [if_neg (Ne.symm hq)] at h
      rw [if_neg hq, ih h]

theorem put_comm (hne : place ≠ other) (hthere : entries.lookup place ≠ none) :
    put other f (put place e entries) = put place e (put other f entries) := by
  induction entries with
  | nil => exact absurd rfl hthere
  | cons head rest ih =>
    obtain ⟨q, old⟩ := head
    by_cases hplace : q = place
    · simp [put, hplace, hne]
    · rw [lookup_entry_cons, if_neg (Ne.symm hplace)] at hthere
      by_cases hother : q = other
      · simp [put, hother, hne.symm]
      · simp [put, hplace, hother, ih hthere]

end Put

variable {t : FileTree} {place other : List Text} {e f : Entry}

theorem set_set : (t.set place f).set place e = t.set place e := by
  rw [set, set, set, put_put]

theorem get?_of_ne_root (hplace : place ≠ []) : t.get? place = t.entries.lookup place := by
  rw [get?, if_neg (by simpa using hplace)]

theorem set_of_get? (hplace : place ≠ []) (h : t.get? place = some e) : t.set place e = t := by
  rw [get?_of_ne_root hplace] at h
  rw [set, put_of_lookup h]

theorem get?_set_of_ne (hne : place ≠ other) : (t.set other e).get? place = t.get? place := by
  cases place with
  | nil => rfl
  | cons name rest => simp [get?, set, lookup_put, hne]

theorem set_comm (hplace : place ≠ []) (hne : place ≠ other) (hthere : t.get? place ≠ none) :
    (t.set place e).set other f = (t.set other f).set place e := by
  rw [get?_of_ne_root hplace] at hthere
  rw [set, set, set, set, put_comm hne hthere]

end FileTree

open Page (placeFrom octetsFrom layoutFrom recordsOf Ready)

namespace Batch

def progressRecords (total done : Nat) : List LogRecord :=
  if done % progressStep = 0 then [.batchProgress done total] else []

theorem progressed_eq (total done : Nat) (w : World) :
    progressed total done w = ⟨w.tree, w.log ++ progressRecords total done⟩ := by
  unfold progressed progressRecords
  split
  · rfl
  · rw [List.append_nil]

section ClosedForm

variable (style : PageStyle) (extension : Text) (directory : Path) (here : List Text)

def reportFrom (t : TypeEntry) : PageReport :=
  ⟨Page.path extension t directory, (layoutFrom style t here).drops⟩

def recordsFrom (total done : Nat) : List TypeEntry → List LogRecord
  | [] => []
  | t :: rest =>
    recordsOf (Page.path extension t directory) (layoutFrom style t here) ++
      progressRecords total (done + 1) ++ recordsFrom total (done + 1) rest

/-- The tree with the page of every type put to its place, one after the other. -/
def putPages (types : List TypeEntry) (tree : FileTree) : FileTree :=
  types.foldl
    (fun tree t =>
      tree.set (placeFrom extension directory here t) (.file (octetsFrom style t here))) tree

end ClosedForm

section Again

variable {style : PageStyle} {extension : Text} {directory : Path} {here : List Text}
  {total done : Nat} {types : List TypeEntry} {reports : List PageReport} {w u : World}

theorem putPages_set {place : List Text} {e : Entry} (hplace : place ≠ []) {tree : FileTree}
    (hthere : tree.get? place ≠ none)
    (hlater : ∃ t ∈ types, placeFrom extension directory here t = place) :
    putPages style extension directory here types (tree.set place e) =
      putPages style extension directory here types tree := by
  induction types generalizing tree with
  | nil =>
    obtain ⟨t, ht, -⟩ := hlater
    cases ht
  | cons t rest ih =>
    rw [putPages, putPages, List.foldl_cons, List.foldl_cons]
    by_cases ht : placeFrom extension directory here t = place
    · rw [ht, set_set]
    · rw [set_comm hplace (Ne.symm ht) hthere]
      refine ih ?_ ?_
      · rwa [get?_set_of_ne (Ne.symm ht)]
      · obtain ⟨s, hs, hsame⟩ := hlater
        rcases List.mem_cons.mp hs with rfl | hs
        · exact absurd hsame ht
        · exact ⟨s, hs, hsame⟩

theorem putPages_eq_self {tree : FileTree}
    (hfile : ∀ t ∈ types, ∃ octets,
      tree.get? (placeFrom extension directory here t) = some (.file octets))
    (hlast : ∀ earlier t later, types = earlier ++ t :: later →
      (∀ r ∈ later, placeFrom extension directory here t ≠ placeFrom extension directory here r) →
      tree.get? (placeFrom extension directory here t) = some (.file (octetsFrom style t here))) :
    putPages style extension directory here types tree = tree := by
  induction types with
  | nil => rfl
  | cons t rest ih =>
    obtain ⟨⟨octets, ht⟩, hrest⟩ := List.forall_mem_cons.mp hfile
    have hplace : placeFrom extension directory here t ≠ [] :=
      ne_root_of_get? (t := tree) (by simp [ht])
    have hpages := ih hrest fun earlier s later hsplit =>
      hlast (t :: earlier) s later (by rw [hsplit, List.cons_append])
    -- a page that is overwritten later may find another text in its place
    by_cases hlater : ∃ r ∈ rest, placeFrom extension directory here r =
        placeFrom extension directory here t
    · exact (putPages_set hplace (by simp [ht]) hlater).trans hpages
    · have hown := hlast [] t rest rfl fun r hr hsame => hlater ⟨r, hr, hsame.symm⟩
      have hset := set_of_get? hplace hown
      rw [putPages, List.foldl_cons, hset]
      exact hpages

theorem ready_set {t r : TypeEntry} {tree : FileTree}
    (ht : Ready style t (Page.path extension t directory) here tree)
    (hr : Ready style r (Page.path extension r directory) here tree) :
    Ready style r (Page.path extension r directory) here
      (tree.set (placeFrom extension directory here t) (.file (octetsFrom style t here))) := by
  refine hr.later (hasDirectoriesOf_set (openAt_eq_ok_iff.mp ht.opened).2 _) ?_
  rw [placeFrom, get?_set (ne_root_of_get? (openAt_eq_ok_iff.mp ht.opened).2)]
  split
  · simp
  · exact (openAt_eq_ok_iff.mp hr.opened).2

theorem buildAll_of_ready (hextension : style.fileExtension = .ok extension) (total done : Nat)
    (h : ∀ t ∈ types, Ready style t (Page.path extension t directory) here w.tree) :
    buildAll style directory total done types w =
      .ok (types.map (reportFrom style extension directory here))
        ⟨putPages style extension directory here types w.tree,
          w.log ++ recordsFrom style extension directory here total done types⟩ := by
  induction types generalizing done w with
  | nil =>
    rw [recordsFrom, List.append_nil]
    rfl
  | cons t rest ih =>
    obtain ⟨ht, hrest⟩ := List.forall_mem_cons.mp h
    have hothers := ih (done + 1)
      (w := progressed total (done + 1)
        ⟨w.tree.set (placeFrom extension directory here t) (.file (octetsFrom style t here)),
          w.log ++ recordsOf (Page.path extension t directory) (layoutFrom style t here)⟩)
      (by
        rw [progressed_tree]
        exact fun r hr => ready_set ht (hrest r hr))
    have hbuild := Page.build_of_ready hextension ht
    refine buildAll_cons_eq_ok_iff.mpr ⟨_, _, _, hbuild, hothers.trans ?_, rfl⟩
    rw [progressed_eq, recordsFrom]
    simp only [List.append_assoc]
    rfl

theorem buildAll_closed_form (hextension : style.fileExtension = .ok extension)
    (h : buildAll style directory total done types w = .ok reports u) :
    reports = types.map (reportFrom style extension directory w.tree.workingDirectory) ∧
      u.log = w.log ++
        recordsFrom style extension directory w.tree.workingDirectory total done types := by
  induction types generalizing done w reports with
  | nil =>
    cases h
    exact ⟨rfl, by rw [recordsFrom, List.append_nil]⟩
  | cons t rest ih =>
    obtain ⟨r, v, others, hbuild, hothers, rfl⟩ := buildAll_cons_eq_ok_iff.mp h
    obtain ⟨hsettled, hr, hlog⟩ := Page.settled_of_build hextension hbuild
    obtain ⟨hreports, hrecords⟩ := ih hothers
    rw [progressed_eq, hsettled.directories.workingDirectory] at hreports hrecords
    refine ⟨by rw [hr, hreports, List.map_cons, reportFrom], ?_⟩
    rw [hrecords, hlog, recordsFrom]
    simp only [List.append_assoc]

/-- After a run of builds, the same run once more. -/
theorem buildAll_again (h : buildAll style directory total done types w = .ok reports u) :
    ∃ records, u.log = w.log ++ records ∧ ∀ log,
      buildAll style directory total done types ⟨u.tree, log⟩ =
        .ok reports ⟨u.tree, log ++ records⟩ := by
  cases types with
  | nil =>
    cases h
    exact ⟨[], (List.append_nil _).symm, fun log => by rw [List.append_nil]; rfl⟩
  | cons t rest =>
    obtain ⟨r, v, _, hbuild, -, -⟩ := buildAll_cons_eq_ok_iff.mp h
    obtain ⟨⟨extension, hextension, -⟩, -⟩ := (Page.build_effect _ _ _ _).written r v hbuild
    have hleft := left_of_buildAll hextension h
    obtain ⟨rfl, hlog⟩ := buildAll_closed_form hextension h
    refine ⟨_, hlog, fun log => ?_⟩
    rw [buildAll_of_ready hextension total done (w := ⟨u.tree, log⟩) hleft.ready,
      putPages_eq_self hleft.file hleft.last]

/-- A batch that went through goes through again, with the same reports and the same records in the
log, and leaves the tree as it finds it. -/
theorem regeneration_changes_nothing (h : write style types directory w = .ok reports u) :
    ∃ records, u.log = w.log ++ records ∧ ∀ log,
      write style types directory ⟨u.tree, log⟩ = .ok reports ⟨u.tree, log ++ records⟩ := by
  obtain ⟨hcheck, v, hbuilt, rfl⟩ := write_eq_ok_iff.mp h
  obtain ⟨records, hlog, hagain⟩ := buildAll_again hbuilt
  refine ⟨.batchStarted types.length :: records ++ [.batchFinished types.length
    (reports.filter PageReport.degraded).length directory], ?_, fun log => ?_⟩
  · simp [hlog]
  · refine write_eq_ok_iff.mpr ⟨hcheck, _, hagain _, ?_⟩
    simp

end Again

end Batch

open Sample

theorem sample_regeneration :
    ∃ u, Batch.write ({} : Context).style [plain, detour, outside] site ⟨.bare ["srv".text], []⟩ =
        .ok [pageOf plain, pageOf detour, pageOf outside] u ∧
      ∃ records, u.log = records ∧ ∀ log,
        Batch.write ({} : Context).style [plain, detour, outside] site ⟨u.tree, log⟩ =
          .ok [pageOf plain, pageOf detour, pageOf outside] ⟨u.tree, log ++ records⟩ := by
  obtain ⟨u, h⟩ := Job.outcome?_eq_some_iff.mp outcome?_meeting
  obtain ⟨records, hlog, hagain⟩ := Batch.regeneration_changes_nothing h
  exact ⟨u, h, records, hlog, hagain⟩

end ApiPages

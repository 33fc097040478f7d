import ApiPages.Proofs.BatchLinks
import ApiPages.Proofs.Dependence
import ApiPages.Proofs.Effect

/-!
Batches that fail on the way. What is logged between the builds is seen by no build, so the batch
fails at the page at which the builds one after the other first fail, with the same error and the
same tree. That page has added directories at most, unless its file was opened before it failed, and
the later ones nothing; so the other files are those of the pages before it.
-/
namespace ApiPages

open Job FileTree

namespace Page

theorem sameLines_self (b : Except Stop Body) : SameLines Eq b b := by
  cases b with
  | ok b => exact .ok rfl
  | error stop => exact .error

theorem build_alike_self (style : PageStyle) (t : TypeEntry) (directory : Path) {w u : World}
    (h : w.tree = u.tree) :
    Alike Eq (build style t directory w) (build style t directory u) := by
  have halike := build_alike rfl (fun here => sameLines_self (body style here t)) directory h
  generalize build style t directory w = r at halike
  generalize build style t directory u = s at halike
  cases halike with
  | @ok r s _ _ hreports htree =>
    obtain ⟨hpath, hdrops⟩ := hreports
    have hsame : r = s := by
      cases r
      cases s
      rw [PageReport.mk.injEq]
      exact ⟨hpath, hdrops⟩
    exact .ok hsame htree
  | error htree => exact .error htree

end Page

namespace Batch

variable {style : PageStyle} {directory : Path} {before after : List TypeEntry} {t : TypeEntry}
  {reports : List PageReport} {e : PageError} {w u v x : World}

/-- Where builds one after the other come to a page that fails, the batch comes to it too. -/
theorem buildAll_fails (total done : Nat) (after : List TypeEntry) (htree : w.tree = u.tree)
    (hbefore : (before.mapM fun t => Page.build style t directory) u = .ok reports v)
    (hfails : Page.build style t directory v = .error e x) :
    ∃ y, buildAll style directory total done (before ++ t :: after) w = .error e y ∧
      y.tree = x.tree := by
  -- the batch has logged more on its way, but both have the same tree
  induction before generalizing done w u reports with
  | nil =>
    cases hbefore
    have halike := Page.build_alike_self style t directory htree
    rw [hfails] at halike
    generalize hbuild : Page.build style t directory w = result at halike
    cases halike with
    | error hsame => exact ⟨_, bind_of_error hbuild, hsame⟩
  | cons s before ih =>
    rw [List.mapM_cons] at hbefore
    obtain ⟨r, first, hfirst, hrest⟩ := bind_ok_iff.mp hbefore
    obtain ⟨others, last, hothers, hlast⟩ := bind_ok_iff.mp hrest
    cases hlast
    have halike := Page.build_alike_self style s directory htree
    rw [hfirst] at halike
    generalize hbuild : Page.build style s directory w = result at halike
    cases halike with
    | ok hreport hsame =>
      obtain ⟨y, hy, hytree⟩ := ih (done + 1) (progressed_tree.trans hsame) hothers
      exact ⟨y, (buildAll_cons_of_ok hbuild).trans (bind_of_error hy), hytree⟩

/-- What a batch leaves behind that fails at the page with this text and this path, seen from what
the pages before it have left. -/
structure KeepsPagesBefore (text : Text) (p : Path) (e : PageError) (v u : FileTree) : Prop where
  files : ∀ place content, u.locate p ≠ .ok place ∨ ¬Page.late text p e →
    (u.get? place = some (.file content) ↔ v.get? place = some (.file content))
  unfinished : Page.Unfinished text p v u e

/-- A batch whose pages have paths of their own fails where builds one after the other first fail,
with the same error, and leaves the files that the pages before have left. The page that fails has
added at most directories on the way to it, unless its own file was opened before, and the later
ones nothing. -/
theorem failure_keeps_pages_before
    (hpaths : ∀ extension, style.fileExtension = .ok extension →
      ((before ++ t :: after).map fun t => Page.path extension t directory).Nodup)
    (hbefore : (before.mapM fun t => Page.build style t directory) w = .ok reports v)
    (hfails : Page.build style t directory v = .error e x) :
    ∃ u, write style (before ++ t :: after) directory w = .error (.page e) u ∧
      ∃ p, (∀ extension, style.fileExtension = .ok extension →
          p = Page.path extension t directory) ∧
        KeepsPagesBefore (Page.textFrom style t v.tree.workingDirectory) p e v.tree u.tree := by
  obtain ⟨p, hp, hunfinished⟩ := (Page.build_effect style t directory v).failed e x hfails
  suffices h : ∃ u, write style (before ++ t :: after) directory w = .error (.page e) u ∧
      u.tree = x.tree by
    obtain ⟨u, hwrite, htree⟩ := h
    rw [← htree] at hunfinished
    exact ⟨u, hwrite, p, hp, fun _ _ => hunfinished.file_iff, hunfinished⟩
  cases hextension : style.fileExtension with
  | ok extension =>
    have hcheck : checkPaths style directory [] (before ++ t :: after) = .ok () :=
      (checkPaths_eq_ok_iff hextension).mpr ⟨hpaths extension hextension, fun _ _ => rfl⟩
    obtain ⟨u, hbuilt, htree⟩ := buildAll_fails (before ++ t :: after).length 0 after
      (w := { w with log := w.log ++ [.batchStarted (before ++ t :: after).length] })
      (u := w) rfl hbefore hfails
    exact ⟨u, by rw [write_of_checkPaths hcheck, hbuilt], htree⟩
  | error fault =>
    have hrefused : ∀ s w, Page.build style s directory w = .error (.fault fault) w :=
      fun s w => Page.build_of_fault hextension
    cases before with
    | nil =>
      cases hbefore
      rw [hrefused] at hfails
      cases hfails
      refine ⟨w, ?_, rfl⟩
      rw [write, List.nil_append, checkPaths, hextension]
      rfl
    | cons s before =>
      rw [List.mapM_cons, bind_of_error (hrefused s w)] at hbefore
      cases hbefore

end Batch

namespace Sample

def belowBase : TypeEntry := { name := "Base.md/Inner".text, package := [] }

def belowBasePath : Path := Page.path ({} : Context).fileExtension belowBase site

def prepared : World :=
  ⟨((FileTree.bare ["srv".text]).set ["srv".text, "site".text] .directory).set
    ["srv".text, "site".text, "Heir.md".text] (.file [35]), []⟩

theorem nodup_paths (types : List TypeEntry)
    (h : (types.map fun t => Page.path ({} : Context).fileExtension t site).Nodup)
    (extension : Text) (hextension : ({} : Context).style.fileExtension = .ok extension) :
    (types.map fun t => Page.path extension t site).Nodup := by
  cases hextension
  exact h

theorem outcome?_base :
    outcome? ([base].mapM fun t => Page.build ({} : Context).style t site) prepared =
      some [pageOf base] := by decide +kernel

theorem failure?_belowBase :
    failure? (do
      let _ ← [base].mapM fun t => Page.build ({} : Context).style t site
      Page.build ({} : Context).style belowBase site) prepared =
        some (.sink (.cannotCreate belowBasePath ⟨.exists, belowBasePath.parent⟩)) := by
  decide +kernel

def brokenHeir : TypeEntry := { name := "Heir".text, package := [], comment := [.ofNat 0xD800] }

def brokenHeirPath : Path := Page.path ({} : Context).fileExtension brokenHeir site

def brokenHeirError : PageError :=
  .fault (.notEncodable (Page.textFrom ({} : Context).style brokenHeir ["srv".text]))

end Sample

open Sample

theorem sample_failure_on_the_way :
    ∃ v x u, (∀ extension, ({} : Context).style.fileExtension = .ok extension →
        (([base] ++ belowBase :: [heir]).map fun t => Page.path extension t site).Nodup) ∧
      ([base].mapM fun t => Page.build ({} : Context).style t site) prepared =
        .ok [pageOf base] v ∧
      Page.build ({} : Context).style belowBase site v =
        .error (.sink (.cannotCreate belowBasePath ⟨.exists, belowBasePath.parent⟩)) x ∧
      Batch.write ({} : Context).style ([base] ++ belowBase :: [heir]) site prepared =
        .error (.page (.sink (.cannotCreate belowBasePath ⟨.exists, belowBasePath.parent⟩))) u ∧
      Batch.KeepsPagesBefore (Page.textFrom ({} : Context).style belowBase v.tree.workingDirectory)
        belowBasePath (.sink (.cannotCreate belowBasePath ⟨.exists, belowBasePath.parent⟩)) v.tree
        u.tree := by
  have hpaths := nodup_paths ([base] ++ belowBase :: [heir]) (by decide +kernel)
  obtain ⟨v, hbefore⟩ := outcome?_eq_some_iff.mp outcome?_base
  obtain ⟨x, hfails⟩ := failure?_eq_some_iff.mp failure?_belowBase
  rw [bind_of_ok hbefore] at hfails
  obtain ⟨u, hwrite, p, hp, hkeeps⟩ := Batch.failure_keeps_pages_before hpaths hbefore hfails
  obtain rfl := hp _ rfl
  exact ⟨v, x, u, hpaths, hbefore, hfails, hwrite, hkeeps⟩

/-- The second of two pages fails, and its file is emptied. -/
theorem sample_failing_page_is_emptied :
    ∃ v x u e, (∀ extension, ({} : Context).style.fileExtension = .ok extension →
        (([base] ++ brokenHeir :: []).map fun t => Page.path extension t site).Nodup) ∧
      ([base].mapM fun t => Page.build ({} : Context).style t site) prepared =
        .ok [pageOf base] v ∧
      Page.build ({} : Context).style brokenHeir site v = .error e x ∧
      Batch.write ({} : Context).style ([base] ++ brokenHeir :: []) site prepared =
        .error (.page e) u ∧
      v.tree.readFile brokenHeirPath = .ok [35] ∧ u.tree.readFile brokenHeirPath = .ok [] := by
  have hpaths := nodup_paths ([base] ++ brokenHeir :: []) (by decide +kernel)
  have hbefore := eq_ok_of_outcome? outcome?_base
  have hfails : failure? (Page.build ({} : Context).style brokenHeir site)
      (after ([base].mapM fun t => Page.build ({} : Context).style t site) prepared) =
        some brokenHeirError := by decide +kernel
  have hwrite : failure? (Batch.write ({} : Context).style ([base] ++ brokenHeir :: []) site)
      prepared = some (.page brokenHeirError) := by decide +kernel
  exact ⟨_, _, _, _, hpaths, hbefore, eq_error_of_failure? hfails, eq_error_of_failure? hwrite,
    by decide +kernel, by decide +kernel⟩

end ApiPages

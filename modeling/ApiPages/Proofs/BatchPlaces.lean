import ApiPages.Proofs.Ready

/-!
Where the pages of a batch lie, and whose text is found there. Two types are refused one file only
when their paths have the same parts. A name that only goes down keeps its page below the directory
and apart from the others; one with steps up, or one that starts at the root, may lead out of the
directory or to the page of another type, and of the pages in one place the last one stays.
-/
namespace ApiPages

open Job FileTree

namespace Lexical

/-- The name leads down from where it is taken: not nowhere, not up, not to the root. -/
structure GoesDown (name : Text) : Prop extends Descends name where
  ne_nil : components name ≠ []

end Lexical

open Lexical (GoesDown components)

namespace Page

def placeFrom (extension : Text) (directory : Path) (here : List Text) (t : TypeEntry) :
    List Text :=
  (path extension t directory).lexical here

theorem placeFrom_of_goesDown {extension : Text} {t : TypeEntry}
    (h : GoesDown (pageName extension t.name)) (directory : Path) (here : List Text) :
    placeFrom extension directory here t =
      directory.lexical here ++ components (pageName extension t.name) := by
  rw [placeFrom, path, Path.append_of_relative h.relative, Path.lexical, List.foldl_append,
    Lexical.foldl_enter_of_down h.down]
  rfl

theorem path_eq_of_placeFrom_eq {extension : Text} {t r : TypeEntry} {directory : Path}
    {here : List Text} (ht : GoesDown (pageName extension t.name))
    (hr : GoesDown (pageName extension r.name))
    (h : placeFrom extension directory here t = placeFrom extension directory here r) :
    path extension t directory = path extension r directory := by
  rw [placeFrom_of_goesDown ht, placeFrom_of_goesDown hr] at h
  rw [path, path, Path.append_of_relative ht.relative, Path.append_of_relative hr.relative,
    List.append_cancel_left h]

end Page

open Page (placeFrom octetsFrom textFrom Ready)

namespace Batch

section Builds

variable {style : PageStyle} {extension : Text} {directory : Path} {total done : Nat}
  {types : List TypeEntry} {reports : List PageReport} {w u : World}

/-- What a run of builds leaves in the tree. -/
structure Left (style : PageStyle) (extension : Text) (directory : Path) (here : List Text)
    (types : List TypeEntry) (before after : FileTree) : Prop where
  ready : ∀ t ∈ types, Ready style t (Page.path extension t directory) here after
  file : ∀ t ∈ types, ∃ octets,
    after.get? (placeFrom extension directory here t) = some (.file octets)
  directories : after.HasDirectoriesOf before
  files : ∀ place octets, before.get? place = some (.file octets) →
    ∃ octets, after.get? place = some (.file octets)
  elsewhere : ∀ place e, (∀ t ∈ types, place ≠ placeFrom extension directory here t) →
    before.get? place = some e → after.get? place = some e
  last : ∀ earlier t later, types = earlier ++ t :: later →
    (∀ r ∈ later, placeFrom extension directory here t ≠ placeFrom extension directory here r) →
    after.get? (placeFrom extension directory here t) =
      some (.file (octetsFrom style t here))

theorem left_nil (here : List Text) (tree : FileTree) :
    Left style extension directory here [] tree tree where
  ready t ht := absurd ht List.not_mem_nil
  file t ht := absurd ht List.not_mem_nil
  directories := hasDirectoriesOf_self tree
  files _ octets h := ⟨octets, h⟩
  elsewhere _ _ _ h := h
  last earlier t later h := by simp at h

theorem left_cons {here : List Text} {t : TypeEntry} {before middle after : FileTree}
    (hwd : before.workingDirectory = here)
    (h : Page.Settled style t (Page.path extension t directory) before middle)
    (hrest : Left style extension directory here types middle after) :
    Left style extension directory here (t :: types) before after := by
  obtain ⟨hready, hwritten, hdirectories, helsewhere⟩ := h
  rw [hwd] at hready hwritten helsewhere
  have hfiles : ∀ place octets, before.get? place = some (.file octets) →
      ∃ octets, middle.get? place = some (.file octets) := by
    intro place octets hplace
    by_cases hpage : place = placeFrom extension directory here t
    · rw [hpage]
      exact ⟨_, hwritten⟩
    · exact ⟨octets, helsewhere place _ hpage hplace⟩
  have hfile := hrest.files _ _ hwritten
  refine ⟨List.forall_mem_cons.mpr ⟨?_, hrest.ready⟩, List.forall_mem_cons.mpr ⟨hfile, hrest.file⟩,
    hrest.directories.trans hdirectories, ?_, ?_, ?_⟩
  · obtain ⟨octets, hfile⟩ := hfile
    exact hready.later hrest.directories (by simp [hfile])
  · intro place octets hplace
    obtain ⟨octets, hmiddle⟩ := hfiles place octets hplace
    exact hrest.files place octets hmiddle
  · intro place e hne hplace
    obtain ⟨ht, hothers⟩ := List.forall_mem_cons.mp hne
    exact hrest.elsewhere place e hothers (helsewhere place e ht hplace)
  · intro earlier s later hsplit hlater
    cases earlier with
    | nil =>
      cases hsplit
      exact hrest.elsewhere _ _ hlater hwritten
    | cons first earlier =>
      cases hsplit
      exact hrest.last earlier s later rfl hlater

theorem left_of_buildAll (hextension : style.fileExtension = .ok extension)
    (h : buildAll style directory total done types w = .ok reports u) :
    Left style extension directory w.tree.workingDirectory types w.tree u.tree := by
  induction types generalizing done w reports with
  | nil =>
    cases h
    exact left_nil _ _
  | cons t rest ih =>
    obtain ⟨r, v, others, hbuild, hothers, -⟩ := buildAll_cons_eq_ok_iff.mp h
    have hsettled := (Page.settled_of_build hextension hbuild).1
    have hrest := ih hothers
    rw [progressed_tree, hsettled.directories.workingDirectory] at hrest
    exact left_cons rfl hsettled hrest

theorem left_of_write (hextension : style.fileExtension = .ok extension)
    (h : write style types directory w = .ok reports u) :
    Left style extension directory w.tree.workingDirectory types w.tree u.tree := by
  obtain ⟨-, v, hbuilt, rfl⟩ := write_eq_ok_iff.mp h
  have hleft := left_of_buildAll hextension hbuilt
  exact hleft

theorem paths_of_buildAll (hextension : style.fileExtension = .ok extension)
    (h : buildAll style directory total done types w = .ok reports u) :
    reports.map PageReport.path = types.map fun t => Page.path extension t directory := by
  induction types generalizing done w reports with
  | nil =>
    cases h
    rfl
  | cons t rest ih =>
    obtain ⟨r, v, others, hbuild, hothers, rfl⟩ := buildAll_cons_eq_ok_iff.mp h
    rw [List.map_cons, List.map_cons, ih hothers, (Page.settled_of_build hextension hbuild).2.1]

end Builds

/-- Where the pages of a batch are when it has gone through, and what is in them. -/
structure Placed (style : PageStyle) (extension : Text) (types : List TypeEntry)
    (directory : Path) (reports : List PageReport) (w u : World) : Prop where
  paths : reports.map PageReport.path = types.map fun t => Page.path extension t directory
  found : ∀ t ∈ types, u.tree.locate (Page.path extension t directory) =
      .ok (placeFrom extension directory w.tree.workingDirectory t) ∧
    ∃ octets, u.tree.get? (placeFrom extension directory w.tree.workingDirectory t) =
      some (.file octets)
  /-- Of the types with one place the last one has its text there. -/
  last_text : ∀ earlier t later, types = earlier ++ t :: later →
    (∀ r ∈ later, placeFrom extension directory w.tree.workingDirectory t ≠
      placeFrom extension directory w.tree.workingDirectory r) →
    ∀ s ∈ types, placeFrom extension directory w.tree.workingDirectory s =
        placeFrom extension directory w.tree.workingDirectory t →
      u.tree.readFile (Page.path extension s directory) =
        .ok (Utf8.encode (textFrom style t w.tree.workingDirectory))
  inside : ∀ t ∈ types, GoesDown (pageName extension t.name) →
    ∃ below, below ≠ [] ∧ placeFrom extension directory w.tree.workingDirectory t =
      directory.lexical w.tree.workingDirectory ++ below
  apart : types.Pairwise fun t r => GoesDown (pageName extension t.name) →
    GoesDown (pageName extension r.name) →
    placeFrom extension directory w.tree.workingDirectory t ≠
      placeFrom extension directory w.tree.workingDirectory r

/-- In a batch that went through, every page is a file where its path leads by its parts, and of the
types that are led to one file the last one has its text there. Names that only go down lead to
files of their own below the directory; no other names are kept from leaving it or from meeting. -/
theorem pages_lie_where_named {style : PageStyle} {extension : Text}
    (hextension : style.fileExtension = .ok extension) {types : List TypeEntry} {directory : Path}
    {reports : List PageReport} {w u : World}
    (h : write style types directory w = .ok reports u) :
    Placed style extension types directory reports w u := by
  have hleft := left_of_write hextension h
  obtain ⟨hcheck, v, hbuilt, -⟩ := write_eq_ok_iff.mp h
  refine ⟨paths_of_buildAll hextension hbuilt, ?_, ?_, ?_, ?_⟩
  · exact fun t ht => ⟨(hleft.ready t ht).found, hleft.file t ht⟩
  · intro earlier t later hsplit hlater s hs hsame
    have hlast := hleft.last earlier t later hsplit hlater
    rw [← hsame] at hlast
    exact readFile_eq_ok_iff.mpr ⟨_, (hleft.ready s hs).found, hlast⟩
  · intro t _ hdown
    exact ⟨_, hdown.ne_nil, Page.placeFrom_of_goesDown hdown _ _⟩
  · have hpaths := ((checkPaths_eq_ok_iff hextension).mp hcheck).1
    rw [List.Nodup, List.pairwise_map] at hpaths
    exact hpaths.imp fun hne ht hr hsame => hne (Page.path_eq_of_placeFrom_eq ht hr hsame)

end Batch

namespace Sample

def plain : TypeEntry := { name := "X".text, package := [] }

/-- Its name goes down and up again, to the page of `plain`. -/
def detour : TypeEntry := { name := "a/../X".text, package := [] }

def outside : TypeEntry := { name := "../Y".text, package := [] }

theorem outcome?_meeting :
    Job.outcome? (Batch.write ({} : Context).style [plain, detour, outside] site)
      ⟨.bare ["srv".text], []⟩ = some [pageOf plain, pageOf detour, pageOf outside] := by
  decide +kernel

end Sample

open Sample

theorem sample_places :
    ∃ u, Batch.write ({} : Context).style [plain, detour, outside] site ⟨.bare ["srv".text], []⟩ =
        .ok [pageOf plain, pageOf detour, pageOf outside] u ∧
      Batch.Placed ({} : Context).style ({} : Context).fileExtension [plain, detour, outside] site
        [pageOf plain, pageOf detour, pageOf outside] ⟨.bare ["srv".text], []⟩ u := by
  obtain ⟨u, h⟩ := Job.outcome?_eq_some_iff.mp outcome?_meeting
  exact ⟨u, h, Batch.pages_lie_where_named rfl h⟩

/-- Two pages with paths of their own and one file, in which the first text is lost, and a third
page beside the directory it was to be written to. -/
theorem sample_pages_meet :
    ∃ u, Batch.write ({} : Context).style [plain, detour, outside] site ⟨.bare ["srv".text], []⟩ =
        .ok [pageOf plain, pageOf detour, pageOf outside] u ∧
      (pageOf plain).path ≠ (pageOf detour).path ∧
      u.tree.locate (pageOf plain).path = .ok ["srv".text, "site".text, "X.md".text] ∧
      u.tree.locate (pageOf detour).path = .ok ["srv".text, "site".text, "X.md".text] ∧
      u.tree.readFile (pageOf plain).path ≠
        .ok (Utf8.encode (textFrom ({} : Context).style plain ["srv".text])) ∧
      u.tree.locate (pageOf outside).path = .ok ["srv".text, "Y.md".text] ∧
      ¬site.lexical ["srv".text] <+: ["srv".text, "Y.md".text] := by
  obtain ⟨u, h⟩ := Job.outcome?_eq_some_iff.mp outcome?_meeting
  have hextension : ({} : Context).style.fileExtension = .ok ({} : Context).fileExtension := rfl
  have hleft := Batch.left_of_write hextension h
  have hplain := (hleft.ready plain (by simp)).found
  have hdetour := (hleft.ready detour (by simp)).found
  have houtside := (hleft.ready outside (by simp)).found
  have hsame : (pageOf plain).path.lexical ["srv".text] =
      (pageOf detour).path.lexical ["srv".text] := by decide +kernel
  have hmet : (pageOf plain).path.lexical ["srv".text] =
      ["srv".text, "site".text, "X.md".text] := by decide +kernel
  have hleaves : (pageOf outside).path.lexical ["srv".text] =
      ["srv".text, "Y.md".text] := by decide +kernel
  have hlast := hleft.last [plain] detour [outside] rfl (by decide +kernel)
  have hread : u.tree.readFile (pageOf plain).path =
      .ok (Utf8.encode (textFrom ({} : Context).style detour ["srv".text])) :=
    readFile_eq_ok_iff.mpr ⟨_, hplain, hsame ▸ hlast⟩
  refine ⟨u, h, by decide +kernel, hmet ▸ hplain, ?_, ?_, hleaves ▸ houtside, by decide +kernel⟩
  · exact (hsame.symm.trans hmet) ▸ hdetour
  · rw [hread]
    intro hown
    exact absurd (Except.ok.inj hown) (by decide +kernel)

end ApiPages

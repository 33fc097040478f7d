import ApiPages.Proofs.Ready

/-!
A batch is the union of its pages. The first build makes the directory, and from then on what keeps
a page from being written there does not depend on the other pages; so a batch goes through exactly
if each page can be written to the directory and no two have one file. What it writes is what each
build alone would write, in whatever order the pages are built.
-/
namespace ApiPages

open Job FileTree

namespace Batch

/-- The directory that pages are written to, and how they are laid out. -/
structure Site where
  style : PageStyle
  extension : Text
  directory : Path
  /-- The place of the directory, and the place that relative paths start from. -/
  place : List Text
  workingDirectory : List Text

namespace Site

def pathOf (s : Site) (t : TypeEntry) : Path := Page.path s.extension t s.directory

def placeOf (s : Site) (t : TypeEntry) : List Text := s.place ++ [pageName s.extension t.name]

def layoutOf (s : Site) (t : TypeEntry) : Body := Page.layoutFrom s.style t s.workingDirectory

def reportOf (s : Site) (t : TypeEntry) : PageReport := ⟨s.pathOf t, (s.layoutOf t).drops⟩

def octetsOf (s : Site) (t : TypeEntry) : List UInt8 := Utf8.encode (s.layoutOf t).lines.render

def put (s : Site) (tree : FileTree) (t : TypeEntry) : FileTree :=
  tree.set (s.placeOf t) (.file (s.octetsOf t))

def putAll (s : Site) (tree : FileTree) (types : List TypeEntry) : FileTree :=
  types.foldl s.put tree

structure Stands (s : Site) (tree : FileTree) : Prop where
  extension : s.style.fileExtension = .ok s.extension
  workingDirectory : tree.workingDirectory = s.workingDirectory
  clean : s.directory.fault? = none
  there : tree.DirectoryAt s.directory s.place

structure Opens (s : Site) (before tree : FileTree) : Prop where
  stands : s.Stands tree
  made : before.makeDirectories s.directory = (.ok (), tree)

/-- Nothing keeps a page from being written. Only the last two conditions are about the tree. -/
structure Takes (s : Site) (tree : FileTree) (t : TypeEntry) : Prop where
  is_page : IsPage (pageName s.extension t.name)
  laid_out : Page.body s.style s.workingDirectory t = .ok (s.layoutOf t)
  clean : (s.pathOf t).fault? = none
  short : (s.pathOf t).tooLong = false
  encodable : Utf8.encodable (s.layoutOf t).lines.render = true
  free : tree.get? (s.placeOf t) ≠ some .directory
  fits : tree.taken (s.placeOf t) (s.octetsOf t) = s.octetsOf t

section Places

variable {s : Site} {tree : FileTree} {t r : TypeEntry} {types others : List TypeEntry}
  {place : List Text}

theorem parent_pathOf (h : IsPage (pageName s.extension t.name)) :
    (s.pathOf t).parent = s.directory := (Page.lexical_path h s.directory []).1

theorem pathOf_eq_of_placeOf_eq (h : s.placeOf t = s.placeOf r) : s.pathOf t = s.pathOf r := by
  have hname : [pageName s.extension t.name] = [pageName s.extension r.name] :=
    List.append_cancel_left h
  rw [pathOf, pathOf, Page.path, Page.path, List.head_eq_of_cons_eq hname]

theorem get?_put (s : Site) (tree : FileTree) (t : TypeEntry) (place : List Text) :
    (s.put tree t).get? place =
      if place = s.placeOf t then some (.file (s.octetsOf t)) else tree.get? place :=
  get?_set (by simp [placeOf]) tree _ place

theorem locate_pathOf (hs : s.Stands tree) (hpage : IsPage (pageName s.extension t.name))
    (hshort : (s.pathOf t).tooLong = false) : tree.locate (s.pathOf t) = .ok (s.placeOf t) := by
  have hpath :
      s.pathOf t = ⟨s.directory.root, s.directory.parts ++ [pageName s.extension t.name]⟩ :=
    Path.append_component hpage.toIsComponent s.directory
  rw [hpath] at hshort ⊢
  simp only [Path.tooLong, List.getLast?_concat, Option.any_some, Bool.or_eq_false_iff,
    Bool.and_eq_false_iff, decide_eq_false_iff_not] at hshort
  have hname : ¬mostNameOctets < Utf8.size (pageName s.extension t.name) := by
    rcases hshort.2 with hup | hname
    · exact absurd hup (by simp [hpage.ne_up])
    · exact hname
  rw [hs.there.locate_below, if_neg hshort.1, placeIn, if_neg hpage.ne_up, if_neg hname]
  rfl

theorem Stands.put (hs : s.Stands tree) (ht : s.Takes tree t) : s.Stands (s.put tree t) :=
  ⟨hs.extension, hs.workingDirectory, hs.clean,
    hs.there.mono (hasDirectoriesOf_set ht.free _)⟩

theorem takes_put_iff (ht : s.Takes tree t) : s.Takes (s.put tree t) r ↔ s.Takes tree r := by
  have hfree : (s.put tree t).get? (s.placeOf r) ≠ some .directory ↔
      tree.get? (s.placeOf r) ≠ some .directory := by
    rw [get?_put]
    by_cases hsame : s.placeOf r = s.placeOf t
    · simp [hsame, ht.free]
    · rw [if_neg hsame]
  constructor
  · rintro ⟨hpage, hlaid, hclean, hshort, hencodable, h, hfits⟩
    exact ⟨hpage, hlaid, hclean, hshort, hencodable, hfree.mp h, hfits⟩
  · rintro ⟨hpage, hlaid, hclean, hshort, hencodable, h, hfits⟩
    exact ⟨hpage, hlaid, hclean, hshort, hencodable, hfree.mpr h, hfits⟩

theorem hasDirectoriesOf_putAll (h : ∀ t ∈ types, s.Takes tree t) :
    (s.putAll tree types).HasDirectoriesOf tree := by
  induction types generalizing tree with
  | nil => exact hasDirectoriesOf_self tree
  | cons t rest ih =>
    obtain ⟨ht, hrest⟩ := List.forall_mem_cons.mp h
    have hput : (s.put tree t).HasDirectoriesOf tree := hasDirectoriesOf_set ht.free _
    exact (ih fun r hr => (takes_put_iff ht).mpr (hrest r hr)).trans hput

theorem get?_putAll_of_ne (h : ∀ t ∈ types, place ≠ s.placeOf t) :
    (s.putAll tree types).get? place = tree.get? place := by
  induction types generalizing tree with
  | nil => rfl
  | cons t rest ih =>
    obtain ⟨ht, hrest⟩ := List.forall_mem_cons.mp h
    have hput := get?_put s tree t place
    rw [if_neg ht] at hput
    exact (ih hrest).trans hput

theorem get?_putAll_of_mem (hplaces : (types.map s.placeOf).Nodup) (ht : t ∈ types) :
    (s.putAll tree types).get? (s.placeOf t) = some (.file (s.octetsOf t)) := by
  induction types generalizing tree with
  | nil => cases ht
  | cons r rest ih =>
    obtain ⟨hr, hrest⟩ := List.nodup_cons.mp hplaces
    rcases List.mem_cons.mp ht with rfl | ht
    · have hlater : ∀ q ∈ rest, s.placeOf t ≠ s.placeOf q := fun q hq hsame =>
        hr (hsame ▸ List.mem_map_of_mem hq)
      have hput := get?_put s tree t (s.placeOf t)
      rw [if_pos rfl] at hput
      exact (get?_putAll_of_ne hlater).trans hput
    · exact ih hrest ht

/-- Which pages were put says what is where; in which order they were put does not matter. -/
theorem sameEntries_putAll (hperm : types.Perm others) (hplaces : (types.map s.placeOf).Nodup)
    (htypes : ∀ t ∈ types, s.Takes tree t) :
    SameEntries (s.putAll tree types) (s.putAll tree others) := by
  have hothers : ∀ t ∈ others, s.Takes tree t := fun t ht => htypes t (hperm.mem_iff.mpr ht)
  refine ⟨?_, ?_, fun place => ?_⟩
  · rw [(hasDirectoriesOf_putAll htypes).workingDirectory,
      (hasDirectoriesOf_putAll hothers).workingDirectory]
  · rw [(hasDirectoriesOf_putAll htypes).room, (hasDirectoriesOf_putAll hothers).room]
  · by_cases hpage : ∃ t ∈ types, place = s.placeOf t
    · obtain ⟨t, ht, rfl⟩ := hpage
      rw [get?_putAll_of_mem hplaces ht,
        get?_putAll_of_mem ((hperm.map s.placeOf).nodup hplaces) (hperm.mem_iff.mp ht)]
    · have hne : ∀ t ∈ types, place ≠ s.placeOf t := fun t ht hsame => hpage ⟨t, ht, hsame⟩
      rw [get?_putAll_of_ne hne, get?_putAll_of_ne fun t ht => hne t (hperm.mem_iff.mpr ht)]

end Places

section Builds

variable {s : Site} {t : TypeEntry} {types : List TypeEntry} {reports : List PageReport}
  {total done : Nat} {tree : FileTree} {w u : World} {r : PageReport}

theorem ready_of_takes (hs : s.Stands tree) (ht : s.Takes tree t) :
    Page.Ready s.style t (s.pathOf t) s.workingDirectory tree ∧
      s.placeOf t = (s.pathOf t).lexical s.workingDirectory := by
  have hlocate := locate_pathOf hs ht.is_page ht.short
  have hplace := locate_lexical hlocate
  rw [hs.workingDirectory] at hplace
  have hthere := hs.there
  rw [← parent_pathOf ht.is_page] at hthere
  exact ⟨⟨hs.workingDirectory, ht.laid_out, ht.clean, ⟨s.place, hthere⟩,
    openAt_eq_ok_iff.mpr ⟨hplace ▸ hlocate, hplace ▸ ht.free⟩, ht.encodable, hplace ▸ ht.fits⟩,
    hplace⟩

theorem build_of_takes (hs : s.Stands w.tree) (ht : s.Takes w.tree t) :
    ∃ u, Page.build s.style t s.directory w = .ok (s.reportOf t) u ∧ u.tree = s.put w.tree t := by
  obtain ⟨hready, hplace⟩ := ready_of_takes hs ht
  refine ⟨_, Page.build_of_ready hs.extension hready, ?_⟩
  rw [put, hplace]
  rfl

theorem takes_of_build (hs : s.Stands w.tree) (hpage : IsPage (pageName s.extension t.name))
    (h : Page.build s.style t s.directory w = .ok r u) : s.Takes w.tree t := by
  have hends : Page.Ends s.style t (s.pathOf t) w (Page.build s.style t s.directory w) :=
    Page.build_ends hs.extension
  rw [h] at hends
  cases hends with
  | @written d v u b hopening hbody hclosing =>
    obtain ⟨rfl, -, hmade, -, -, -⟩ := hopening.done
    obtain ⟨place, octets, -, hclean, hopened, hoctets, hfits, -⟩ := hclosing.done
    rw [parent_pathOf hpage, hs.there.makeDirectories_eq hs.clean] at hmade
    have htree : w.tree = v.tree := (Prod.mk.inj hmade).2
    dsimp only at hclean hopened hoctets hfits
    rw [← htree] at hopened hfits hbody
    obtain ⟨hplace, hfree⟩ := openAt_eq_ok_iff.mp hopened
    obtain ⟨hencodable, rfl⟩ := Utf8.encode?_eq_some_iff.mp hoctets
    have hshort : (s.pathOf t).tooLong = false := by
      have hbelow := locate_of_directoryAt_parent (p := s.pathOf t)
        ((parent_pathOf hpage).symm ▸ hs.there)
      cases htoo : (s.pathOf t).tooLong with
      | false => rfl
      | true =>
        rw [htoo, if_pos rfl, hplace] at hbelow
        cases hbelow
    rw [locate_pathOf hs hpage hshort] at hplace
    cases hplace
    rw [hs.workingDirectory] at hbody
    have hlayout : s.layoutOf t = b := Page.layoutFrom_of_body hbody
    rw [← hlayout] at hbody hencodable hfits
    exact ⟨hpage, hbody, hclean, hshort, hencodable, hfree, hfits⟩

theorem build_opened (hopens : s.Opens w.tree tree) (hpage : IsPage (pageName s.extension t.name)) :
    Page.build s.style t s.directory w = Page.build s.style t s.directory { w with tree } := by
  have hs := hopens.stands
  have hread : ∀ w, ofExcept PageError.fault s.style.fileExtension w = .ok s.extension w :=
    ofExcept_of_ok hs.extension
  have hparent := parent_pathOf hpage
  have hcreate : Document.create (s.pathOf t) w = Document.create (s.pathOf t) { w with tree } :=
    Document.create_opened (hparent ▸ hs.clean) (hparent ▸ hopens.made)
  rw [Page.build, bind_of_ok (hread w), bind_of_ok (hread { w with tree })]
  exact bind_congr_world hcreate _

theorem opens_of_build {style : PageStyle} {extension : Text} {directory : Path}
    (hextension : style.fileExtension = .ok extension)
    (hpage : IsPage (pageName extension t.name))
    (h : Page.build style t directory w = .ok r u) :
    ∃ place tree, Opens ⟨style, extension, directory, place, w.tree.workingDirectory⟩
      w.tree tree := by
  have hparent : (Page.path extension t directory).parent = directory :=
    (Page.lexical_path hpage directory []).1
  have hends : Page.Ends style t (Page.path extension t directory) w
      (Page.build style t directory w) := Page.build_ends hextension
  rw [h] at hends
  cases hends with
  | @written d v u b hopening hbody hclosing =>
    obtain ⟨-, hclean, hmade, -, hadds, place, hthere⟩ := hopening.done
    rw [hparent] at hclean hmade hthere
    exact ⟨place, v.tree, ⟨hextension, hadds.workingDirectory, hclean, hthere⟩, hmade⟩

theorem buildAll_of_takes (total done : Nat) (hs : s.Stands w.tree)
    (ht : ∀ t ∈ types, s.Takes w.tree t) :
    ∃ u, buildAll s.style s.directory total done types w = .ok (types.map s.reportOf) u ∧
      u.tree = s.putAll w.tree types := by
  induction types generalizing done w with
  | nil => exact ⟨w, rfl, rfl⟩
  | cons t rest ih =>
    obtain ⟨htake, hrest⟩ := List.forall_mem_cons.mp ht
    obtain ⟨v, hbuild, hv⟩ := build_of_takes hs htake
    have htree : (progressed total (done + 1) v).tree = s.put w.tree t := by
      rw [progressed_tree, hv]
    have hlater : s.Stands (progressed total (done + 1) v).tree := htree ▸ hs.put htake
    have hpages : ∀ r ∈ rest, s.Takes (progressed total (done + 1) v).tree r :=
      fun r hr => htree ▸ (takes_put_iff htake).mpr (hrest r hr)
    obtain ⟨u, hothers, hu⟩ := ih (done + 1) hlater hpages
    refine ⟨u, buildAll_cons_eq_ok_iff.mpr ⟨s.reportOf t, v, _, hbuild, hothers, rfl⟩, ?_⟩
    rw [hu, htree]
    rfl

theorem takes_of_buildAll (hs : s.Stands w.tree)
    (hpages : ∀ t ∈ types, IsPage (pageName s.extension t.name))
    (h : buildAll s.style s.directory total done types w = .ok reports u) :
    ∀ t ∈ types, s.Takes w.tree t := by
  induction types generalizing done w reports with
  | nil => exact fun _ ht => nomatch ht
  | cons t rest ih =>
    obtain ⟨hpage, hrest⟩ := List.forall_mem_cons.mp hpages
    obtain ⟨r, v, others, hbuild, hothers, -⟩ := buildAll_cons_eq_ok_iff.mp h
    have htake := takes_of_build hs hpage hbuild
    obtain ⟨v', hbuild', hv⟩ := build_of_takes hs htake
    rw [hbuild] at hbuild'
    cases hbuild'
    have htree : (progressed total (done + 1) v).tree = s.put w.tree t := by
      rw [progressed_tree, hv]
    have hlater := ih (htree ▸ hs.put htake) hrest hothers
    exact List.forall_mem_cons.mpr
      ⟨htake, fun r hr => (takes_put_iff htake).mp (htree ▸ hlater r hr)⟩

theorem buildAll_opened (hopens : s.Opens w.tree tree) (hne : types ≠ [])
    (hpages : ∀ t ∈ types, IsPage (pageName s.extension t.name)) :
    buildAll s.style s.directory total done types w =
      buildAll s.style s.directory total done types { w with tree } := by
  cases types with
  | nil => exact absurd rfl hne
  | cons t rest =>
    rw [buildAll]
    exact bind_congr_world (build_opened hopens (hpages t List.mem_cons_self)) _

/-- What a batch needs: no two pages have one file, and each can be written once the site is
open. -/
structure Accepts (s : Site) (before tree : FileTree) (types : List TypeEntry) : Prop where
  opens : s.Opens before tree
  not_empty : types ≠ []
  paths : (types.map s.pathOf).Nodup
  takes : ∀ t ∈ types, s.Takes tree t

theorem write_of_accepts (h : s.Accepts w.tree tree types) :
    ∃ u, write s.style types s.directory w = .ok (types.map s.reportOf) u ∧
      u.tree = s.putAll tree types := by
  have hs := h.opens.stands
  have hcheck : checkPaths s.style s.directory [] types = .ok () :=
    (checkPaths_eq_ok_iff hs.extension).mpr ⟨h.paths, fun _ _ => rfl⟩
  obtain ⟨v, hbuilt, hv⟩ := buildAll_of_takes types.length 0
    (w := ⟨tree, w.log ++ [.batchStarted types.length]⟩) hs h.takes
  have hopened : buildAll s.style s.directory types.length 0 types
      ⟨w.tree, w.log ++ [.batchStarted types.length]⟩ = _ :=
    buildAll_opened h.opens h.not_empty fun t ht => (h.takes t ht).is_page
  exact ⟨_, write_eq_ok_iff.mpr ⟨hcheck, v, hopened.trans hbuilt, rfl⟩, hv⟩

theorem accepts_of_write (hopens : s.Opens w.tree tree) (hne : types ≠ [])
    (hpages : ∀ t ∈ types, IsPage (pageName s.extension t.name))
    (h : write s.style types s.directory w = .ok reports u) : s.Accepts w.tree tree types := by
  have hs := hopens.stands
  obtain ⟨hcheck, v, hbuilt, -⟩ := write_eq_ok_iff.mp h
  have hopened : buildAll s.style s.directory types.length 0 types
      ⟨w.tree, w.log ++ [.batchStarted types.length]⟩ = _ := buildAll_opened hopens hne hpages
  have htakes : ∀ t ∈ types, s.Takes tree t :=
    takes_of_buildAll (w := ⟨tree, w.log ++ [.batchStarted types.length]⟩) hs hpages
      (hopened.symm.trans hbuilt)
  exact ⟨hopens, hne, ((checkPaths_eq_ok_iff hs.extension).mp hcheck).1, htakes⟩

theorem opens_of_write {style : PageStyle} {directory : Path}
    (hpages : ∀ extension, style.fileExtension = .ok extension →
      IsPage (pageName extension t.name))
    (h : write style (t :: types) directory w = .ok reports u) :
    ∃ s tree, s.style = style ∧ s.directory = directory ∧ Opens s w.tree tree := by
  obtain ⟨hcheck, v, hbuilt, -⟩ := write_eq_ok_iff.mp h
  obtain ⟨r, first, others, hbuild, -, -⟩ := buildAll_cons_eq_ok_iff.mp hbuilt
  cases hextension : style.fileExtension with
  | error fault =>
    rw [checkPaths, hextension] at hcheck
    cases hcheck
  | ok extension =>
    obtain ⟨place, tree, hopens⟩ := opens_of_build hextension (hpages extension hextension) hbuild
    exact ⟨_, tree, rfl, rfl, hopens⟩

end Builds

namespace Accepts

variable {s : Site} {t : TypeEntry} {types others : List TypeEntry} {tree : FileTree} {w : World}

theorem places (h : s.Accepts w.tree tree types) : (types.map s.placeOf).Nodup := by
  have hpaths := h.paths
  rw [List.Nodup, List.pairwise_map] at hpaths ⊢
  exact hpaths.imp fun hne hsame => hne (pathOf_eq_of_placeOf_eq hsame)

theorem perm (h : s.Accepts w.tree tree types) (hperm : types.Perm others) :
    s.Accepts w.tree tree others where
  opens := h.opens
  not_empty := by
    rintro rfl
    exact h.not_empty hperm.eq_nil
  paths := (hperm.map s.pathOf).nodup h.paths
  takes t ht := h.takes t (hperm.mem_iff.mpr ht)

theorem locate (h : s.Accepts w.tree tree types) (ht : t ∈ types) :
    (s.putAll tree types).locate (s.pathOf t) = .ok (s.placeOf t) :=
  (hasDirectoriesOf_putAll h.takes).locate
    (locate_pathOf h.opens.stands (h.takes t ht).is_page (h.takes t ht).short)

theorem readFile (h : s.Accepts w.tree tree types) (ht : t ∈ types) :
    (s.putAll tree types).readFile (s.pathOf t) = .ok (s.octetsOf t) :=
  readFile_eq_ok_iff.mpr ⟨s.placeOf t, h.locate ht, get?_putAll_of_mem h.places ht⟩

theorem build_alone (h : s.Accepts w.tree tree types) (ht : t ∈ types) :
    ∃ v, Page.build s.style t s.directory w = .ok (s.reportOf t) v ∧
      v.tree.readFile (s.pathOf t) = .ok (s.octetsOf t) := by
  have hs := h.opens.stands
  have htake := h.takes t ht
  obtain ⟨v, hbuild, hv⟩ := build_of_takes (w := { w with tree }) hs htake
  rw [← build_opened h.opens htake.is_page] at hbuild
  have hstands : s.Stands v.tree := hv ▸ hs.put htake
  have hfile : v.tree.get? (s.placeOf t) = some (.file (s.octetsOf t)) := by
    rw [hv, get?_put, if_pos rfl]
  exact ⟨v, hbuild, readFile_eq_ok_iff.mpr
    ⟨s.placeOf t, locate_pathOf hstands htake.is_page htake.short, hfile⟩⟩

theorem frame (h : s.Accepts w.tree tree types) (place : List Text) :
    (∃ t ∈ types, (s.putAll tree types).locate (s.pathOf t) = .ok place) ∨
      (s.putAll tree types).get? place = w.tree.get? place ∨
      MadeOn s.directory w.tree (s.putAll tree types) place := by
  by_cases hpage : ∃ t ∈ types, place = s.placeOf t
  · obtain ⟨t, ht, rfl⟩ := hpage
    exact .inl ⟨t, ht, h.locate ht⟩
  · have hadds := (makeDirectories_made w.tree s.directory).adds
    rw [h.opens.made] at hadds
    rw [get?_putAll_of_ne fun t ht hsame => hpage ⟨t, ht, hsame⟩]
    exact .inr ((hadds.entry place).imp_right fun hmade =>
      hmade.later (hasDirectoriesOf_putAll h.takes))

end Accepts

end Site

/-- How a batch that went through compares with the builds of its pages alone, and with the batches
of the same types in other orders. -/
structure Union (style : PageStyle) (types : List TypeEntry) (directory : Path) (w u : World)
    (reports : List PageReport) (report : TypeEntry → PageReport) : Prop where
  in_order : reports = types.map report
  path : ∀ t ∈ types, ∀ extension, style.fileExtension = .ok extension →
    (report t).path = Page.path extension t directory
  alone : ∀ t ∈ types, ∃ v octets, Page.build style t directory w = .ok (report t) v ∧
    v.tree.readFile (report t).path = .ok octets ∧ u.tree.readFile (report t).path = .ok octets
  /-- Beside the pages there are at most new directories on the way to theirs. -/
  frame : ∀ place, (∃ t ∈ types, u.tree.locate (report t).path = .ok place) ∨
    u.tree.get? place = w.tree.get? place ∨ MadeOn directory w.tree u.tree place
  reordered : ∀ others, types.Perm others →
    ∃ v, write style others directory w = .ok (others.map report) v ∧ SameEntries u.tree v.tree

theorem union_nil {style : PageStyle} {directory : Path} {reports : List PageReport} {w u : World}
    (h : write style [] directory w = .ok reports u) (report : TypeEntry → PageReport) :
    Union style [] directory w u reports report := by
  have hwrite := h
  obtain ⟨-, v, hbuilt, rfl⟩ := write_eq_ok_iff.mp h
  cases hbuilt
  have hnone : ∀ t, t ∉ ([] : List TypeEntry) := fun _ => List.not_mem_nil
  refine ⟨rfl, fun t ht => absurd ht (hnone t), fun t ht => absurd ht (hnone t),
    fun _ => .inr (.inl rfl), ?_⟩
  intro others hperm
  cases hperm.nil_eq
  exact ⟨_, hwrite, rfl, rfl, fun _ => rfl⟩

theorem union_of_accepts {s : Site} {types : List TypeEntry} {reports : List PageReport}
    {tree : FileTree} {w u : World} (haccepts : s.Accepts w.tree tree types)
    (h : write s.style types s.directory w = .ok reports u) :
    Union s.style types s.directory w u reports s.reportOf := by
  obtain ⟨v, hwrite, hu⟩ := Site.write_of_accepts haccepts
  rw [h] at hwrite
  cases hwrite
  refine ⟨rfl, ?_, ?_, ?_, ?_⟩
  · intro t _ extension hextension
    rw [haccepts.opens.stands.extension] at hextension
    cases hextension
    rfl
  · intro t ht
    obtain ⟨v, hbuild, hread⟩ := haccepts.build_alone ht
    exact ⟨v, s.octetsOf t, hbuild, hread, hu ▸ haccepts.readFile ht⟩
  · rw [hu]
    exact haccepts.frame
  · intro others hperm
    obtain ⟨v, hwrite, hv⟩ := Site.write_of_accepts (haccepts.perm hperm)
    refine ⟨v, hwrite, ?_⟩
    rw [hu, hv]
    exact Site.sameEntries_putAll hperm haccepts.places haccepts.takes

/-- A batch that goes through reports and writes for each type what its build alone reports and
writes, touches no other file, and comes out the same in any order. -/
theorem batch_is_union_of_pages {style : PageStyle} {types : List TypeEntry} {directory : Path}
    {reports : List PageReport} {w u : World} (h : write style types directory w = .ok reports u)
    (hpages : ∀ extension, style.fileExtension = .ok extension →
      ∀ t ∈ types, IsPage (pageName extension t.name)) :
    ∃ report, Union style types directory w u reports report := by
  cases types with
  | nil => exact ⟨fun t => ⟨directory.append t.name, []⟩, union_nil h _⟩
  | cons t rest =>
    obtain ⟨s, tree, rfl, rfl, hopens⟩ := Site.opens_of_write
      (fun extension hextension => hpages extension hextension t List.mem_cons_self) h
    have haccepts := Site.accepts_of_write hopens (List.cons_ne_nil t rest)
      (hpages s.extension hopens.stands.extension) h
    exact ⟨s.reportOf, union_of_accepts haccepts h⟩

end Batch

open Sample

theorem sample_batch_union :
    ∃ u report, Batch.write ({} : Context).style [base, heir] site ⟨.bare ["srv".text], []⟩ =
        .ok [pageOf base, pageOf heir] u ∧
      Batch.Union ({} : Context).style [base, heir] site ⟨.bare ["srv".text], []⟩ u
        [pageOf base, pageOf heir] report := by
  obtain ⟨u, h⟩ := Job.outcome?_eq_some_iff.mp outcome?_batch
  have hslash : '/'.code ∉ ({} : Context).fileExtension := by decide
  have hpages : ∀ extension, ({} : Context).style.fileExtension = .ok extension →
      ∀ t ∈ [base, heir], IsPage (pageName extension t.name) := by
    rintro extension hextension t ht
    cases hextension
    rcases List.mem_cons.mp ht with rfl | ht
    · exact hasDottedName_base.name.isPage hslash
    · cases List.mem_singleton.mp ht
      exact hasDottedName_heir.name.isPage hslash
  obtain ⟨report, hunion⟩ := Batch.batch_is_union_of_pages h hpages
  exact ⟨u, report, h, hunion⟩

end ApiPages

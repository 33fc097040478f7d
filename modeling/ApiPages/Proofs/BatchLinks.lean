import ApiPages.Proofs.CrossLink
import ApiPages.Proofs.Layout
import ApiPages.Proofs.Run

/-!
Links inside a batch. The pages of a batch stand side by side in one directory, whatever their
packages, and its links are written for one directory per package. So a link reaches the page of a
type with a simple name in the same package. It reaches no page of a type with dots in its name, and
one of another package at most where the directory is the root or happens to be called like it.
-/
namespace ApiPages

open Lexical

/-- Identifiers with a dot between each and the next. -/
structure Dotted (t : Text) : Prop where
  parts : ∀ part ∈ t.splitOn '.'.code, part ≠ []
  no_slash : '/'.code ∉ t
  no_percent : '%'.code ∉ t

theorem dotted_append_dot {before after : Text} :
    Dotted (before ++ '.'.code :: after) ↔ Dotted before ∧ Dotted after := by
  have hparts :
      (before ++ '.'.code :: after).splitOn '.'.code =
        before.splitOn '.'.code ++ after.splitOn '.'.code :=
    List.splitOn_append_cons_self ..
  constructor
  · rintro ⟨hp, hs, hc⟩
    rw [hparts] at hp
    simp only [List.mem_append, List.mem_cons, not_or] at hs hc
    refine ⟨⟨?_, hs.1, hc.1⟩, ⟨?_, hs.2.2, hc.2.2⟩⟩
    · exact fun part h => hp part (List.mem_append_left _ h)
    · exact fun part h => hp part (List.mem_append_right _ h)
  · rintro ⟨⟨hp, hs, hc⟩, ⟨hp', hs', hc'⟩⟩
    refine ⟨?_, by simp [hs, hs'], by simp [hc, hc']⟩
    rw [hparts]
    intro part h
    rcases List.mem_append.mp h with h | h
    · exact hp part h
    · exact hp' part h

namespace Dotted

variable {t : Text}

theorem ne_nil (h : Dotted t) : t ≠ [] := by
  rintro rfl
  exact h.parts [] (by simp) rfl

theorem head?_ne_dot (h : Dotted t) : t.head? ≠ some '.'.code := by
  cases t with
  | nil => simp
  | cons c rest =>
    intro hc
    obtain rfl : c = '.'.code := Option.some.inj hc
    refine h.parts [] ?_ rfl
    rw [List.splitOn_cons_eq_if_modifyHead]
    simp

theorem properPackage (h : Dotted t) : ProperPackage t where
  no_dot := h.head?_ne_dot
  no_slash hs := h.no_slash (List.mem_of_head? hs)

theorem isPage (h : Dotted t) {extension : Text} (hslash : '/'.code ∉ extension) :
    IsPage (pageName extension t) := by
  have hhead : (pageName extension t).head? ≠ some '.'.code := by
    rw [pageName, List.head?_append_of_ne_nil _ h.ne_nil]
    exact h.head?_ne_dot
  refine ⟨⟨?_, ?_, ?_⟩, ?_⟩
  · exact List.append_ne_nil_of_left_ne_nil h.ne_nil _
  · simp [pageName, h.no_slash, hslash]
  · exact fun hstay => hhead (hstay ▸ rfl)
  · exact fun hup => hhead (hup ▸ rfl)

theorem packageParts_eq (h : Dotted t) : packageParts t = t.splitOn '.'.code := by
  rw [packageParts, Text.splitOnP_congr (q := fun c => c == '.'.code)]
  · exact List.filter_eq_self.mpr fun part hpart => by simpa using h.parts part hpart
  · intro c hc
    have hslash : c ≠ '/'.code := fun he => h.no_slash (he ▸ hc)
    simp [hslash]

end Dotted

def IsPackage (package : Text) : Prop := package = [] ∨ Dotted package

namespace IsPackage

variable {package : Text}

theorem proper (h : IsPackage package) : ProperPackage package := by
  rcases h with rfl | h
  · constructor <;> simp
  · exact h.properPackage

theorem no_percent (h : IsPackage package) : '%'.code ∉ package := by
  rcases h with rfl | h
  · simp
  · exact h.no_percent

theorem join_parts (h : IsPackage package) :
    Text.join ['.'.code] (packageParts package) = package := by
  rcases h with rfl | h
  · rfl
  · rw [h.packageParts_eq, Text.join, List.intercalate_splitOn]

end IsPackage

namespace TypeEntry

structure HasDottedName (t : TypeEntry) : Prop where
  name : Dotted t.name
  package : IsPackage t.package

theorem HasDottedName.qualifiedName {t : TypeEntry} (h : t.HasDottedName) :
    Dotted t.qualifiedName := by
  rcases h.package with hnil | hpackage
  · have hq : t.qualifiedName = t.name := by simp [TypeEntry.qualifiedName, hnil]
    exact hq ▸ h.name
  · have hq : t.qualifiedName = t.package ++ '.'.code :: t.name := by
      simp [TypeEntry.qualifiedName, hpackage.ne_nil]
    exact hq ▸ dotted_append_dot.mpr ⟨hpackage, h.name⟩

end TypeEntry

namespace Ancestor

variable {a : Ancestor}

theorem dot_not_mem_name : '.'.code ∉ a.name := by
  cases hs : splitLast? '.'.code a.qualifiedName with
  | none =>
    rw [name, hs]
    exact splitLast?_eq_none_iff.mp hs
  | some parts => exact (name_of_split hs).1 ▸ not_mem_of_splitLast? hs

theorem dotted_parts (h : Dotted a.qualifiedName) : Dotted a.name ∧ IsPackage a.package := by
  cases hs : splitLast? '.'.code a.qualifiedName with
  | none =>
    rw [name, package, hs]
    exact ⟨h, .inl rfl⟩
  | some parts =>
    obtain ⟨hname, hpackage⟩ := name_of_split hs
    rw [splitLast?_eq_some hs] at h
    obtain ⟨hbefore, hafter⟩ := dotted_append_dot.mp h
    exact ⟨hname ▸ hafter, hpackage ▸ .inr hbefore⟩

end Ancestor

/-- The place of a path from this directory, by its parts alone. -/
def Path.lexical (here : List Text) (p : Path) : List Text :=
  p.parts.foldl enter (if p.root = .none then here else [])

theorem Path.append_of_relative {name : Text} (h : name.head? ≠ some '/'.code) (p : Path) :
    p.append name = ⟨p.root, p.parts ++ components name⟩ := by
  have hroot : rootOf name = .none := by
    cases name with
    | nil => rfl
    | cons c rest =>
      have hc : c ≠ '/'.code := fun hc => h (congrArg some hc)
      simp [rootOf, hc]
  rw [append, ofText, if_pos hroot]

theorem Path.append_component {name : Text} (h : IsComponent name) (p : Path) :
    p.append name = ⟨p.root, p.parts ++ [name]⟩ := by
  have hrelative : name.head? ≠ some '/'.code := fun hhead => h.no_slash (List.mem_of_head? hhead)
  rw [append_of_relative hrelative, components_of_isComponent h]

theorem Path.parent_append {name : Text} (h : IsPage name) (p : Path) :
    (p.append name).parent = p := by
  rw [Path.append_component h.toIsComponent, Path.parent, List.dropLast_concat]

theorem Page.lexical_path {extension : Text} {t : TypeEntry}
    (h : IsPage (pageName extension t.name)) (directory : Path) (here : List Text) :
    (path extension t directory).parent = directory ∧
      (path extension t directory).lexical here =
        directory.lexical here ++ [pageName extension t.name] := by
  refine ⟨Path.parent_append h directory, ?_⟩
  rw [path, Path.append_component h.toIsComponent, Path.lexical, List.foldl_append, List.foldl_cons,
    List.foldl_nil, enter, if_neg h.ne_up]
  rfl

theorem pageWay_self (package page : Text) : pageWay package package page = [page] := by
  have h := way_append (packageParts package) [] [page]
  rwa [List.append_nil] at h

theorem parts_of_pageWay_reaches {source target page other : Text} {directory : List Text}
    (h : (pageWay source target page).foldl enter directory = directory ++ [other])
    (hpage : IsPage page) :
    page = other ∧ (packageParts source = packageParts target ∨ directory = [] ∨
      directory.getLast? = (packageParts target).getLast?) := by
  obtain ⟨n, hn, hshared, hway⟩ := way_eq (packageParts source) (packageParts target ++ [page])
  have hdown : up ∉ (packageParts target ++ [page]).drop n :=
    fun hup => up_not_mem_page hpage (List.mem_of_mem_drop hup)
  rw [pageWay, hway, List.foldl_append, foldl_enter_up, foldl_enter_of_down hdown] at h
  have hlen := congrArg List.length h
  simp only [List.length_append, List.length_take, List.length_drop, List.length_singleton] at hlen
  have hle : n ≤ (packageParts target).length := by omega
  rw [List.drop_append_of_le_length hle, ← List.append_assoc] at h
  rw [List.take_append_of_le_length hle] at hshared
  obtain ⟨hplace, hname⟩ := List.append_inj' h rfl
  refine ⟨List.head_eq_of_cons_eq hname, ?_⟩
  by_cases hend : (packageParts target).length ≤ n
  · have htarget : packageParts target = (packageParts source).take n := by
      rw [hshared, List.take_of_length_le hend]
    by_cases hsource : (packageParts source).length ≤ n
    · exact .inl (by rw [htarget, List.take_of_length_le hsource])
    · rw [List.drop_of_length_le hend, List.append_nil] at hplace
      have hlen := congrArg List.length hplace
      rw [List.length_take] at hlen
      exact .inr (.inl (List.length_eq_zero_iff.mp (by omega)))
  · have hbelow : (packageParts target).drop n ≠ [] := by
      rwa [ne_eq, List.drop_eq_nil_iff]
    refine .inr (.inr ?_)
    rw [← hplace, List.getLast?_append_of_ne_nil _ hbelow, List.getLast?_drop, if_neg hend]

/-- The page of a type shows an ancestor in its chain, with this link. -/
structure ShowsLink (c : Context) (here : List Text) (t : TypeEntry) (a : Ancestor)
    (link : Text) : Prop where
  rendered : a.rendered here c.fileExtension t.package = .ok link
  shown : ∃ chain, t.hierarchy c.style here = .ok chain ∧ link <:+: chain

theorem showsLink_of_header {c : Context} {here : List Text} {t : TypeEntry} {top : Lines}
    (h : Page.header c.style here t = .ok top) {a : Ancestor}
    (ha : a ∈ t.shownAncestors c.implicitRoots) (hdoc : a.documented = true) :
    ∃ link, ShowsLink c here t a link := by
  obtain ⟨_, _, h⟩ := bind_eq_ok.mp h
  obtain ⟨_, _, h⟩ := bind_eq_ok.mp h
  obtain ⟨chain, hchain, -⟩ := bind_eq_ok.mp h
  have hhierarchy := hchain
  rw [TypeEntry.hierarchy] at hchain
  split at hchain
  · rename_i hnone
    have hnone : t.shownAncestors c.implicitRoots = [] := List.isEmpty_iff.mp hnone
    simp [hnone] at ha
  · obtain ⟨links, hlinks, hchain⟩ := bind_eq_ok.mp hchain
    obtain ⟨separator, _, hchain⟩ := bind_eq_ok.mp hchain
    cases hchain
    obtain ⟨link, hmem, hrendered⟩ := exists_mem_of_mapM hlinks ha
    rw [if_pos hdoc] at hrendered
    exact ⟨link, hrendered, _, hhierarchy, Text.infix_join (List.mem_append_left _ hmem)⟩

def LinkReaches (here : List Text) (source target : PageReport) (link : Text) : Prop :=
  Markdown.destination? (source.path.parent.lexical here) link = some (target.path.lexical here)

/-- How a link between two pages in one directory fares. -/
structure BatchLink (here : List Text) (directory : Path) (source target : TypeEntry)
    (r s : PageReport) (link : Text) : Prop where
  beside : source.package = target.package → '.'.code ∉ target.name → LinkReaches here r s link
  simple_name : LinkReaches here r s link → '.'.code ∉ target.name
  same_package : LinkReaches here r s link → source.package = target.package ∨
    directory.lexical here = [] ∨
    (directory.lexical here).getLast? = (packageParts target.package).getLast?

section OneDirectory

variable {extension : Text} {source target : TypeEntry} {a : Ancestor} {working : List Text}
  {link : Text} {directory : Path} {r s : PageReport}

theorem linkReaches_iff (hslash : '/'.code ∉ extension) (hpercent : '%'.code ∉ extension)
    (hsource : source.HasDottedName) (htarget : target.HasDottedName)
    (ha : Dotted a.qualifiedName) (hdoc : a.documented = true)
    (hlink : a.rendered working extension source.package = .ok link)
    (hr : r.path = Page.path extension source directory)
    (hs : s.path = Page.path extension target directory) (here : List Text) :
    LinkReaches here r s link ↔
      (pageWay source.package a.package (pageName extension a.name)).foldl enter
        (directory.lexical here) = directory.lexical here ++ [pageName extension target.name] := by
  obtain ⟨hname, hpackage⟩ := Ancestor.dotted_parts ha
  obtain ⟨hparent, -⟩ := Page.lexical_path (hsource.name.isPage hslash) directory here
  obtain ⟨-, hplace⟩ := Page.lexical_path (htarget.name.isPage hslash) directory here
  have hplain : '%'.code ∉ pageName extension a.name := by
    simp [pageName, hname.no_percent, hpercent]
  rw [LinkReaches, hr, hs, hparent, hplace, Ancestor.destination?_rendered hdoc
    hsource.package.proper hpackage.proper (hname.isPage hslash) hpackage.no_percent hplain hlink,
    Option.some_inj]

theorem batchLink (hslash : '/'.code ∉ extension) (hpercent : '%'.code ∉ extension)
    (hsource : source.HasDottedName) (htarget : target.HasDottedName)
    (hq : a.qualifiedName = target.qualifiedName) (hdoc : a.documented = true)
    (hlink : a.rendered working extension source.package = .ok link)
    (hr : r.path = Page.path extension source directory)
    (hs : s.path = Page.path extension target directory) (here : List Text) :
    BatchLink here directory source target r s link := by
  have hdotted : Dotted a.qualifiedName := hq ▸ htarget.qualifiedName
  have hpage := (Ancestor.dotted_parts hdotted).1.isPage hslash
  have hreaches := linkReaches_iff hslash hpercent hsource htarget hdotted hdoc hlink hr hs here
  have hsimple : '.'.code ∉ target.name → a.name = target.name ∧ a.package = target.package := by
    intro hdot
    have htype := Ancestor.of_type hdot a.documented
    rwa [← hq] at htype
  have hname : LinkReaches here r s link → '.'.code ∉ target.name := by
    intro hreach
    obtain ⟨hname, -⟩ := parts_of_pageWay_reaches (hreaches.mp hreach) hpage
    exact List.append_cancel_right hname ▸ Ancestor.dot_not_mem_name
  refine ⟨?_, hname, ?_⟩
  · intro hpackage hdot
    obtain ⟨hn, hp⟩ := hsimple hdot
    rw [hreaches, hp, hpackage, pageWay_self, foldl_enter_of_down, hn]
    exact fun hup => hpage.ne_up (List.mem_singleton.mp hup).symm
  · intro hreach
    obtain ⟨-, hparts⟩ := parts_of_pageWay_reaches (hreaches.mp hreach) hpage
    rw [(hsimple (hname hreach)).2] at hparts
    refine hparts.imp_left fun hparts => ?_
    rw [← hsource.package.join_parts, hparts, htarget.package.join_parts]

end OneDirectory

/-- In a batch that went through, the link to another page of the batch reaches it if both are in
one package and its name is simple. It does not reach a name with dots, nor another package unless
the directory is the root or is called as that package is. -/
theorem Batch.link_reaches_page {c : Context} {directory : Path} {types : List TypeEntry}
    {reports : List PageReport} {w u : World}
    (h : write c.style types directory w = .ok reports u) (hslash : '/'.code ∉ c.fileExtension)
    (hpercent : '%'.code ∉ c.fileExtension) {source target : TypeEntry} {r s : PageReport}
    (hr : (source, r) ∈ types.zip reports) (hs : (target, s) ∈ types.zip reports)
    (hsource : source.HasDottedName) (htarget : target.HasDottedName) {a : Ancestor}
    (ha : a ∈ source.shownAncestors c.implicitRoots) (hdoc : a.documented = true)
    (hq : a.qualifiedName = target.qualifiedName) :
    ∃ working link, ShowsLink c working source a link ∧
      ∀ here, BatchLink here directory source target r s link := by
  obtain ⟨_, _, _, hsourceWritten⟩ := (write_reports h).written hr
  obtain ⟨_, _, _, htargetWritten⟩ := (write_reports h).written hs
  obtain ⟨working, hbody⟩ := hsourceWritten.laid_out
  obtain ⟨top, htop, -⟩ := Page.body_eq_ok_iff.mp hbody
  obtain ⟨link, hlink⟩ := showsLink_of_header htop ha hdoc
  obtain ⟨_, hextension, hrpath⟩ := hsourceWritten.path
  cases hextension
  obtain ⟨_, hextension, hspath⟩ := htargetWritten.path
  cases hextension
  exact ⟨working, link, hlink,
    batchLink hslash hpercent hsource htarget hq hdoc hlink.rendered hrpath hspath⟩

namespace Sample

def base : TypeEntry := { name := "Base".text, package := "lib".text }

def heir : TypeEntry :=
  { name := "Heir".text, package := "app".text, ancestors := [⟨base.qualifiedName, true⟩] }

def site : Path := ⟨.none, ["site".text]⟩

def pageOf (t : TypeEntry) : PageReport := ⟨Page.path ({} : Context).fileExtension t site, []⟩

theorem hasDottedName_base : base.HasDottedName := by
  refine ⟨⟨?_, ?_, ?_⟩, .inr ⟨?_, ?_, ?_⟩⟩ <;> decide

theorem hasDottedName_heir : heir.HasDottedName := by
  refine ⟨⟨?_, ?_, ?_⟩, .inr ⟨?_, ?_, ?_⟩⟩ <;> decide

theorem outcome?_batch :
    Job.outcome? (Batch.write ({} : Context).style [base, heir] site) ⟨.bare ["srv".text], []⟩ =
      some [pageOf base, pageOf heir] := by decide +kernel

end Sample

open Sample

theorem sample_batch_link :
    ∃ u, Batch.write ({} : Context).style [base, heir] site ⟨.bare ["srv".text], []⟩ =
        .ok [pageOf base, pageOf heir] u ∧
      ∃ working link, ShowsLink {} working heir ⟨base.qualifiedName, true⟩ link ∧
        ∀ here, BatchLink here site heir base (pageOf heir) (pageOf base) link := by
  obtain ⟨u, h⟩ := Job.outcome?_eq_some_iff.mp outcome?_batch
  have hslash : '/'.code ∉ ({} : Context).fileExtension := by decide
  have hpercent : '%'.code ∉ ({} : Context).fileExtension := by decide
  have hshown : ⟨base.qualifiedName, true⟩ ∈ heir.shownAncestors ({} : Context).implicitRoots := by
    decide +kernel
  exact ⟨u, h, Batch.link_reaches_page h hslash hpercent
    (List.mem_cons_of_mem _ List.mem_cons_self) List.mem_cons_self hasDottedName_heir
    hasDottedName_base hshown rfl rfl⟩

/-- Two pages side by side, and a link from one to the other that leaves their directory. -/
theorem sample_link_leaves_directory :
    (∃ u, Batch.write ({} : Context).style [base, heir] site ⟨.bare ["srv".text], []⟩ =
        .ok [pageOf base, pageOf heir] u) ∧
      base.qualifiedName ≠ heir.qualifiedName ∧
      ⟨base.qualifiedName, true⟩ ∈ heir.shownAncestors ({} : Context).implicitRoots ∧
      heir.hierarchy ({} : Context).style ["srv".text] =
        .ok "[Base](../lib/Base.md) > **Heir**".text ∧
      ¬LinkReaches ["srv".text] (pageOf heir) (pageOf base) "[Base](../lib/Base.md)".text := by
  refine ⟨Job.outcome?_eq_some_iff.mp outcome?_batch, ?_, ?_, ?_, ?_⟩
  · decide +kernel
  · decide +kernel
  · decide +kernel
  · intro h
    have hplaces : some ["srv".text, "lib".text, "Base.md".text] =
        some ["srv".text, "site".text, "Base.md".text] := h
    exact absurd hplaces (by decide)

end ApiPages

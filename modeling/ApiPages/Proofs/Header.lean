import ApiPages.Page.Body
import ApiPages.Proofs.Inversion
import ApiPages.Proofs.Lexical

/-!
The header of a page. Where settings and names are on one line each, package and chain are one line
each too, and no line but the title and those of the comment begins with a number sign.
-/
namespace ApiPages

def isHeading (line : Text) : Bool := line.head? == some '#'.code

theorem filter_isHeading_lines {t : Text} (h : t.OneLine) (hplain : isHeading t = false) :
    (Text.lines t).filter isHeading = [] := by
  by_cases hnil : t = []
  · simp [hnil, Text.lines]
  · simp [Text.lines_of_oneLine h hnil, hplain]

theorem splitLast?_eq_some {c : CodePoint} {t before after : Text}
    (h : splitLast? c t = some (before, after)) : t = before ++ c :: after := by
  induction t generalizing before after with
  | nil => simp [splitLast?] at h
  | cons d rest ih =>
    rw [splitLast?] at h
    split at h
    · rename_i b a hrest
      obtain ⟨rfl, rfl⟩ := Prod.mk.inj (Option.some.inj h)
      rw [ih hrest, List.cons_append]
    · split at h
      · rename_i hd
        obtain ⟨rfl, rfl⟩ := Prod.mk.inj (Option.some.inj h)
        rw [hd, List.nil_append]
      · simp at h

namespace Ancestor

theorem mem_qualifiedName {a : Ancestor} {c : CodePoint} (h : c ∈ a.name ∨ c ∈ a.package) :
    c ∈ a.qualifiedName := by
  rw [name, package] at h
  cases hs : splitLast? '.'.code a.qualifiedName with
  | none => simpa [hs] using h
  | some parts =>
    rw [hs] at h
    rw [splitLast?_eq_some hs]
    rcases h with h | h
    · exact List.mem_append_right _ (List.mem_cons_of_mem _ h)
    · exact List.mem_append_left _ h

end Ancestor

open Text

theorem oneLine_packagePath {package : Text} (h : OneLine package) :
    OneLine (packagePath package) := by
  intro c hc
  obtain ⟨d, hd, rfl⟩ := List.mem_map.mp hc
  split
  · decide
  · exact h d hd

theorem up_not_mem_packagePath (package : Text) :
    Lexical.up ∉ Lexical.components (packagePath package) := by
  intro h
  have hdot : '.'.code ∈ packagePath package := Lexical.mem_of_mem_components h List.mem_cons_self
  obtain ⟨c, -, hc⟩ := List.mem_map.mp hdot
  split at hc
  · exact absurd hc (by decide)
  · contradiction

theorem oneLine_continued {first second : Text} (hf : OneLine first) (hs : OneLine second) :
    OneLine (Lexical.continued first second) := by
  have hslash : isLineBreak '/'.code = false := by decide
  unfold Lexical.continued
  split
  · exact hs
  · split <;> simp [hf, hs, hslash]

/-- Neither the package that a path starts from nor, as a rule, the working directory shows. -/
theorem oneLine_relativePagePath {here : List Text} {extension source target name path : Text}
    (hhere : (packagePath source).head? = some '/'.code → ∀ part ∈ here, OneLine part)
    (hextension : OneLine extension) (htarget : OneLine target) (hname : OneLine name)
    (h : relativePagePath here extension source target name = .ok path) : OneLine path := by
  have hpage : OneLine (Lexical.continued (packagePath target) (pageName extension name)) :=
    oneLine_continued (oneLine_packagePath htarget) (oneLine_append.mpr ⟨hname, hextension⟩)
  simp only [relativePagePath, Lexical.relative] at h
  split at h
  · simp at h
  · cases h
    generalize hfrom : (if (packagePath source).isEmpty then Lexical.stay else packagePath source)
      = start
    have hstart : Lexical.up ∉ Lexical.components start ∧
        (start.head? = some '/'.code → (packagePath source).head? = some '/'.code) := by
      subst hfrom
      split
      · exact ⟨by decide, fun hroot => absurd hroot (by decide)⟩
      · exact ⟨up_not_mem_packagePath source, id⟩
    split
    · decide
    · refine oneLine_join (by decide) ?_
      intro part hpart
      rcases Lexical.mem_way_place hstart.1 hpart with rfl | hpart | ⟨hroot, hpart⟩
      · decide
      · exact hpage.mono fun c => Lexical.mem_of_mem_components hpart
      · exact hhere (hstart.2 hroot) part hpart

theorem isHeading_append {line more : Text} (hne : line ≠ []) :
    isHeading (line ++ more) = isHeading line := by
  rw [isHeading, isHeading, List.head?_append_of_ne_nil line hne]

theorem Ancestor.rendered_line {a : Ancestor} {here : List Text} {extension source link : Text}
    (hhere : (packagePath source).head? = some '/'.code → ∀ part ∈ here, OneLine part)
    (hextension : OneLine extension) (hname : OneLine a.qualifiedName)
    (h : a.rendered here extension source = .ok link) :
    OneLine link ∧ link ≠ [] ∧ isHeading link = false := by
  rw [rendered] at h
  split at h
  · obtain ⟨path, hpath, h⟩ := bind_eq_ok.mp h
    cases h
    have hpath : OneLine path := oneLine_relativePagePath hhere hextension
      (hname.mono fun c hc => a.mem_qualifiedName (.inr hc))
      (hname.mono fun c hc => a.mem_qualifiedName (.inl hc)) hpath
    have hlabel : OneLine a.name := hname.mono fun c hc => a.mem_qualifiedName (.inl hc)
    refine ⟨Markdown.oneLine_linkTo hlabel (Markdown.oneLine_escapeTarget hpath), ?_, ?_⟩
    · exact List.append_ne_nil_of_right_ne_nil _ (List.cons_ne_nil _ _)
    · rfl
  · cases h
    exact ⟨Markdown.oneLine_code hname, List.cons_ne_nil _ _, rfl⟩

namespace Page

/-- The settings and the names in the header of a page are on one line each. -/
structure PlainHeader (style : PageStyle) (here : List Text) (t : TypeEntry) : Prop where
  indexTarget : ∀ target, style.indexTarget = .ok target → OneLine target
  lineBreak : ∀ lineBreak, style.lineBreak = .ok lineBreak → OneLine lineBreak
  separator : ∀ separator, style.separator = .ok separator → OneLine separator
  fileExtension : ∀ extension, style.fileExtension = .ok extension → OneLine extension
  name : OneLine t.name
  package : OneLine t.package
  ancestors : ∀ a ∈ t.ancestors, OneLine a.qualifiedName
  /-- Only the links of a package that is a path from the root show the working directory. -/
  workingDirectory : (packagePath t.package).head? = some '/'.code → ∀ part ∈ here, OneLine part

variable {style : PageStyle} {here : List Text} {t : TypeEntry}

/-- Where the package is no path from the root, nothing is asked of the working directory. -/
theorem plainHeader_of_relative_package {c : Context}
    (hpath : (packagePath t.package).head? ≠ some '/'.code) (hindex : OneLine c.packageIndex)
    (hbreak : OneLine c.lineBreak) (hseparator : OneLine c.hierarchySeparator)
    (hextension : OneLine c.fileExtension) (hname : OneLine t.name) (hpackage : OneLine t.package)
    (hancestors : ∀ a ∈ t.ancestors, OneLine a.qualifiedName) (here : List Text) :
    PlainHeader c.style here t where
  indexTarget target h := by
    cases h
    exact Markdown.oneLine_escapeTarget hindex
  lineBreak _ h := by
    cases h
    exact hbreak
  separator _ h := by
    cases h
    exact hseparator
  fileExtension _ h := by
    cases h
    exact hextension
  name := hname
  package := hpackage
  ancestors := hancestors
  workingDirectory h := absurd h hpath

theorem PlainHeader.packageLine (hp : PlainHeader style here t) {target lineBreak : Text}
    (htarget : style.indexTarget = .ok target) (hbreak : style.lineBreak = .ok lineBreak) :
    OneLine (packageLine t target lineBreak) := by
  have hlabel : OneLine (if t.package.isEmpty then defaultPackage else t.package) := by
    split
    · decide +kernel
    · exact hp.package
  have hword : OneLine "Package ".text := by decide +kernel
  exact oneLine_append.mpr ⟨oneLine_append.mpr
    ⟨hword, Markdown.oneLine_linkTo hlabel (hp.indexTarget target htarget)⟩,
    hp.lineBreak lineBreak hbreak⟩

theorem PlainHeader.hierarchy (hp : PlainHeader style here t) {chain : Text}
    (h : t.hierarchy style here = .ok chain) : OneLine chain ∧ isHeading chain = false := by
  rw [TypeEntry.hierarchy] at h
  split at h
  · cases h
    exact ⟨oneLine_nil, rfl⟩
  · rename_i hshown
    obtain ⟨links, hlinks, h⟩ := bind_eq_ok.mp h
    obtain ⟨separator, hseparator, h⟩ := bind_eq_ok.mp h
    cases h
    have hlink : ∀ link ∈ links, OneLine link ∧ link ≠ [] ∧ isHeading link = false := by
      intro link hlink
      obtain ⟨a, ha, hrendered⟩ := exists_of_mem_mapM hlinks hlink
      have hname := hp.ancestors a (List.mem_filter.mp ha).1
      split at hrendered
      · obtain ⟨extension, hextension, hrendered⟩ := bind_eq_ok.mp hrendered
        exact a.rendered_line hp.workingDirectory (hp.fileExtension _ hextension) hname hrendered
      · exact a.rendered_line hp.workingDirectory oneLine_nil hname hrendered
    have hbold : OneLine t.boldName := by
      have hstars : OneLine "**".text := by decide
      exact oneLine_append.mpr ⟨oneLine_append.mpr ⟨hstars, hp.name⟩, hstars⟩
    refine ⟨oneLine_join (hp.separator _ hseparator) ?_, ?_⟩
    · intro piece hpiece
      rcases List.mem_append.mp hpiece with hpiece | hpiece
      · exact (hlink piece hpiece).1
      · rwa [List.mem_singleton.mp hpiece]
    · cases links with
      | nil =>
        have hlen := (mapM_eq_ok hlinks).length_eq
        exact absurd (List.isEmpty_iff_length_eq_zero.mpr hlen) hshown
      | cons first links =>
        obtain ⟨-, hne, hplain⟩ := hlink first List.mem_cons_self
        cases hrest : links ++ [t.boldName] with
        | nil => simp at hrest
        | cons second rest =>
          rw [List.cons_append, hrest, join_cons_cons, List.append_assoc, isHeading_append hne,
            hplain]

/-- What stands on a page above the comment of the type. -/
def headLines (t : TypeEntry) (target lineBreak chain : Text) : Lines :=
  Lines.heading [] 1 t.name ++ Text.lines (packageLine t target lineBreak) ++ Text.lines chain

def commentLines (t : TypeEntry) : Lines :=
  if t.comment.isEmpty then [] else [] :: Text.lines t.comment

theorem header_eq_ok {top : Lines} (h : header style here t = .ok top) :
    ∃ target lineBreak chain, style.indexTarget = .ok target ∧ style.lineBreak = .ok lineBreak ∧
      t.hierarchy style here = .ok chain ∧
      top = headLines t target lineBreak chain ++ commentLines t := by
  obtain ⟨target, htarget, h⟩ := bind_eq_ok.mp h
  obtain ⟨lineBreak, hbreak, h⟩ := bind_eq_ok.mp h
  obtain ⟨chain, hchain, h⟩ := bind_eq_ok.mp h
  cases h
  exact ⟨target, lineBreak, chain, htarget, hbreak, hchain, rfl⟩

theorem PlainHeader.headLines (hp : PlainHeader style here t) {target lineBreak chain : Text}
    (htarget : style.indexTarget = .ok target) (hbreak : style.lineBreak = .ok lineBreak)
    (hchain : t.hierarchy style here = .ok chain) :
    (headLines t target lineBreak chain).filter isHeading = [Heading.line 1 t.name] := by
  have htitle : (Lines.heading [] 1 t.name).filter isHeading = [Heading.line 1 t.name] := rfl
  have hpackage := filter_isHeading_lines (hp.packageLine htarget hbreak) rfl
  obtain ⟨hchain, hplain⟩ := hp.hierarchy hchain
  rw [Page.headLines, List.filter_append, List.filter_append, htitle, hpackage,
    filter_isHeading_lines hchain hplain]
  rfl

theorem PlainHeader.headings (hp : PlainHeader style here t)
    (hcomment : ∀ line ∈ Text.lines t.comment, isHeading line = false) {top : Lines}
    (h : header style here t = .ok top) : top.filter isHeading = [Heading.line 1 t.name] := by
  obtain ⟨target, lineBreak, chain, htarget, hbreak, hchain, rfl⟩ := header_eq_ok h
  have hcomment : (commentLines t).filter isHeading = [] := by
    rw [List.filter_eq_nil_iff]
    intro line hline
    unfold commentLines at hline
    split at hline
    · simp at hline
    · rcases List.mem_cons.mp hline with rfl | hline
      · decide
      · simp [hcomment line hline]
  rw [List.filter_append, hp.headLines htarget hbreak hchain, hcomment, List.append_nil]

end Page

end ApiPages

import ApiPages.Proofs.Resolution

/-!
Links from page to page. The target of a link can be read back from it, and an ancestor tells from
its qualified name alone which type it is. So where each package has a directory of its own, the
link to an ancestor leads to its page, from whatever package it starts.
-/
namespace ApiPages

namespace Markdown

/-- What stands between the last opening parenthesis and the closing one at the end. -/
def targetOf? (link : Text) : Option Text :=
  (splitLast? '('.code link).map fun parts => parts.2.dropLast

/-- Percent signs that stand for a space or a parenthesis, undone from left to right. -/
def unescapeTarget : Text → Text
  | .percent :: .two :: .zero :: rest => ' '.code :: unescapeTarget rest
  | .percent :: .two :: .eight :: rest => '('.code :: unescapeTarget rest
  | .percent :: .two :: .nine :: rest => ')'.code :: unescapeTarget rest
  | c :: rest => c :: unescapeTarget rest
  | [] => []

def destination? (directory : List Text) (link : Text) : Option (List Text) :=
  (targetOf? link).map fun target => Lexical.place directory (unescapeTarget target)

theorem unescapeTarget_cons {c : CodePoint} (h : c ≠ '%'.code) (rest : Text) :
    unescapeTarget (c :: rest) = c :: unescapeTarget rest := by
  rw [unescapeTarget] <;> rintro _ rfl <;> exact absurd rfl h

theorem unescapeTarget_escapeTarget {t : Text} (h : '%'.code ∉ t) :
    unescapeTarget (escapeTarget t) = t := by
  induction t with
  | nil => rfl
  | cons c rest ih =>
    have hc : c ≠ '%'.code := fun hc => h (hc ▸ List.mem_cons_self)
    have ih := ih fun hrest => h (List.mem_cons_of_mem c hrest)
    have hcons : escapeTarget (c :: rest) = escapeTargetChar c ++ escapeTarget rest := rfl
    rw [hcons, escapeTargetChar]
    split
    · rename_i hspace
      rw [hspace]
      exact congrArg (' '.code :: ·) ih
    · split
      · rename_i hopen
        rw [hopen]
        exact congrArg ('('.code :: ·) ih
      · split
        · rename_i hclose
          rw [hclose]
          exact congrArg (')'.code :: ·) ih
        · rw [List.singleton_append, unescapeTarget_cons hc, ih]

theorem not_mem_escapeTarget {c : CodePoint} (h : escapeTargetChar c ≠ [c]) (t : Text) :
    c ∉ escapeTarget t := by
  intro hmem
  have hplain : c ≠ '%'.code ∧ c ≠ '2'.code ∧ c ≠ '0'.code ∧ c ≠ '8'.code ∧ c ≠ '9'.code := by
    refine ⟨?_, ?_, ?_, ?_, ?_⟩ <;> · rintro rfl; exact h (by decide)
  obtain ⟨d, -, hd⟩ := List.mem_flatMap.mp hmem
  by_cases hkept : escapeTargetChar d = [d]
  · rw [hkept, List.mem_singleton] at hd
    exact h (hd ▸ hkept)
  · unfold escapeTargetChar at hd hkept
    split at hd
    · simp [hplain] at hd
    · split at hd
      · simp [hplain] at hd
      · split at hd
        · simp [hplain] at hd
        · rename_i hspace hopen hclose
          exact hkept (by simp [hspace, hopen, hclose])

theorem splitLast?_parenthesized {escaped : Text} (h : '('.code ∉ escaped) (shown : Text) :
    splitLast? '('.code ('['.code :: shown ++ "](".text ++ escaped ++ [')'.code]) =
      some ('['.code :: shown ++ [']'.code], escaped ++ [')'.code]) := by
  have hsplit : '['.code :: shown ++ "](".text ++ escaped ++ [')'.code] =
      ('['.code :: shown ++ [']'.code]) ++ '('.code :: (escaped ++ [')'.code]) := by simp
  have hbehind : '('.code ∉ escaped ++ [')'.code] := by
    intro hmem
    rcases List.mem_append.mp hmem with hmem | hmem
    · exact h hmem
    · exact absurd hmem (by decide)
  rw [hsplit, splitLast?_append_cons hbehind]

theorem targetOf?_link (label target : Text) :
    targetOf? (link label target) = some (escapeTarget target) := by
  have hopen : '('.code ∉ escapeTarget target := not_mem_escapeTarget (by decide) target
  rw [targetOf?, link, linkTo, splitLast?_parenthesized hopen, Option.map_some,
    List.dropLast_concat]

theorem destination?_link {target : Text} (h : '%'.code ∉ target) (label : Text)
    (directory : List Text) :
    destination? directory (link label target) = some (Lexical.place directory target) := by
  rw [destination?, targetOf?_link, Option.map_some, unescapeTarget_escapeTarget h]

end Markdown

namespace Text

theorem mem_of_mem_join {separator : Text} {pieces : List Text} {c : CodePoint}
    (h : c ∈ join separator pieces) : c ∈ separator ∨ ∃ piece ∈ pieces, c ∈ piece := by
  induction pieces with
  | nil => simp at h
  | cons a rest ih =>
    cases rest with
    | nil => exact .inr ⟨a, List.mem_cons_self, by simpa using h⟩
    | cons b rest =>
      rw [join_cons_cons, List.mem_append, List.mem_append] at h
      rcases h with (h | h) | h
      · exact .inr ⟨a, List.mem_cons_self, h⟩
      · exact .inl h
      · rcases ih h with h | ⟨piece, hpiece, h⟩
        · exact .inl h
        · exact .inr ⟨piece, List.mem_cons_of_mem a hpiece, h⟩

end Text

open Lexical

theorem mem_of_mem_packageParts {package part : Text} {c : CodePoint}
    (h : part ∈ packageParts package) (hc : c ∈ part) : c ∈ package := by
  have hpart := isComponent_of_mem_packageParts h
  rw [← components_packagePath] at h
  obtain ⟨d, hd, hslash⟩ := List.mem_map.mp (mem_of_mem_components h hc)
  split at hslash
  · exact absurd (hslash ▸ hc) hpart.no_slash
  · exact hslash ▸ hd

theorem percent_not_mem_pageWay {source target page : Text} (htarget : '%'.code ∉ target)
    (hpage : '%'.code ∉ page) : '%'.code ∉ written (pageWay source target page) := by
  rw [written]
  split
  · decide
  · intro h
    rcases Text.mem_of_mem_join h with h | ⟨step, hstep, h⟩
    · exact absurd h (by decide)
    · rcases mem_way hstep with rfl | hstep
      · exact absurd h (by decide)
      · rcases List.mem_append.mp hstep with hstep | hstep
        · exact htarget (mem_of_mem_packageParts hstep h)
        · exact hpage (List.mem_singleton.mp hstep ▸ h)

namespace Ancestor

theorem name_of_split {a : Ancestor} {before after : Text}
    (h : splitLast? '.'.code a.qualifiedName = some (before, after)) :
    a.name = after ∧ a.package = before := by
  simp [name, package, h]

theorem of_type {t : TypeEntry} (h : '.'.code ∉ t.name) (documented : Bool) :
    (⟨t.qualifiedName, documented⟩ : Ancestor).name = t.name ∧
      (⟨t.qualifiedName, documented⟩ : Ancestor).package = t.package := by
  by_cases hnil : t.package = []
  · have hq : t.qualifiedName = t.name := by simp [TypeEntry.qualifiedName, hnil]
    simp [name, package, hq, splitLast?_eq_none_iff.mpr h, hnil]
  · have hq : t.qualifiedName = t.package ++ '.'.code :: t.name := by
      simp [TypeEntry.qualifiedName, hnil]
    apply name_of_split
    rw [hq, splitLast?_append_cons h]

theorem rendered_eq {a : Ancestor} {extension source : Text} (hdoc : a.documented = true)
    (hs : ProperPackage source) (ht : ProperPackage a.package)
    (hpage : IsPage (pageName extension a.name)) (here : List Text) :
    a.rendered here extension source =
      .ok (Markdown.link a.name
        (written (pageWay source a.package (pageName extension a.name)))) := by
  rw [rendered, if_pos hdoc, relativePagePath_eq hs ht hpage]
  rfl

/-- From any directory the link to an ancestor goes the way from package to page. -/
theorem destination?_rendered {a : Ancestor} {extension source link : Text} {here : List Text}
    (hdoc : a.documented = true) (hs : ProperPackage source) (ht : ProperPackage a.package)
    (hpage : IsPage (pageName extension a.name)) (hplain : '%'.code ∉ a.package)
    (hpagePlain : '%'.code ∉ pageName extension a.name)
    (h : a.rendered here extension source = .ok link) (directory : List Text) :
    Markdown.destination? directory link =
      some ((pageWay source a.package (pageName extension a.name)).foldl enter directory) := by
  rw [rendered_eq hdoc hs ht hpage] at h
  cases h
  rw [Markdown.destination?_link (percent_not_mem_pageWay hplain hpagePlain),
    place_written_pageWay hpage]

end Ancestor

/-- Where the page of a type is if each package has a directory of its own. -/
def TypeEntry.home (t : TypeEntry) (extension : Text) : List Text :=
  packageParts t.package ++ [pageName extension t.name]

/-- The ancestor is this type, and its link leads from the directory of a package to its home. -/
structure FindsHome (c : Context) (here : List Text) (source : Text) (t : TypeEntry)
    (a : Ancestor) : Prop where
  name : a.name = t.name
  package : a.package = t.package
  leads : ∃ link, a.rendered here c.fileExtension source = .ok link ∧
    Markdown.destination? (packageParts source) link = some (t.home c.fileExtension)

/-- Where each package has a directory of its own, the link to an ancestor finds its page. -/
theorem ancestor_link_finds_home (c : Context) (here : List Text) (source : Text) (t : TypeEntry)
    (hsource : ProperPackage source) (hpackage : ProperPackage t.package)
    (hname : '.'.code ∉ t.name)
    (hpage : IsPage (pageName c.fileExtension t.name)) (hpackagePlain : '%'.code ∉ t.package)
    (hpagePlain : '%'.code ∉ pageName c.fileExtension t.name) :
    FindsHome c here source t ⟨t.qualifiedName, true⟩ := by
  obtain ⟨hn, hp⟩ := Ancestor.of_type hname true
  have hrendered := Ancestor.rendered_eq (a := ⟨t.qualifiedName, true⟩) rfl hsource
    (hp.symm ▸ hpackage) (hn.symm ▸ hpage) here
  refine ⟨hn, hp, _, hrendered, ?_⟩
  rw [Ancestor.destination?_rendered rfl hsource (hp.symm ▸ hpackage) (hn.symm ▸ hpage)
    (hp.symm ▸ hpackagePlain) (hn.symm ▸ hpagePlain) hrendered, hn, hp]
  exact congrArg some (foldl_enter_way (up_not_mem_page hpage))

namespace Sample

def numberedPages : Context := { fileExtension := " (1).md".text }

def model : TypeEntry := { name := "Foo".text, package := "com.acme..model".text }

end Sample

theorem sample_link_between_packages :
    ProperPackage "com.acme.ui".text ∧ ProperPackage Sample.model.package ∧
      '.'.code ∉ Sample.model.name ∧
      IsPage (pageName Sample.numberedPages.fileExtension Sample.model.name) ∧
      '%'.code ∉ Sample.model.package ∧
      '%'.code ∉ pageName Sample.numberedPages.fileExtension Sample.model.name ∧
      FindsHome Sample.numberedPages [] "com.acme.ui".text Sample.model
        ⟨Sample.model.qualifiedName, true⟩ := by
  have hsource : ProperPackage "com.acme.ui".text := by constructor <;> decide
  have hpackage : ProperPackage Sample.model.package := by constructor <;> decide
  have hname : '.'.code ∉ Sample.model.name := by decide
  have hpage : IsPage (pageName Sample.numberedPages.fileExtension Sample.model.name) := by
    refine ⟨⟨?_, ?_, ?_⟩, ?_⟩ <;> decide
  have hpackagePlain : '%'.code ∉ Sample.model.package := by decide
  have hpagePlain : '%'.code ∉ pageName Sample.numberedPages.fileExtension Sample.model.name := by
    decide
  exact ⟨hsource, hpackage, hname, hpage, hpackagePlain, hpagePlain,
    ancestor_link_finds_home _ _ _ _ hsource hpackage hname hpage hpackagePlain hpagePlain⟩

example : (⟨Sample.model.qualifiedName, true⟩ : Ancestor).rendered ["srv".text]
    Sample.numberedPages.fileExtension "com.acme.ui".text =
      .ok "[Foo](../model/Foo%20%281%29.md)".text := by decide +kernel

end ApiPages

import ApiPages.Page.Hierarchy
import ApiPages.Proofs.SettingsMeaning

/-!
Roots that no chain shows. Whatever a file of settings says about the implicit roots, the default
ones and the named ones are left out of every chain, and nothing else is. What a chain is made of is
said for all settings, also for those that no chain can be written with.
-/
namespace ApiPages

theorem Lexical.continued_eq_nil_iff {first second : Text} :
    continued first second = [] ↔ first = [] ∧ second = [] := by
  rw [continued]
  by_cases hroot : second.head? = some '/'.code
  · have hsecond : second ≠ [] := by
      rintro rfl
      contradiction
    simp [hroot, hsecond]
  · rw [if_neg hroot]
    split
    · exact List.append_eq_nil_iff
    · rename_i hslash
      have hfirst : first ≠ [] := by
        rintro rfl
        simp at hslash
      simp [hfirst]

namespace Ancestor

def shown (a : Ancestor) (style : PageStyle) (here : List Text) (package : Text) :
    Except Fault Text := do
  if a.documented then a.rendered here (← style.fileExtension) package
  else a.rendered here [] package

variable {a : Ancestor} {style : PageStyle} {here : List Text} {package extension : Text}

/-- The page of an ancestor has a path, unless neither its package nor its page has a name. -/
theorem rendered_isOk_iff (hdocumented : a.documented = true) :
    (∃ link, a.rendered here extension package = .ok link) ↔
      a.package ≠ [] ∨ pageName extension a.name ≠ [] := by
  have hempty : Lexical.continued (packagePath a.package) (pageName extension a.name) = [] ↔
      a.package = [] ∧ pageName extension a.name = [] := by
    rw [Lexical.continued_eq_nil_iff, packagePath, List.map_eq_nil_iff]
  rw [← not_and_or, ← hempty, rendered, if_pos hdocumented, relativePagePath, Lexical.relative]
  cases Lexical.continued (packagePath a.package) (pageName extension a.name) with
  | nil => simp [bind, Except.bind]
  | cons c rest => simp

theorem shown_isOk_iff :
    (∃ link, a.shown style here package = .ok link) ↔
      (a.documented = true → ∃ extension, style.fileExtension = .ok extension ∧
        (a.package ≠ [] ∨ pageName extension a.name ≠ [])) := by
  rw [shown]
  cases hdocumented : a.documented with
  | false => simp [rendered, hdocumented]
  | true =>
    cases style.fileExtension with
    | error fault => simp [bind, Except.bind]
    | ok extension => simp [rendered_isOk_iff hdocumented]

end Ancestor

namespace TypeEntry

variable {t : TypeEntry} {style : PageStyle} {here : List Text}

theorem hierarchy_eq :
    t.hierarchy style here =
      if (t.shownAncestors style.implicitRoots).isEmpty then .ok []
      else do
        let links ← (t.shownAncestors style.implicitRoots).mapM (·.shown style here t.package)
        return Text.join (← style.separator) (links ++ [t.boldName]) := rfl

/-- What a chain says is told by the ancestors it shows. -/
theorem hierarchy_congr {u : TypeEntry} (hname : t.name = u.name) (hpackage : t.package = u.package)
    (hshown : t.shownAncestors style.implicitRoots = u.shownAncestors style.implicitRoots) :
    t.hierarchy style here = u.hierarchy style here := by
  rw [hierarchy_eq, hierarchy_eq, hshown, hpackage, boldName, boldName, hname]

theorem boldName_ne_nil : t.boldName ≠ [] := by
  have hstars : "**".text ≠ [] := by decide
  exact List.append_ne_nil_of_right_ne_nil _ hstars

/-- Some ancestors as they are shown, in their order, and the type itself behind them. -/
def IsChain (t : TypeEntry) (style : PageStyle) (here : List Text) (ancestors : List Ancestor)
    (chain : Text) : Prop :=
  ∃ separator links, style.separator = .ok separator ∧
    List.Forall₂ (fun a link => a.shown style here t.package = .ok link) ancestors links ∧
    chain = Text.join separator (links ++ [t.boldName])

theorem hierarchy_eq_ok_iff {chain : Text} (h : t.shownAncestors style.implicitRoots ≠ []) :
    t.hierarchy style here = .ok chain ↔
      t.IsChain style here (t.shownAncestors style.implicitRoots) chain := by
  rw [hierarchy_eq, if_neg (by simpa using h)]
  constructor
  · intro hchain
    obtain ⟨links, hlinks, hchain⟩ := bind_eq_ok.mp hchain
    obtain ⟨separator, hseparator, hchain⟩ := bind_eq_ok.mp hchain
    cases hchain
    exact ⟨separator, links, hseparator, mapM_eq_ok_iff.mp hlinks, rfl⟩
  · rintro ⟨separator, links, hseparator, hlinks, rfl⟩
    rw [mapM_eq_ok_iff.mpr hlinks, ok_bind, hseparator, ok_bind]
    rfl

theorem hierarchy_eq_ok_nil_iff :
    t.hierarchy style here = .ok [] ↔ t.shownAncestors style.implicitRoots = [] := by
  constructor
  · intro hchain
    by_contra h
    obtain ⟨separator, links, -, -, hjoin⟩ := (hierarchy_eq_ok_iff h).mp hchain
    have hinfix : t.boldName <:+: Text.join separator (links ++ [t.boldName]) :=
      Text.infix_join (List.mem_append_right _ (List.mem_singleton_self _))
    rw [← hjoin] at hinfix
    exact boldName_ne_nil (List.infix_nil.mp hinfix)
  · intro h
    rw [hierarchy_eq, h]
    rfl

/-- A chain can be written if there is a separator and each ancestor can be shown. -/
theorem exists_isChain_iff {ancestors : List Ancestor} :
    (∃ chain, t.IsChain style here ancestors chain) ↔
      (∃ separator, style.separator = .ok separator) ∧
        ∀ a ∈ ancestors, ∃ link, a.shown style here t.package = .ok link := by
  constructor
  · rintro ⟨chain, separator, links, hseparator, hlinks, -⟩
    refine ⟨⟨separator, hseparator⟩, fun a ha => ?_⟩
    obtain ⟨link, -, hlink⟩ := exists_mem_of_mapM (mapM_eq_ok_iff.mpr hlinks) ha
    exact ⟨link, hlink⟩
  · rintro ⟨⟨separator, hseparator⟩, hshown⟩
    have hlinks : ∃ links,
        List.Forall₂ (fun a link => a.shown style here t.package = .ok link) ancestors links := by
      induction ancestors with
      | nil => exact ⟨[], .nil⟩
      | cons a ancestors ih =>
        obtain ⟨⟨link, hlink⟩, hshown⟩ := List.forall_mem_cons.mp hshown
        obtain ⟨links, hlinks⟩ := ih hshown
        exact ⟨link :: links, .cons hlink hlinks⟩
    obtain ⟨links, hlinks⟩ := hlinks
    exact ⟨_, separator, links, hseparator, hlinks, rfl⟩

def without (t : TypeEntry) (hidden : List Text) : TypeEntry :=
  { t with ancestors := t.ancestors.filter fun a => !hidden.contains a.qualifiedName }

theorem shownAncestors_eq_without {roots hidden : List Text} (h : ∀ n, n ∈ roots ↔ n ∈ hidden) :
    t.shownAncestors roots = (t.without hidden).ancestors := by
  apply List.filter_congr
  intro a _
  rw [Bool.eq_iff_iff]
  simp [h]

theorem shownAncestors_without {roots hidden : List Text} (h : ∀ n, n ∈ roots ↔ n ∈ hidden) :
    (t.without hidden).shownAncestors roots = (t.without hidden).ancestors := by
  rw [shownAncestors, without, List.filter_filter]
  apply List.filter_congr
  intro a _
  rw [Bool.eq_iff_iff]
  simp [h]

end TypeEntry

namespace Settings

open Value

def rootsNamedIn (document : Value) : List Text :=
  match document.mapping?.bind fun m => m.at? SettingsKey.implicitRoots with
  | none => []
  | some v =>
    match v.opened with
    | .list items => items.filterMap text?
    | _ => []

/-- The implicit roots that are named in the file that a path leads to, if it leads to one. -/
def rootsNamedAt (read : DocumentReader) (t : FileTree) : Option Text → List Text
  | none => []
  | some [] => []
  | some name =>
    match t.readValue read (Path.ofText name) with
    | .ok document => rootsNamedIn document
    | .error _ => []

def hiddenRoots (read : DocumentReader) (t : FileTree) (path : Option Text) : List Text :=
  "java.lang.Object".text :: "object".text :: rootsNamedAt read t path

theorem rootsNamedIn_eq {document : Value} {m : Mapping} {names : List Text}
    (hm : document.mapping? = some m) (hnames : NamesRoots m names) :
    rootsNamedIn document = names := by
  rcases hnames with ⟨habsent, rfl⟩ | ⟨v, hv, hlist⟩
  · simp [rootsNamedIn, hm, habsent]
  · rw [rootsNamedIn, hm, Option.bind_some, hv]
    dsimp only
    rw [hlist]
    exact filterMap_text? names

/-- The roots that the pages are told are those named in the file, added to the default ones. -/
theorem implicitRoots_of_load? {read : DocumentReader} (hread : read.DistinctKeys) {t : FileTree}
    {path : Option Text} {s : Settings} (h : load? read t path = .ok s) :
    s.implicitRoots = rootsWith (rootsNamedAt read t path) := by
  obtain ⟨config, hconfig, rfl⟩ := map_eq_ok.mp h
  have hdefaults : (ofMapping defaults).implicitRoots = rootsWith [] := rfl
  match path with
  | none | some [] =>
    cases hconfig
    exact hdefaults
  | some (c :: rest) =>
    cases hvalue : t.readValue read (Path.ofText (c :: rest)) with
    | error u =>
      have hnamed : rootsNamedAt read t (some (c :: rest)) = [] := by simp [rootsNamedAt, hvalue]
      simp only [read?, hvalue] at hconfig
      rw [hnamed]
      split at hconfig <;> cases hconfig
      exact hdefaults
    | ok document =>
      have hnamed : rootsNamedAt read t (some (c :: rest)) = rootsNamedIn document := by
        simp [rootsNamedAt, hvalue]
      rw [read?_of_readValue (List.cons_ne_nil _ _) hvalue] at hconfig
      rw [hnamed]
      rcases ofDocument?_eq_ok hconfig with ⟨hnone, rfl⟩ | ⟨m, names, hm, -, hnames, rfl⟩
      · have hnothing : rootsNamedIn document = [] := by simp [rootsNamedIn, hnone]
        rw [hnothing]
        exact hdefaults
      · have hdistinct := FileTree.readValue_distinctKeys hread hvalue m hm
        rw [rootsNamedIn_eq hm hnames]
        exact implicitRoots_ofMapping hnames (roots_merge_defaults hdistinct hnames)

theorem mem_implicitRoots_iff {read : DocumentReader} (hread : read.DistinctKeys) {t : FileTree}
    {path : Option Text} {s : Settings} (h : load? read t path = .ok s) (n : Text) :
    n ∈ s.implicitRoots ↔ n ∈ hiddenRoots read t path := by
  have hhidden : hiddenRoots read t path = defaultRoots ++ rootsNamedAt read t path := rfl
  rw [implicitRoots_of_load? hread h, hhidden, mem_rootsWith, List.mem_append]

/-- No chain shows what is hidden, and every other ancestor has its place in it. -/
structure Hides (s : Settings) (here : List Text) (e : TypeEntry) (hidden : List Text) : Prop where
  same : e.hierarchy s.style here = (e.without hidden).hierarchy s.style here
  empty_iff : e.hierarchy s.style here = .ok [] ↔ (e.without hidden).ancestors = []
  chain_iff : (e.without hidden).ancestors ≠ [] → ∀ chain,
    e.hierarchy s.style here = .ok chain ↔
      e.IsChain s.style here (e.without hidden).ancestors chain
  /-- What a file may set so that a chain that shows ancestors cannot be written. -/
  written_iff : (∃ chain, e.hierarchy s.style here = .ok chain) ↔
    (e.without hidden).ancestors = [] ∨ (∃ separator, s.hierarchySeparator.text? = some separator) ∧
      ∀ a ∈ (e.without hidden).ancestors, a.documented = true →
        ∃ extension, s.fileExtension.display? = .ok extension ∧
          (a.package ≠ [] ∨ pageName extension a.name ≠ [])

theorem separator_style {s : Settings} {separator : Text} :
    s.style.separator = .ok separator ↔ s.hierarchySeparator.text? = some separator := by
  have hstyle : s.style.separator = separator? s.hierarchySeparator := rfl
  rw [hstyle]
  cases s.hierarchySeparator <;> simp [separator?, text?]

/-- Under the settings of any file, or of none, a chain is the same with and without the ancestors
that are default roots or named as roots in the file, and it is made of the others. -/
theorem default_and_named_roots_never_show {read : DocumentReader} (hread : read.DistinctKeys)
    {t : FileTree} {path : Option Text} {s : Settings} (h : load? read t path = .ok s)
    (here : List Text) (e : TypeEntry) : s.Hides here e (hiddenRoots read t path) := by
  have hroots : ∀ n, n ∈ s.style.implicitRoots ↔ n ∈ hiddenRoots read t path :=
    mem_implicitRoots_iff hread h
  have hothers := TypeEntry.shownAncestors_eq_without (t := e) hroots
  have hempty : e.hierarchy s.style here = .ok [] ↔
      (e.without (hiddenRoots read t path)).ancestors = [] := by
    rw [TypeEntry.hierarchy_eq_ok_nil_iff, hothers]
  have hchain : (e.without (hiddenRoots read t path)).ancestors ≠ [] → ∀ chain,
      e.hierarchy s.style here = .ok chain ↔
        e.IsChain s.style here (e.without (hiddenRoots read t path)).ancestors chain := by
    intro hne chain
    rw [TypeEntry.hierarchy_eq_ok_iff (hothers ▸ hne), hothers]
  refine ⟨?_, hempty, hchain, ?_⟩
  · refine TypeEntry.hierarchy_congr rfl rfl ?_
    rw [hothers, TypeEntry.shownAncestors_without hroots]
  · by_cases hne : (e.without (hiddenRoots read t path)).ancestors = []
    · simp only [hne, true_or, iff_true]
      exact ⟨[], hempty.mpr hne⟩
    · simp only [hchain hne, hne, false_or]
      rw [TypeEntry.exists_isChain_iff]
      simp only [separator_style, Ancestor.shown_isOk_iff]
      rfl

namespace Sample

def derived : TypeEntry where
  name := "Derived".text
  package := "com.acme".text
  ancestors := [⟨"kotlin.Any".text, true⟩, ⟨"java.lang.Object".text, false⟩,
    ⟨"com.base.Base".text, true⟩, ⟨"kotlin.Any".text, false⟩, ⟨"Marker".text, false⟩]

def numbered : FileTree := holding "hierarchy_separator: 5\n".text

end Sample

open Settings.Sample

theorem sample_hidden_roots :
    ∃ s, load? Yaml.value? settled (some settingsName) = .ok s ∧
      s.Hides ["srv".text] derived (hiddenRoots Yaml.value? settled (some settingsName)) := by
  have hloaded : (load? Yaml.value? settled (some settingsName)).toBool = true := by decide +kernel
  cases h : load? Yaml.value? settled (some settingsName) with
  | error e =>
    rw [h] at hloaded
    contradiction
  | ok s => exact ⟨s, rfl, default_and_named_roots_never_show Yaml.value?_distinctKeys h _ _⟩

/-- A file whose separator is a number is accepted, and no chain that shows an ancestor is
written. -/
theorem sample_separator_is_no_text :
    ∃ s, load? Yaml.value? numbered (some settingsName) = .ok s ∧
      (derived.without (hiddenRoots Yaml.value? numbered (some settingsName))).ancestors ≠ [] ∧
      derived.hierarchy s.style ["srv".text] = .error (.lacks "int".text "join".text) := by
  have hloaded : (load? Yaml.value? numbered (some settingsName)).toOption.map
      (fun s => (derived.hierarchy s.style ["srv".text])) =
        some (.error (.lacks "int".text "join".text)) := by decide +kernel
  cases h : load? Yaml.value? numbered (some settingsName) with
  | error e =>
    rw [h] at hloaded
    contradiction
  | ok s =>
    rw [h] at hloaded
    exact ⟨s, rfl, by decide +kernel, Option.some.inj hloaded⟩

example : (derived.without (hiddenRoots Yaml.value? settled (some settingsName))).ancestors =
    [⟨"com.base.Base".text, true⟩, ⟨"Marker".text, false⟩] := by decide +kernel

end Settings

end ApiPages

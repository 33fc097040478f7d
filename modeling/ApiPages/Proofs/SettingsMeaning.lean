import ApiPages.Proofs.DocumentKeys
import ApiPages.Settings.Document

/-!
What the settings of an accepted file are. Every key has the value that the file gives for it, and
the default if it gives none. The implicit roots alone are not replaced: the names in the file come
behind the default ones, unless they are there already.
-/
namespace ApiPages

namespace Value

theorem extend_texts (items more : List Text) :
    extend (items.map .text) (more.map .text) =
      (items ++ (more.removeAll items).eraseDups).map .text := by
  induction more generalizing items with
  | nil => simp [extend]
  | cons c more ih =>
    have hany : (items.map Value.text).any (·.same (.text c)) = true ↔ c ∈ items := by
      simp only [List.any_map, List.any_eq_true, Function.comp_apply, same_text_iff,
        Value.text.injEq, exists_eq_right]
    rw [List.map_cons, extend, List.cons_removeAll]
    by_cases hc : c ∈ items
    · rw [if_pos (hany.mpr hc), ih]
      simp [hc]
    · have hkeep :
          more.removeAll (items ++ [c]) = (more.removeAll items).filter fun d => !d == c := by
        simp only [List.removeAll, List.filter_filter]
        apply List.filter_congr
        intro d _
        rw [Bool.eq_iff_iff]
        simp [and_comm]
      have hlast : items.map Value.text ++ [.text c] = (items ++ [c]).map .text := by simp
      rw [if_neg (mt hany.mp hc), hlast, ih, hkeep]
      simp [hc, List.eraseDups_cons]

end Value

namespace Settings

open Mapping Value

def defaultRoots : List Text := ({} : Context).implicitRoots

/-- The default roots, and behind them the names that are none of them, each once, in the order in
which they come first. -/
def rootsWith (names : List Text) : List Text :=
  defaultRoots ++ (names.removeAll defaultRoots).eraseDups

theorem mem_rootsWith {names : List Text} {n : Text} :
    n ∈ rootsWith names ↔ n ∈ defaultRoots ∨ n ∈ names := by
  have hmore : n ∈ names.removeAll defaultRoots ↔ n ∈ names ∧ n ∉ defaultRoots := by
    simp [List.removeAll]
  rw [rootsWith, List.mem_append, List.mem_eraseDups, hmore]
  tauto

def OnlyKnownKeys (m : Mapping) : Prop := ∀ k ∈ m.keys, ∃ key ∈ SettingsKey.all, k = .text key

def IsListOf (names : List Text) (v : Value) : Prop := v.opened = .list (names.map .text)

/-- The implicit roots that a mapping names: none if it says nothing about them. -/
def NamesRoots (m : Mapping) (names : List Text) : Prop :=
  m.at? SettingsKey.implicitRoots = none ∧ names = [] ∨
    ∃ v, m.at? SettingsKey.implicitRoots = some v ∧ IsListOf names v

/-- The implicit roots as they are read: the default tuple itself, or a list if any are named. -/
def rootsValue (m : Mapping) (names : List Text) : Value :=
  if (m.at? SettingsKey.implicitRoots).isNone then .tuple (defaultRoots.map .text)
  else .list ((rootsWith names).map .text)

theorem isNames_iff {v : Value} : isNames v = true ↔ ∃ names, IsListOf names v := by
  rw [isNames]
  split
  · rename_i items hitems
    rw [all_text?_iff]
    simp only [IsListOf, hitems, Value.list.injEq]
  · rename_i hno
    constructor
    · intro h
      contradiction
    · rintro ⟨names, h⟩
      exact absurd h (hno _)

theorem unknownKeys_eq_nil_iff {m : Mapping} : unknownKeys m = [] ↔ OnlyKnownKeys m := by
  rw [unknownKeys, List.filter_eq_nil_iff, OnlyKnownKeys]
  refine forall₂_congr fun k _ => ?_
  rw [Bool.not_eq_true', Bool.not_eq_false, List.any_eq_true]
  simp only [same_text_iff]

theorem checkKeys_eq_ok_iff {path : Path} {m : Mapping} :
    checkKeys path m = .ok () ↔ OnlyKnownKeys m := by
  rw [← unknownKeys_eq_nil_iff, ← List.isEmpty_iff, checkKeys]
  cases (unknownKeys m).isEmpty with
  | true => simp
  | false => cases (unknownKeys m).mapM text? <;> simp

theorem checkRoots_eq_ok_iff {path : Path} {m : Mapping} :
    checkRoots path m = .ok () ↔ ∃ names, NamesRoots m names := by
  rw [checkRoots]
  cases hroots : m.at? SettingsKey.implicitRoots with
  | none => simp [NamesRoots, hroots]
  | some v =>
    have hnames : (∃ names, NamesRoots m names) ↔ isNames v = true := by
      rw [isNames_iff]
      simp [NamesRoots, hroots]
    rw [hnames]
    cases hv : isNames v with
    | true => simp [hv]
    | false => cases hw : v.writable <;> simp [hv, hw]

theorem eq_nil_of_not_truthy {document : Value} {m : Mapping} (hm : document.mapping? = some m)
    (h : document.truthy = false) : m = [] := by
  cases document with
  | map entries =>
    cases hm
    simpa [truthy] using h
  | knot => cases h
  | _ => cases hm

theorem entriesOf?_of_mapping {path : Path} {document : Value} {m : Mapping}
    (hm : document.mapping? = some m) : entriesOf? path document = .ok m := by
  rw [entriesOf?]
  cases h : document.truthy with
  | true => simp [hm]
  | false => simp [eq_nil_of_not_truthy hm h]

theorem keys_merge_defaults {m : Mapping} (h : OnlyKnownKeys m) :
    (defaults.merge m).keys = SettingsKey.all.map .text := by
  have hdefaults : defaults.keys = SettingsKey.all.map .text := rfl
  rw [keys_merge_of_mem, hdefaults]
  intro k hk
  obtain ⟨key, hkey, rfl⟩ := h k hk
  rw [hdefaults]
  exact ⟨List.mem_map_of_mem hkey, key, rfl⟩

theorem mergeAt_of_ne {key : Text} {current : Option Value} {v : Value} (hkey : key ≠ additiveKey)
    (hcurrent : current.bind mapping? = none) : mergeAt (.text key) current v = v := by
  have hreplaced : succeed (.text key) current v = v := by
    rw [succeed, Bool.eq_false_iff.mpr fun h => hkey (Value.text.inj (same_text_iff.mp h))]
  cases v with
  | map entries => rw [mergeAt, hcurrent]
  | _ => exact hreplaced

theorem mergeAt_roots {items names : List Text} {v : Value} (h : IsListOf names v) :
    mergeAt (.text additiveKey) (some (.tuple (items.map .text))) v =
      .list ((items ++ (names.removeAll items).eraseDups).map .text) := by
  have hsequence : v.sequence? = some (names.map .text) := by rw [sequence?, h]
  have hextended : succeed (.text additiveKey) (some (.tuple (items.map .text))) v =
      .list ((items ++ (names.removeAll items).eraseDups).map .text) := by
    rw [succeed, same_text_iff.mpr rfl, hsequence, ← extend_texts]
    rfl
  cases v with
  | map entries => cases h
  | _ => exact hextended

theorem mapping?_defaults (key : Text) : (defaults.at? key).bind mapping? = none := by
  have hscalars : ∀ e ∈ defaults, e.2.mapping? = none := by decide
  cases h : defaults.at? key with
  | none => rfl
  | some v => exact hscalars _ (mem_of_at? h)

theorem defaults_roots : defaults.at? SettingsKey.implicitRoots =
    some (.tuple (defaultRoots.map .text)) := rfl

def mapping (s : Settings) : Mapping :=
  [(.text SettingsKey.fileExtension, s.fileExtension),
   (.text SettingsKey.packageIndex, s.packageIndex),
   (.text SettingsKey.implicitRoots, .tuple (s.implicitRoots.map .text)),
   (.text SettingsKey.lineBreak, s.lineBreak),
   (.text SettingsKey.codeLanguage, s.codeLanguage),
   (.text SettingsKey.hierarchySeparator, s.hierarchySeparator),
   (.text SettingsKey.summarizeFields, s.summarizeFields)]

/-- What a file with these entries means, where `names` are the implicit roots that it lists: the
settings as they are read, and as they are loaded for the pages. -/
structure Means (m : Mapping) (names : List Text) (config : Mapping) (s : Settings) :
    Prop where
  keys : config.keys = SettingsKey.all.map .text
  value : ∀ key ∈ SettingsKey.all, key ≠ SettingsKey.implicitRoots →
    config.at? key = (m.at? key).or (defaults.at? key)
  roots : config.at? SettingsKey.implicitRoots = some (rootsValue m names)
  loaded : s.mapping = config.insert (.text SettingsKey.implicitRoots)
    (.tuple ((rootsWith names).map .text))

variable {path : Path} {document : Value} {m : Mapping} {names : List Text}

theorem ofDocument?_of_not_truthy (h : document.truthy = false) :
    ofDocument? path document = .ok defaults := by
  rw [ofDocument?, entriesOf?, h]
  rfl

theorem ofDocument?_of_mapping (hm : document.mapping? = some m) :
    ofDocument? path document = (do
      checkKeys path m
      checkRoots path m
      return defaults.merge m) := by
  rw [ofDocument?, entriesOf?_of_mapping hm, ok_bind]

theorem ofDocument?_eq_of_mapping (hm : document.mapping? = some m) (hknown : OnlyKnownKeys m)
    (hnames : NamesRoots m names) : ofDocument? path document = .ok (defaults.merge m) := by
  rw [ofDocument?_of_mapping hm, checkKeys_eq_ok_iff.mpr hknown, ok_bind,
    checkRoots_eq_ok_iff.mpr ⟨names, hnames⟩]
  rfl

/-- A document that is accepted is a mapping in order, or counts as false and has no entries. -/
theorem ofDocument?_eq_ok {config : Mapping} (h : ofDocument? path document = .ok config) :
    document.mapping? = none ∧ config = defaults ∨
      ∃ m names, document.mapping? = some m ∧ OnlyKnownKeys m ∧ NamesRoots m names ∧
        config = defaults.merge m := by
  cases hm : document.mapping? with
  | none =>
    cases htruthy : document.truthy with
    | false =>
      rw [ofDocument?_of_not_truthy htruthy] at h
      exact .inl ⟨rfl, (Except.ok.inj h).symm⟩
    | true =>
      rw [ofDocument?, entriesOf?, htruthy, hm] at h
      cases h
  | some m =>
    rw [ofDocument?_of_mapping hm] at h
    obtain ⟨⟨⟩, hkeys, h⟩ := bind_eq_ok.mp h
    obtain ⟨⟨⟩, hroots, h⟩ := bind_eq_ok.mp h
    obtain ⟨names, hnames⟩ := checkRoots_eq_ok_iff.mp hroots
    exact .inr ⟨m, names, rfl, checkKeys_eq_ok_iff.mp hkeys, hnames, (Except.ok.inj h).symm⟩

theorem at?_merge_defaults (hdistinct : m.DistinctKeys) {key : Text}
    (hkey : key ≠ SettingsKey.implicitRoots) :
    (defaults.merge m).at? key = (m.at? key).or (defaults.at? key) := by
  rw [at?_merge hdistinct]
  cases hv : m.at? key with
  | none => rfl
  | some v =>
    dsimp only
    rw [mergeAt_of_ne hkey (mapping?_defaults key)]
    rfl

theorem roots_merge_defaults (hdistinct : m.DistinctKeys) (hnames : NamesRoots m names) :
    (defaults.merge m).at? SettingsKey.implicitRoots = some (rootsValue m names) := by
  rw [at?_merge hdistinct, rootsValue]
  rcases hnames with ⟨habsent, -⟩ | ⟨v, hv, hlist⟩
  · rw [habsent]
    exact defaults_roots
  · rw [hv, defaults_roots]
    exact congrArg some (mergeAt_roots hlist)

theorem filterMap_text? (names : List Text) : (names.map .text).filterMap text? = names := by
  rw [List.filterMap_map]
  exact List.filterMap_some

theorem implicitRoots_ofMapping {config : Mapping} (hnames : NamesRoots m names)
    (hroots : config.at? SettingsKey.implicitRoots = some (rootsValue m names)) :
    (ofMapping config).implicitRoots = (rootsWith names) := by
  have hloaded : (ofMapping config).implicitRoots =
      Settings.names ((config.at? SettingsKey.implicitRoots).getD .null) := rfl
  rw [hloaded, hroots, rootsValue]
  rcases hnames with ⟨habsent, rfl⟩ | ⟨v, hv, -⟩
  · rw [habsent]
    have hnone : rootsWith [] = defaultRoots := rfl
    rw [hnone]
    exact filterMap_text? defaultRoots
  · rw [hv]
    exact filterMap_text? (rootsWith names)

theorem mapping_ofMapping {config : Mapping} (h : config.keys = SettingsKey.all.map .text) :
    (ofMapping config).mapping = config.insert (.text SettingsKey.implicitRoots)
      (.tuple ((ofMapping config).implicitRoots.map .text)) := by
  have hconfig := eq_of_keys h SettingsKey.all_nodup
  have hinsert := congrArg (fun c => Mapping.insert c (.text SettingsKey.implicitRoots)
    (.tuple ((ofMapping config).implicitRoots.map .text))) hconfig
  exact hinsert.symm

theorem means_merge_defaults (hdistinct : m.DistinctKeys) (hknown : OnlyKnownKeys m)
    (hnames : NamesRoots m names) :
    Means m names (defaults.merge m) (ofMapping (defaults.merge m)) := by
  have hkeys := keys_merge_defaults hknown
  have hroots := roots_merge_defaults hdistinct hnames
  refine ⟨hkeys, fun key _ hne => at?_merge_defaults hdistinct hne, hroots, ?_⟩
  rw [mapping_ofMapping hkeys, implicitRoots_ofMapping hnames hroots]

/-- A path that leads to nothing that is read, or to a document that holds nothing. -/
inductive WithoutDocument (read : DocumentReader) (t : FileTree) : Option Text → Prop
  | noPath : WithoutDocument read t none
  | emptyPath : WithoutDocument read t (some [])
  | noFile {name : Text} : t.exists? (Path.ofText name) = .ok false →
      WithoutDocument read t (some name)
  | empty {name : Text} : t.readValue read (Path.ofText name) = .ok .null →
      WithoutDocument read t (some name)

theorem read?_of_readValue {read : DocumentReader} {t : FileTree} {name : Text} (hname : name ≠ [])
    (h : t.readValue read (Path.ofText name) = .ok document) :
    read? read t (some name) = ofDocument? (Path.ofText name) document := by
  cases name with
  | nil => contradiction
  | cons c rest => simp only [read?, FileTree.exists?_of_readValue h, h]

theorem ofDocument?_null : ofDocument? path .null = .ok defaults := rfl

theorem read?_withoutDocument {read : DocumentReader} {t : FileTree} {path : Option Text}
    (h : WithoutDocument read t path) : read? read t path = .ok defaults := by
  cases h with
  | noPath => rfl
  | emptyPath => rfl
  | noFile h =>
    rename_i name
    cases name with
    | nil => rfl
    | cons c rest => simp only [read?, h]
  | empty h =>
    rename_i name
    cases name with
    | nil => rfl
    | cons c rest =>
      rw [read?_of_readValue (List.cons_ne_nil _ _) h]
      exact ofDocument?_null

/-- Every accepted file of settings means what it says, and without one there are the defaults. -/
theorem accepted_settings_mean_what_they_say {read : DocumentReader} (hread : read.DistinctKeys)
    (t : FileTree) :
    (∀ (name : Text) (document : Value) (m : Mapping) (names : List Text), name ≠ [] →
      t.readValue read (Path.ofText name) = .ok document → document.mapping? = some m →
      OnlyKnownKeys m → NamesRoots m names →
      ∃ config s, read? read t (some name) = .ok config ∧ load? read t (some name) = .ok s ∧
        Means m names config s) ∧
    ∀ path, WithoutDocument read t path →
      ∃ s, read? read t path = .ok defaults ∧ load? read t path = .ok s ∧
        s.mapping = defaults := by
  constructor
  · intro name document m names hname hdocument hm hknown hnames
    have hconfig : read? read t (some name) = .ok (defaults.merge m) := by
      rw [read?_of_readValue hname hdocument]
      exact ofDocument?_eq_of_mapping hm hknown hnames
    have hdistinct := FileTree.readValue_distinctKeys hread hdocument m hm
    refine ⟨_, _, hconfig, by rw [load?, hconfig]; rfl, ?_⟩
    exact means_merge_defaults hdistinct hknown hnames
  · intro path h
    have hdefaults := read?_withoutDocument h
    refine ⟨.default, hdefaults, by rw [load?, hdefaults]; rfl, rfl⟩

namespace Sample

def settingsName : Text := "classdoc.yml".text

def settingsText : Text :=
  "file_extension: 5\nimplicit_roots: [kotlin.Any, object, kotlin.Any]\n".text

def holding (text : Text) : FileTree :=
  (FileTree.bare ["srv".text]).set ["srv".text, settingsName] (.file (Utf8.encode text))

def settled : FileTree := holding settingsText

def namedRoots : List Text := ["kotlin.Any".text, "object".text, "kotlin.Any".text]

def settingsEntries : Mapping :=
  [(.text SettingsKey.fileExtension, .int 5),
   (.text SettingsKey.implicitRoots, .list (namedRoots.map .text))]

theorem readValue_settled :
    settled.readValue Yaml.value? (Path.ofText settingsName) = .ok (.map settingsEntries) := by
  apply eq_ok_of_isExactly
  decide +kernel

end Sample

open Settings.Sample

theorem sample_settings_mean :
    settingsName ≠ [] ∧
    settled.readValue Yaml.value? (Path.ofText settingsName) = .ok (.map settingsEntries) ∧
    OnlyKnownKeys settingsEntries ∧ NamesRoots settingsEntries namedRoots ∧
    (∃ config s, read? Yaml.value? settled (some settingsName) = .ok config ∧
      load? Yaml.value? settled (some settingsName) = .ok s ∧
      Means settingsEntries namedRoots config s) ∧
    WithoutDocument Yaml.value? settled (some "other.yml".text) ∧
    ∃ s, read? Yaml.value? settled (some "other.yml".text) = .ok defaults ∧
      load? Yaml.value? settled (some "other.yml".text) = .ok s ∧ s.mapping = defaults := by
  have hname : settingsName ≠ [] := by decide
  have hread := readValue_settled
  have hknown : OnlyKnownKeys settingsEntries := by
    intro k hk
    simp only [Mapping.keys, settingsEntries, List.map_cons, List.map_nil, List.mem_cons,
      List.not_mem_nil, or_false] at hk
    rcases hk with rfl | rfl
    · exact ⟨_, by decide, rfl⟩
    · exact ⟨_, by decide, rfl⟩
  have hnames : NamesRoots settingsEntries namedRoots := .inr ⟨_, rfl, rfl⟩
  have hmissing : WithoutDocument Yaml.value? settled (some "other.yml".text) :=
    .noFile (by decide +kernel)
  have hmeaning := accepted_settings_mean_what_they_say Yaml.value?_distinctKeys settled
  exact ⟨hname, hread, hknown, hnames,
    hmeaning.1 _ _ _ _ hname hread rfl hknown hnames, hmissing, hmeaning.2 _ hmissing⟩

example : rootsWith namedRoots =
    ["java.lang.Object".text, "object".text, "kotlin.Any".text] := by
  decide +kernel

end Settings

end ApiPages

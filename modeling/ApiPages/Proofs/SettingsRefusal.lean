import ApiPages.Proofs.SettingsMeaning

/-!
Settings that are refused. A document that is no mapping, has a key that is not known or implicit
roots that are no list of names gives no settings, and the error says that its value is bad. There
are two exceptions: a document that counts as false is taken for an empty one, whatever it is, and
unknown keys that are not all texts cannot be named, so that another error comes out.
-/
namespace ApiPages

/-- The value that is there is of the right kind, but bad. -/
def Fault.isBadValue : Fault → Bool
  | .notPair _ _ => true
  | .tooManyDigits => true
  | .emptyPath => true
  | .nullInPath => true
  | .notEncodable _ => true
  | _ => false

def SettingsError.isBadValue : SettingsError → Bool
  | .notMapping _ => true
  | .unknownKeys _ _ => true
  | .rootsNotNames _ _ => true
  | .fault f => f.isBadValue
  | .unread _ => false

namespace Settings

open Mapping Value

/-- A document that must not be taken for settings. -/
inductive Unfit (document : Value) : Prop
  | notMapping : document.mapping? = none → Unfit document
  | unknownKey {m : Mapping} {k : Value} : document.mapping? = some m → k ∈ m.keys →
      (∀ key ∈ SettingsKey.all, k ≠ .text key) → Unfit document
  | badRoots {m : Mapping} {v : Value} : document.mapping? = some m →
      m.at? SettingsKey.implicitRoots = some v → (∀ names, ¬IsListOf names v) → Unfit document

def UnknownKeysAreTexts (document : Value) : Prop :=
  ∀ m, document.mapping? = some m → ∀ k ∈ m.keys, (∀ key ∈ SettingsKey.all, k ≠ .text key) →
    ∃ c, k = .text c

variable {path : Path} {document : Value} {m : Mapping}

theorem mem_unknownKeys {k : Value} :
    k ∈ unknownKeys m ↔ k ∈ m.keys ∧ ∀ key ∈ SettingsKey.all, k ≠ .text key := by
  rw [unknownKeys, List.mem_filter, Bool.not_eq_true', List.any_eq_false]
  simp only [same_text_iff]

theorem unfit_iff_of_mapping (hm : document.mapping? = some m) :
    Unfit document ↔ unknownKeys m ≠ [] ∨
      ∃ v, m.at? SettingsKey.implicitRoots = some v ∧ ∀ names, ¬IsListOf names v := by
  constructor
  · intro h
    cases h with
    | notMapping hnone =>
      rw [hm] at hnone
      contradiction
    | unknownKey hm' hk hkey =>
      obtain rfl := Option.some.inj (hm.symm.trans hm')
      exact .inl (List.ne_nil_of_mem (mem_unknownKeys.mpr ⟨hk, hkey⟩))
    | badRoots hm' hv hbad =>
      obtain rfl := Option.some.inj (hm.symm.trans hm')
      exact .inr ⟨_, hv, hbad⟩
  · rintro (hunknown | ⟨v, hv, hbad⟩)
    · obtain ⟨k, hk⟩ := List.exists_mem_of_ne_nil _ hunknown
      obtain ⟨hk, hkey⟩ := mem_unknownKeys.mp hk
      exact .unknownKey hm hk hkey
    · exact .badRoots hm hv hbad

theorem unknownKeysAreTexts_iff (hm : document.mapping? = some m) :
    UnknownKeysAreTexts document ↔ ∀ k ∈ unknownKeys m, ∃ c, k = .text c := by
  constructor
  · intro h k hk
    obtain ⟨hk, hkey⟩ := mem_unknownKeys.mp hk
    exact h m hm k hk hkey
  · intro h m' hm' k hk hkey
    obtain rfl := Option.some.inj (hm.symm.trans hm')
    exact h k (mem_unknownKeys.mpr ⟨hk, hkey⟩)

theorem mapM_text?_eq_none_iff {keys : List Value} :
    keys.mapM text? = none ↔ ∃ k ∈ keys, ∀ c, k ≠ .text c := by
  induction keys with
  | nil => simp
  | cons k keys ih =>
    have hk : k.text? = none ↔ ∀ c, k ≠ .text c := by
      rw [← not_exists, ← text?_isSome_iff, Bool.not_eq_true, Option.isSome_eq_false_iff,
        Option.isNone_iff_eq_none]
    rw [List.mapM_cons, List.exists_mem_cons_iff, ← hk, ← ih]
    cases k.text? with
    | none => simp
    | some t => cases keys.mapM text? <;> simp

theorem checkKeys_of_unknown (path : Path) (h : unknownKeys m ≠ []) :
    ∃ e, checkKeys path m = .error e ∧
      ((∀ k ∈ unknownKeys m, ∃ c, k = .text c) ∧ e.isBadValue = true ∨
        (∃ k ∈ unknownKeys m, ∀ c, k ≠ .text c) ∧ e = .fault .unlisted) := by
  have hsome : (unknownKeys m).isEmpty = false := by simpa using h
  simp only [checkKeys, hsome]
  cases hkeys : (unknownKeys m).mapM text? with
  | none => exact ⟨_, rfl, .inr ⟨mapM_text?_eq_none_iff.mp hkeys, rfl⟩⟩
  | some keys =>
    refine ⟨_, rfl, .inl ⟨fun k hk => ?_, rfl⟩⟩
    by_contra hno
    have hnone := mapM_text?_eq_none_iff.mpr ⟨k, hk, not_exists.mp hno⟩
    rw [hkeys] at hnone
    contradiction

theorem checkRoots_of_bad {v : Value} (path : Path) (hv : m.at? SettingsKey.implicitRoots = some v)
    (hbad : ∀ names, ¬IsListOf names v) :
    ∃ e, checkRoots path m = .error e ∧ e.isBadValue = true := by
  have hnames : isNames v = false := by
    rw [Bool.eq_false_iff]
    exact fun h => (isNames_iff.mp h).elim hbad
  simp only [checkRoots, hv, hnames]
  cases v.writable with
  | true => exact ⟨_, rfl, rfl⟩
  | false => exact ⟨_, rfl, rfl⟩

theorem ofDocument?_of_unfit (htruthy : document.truthy = true) (h : Unfit document) :
    ∃ e, ofDocument? path document = .error e ∧
      (UnknownKeysAreTexts document ∧ e.isBadValue = true ∨
        ¬UnknownKeysAreTexts document ∧ e = .fault .unlisted) := by
  cases hm : document.mapping? with
  | none =>
    have hno : ∀ m, document.mapping? ≠ some m := by simp [hm]
    refine ⟨.notMapping path, ?_, .inl ⟨fun m hm => absurd hm (hno m), rfl⟩⟩
    rw [ofDocument?, entriesOf?, htruthy, hm]
    rfl
  | some m =>
    rw [ofDocument?_of_mapping hm, unknownKeysAreTexts_iff hm]
    by_cases hunknown : unknownKeys m = []
    · obtain hne | ⟨v, hv, hbad⟩ := (unfit_iff_of_mapping hm).mp h
      · contradiction
      · obtain ⟨e, he, hvalue⟩ := checkRoots_of_bad path hv hbad
        rw [checkKeys_eq_ok_iff.mpr (unknownKeys_eq_nil_iff.mp hunknown), ok_bind, he]
        exact ⟨e, rfl, .inl ⟨by simp [hunknown], hvalue⟩⟩
    · obtain ⟨e, he, hcause⟩ := checkKeys_of_unknown path hunknown
      rw [he]
      refine ⟨e, rfl, ?_⟩
      rcases hcause with htexts | ⟨⟨k, hk, hno⟩, hunlisted⟩
      · exact .inl htexts
      · refine .inr ⟨fun htexts => ?_, hunlisted⟩
        obtain ⟨c, hc⟩ := htexts k hk
        exact hno c hc

theorem load?_of_read? {read : DocumentReader} {t : FileTree} {path : Option Text}
    {e : SettingsError} (h : read? read t path = .error e) : load? read t path = .error e := by
  rw [load?, h]
  rfl

/-- An unfit document is refused for its value exactly if it counts as true and all its unknown keys
are texts. One that counts as false gives the defaults, and with another unknown key there are no
settings either, but the error is about the listing of the keys. -/
theorem unfit_settings_refused_iff {read : DocumentReader} {t : FileTree} {name : Text}
    (hname : name ≠ [])
    (hread : t.readValue read (Path.ofText name) = .ok document) (hunfit : Unfit document) :
    ((∃ e, read? read t (some name) = .error e ∧ load? read t (some name) = .error e ∧
        e.isBadValue = true) ↔ document.truthy = true ∧ UnknownKeysAreTexts document) ∧
      (document.truthy = false → read? read t (some name) = .ok defaults ∧
        load? read t (some name) = .ok default) ∧
      (¬UnknownKeysAreTexts document → read? read t (some name) = .error (.fault .unlisted) ∧
        load? read t (some name) = .error (.fault .unlisted)) := by
  have hconfig := read?_of_readValue hname hread
  cases htruthy : document.truthy with
  | false =>
    have hdefaults : read? read t (some name) = .ok defaults := by
      rw [hconfig, ofDocument?_of_not_truthy htruthy]
    have htexts : UnknownKeysAreTexts document := by
      intro m hm k hk
      rw [eq_nil_of_not_truthy hm htruthy] at hk
      contradiction
    refine ⟨⟨?_, fun h => absurd h.1 Bool.false_ne_true⟩, fun _ => ⟨hdefaults, ?_⟩,
      fun h => absurd htexts h⟩
    · rintro ⟨e, he, -⟩
      rw [hdefaults] at he
      contradiction
    · rw [load?, hdefaults]
      rfl
  | true =>
    obtain ⟨e, he, hcause⟩ := ofDocument?_of_unfit htruthy hunfit
    have hread : read? read t (some name) = .error e := hconfig.trans he
    have hload := load?_of_read? hread
    refine ⟨⟨?_, ?_⟩, fun h => absurd h.symm Bool.false_ne_true, ?_⟩
    · rintro ⟨e', he', -, hvalue⟩
      obtain rfl : e = e' := Except.error.inj (hread.symm.trans he')
      rcases hcause with ⟨htexts, -⟩ | ⟨-, rfl⟩
      · exact ⟨rfl, htexts⟩
      · contradiction
    · rintro ⟨-, htexts⟩
      rcases hcause with ⟨-, hvalue⟩ | ⟨hno, -⟩
      · exact ⟨e, hread, hload, hvalue⟩
      · exact absurd htexts hno
    · intro hno
      rcases hcause with ⟨htexts, -⟩ | ⟨-, rfl⟩
      · exact absurd htexts hno
      · exact ⟨hread, hload⟩

namespace Sample

def misspelt : FileTree := holding "file_extention: .txt\n".text

def numberedKey : FileTree := holding "1: x\n".text

def emptyList : FileTree := holding "[]\n".text

theorem readValue_misspelt : misspelt.readValue Yaml.value? (Path.ofText settingsName) =
    .ok (.map [(.text "file_extention".text, .text ".txt".text)]) := by
  apply eq_ok_of_isExactly
  decide +kernel

theorem readValue_numberedKey : numberedKey.readValue Yaml.value? (Path.ofText settingsName) =
    .ok (.map [(.int 1, .text "x".text)]) := by
  apply eq_ok_of_isExactly
  decide +kernel

theorem readValue_emptyList :
    emptyList.readValue Yaml.value? (Path.ofText settingsName) = .ok (.list []) := by
  apply eq_ok_of_isExactly
  decide +kernel

end Sample

open Settings.Sample

theorem sample_misspelt_refused :
    settingsName ≠ [] ∧
    misspelt.readValue Yaml.value? (Path.ofText settingsName) =
      .ok (.map [(.text "file_extention".text, .text ".txt".text)]) ∧
    Unfit (.map [(.text "file_extention".text, .text ".txt".text)]) ∧
    ∃ e, read? Yaml.value? misspelt (some settingsName) = .error e ∧
      load? Yaml.value? misspelt (some settingsName) = .error e ∧ e.isBadValue = true := by
  have hname : settingsName ≠ [] := by decide
  have hunfit : Unfit (.map [(.text "file_extention".text, .text ".txt".text)]) := by
    refine .unknownKey rfl List.mem_cons_self fun key hkey h => ?_
    obtain rfl := Value.text.inj h
    exact absurd hkey (by decide)
  refine ⟨hname, readValue_misspelt, hunfit,
    (unfit_settings_refused_iff hname readValue_misspelt hunfit).1.mpr ⟨rfl, ?_⟩⟩
  intro m hm k hk _
  cases hm
  obtain rfl := List.mem_singleton.mp hk
  exact ⟨_, rfl⟩

/-- A key that is a number is refused with another error, and an empty list is not refused. -/
theorem sample_unfit_settings_slip_through :
    (∃ document, numberedKey.readValue Yaml.value? (Path.ofText settingsName) = .ok document ∧
      document ≠ .null ∧ Unfit document ∧
      read? Yaml.value? numberedKey (some settingsName) = .error (.fault .unlisted) ∧
      (SettingsError.fault .unlisted).isBadValue = false) ∧
    ∃ document, emptyList.readValue Yaml.value? (Path.ofText settingsName) = .ok document ∧
      document ≠ .null ∧ Unfit document ∧
      read? Yaml.value? emptyList (some settingsName) = .ok defaults ∧
      load? Yaml.value? emptyList (some settingsName) = .ok default := by
  have hname : settingsName ≠ [] := by decide
  constructor
  · refine ⟨_, readValue_numberedKey, fun h => (nomatch h), ?_, ?_, rfl⟩
    · exact .unknownKey rfl List.mem_cons_self fun key _ h => (nomatch h)
    · rw [read?_of_readValue hname readValue_numberedKey]
      rfl
  · have hdefaults : read? Yaml.value? emptyList (some settingsName) = .ok defaults := by
      rw [read?_of_readValue hname readValue_emptyList]
      rfl
    refine ⟨_, readValue_emptyList, fun h => (nomatch h), .notMapping rfl, hdefaults, ?_⟩
    rw [load?, hdefaults]
    rfl

end Settings

end ApiPages

import ApiPages.Proofs.EntryReading
import ApiPages.Proofs.Writability

/-!
When a well-shaped entry is refused. With lists of mappings where lists belong, nothing that is read
can fail but the modifiers of a member, so what is read can be said outright, and the first member
whose modifiers are none is the one that is complained of. Methods come before fields.
-/
namespace ApiPages

namespace Value

def isModifiers (v : Value) : Bool :=
  v.text?.isSome ||
    match v.opened with
    | .null => true
    | .list _ => true
    | _ => false

/-- The modifiers that a value stands for: a text is one, and a list has one for each item. -/
def modifiers (v : Value) : List Text :=
  match v.text? with
  | some t => [t]
  | none =>
    match v.opened with
    | .list items => items.map display
    | _ => []

def entries (v : Value) : Mapping := v.mapping?.getD []

end Value

namespace Mapping

def shownAt (m : Mapping) (key : Text) : Text :=
  match m.valueAt key with
  | .null => []
  | v => v.display

def listAt (m : Mapping) (key : Text) : List Value :=
  match (m.valueAt key).opened with
  | .list items => items
  | _ => []

def HasListOrNothing (m : Mapping) (key : Text) : Prop :=
  (m.valueAt key).truthy = false ∨ ∃ items, (m.valueAt key).opened = .list items

/-- If there is a list at a key, its items are mappings. -/
structure ListsMappings (m : Mapping) (key : Text) : Prop where
  list : m.HasListOrNothing key
  mappings : ∀ v ∈ m.listAt key, ∃ entries, v.mapping? = some entries

variable {m : Mapping} {key : Text}

theorem writable_valueAt (h : (Value.map m).writable = true) (key : Text) :
    (m.valueAt key).writable = true := by
  rw [valueAt]
  cases hv : m.at? key with
  | none => rfl
  | some v => exact (Value.entriesWritable_iff.mp h _ (mem_of_at? hv)).2

theorem textAt?_of_writable (h : (Value.map m).writable = true) (key : Text) :
    m.textAt? key = .ok (m.shownAt key) := by
  have hv := Value.display?_of_writable (writable_valueAt h key)
  rw [textAt?, shownAt]
  generalize m.valueAt key = v at hv ⊢
  cases v with
  | null => rfl
  | _ => exact hv

theorem writable_of_mem_listAt (h : (Value.map m).writable = true) {v : Value}
    (hv : v ∈ m.listAt key) : v.writable = true := by
  rw [listAt] at hv
  split at hv
  · rename_i items hitems
    exact Value.writable_of_list (writable_valueAt h key) hitems v hv
  · simp at hv

theorem itemsAt?_of_hasListOrNothing (h : m.HasListOrNothing key) :
    m.itemsAt? key = .ok (m.listAt key) := by
  rw [listAt]
  split
  · rename_i items hitems
    exact itemsAt?_of_opened hitems
  · rename_i hno
    rcases h with hfalsy | ⟨items, hitems⟩
    · rw [itemsAt?, hfalsy]
      rfl
    · exact absurd hitems (hno items)

theorem readAt?_eq {α : Type} {read : Value → Except CatalogueError α} {g : Value → α}
    (h : m.HasListOrNothing key) (hread : ∀ v ∈ m.listAt key, read v = .ok (g v)) :
    m.readAt? key read = .ok ((m.listAt key).map g) := by
  rw [readAt?, itemsAt?_of_hasListOrNothing h, liftM_ok, ok_bind, mapM_eq_ok_iff,
    List.forall₂_map_right_iff, List.forall₂_same]
  exact hread

theorem readAt?_mappings {α : Type} {read : Value → Except Fault α} {g : Value → α}
    (hw : (Value.map m).writable = true) (h : m.ListsMappings key)
    (hread : ∀ v entries, v.writable = true → v.mapping? = some entries → read v = .ok (g v)) :
    m.readAt? key (fun v => liftM (read v)) = .ok ((m.listAt key).map g) := by
  refine readAt?_eq h.list fun v hv => ?_
  obtain ⟨entries, hentries⟩ := h.mappings v hv
  rw [hread v entries (writable_of_mem_listAt hw hv) hentries, liftM_ok]

/-- What is refused of a member: its modifiers, with its name as it is. -/
def refusal (m : Mapping) : CatalogueError :=
  .modifiersNotList (m.valueAt CatalogueKey.name) (m.valueAt CatalogueKey.modifiers)

theorem modifiers?_of_writable (h : (Value.map m).writable = true) :
    m.modifiers? = if (m.valueAt CatalogueKey.modifiers).isModifiers = true then
      .ok (m.valueAt CatalogueKey.modifiers).modifiers else .error m.refusal := by
  have hname := writable_valueAt h CatalogueKey.name
  have hv := writable_valueAt h CatalogueKey.modifiers
  rw [modifiers?, refusal]
  dsimp only
  rw [hname, hv]
  generalize m.valueAt CatalogueKey.modifiers = v at hv ⊢
  cases htext : v.text? with
  | some t =>
    cases v <;> cases htext
    rfl
  | none =>
    cases hopened : v.opened with
    | list items =>
      have hitems : items.mapM Value.display? = .ok (items.map Value.display) := by
        rw [mapM_eq_ok_iff, List.forall₂_map_right_iff, List.forall₂_same]
        exact fun w hw => Value.display?_of_writable (Value.writable_of_list hv hopened w hw)
      simp [Value.isModifiers, Value.modifiers, htext, hopened, hitems, Except.mapError]
    | _ => simp [Value.isModifiers, Value.modifiers, htext, hopened]

end Mapping

def Value.offends (v : Value) : Bool := !(v.entries.valueAt CatalogueKey.modifiers).isModifiers

/-- Members are read one by one, up to the first that offends. -/
theorem Mapping.readAt?_members {α : Type} {m : Mapping} {key : Text}
    {read : Value → Except CatalogueError α} {g : Value → α} (h : m.HasListOrNothing key)
    (hread : ∀ v ∈ m.listAt key,
      read v = if v.offends = true then .error v.entries.refusal else .ok (g v)) :
    m.readAt? key read = ((m.listAt key).find? Value.offends).elim (.ok ((m.listAt key).map g))
      fun v => .error v.entries.refusal := by
  rw [readAt?, itemsAt?_of_hasListOrNothing h, liftM_ok, ok_bind]
  exact mapM_eq_of_find? hread

/-! What is read from values of which every integer can be shown. -/

def Ancestor.readFrom (v : Value) : Ancestor :=
  match v.mapping? with
  | some m =>
    let name := m.valueAt CatalogueKey.name
    ⟨if name.truthy then name.display else [], (m.valueAt CatalogueKey.documented).truthy⟩
  | none => ⟨v.display, false⟩

def Parameter.readFrom (v : Value) : Parameter :=
  ⟨v.entries.shownAt CatalogueKey.name, v.entries.shownAt CatalogueKey.type,
    v.entries.shownAt CatalogueKey.comment⟩

def Thrown.readFrom (v : Value) : Thrown :=
  ⟨v.entries.shownAt CatalogueKey.type, v.entries.shownAt CatalogueKey.comment⟩

def Method.readFrom (v : Value) : Method where
  name := v.entries.shownAt CatalogueKey.name
  returnType :=
    if (v.entries.at? CatalogueKey.returns).isNone then voidType
    else v.entries.shownAt CatalogueKey.returns
  parameters := (v.entries.listAt CatalogueKey.parameters).map Parameter.readFrom
  comment := v.entries.shownAt CatalogueKey.comment
  modifiers := (v.entries.valueAt CatalogueKey.modifiers).modifiers
  returnComment := v.entries.shownAt CatalogueKey.returnComment
  throws := (v.entries.listAt CatalogueKey.throws).map Thrown.readFrom

def Field.readFrom (v : Value) : Field where
  name := v.entries.shownAt CatalogueKey.name
  type := v.entries.shownAt CatalogueKey.type
  isStatic := (v.entries.valueAt CatalogueKey.static).truthy
  comment := v.entries.shownAt CatalogueKey.comment
  modifiers := (v.entries.valueAt CatalogueKey.modifiers).modifiers
  constantValue :=
    match v.entries.valueAt CatalogueKey.value with
    | .null => none
    | w => some w.display

def TypeEntry.readFrom (v : Value) : TypeEntry where
  name := v.entries.shownAt CatalogueKey.name
  package := v.entries.shownAt CatalogueKey.package
  comment := v.entries.shownAt CatalogueKey.comment
  ancestors := (v.entries.listAt CatalogueKey.ancestors).map Ancestor.readFrom
  methods := (v.entries.listAt CatalogueKey.methods).map Method.readFrom
  fields := (v.entries.listAt CatalogueKey.fields).map Field.readFrom

section Reading

variable {v : Value} {m : Mapping}

theorem Value.entries_eq (h : v.mapping? = some m) : v.entries = m := by
  rw [entries, h]
  rfl

theorem Ancestor.ofValue?_of_writable (h : v.writable = true) : ofValue? v = .ok (readFrom v) := by
  rw [ofValue?, readFrom]
  cases hm : v.mapping? with
  | none =>
    rw [Value.display?_of_writable h]
    rfl
  | some m =>
    have hname := Mapping.writable_valueAt (Value.writable_of_mapping? h hm) CatalogueKey.name
    dsimp only
    rw [Value.display?_of_writable hname]
    split <;> rfl

theorem Parameter.ofValue?_of_writable (h : v.writable = true) (hm : v.mapping? = some m) :
    ofValue? v = .ok (readFrom v) := by
  have htext := Mapping.textAt?_of_writable (Value.writable_of_mapping? h hm)
  rw [ofValue?, Value.entries?, hm, readFrom, Value.entries_eq hm]
  simp only [htext, ok_bind]
  rfl

theorem Thrown.ofValue?_of_writable (h : v.writable = true) (hm : v.mapping? = some m) :
    ofValue? v = .ok (readFrom v) := by
  have htext := Mapping.textAt?_of_writable (Value.writable_of_mapping? h hm)
  rw [ofValue?, Value.entries?, hm, readFrom, Value.entries_eq hm]
  simp only [htext, ok_bind]
  rfl

theorem Method.ofValue?_of_writable (h : v.writable = true) (hm : v.mapping? = some m)
    (hparameters : m.ListsMappings CatalogueKey.parameters)
    (hthrows : m.ListsMappings CatalogueKey.throws) :
    ofValue? v = if v.offends = true then .error v.entries.refusal else .ok (readFrom v) := by
  have hw := Value.writable_of_mapping? h hm
  have htext := Mapping.textAt?_of_writable hw
  have hreturn : returnType? m = .ok (if (m.at? CatalogueKey.returns).isNone then voidType
    else m.shownAt CatalogueKey.returns) := by
    rw [returnType?, htext]
    cases m.at? CatalogueKey.returns <;> rfl
  have hparameters := Mapping.readAt?_mappings hw hparameters
    fun _ _ => Parameter.ofValue?_of_writable
  have hthrows := Mapping.readAt?_mappings hw hthrows fun _ _ => Thrown.ofValue?_of_writable
  rw [ofValue?_of_mapping hm, readFrom, Value.entries_eq hm, ofMapping?]
  simp only [htext, hreturn, hparameters, hthrows, Mapping.modifiers?_of_writable hw, liftM_ok,
    ok_bind, Value.offends, Value.entries_eq hm]
  cases (m.valueAt CatalogueKey.modifiers).isModifiers <;> rfl

theorem Field.ofValue?_of_writable (h : v.writable = true) (hm : v.mapping? = some m) :
    ofValue? v = if v.offends = true then .error v.entries.refusal else .ok (readFrom v) := by
  have hw := Value.writable_of_mapping? h hm
  have htext := Mapping.textAt?_of_writable hw
  have hvalue : constantValue? m = .ok (match m.valueAt CatalogueKey.value with
    | .null => none
    | w => some w.display) := by
    have hv := Value.display?_of_writable (Mapping.writable_valueAt hw CatalogueKey.value)
    rw [constantValue?]
    generalize m.valueAt CatalogueKey.value = w at hv ⊢
    cases w with
    | null => rfl
    | _ =>
      dsimp only
      rw [hv]
      rfl
  rw [ofValue?_of_mapping hm, readFrom, Value.entries_eq hm, ofMapping?]
  simp only [htext, hvalue, Mapping.modifiers?_of_writable hw, liftM_ok, ok_bind, Value.offends,
    Value.entries_eq hm]
  cases (m.valueAt CatalogueKey.modifiers).isModifiers <;> rfl

end Reading

/-- A type entry in which every list is one, or missing, and holds mappings. Ancestors may be
anything. -/
structure Mapping.WellShaped (m : Mapping) : Prop where
  ancestors : m.HasListOrNothing CatalogueKey.ancestors
  methods : m.ListsMappings CatalogueKey.methods
  fields : m.ListsMappings CatalogueKey.fields
  parameters : ∀ v ∈ m.listAt CatalogueKey.methods, v.entries.ListsMappings CatalogueKey.parameters
  throws : ∀ v ∈ m.listAt CatalogueKey.methods, v.entries.ListsMappings CatalogueKey.throws

def Mapping.members (m : Mapping) : List Value :=
  m.listAt CatalogueKey.methods ++ m.listAt CatalogueKey.fields

theorem TypeEntry.ofValue?_of_wellShaped {v : Value} {m : Mapping} (hm : v.mapping? = some m)
    (hshape : m.WellShaped) (hw : v.writable = true) :
    ofValue? v = (m.members.find? Value.offends).elim (.ok (readFrom v))
      fun w => .error w.entries.refusal := by
  have hmw := Value.writable_of_mapping? hw hm
  have htext := Mapping.textAt?_of_writable hmw
  have hancestors : m.readAt? CatalogueKey.ancestors (fun a => liftM (Ancestor.ofValue? a)) =
      .ok ((m.listAt CatalogueKey.ancestors).map Ancestor.readFrom) := by
    refine Mapping.readAt?_eq hshape.ancestors fun a ha => ?_
    rw [Ancestor.ofValue?_of_writable (Mapping.writable_of_mem_listAt hmw ha), liftM_ok]
  have hmethods : ∀ w ∈ m.listAt CatalogueKey.methods, Method.ofValue? w =
      if w.offends = true then .error w.entries.refusal else .ok (Method.readFrom w) := by
    intro w hw
    obtain ⟨entries, hentries⟩ := hshape.methods.mappings w hw
    have hparameters := hshape.parameters w hw
    have hthrows := hshape.throws w hw
    rw [Value.entries_eq hentries] at hparameters hthrows
    exact Method.ofValue?_of_writable (Mapping.writable_of_mem_listAt hmw hw) hentries hparameters
      hthrows
  have hfields : ∀ w ∈ m.listAt CatalogueKey.fields, Field.ofValue? w =
      if w.offends = true then .error w.entries.refusal else .ok (Field.readFrom w) := by
    intro w hw
    obtain ⟨entries, hentries⟩ := hshape.fields.mappings w hw
    exact Field.ofValue?_of_writable (Mapping.writable_of_mem_listAt hmw hw) hentries
  have hmethods := Mapping.readAt?_members hshape.methods.list hmethods
  have hfields := Mapping.readAt?_members hshape.fields.list hfields
  rw [ofValue?_of_mapping hm, ofMapping?, Mapping.members, List.find?_append, readFrom,
    Value.entries_eq hm]
  simp only [htext, hancestors, hmethods, hfields, liftM_ok, ok_bind]
  cases (m.listAt CatalogueKey.methods).find? Value.offends with
  | some w => rfl
  | none =>
    cases (m.listAt CatalogueKey.fields).find? Value.offends with
    | some w => rfl
    | none => rfl

/-! What can be seen of the lists in a type that was read. -/

/-- Some modifiers are those that a value stands for: a text is one, and a list has one for each
item. -/
structure Value.StandsFor (v : Value) (modifiers : List Text) : Prop where
  text : ∀ t, v.text? = some t → modifiers = [t]
  list : ∀ items, v.opened = .list items → modifiers = items.map Value.display

structure Method.InOrderOf (method : Method) (v : Value) : Prop where
  parameters : method.parameters =
    (v.entries.listAt CatalogueKey.parameters).map Parameter.readFrom
  throws : method.throws = (v.entries.listAt CatalogueKey.throws).map Thrown.readFrom
  modifiers : (v.entries.valueAt CatalogueKey.modifiers).StandsFor method.modifiers

structure Field.InOrderOf (f : Field) (v : Value) : Prop where
  modifiers : (v.entries.valueAt CatalogueKey.modifiers).StandsFor f.modifiers

structure TypeEntry.InOrderOf (e : TypeEntry) (v : Value) : Prop where
  ancestors : e.ancestors = (v.entries.listAt CatalogueKey.ancestors).map Ancestor.readFrom
  methods : List.Forall₂ Method.InOrderOf e.methods (v.entries.listAt CatalogueKey.methods)
  fields : List.Forall₂ Field.InOrderOf e.fields (v.entries.listAt CatalogueKey.fields)

theorem Value.standsFor_modifiers (v : Value) : v.StandsFor v.modifiers where
  text := by
    intro t ht
    rw [modifiers, ht]
  list := by
    intro items hitems
    rw [modifiers, text?_of_list hitems]
    dsimp only
    rw [hitems]

theorem Method.inOrderOf_readFrom (v : Value) : (readFrom v).InOrderOf v where
  parameters := rfl
  throws := rfl
  modifiers := Value.standsFor_modifiers _

theorem Field.inOrderOf_readFrom (v : Value) : (readFrom v).InOrderOf v where
  modifiers := Value.standsFor_modifiers _

theorem TypeEntry.inOrderOf_readFrom (v : Value) : (readFrom v).InOrderOf v where
  ancestors := rfl
  methods := List.forall₂_map_left_iff.mpr
    (List.forall₂_same.mpr fun w _ => Method.inOrderOf_readFrom w)
  fields := List.forall₂_map_left_iff.mpr
    (List.forall₂_same.mpr fun w _ => Field.inOrderOf_readFrom w)

namespace TypeEntry

/-- A well-shaped entry whose integers can all be shown is read, unless the modifiers of a member
are neither nothing nor a text nor a list. Then the first such member is complained of, with its
name and its modifiers as they were found; and what is read has one thing for each item of every
list, in order. -/
theorem well_shaped_entry_refused_iff {v : Value} {m : Mapping} (hm : v.mapping? = some m)
    (hshape : m.WellShaped) (hw : v.writable = true) :
    ((∃ e, ofValue? v = .ok e) ↔
      ∀ w ∈ m.members, (w.entries.valueAt CatalogueKey.modifiers).isModifiers = true) ∧
    (∀ w, m.members.find? Value.offends = some w → ∃ error, ofValue? v = .error error ∧
      error.message? = some ("\x27modifiers\x27 of ".text ++
        (w.entries.valueAt CatalogueKey.name).quoted ++ " must be a list, got ".text ++
        (w.entries.valueAt CatalogueKey.modifiers).quoted)) ∧
    ∀ e, ofValue? v = .ok e → e = readFrom v ∧ e.InOrderOf v := by
  rw [ofValue?_of_wellShaped hm hshape hw]
  cases hfirst : m.members.find? Value.offends with
  | none =>
    have hall : ∀ w ∈ m.members,
        (w.entries.valueAt CatalogueKey.modifiers).isModifiers = true := by
      simpa [Value.offends] using hfirst
    refine ⟨⟨fun _ => hall, fun _ => ⟨_, rfl⟩⟩, ?_, ?_⟩
    · rintro w hw
      cases hw
    · rintro e he
      cases he
      exact ⟨rfl, inOrderOf_readFrom v⟩
  | some w =>
    refine ⟨⟨?_, fun hall => ?_⟩, ?_, ?_⟩
    · rintro ⟨e, he⟩
      cases he
    · have hoffends := List.find?_some hfirst
      rw [Value.offends, hall w (List.mem_of_find?_eq_some hfirst)] at hoffends
      contradiction
    · rintro _ hw
      cases hw
      exact ⟨w.entries.refusal, rfl, rfl⟩
    · rintro e he
      cases he

namespace Sample

def runner : Value := .map
  [(.text CatalogueKey.name, .int 3),
   (.text CatalogueKey.modifiers, .text "static final".text),
   (.text CatalogueKey.parameters, .list [.map []]),
   (.text CatalogueKey.throws, .bool false)]

def day : Value := .date ⟨2020, 1, 2⟩

def noModifiers : Value := .map [(.text "a".text, .null)]

def offender : Value := .map
  [(.text CatalogueKey.name, day), (.text CatalogueKey.modifiers, noModifiers)]

def entry : Mapping :=
  [(.text CatalogueKey.fields, .list [.map [(.text CatalogueKey.modifiers, .int 0)]]),
   (.text CatalogueKey.methods, .list [runner, offender]),
   (.text CatalogueKey.ancestors, .text [])]

def refusalText : Text :=
  ("\x27modifiers\x27 of datetime.date(2020, 1, 2) must be a list, " ++
    "got \x7b\x27a\x27: None\x7d").text

theorem wellShaped_entry : entry.WellShaped where
  ancestors := .inl rfl
  methods := by
    refine ⟨.inr ⟨_, rfl⟩, List.forall_mem_cons.mpr ⟨⟨_, rfl⟩, ?_⟩⟩
    exact List.forall_mem_singleton.mpr ⟨_, rfl⟩
  fields := ⟨.inr ⟨_, rfl⟩, List.forall_mem_singleton.mpr ⟨_, rfl⟩⟩
  parameters := by
    refine List.forall_mem_cons.mpr ⟨⟨.inr ⟨_, rfl⟩, ?_⟩, ?_⟩
    · exact List.forall_mem_singleton.mpr ⟨_, rfl⟩
    · exact List.forall_mem_singleton.mpr ⟨.inl rfl, List.forall_mem_nil _⟩
  throws := by
    refine List.forall_mem_cons.mpr ⟨⟨.inl rfl, List.forall_mem_nil _⟩, ?_⟩
    exact List.forall_mem_singleton.mpr ⟨.inl rfl, List.forall_mem_nil _⟩

end Sample

open TypeEntry.Sample

theorem sample_entry_refused :
    entry.WellShaped ∧ (Value.map entry).writable = true ∧
    ∃ error, ofValue? (.map entry) = .error error ∧
      error.message? = some refusalText := by
  have hw : (Value.map entry).writable = true := by decide
  have hfirst : entry.members.find? Value.offends = some offender := rfl
  have hmessage : "\x27modifiers\x27 of ".text ++ day.quoted ++
      " must be a list, got ".text ++ noModifiers.quoted = refusalText := by decide +kernel
  rw [← hmessage]
  refine ⟨wellShaped_entry, hw, ?_⟩
  exact (well_shaped_entry_refused_iff rfl wellShaped_entry hw).2.1 offender hfirst

end TypeEntry

end ApiPages

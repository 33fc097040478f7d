import ApiPages.Catalogue.Document
import ApiPages.Proofs.EntryReading
import ApiPages.Yaml.Document

/-!
What a catalogue can say. Every type can be written down as a mapping, and whatever mapping holds it
is read back as that very type: the order of the keys does not matter, nor does what stands at other
keys. Empty texts and empty lists are written like all others.
-/
namespace ApiPages

theorem mapM_eq_ok_of_holds {ε α : Type} {holds : α → Value → Prop} {read : Value → Except ε α}
    (hread : ∀ a v, holds a v → read v = .ok a) {as : List α} {items : List Value}
    (h : List.Forall₂ holds as items) : items.mapM read = .ok as :=
  mapM_eq_ok_iff.mpr (h.flip.imp fun v a hav => hread a v hav)

namespace Mapping

/-- The list at a key holds some things, one with each item and in their order. -/
def Lists {α : Type} (m : Mapping) (key : Text) (holds : α → Value → Prop) (as : List α) : Prop :=
  ∃ v items, m.at? key = some v ∧ v.opened = .list items ∧ List.Forall₂ holds as items

variable {m : Mapping} {key : Text}

theorem valueAt_eq {v : Value} (h : m.at? key = some v) : m.valueAt key = v := by
  rw [valueAt, h]
  rfl

theorem textAt?_eq {t : Text} (h : m.at? key = some (.text t)) : m.textAt? key = .ok t := by
  rw [textAt?, valueAt_eq h]
  exact Value.display?_text t

theorem Lists.read {ε α : Type} {holds : α → Value → Prop} {as : List α}
    {read : Value → Except ε α} (h : m.Lists key holds as)
    (hread : ∀ a v, holds a v → read v = .ok a) :
    ∃ items, m.itemsAt? key = .ok items ∧ items.mapM read = .ok as := by
  obtain ⟨v, items, hv, hitems, hheld⟩ := h
  have hitems : (m.valueAt key).opened = .list items := by rw [valueAt_eq hv, hitems]
  exact ⟨items, itemsAt?_of_opened hitems, mapM_eq_ok_of_holds hread hheld⟩

theorem modifiers?_eq {modifiers : List Text}
    (h : m.Lists CatalogueKey.modifiers (fun t v => v = .text t) modifiers) :
    m.modifiers? = .ok modifiers := by
  obtain ⟨v, items, hv, hitems, hheld⟩ := h
  have hread : items.mapM Value.display? = .ok modifiers := by
    refine mapM_eq_ok_of_holds ?_ hheld
    rintro t _ rfl
    exact Value.display?_text t
  rw [modifiers?, valueAt_eq hv]
  dsimp only
  rw [hitems, Value.text?_of_list hitems]
  exact mapError_eq_ok.mpr hread

end Mapping

def Value.Holds {α : Type} (heldBy : α → Mapping → Prop) (a : α) (v : Value) : Prop :=
  ∃ m, v.mapping? = some m ∧ heldBy a m

structure Ancestor.HeldBy (a : Ancestor) (m : Mapping) : Prop where
  name : m.at? CatalogueKey.name = some (.text a.qualifiedName)
  documented : m.at? CatalogueKey.documented = some (.bool a.documented)

structure Parameter.HeldBy (p : Parameter) (m : Mapping) : Prop where
  name : m.at? CatalogueKey.name = some (.text p.name)
  type : m.at? CatalogueKey.type = some (.text p.type)
  comment : m.at? CatalogueKey.comment = some (.text p.comment)

structure Thrown.HeldBy (t : Thrown) (m : Mapping) : Prop where
  type : m.at? CatalogueKey.type = some (.text t.type)
  comment : m.at? CatalogueKey.comment = some (.text t.comment)

structure Method.HeldBy (method : Method) (m : Mapping) : Prop where
  name : m.at? CatalogueKey.name = some (.text method.name)
  returns : m.at? CatalogueKey.returns = some (.text method.returnType)
  parameters : m.Lists CatalogueKey.parameters (Value.Holds Parameter.HeldBy) method.parameters
  comment : m.at? CatalogueKey.comment = some (.text method.comment)
  modifiers : m.Lists CatalogueKey.modifiers (fun t v => v = .text t) method.modifiers
  returnComment : m.at? CatalogueKey.returnComment = some (.text method.returnComment)
  throws : m.Lists CatalogueKey.throws (Value.Holds Thrown.HeldBy) method.throws

/-- There is something at the key of the value only if the field is a constant. -/
structure Field.HeldBy (f : Field) (m : Mapping) : Prop where
  name : m.at? CatalogueKey.name = some (.text f.name)
  type : m.at? CatalogueKey.type = some (.text f.type)
  static : m.at? CatalogueKey.static = some (.bool f.isStatic)
  comment : m.at? CatalogueKey.comment = some (.text f.comment)
  modifiers : m.Lists CatalogueKey.modifiers (fun t v => v = .text t) f.modifiers
  value : m.at? CatalogueKey.value = f.constantValue.map .text

structure TypeEntry.HeldBy (e : TypeEntry) (m : Mapping) : Prop where
  name : m.at? CatalogueKey.name = some (.text e.name)
  package : m.at? CatalogueKey.package = some (.text e.package)
  comment : m.at? CatalogueKey.comment = some (.text e.comment)
  ancestors : m.Lists CatalogueKey.ancestors (Value.Holds Ancestor.HeldBy) e.ancestors
  methods : m.Lists CatalogueKey.methods (Value.Holds Method.HeldBy) e.methods
  fields : m.Lists CatalogueKey.fields (Value.Holds Field.HeldBy) e.fields

/-! What a mapping holds is what is read from it. -/

section Reading

variable {v : Value}

theorem liftM_eq_ok {α : Type} {x : Except Fault α} {a : α} (h : x = .ok a) :
    (liftM x : Except CatalogueError α) = .ok a := by
  rw [h, liftM_ok]

theorem Ancestor.ofValue?_eq {a : Ancestor} (h : Value.Holds HeldBy a v) :
    Ancestor.ofValue? v = .ok a := by
  obtain ⟨m, hm, h⟩ := h
  simp only [ofValue?, hm, Mapping.valueAt_eq h.name, Mapping.valueAt_eq h.documented]
  -- an empty name counts as false, and then nothing is read, which is the same name
  cases a with
  | mk qualifiedName documented => cases qualifiedName <;> rfl

theorem Parameter.ofValue?_eq {p : Parameter} (h : Value.Holds HeldBy p v) :
    Parameter.ofValue? v = .ok p := by
  obtain ⟨m, hm, h⟩ := h
  simp only [ofValue?, Value.entries?_eq hm, Mapping.textAt?_eq h.name, Mapping.textAt?_eq h.type,
    Mapping.textAt?_eq h.comment, ok_bind]
  rfl

theorem Thrown.ofValue?_eq {t : Thrown} (h : Value.Holds HeldBy t v) :
    Thrown.ofValue? v = .ok t := by
  obtain ⟨m, hm, h⟩ := h
  simp only [ofValue?, Value.entries?_eq hm, Mapping.textAt?_eq h.type,
    Mapping.textAt?_eq h.comment, ok_bind]
  rfl

theorem Method.returnType?_eq {m : Mapping} {t : Text}
    (h : m.at? CatalogueKey.returns = some (.text t)) : Method.returnType? m = .ok t := by
  rw [returnType?, h]
  exact Mapping.textAt?_eq h

theorem Method.ofValue?_eq {method : Method} (h : Value.Holds HeldBy method v) :
    Method.ofValue? v = .ok method := by
  obtain ⟨m, hm, h⟩ := h
  obtain ⟨parameters, hparameters, hreadParameters⟩ := h.parameters.read
    fun _ _ hp => liftM_eq_ok (Parameter.ofValue?_eq hp)
  obtain ⟨throws, hthrows, hreadThrows⟩ := h.throws.read
    fun _ _ ht => liftM_eq_ok (Thrown.ofValue?_eq ht)
  simp only [ofValue?, Value.entries?_eq hm, Mapping.textAt?_eq h.name, returnType?_eq h.returns,
    hparameters, hreadParameters, Mapping.textAt?_eq h.comment, Mapping.modifiers?_eq h.modifiers,
    Mapping.textAt?_eq h.returnComment, hthrows, hreadThrows, liftM_ok, ok_bind]
  rfl

theorem Field.constantValue?_eq {m : Mapping} {value : Option Text}
    (h : m.at? CatalogueKey.value = value.map .text) : Field.constantValue? m = .ok value := by
  cases value with
  | none => simp [constantValue?, Mapping.valueAt, h]
  | some t => simp [constantValue?, Mapping.valueAt, h, Except.map]

theorem Field.ofValue?_eq {f : Field} (h : Value.Holds HeldBy f v) : Field.ofValue? v = .ok f := by
  obtain ⟨m, hm, h⟩ := h
  simp only [ofValue?, Value.entries?_eq hm, Mapping.textAt?_eq h.name, Mapping.textAt?_eq h.type,
    Mapping.textAt?_eq h.comment, Mapping.modifiers?_eq h.modifiers, constantValue?_eq h.value,
    Mapping.valueAt_eq h.static, liftM_ok, ok_bind]
  rfl

theorem TypeEntry.ofValue?_eq {e : TypeEntry} (h : Value.Holds HeldBy e v) :
    TypeEntry.ofValue? v = .ok e := by
  obtain ⟨m, hm, h⟩ := h
  obtain ⟨ancestors, hancestors, hreadAncestors⟩ := h.ancestors.read
    fun _ _ ha => liftM_eq_ok (Ancestor.ofValue?_eq ha)
  obtain ⟨methods, hmethods, hreadMethods⟩ := h.methods.read fun _ _ => Method.ofValue?_eq
  obtain ⟨fields, hfields, hreadFields⟩ := h.fields.read fun _ _ => Field.ofValue?_eq
  simp only [ofValue?, Value.entries?_eq hm, Mapping.textAt?_eq h.name,
    Mapping.textAt?_eq h.package, Mapping.textAt?_eq h.comment, hancestors, hreadAncestors,
    hmethods, hreadMethods, hfields, hreadFields, liftM_ok, ok_bind]
  rfl

end Reading

/-! Everything can be written down. -/

def Ancestor.value (a : Ancestor) : Value := .map
  [(.text CatalogueKey.name, .text a.qualifiedName),
   (.text CatalogueKey.documented, .bool a.documented)]

def Parameter.value (p : Parameter) : Value := .map
  [(.text CatalogueKey.name, .text p.name),
   (.text CatalogueKey.type, .text p.type),
   (.text CatalogueKey.comment, .text p.comment)]

def Thrown.value (t : Thrown) : Value := .map
  [(.text CatalogueKey.type, .text t.type),
   (.text CatalogueKey.comment, .text t.comment)]

def Method.value (method : Method) : Value := .map
  [(.text CatalogueKey.name, .text method.name),
   (.text CatalogueKey.returns, .text method.returnType),
   (.text CatalogueKey.parameters, .list (method.parameters.map Parameter.value)),
   (.text CatalogueKey.comment, .text method.comment),
   (.text CatalogueKey.modifiers, .list (method.modifiers.map .text)),
   (.text CatalogueKey.returnComment, .text method.returnComment),
   (.text CatalogueKey.throws, .list (method.throws.map Thrown.value))]

def Field.value (f : Field) : Value := .map <|
  [(.text CatalogueKey.name, .text f.name),
   (.text CatalogueKey.type, .text f.type),
   (.text CatalogueKey.static, .bool f.isStatic),
   (.text CatalogueKey.comment, .text f.comment),
   (.text CatalogueKey.modifiers, .list (f.modifiers.map .text))] ++
  (f.constantValue.map fun t => (.text CatalogueKey.value, .text t)).toList

def TypeEntry.value (e : TypeEntry) : Value := .map
  [(.text CatalogueKey.name, .text e.name),
   (.text CatalogueKey.package, .text e.package),
   (.text CatalogueKey.comment, .text e.comment),
   (.text CatalogueKey.ancestors, .list (e.ancestors.map Ancestor.value)),
   (.text CatalogueKey.methods, .list (e.methods.map Method.value)),
   (.text CatalogueKey.fields, .list (e.fields.map Field.value))]

section Writing

theorem Mapping.lists_map {α : Type} {m : Mapping} {key : Text} {holds : α → Value → Prop}
    {as : List α} {write : α → Value} (h : m.at? key = some (.list (as.map write)))
    (hwrite : ∀ a, holds a (write a)) : m.Lists key holds as := by
  refine ⟨_, _, h, rfl, ?_⟩
  rw [List.forall₂_map_right_iff, List.forall₂_same]
  exact fun a _ => hwrite a

theorem Ancestor.holds_value (a : Ancestor) : Value.Holds HeldBy a a.value :=
  ⟨_, rfl, rfl, rfl⟩

theorem Parameter.holds_value (p : Parameter) : Value.Holds HeldBy p p.value :=
  ⟨_, rfl, rfl, rfl, rfl⟩

theorem Thrown.holds_value (t : Thrown) : Value.Holds HeldBy t t.value :=
  ⟨_, rfl, rfl, rfl⟩

theorem Method.holds_value (method : Method) : Value.Holds HeldBy method method.value := by
  refine ⟨_, rfl, ?_⟩
  exact {
    name := rfl
    returns := rfl
    parameters := Mapping.lists_map rfl Parameter.holds_value
    comment := rfl
    modifiers := Mapping.lists_map rfl fun _ => rfl
    returnComment := rfl
    throws := Mapping.lists_map rfl Thrown.holds_value }

theorem Field.holds_value (f : Field) : Value.Holds HeldBy f f.value := by
  refine ⟨_, rfl, ?_⟩
  exact {
    name := rfl
    type := rfl
    static := rfl
    comment := rfl
    modifiers := Mapping.lists_map rfl fun _ => rfl
    value := by cases f.constantValue <;> rfl }

theorem TypeEntry.holds_value (e : TypeEntry) : Value.Holds HeldBy e e.value := by
  refine ⟨_, rfl, ?_⟩
  exact {
    name := rfl
    package := rfl
    comment := rfl
    ancestors := Mapping.lists_map rfl Ancestor.holds_value
    methods := Mapping.lists_map rfl Method.holds_value
    fields := Mapping.lists_map rfl Field.holds_value }

end Writing

namespace Catalogue

def HeldBy (es : List TypeEntry) (m : Mapping) : Prop :=
  m.Lists CatalogueKey.types (Value.Holds TypeEntry.HeldBy) es

theorem ofDocument?_eq {path : Path} {document : Value} {es : List TypeEntry}
    (h : Value.Holds HeldBy es document) : ofDocument? path document = .ok es := by
  obtain ⟨m, hm, v, items, hv, hitems, hheld⟩ := h
  have hlisted : listed? document = some items := by
    simp [listed?, hm, Mapping.valueAt_eq hv, hitems]
  have hread : items.mapM TypeEntry.ofValue? = .ok es :=
    mapM_eq_ok_of_holds (fun _ _ h => TypeEntry.ofValue?_eq h) hheld
  rw [ofDocument?, hlisted]
  exact mapError_eq_ok.mpr hread

/-- Every type can be written down, whatever holds a type is read as that type, and a document that
lists some types is read as those, one for each item and in their order. -/
theorem what_is_written_is_read_back :
    (∀ e : TypeEntry, Value.Holds TypeEntry.HeldBy e e.value) ∧
    (∀ (e : TypeEntry) (v : Value), Value.Holds TypeEntry.HeldBy e v →
      TypeEntry.ofValue? v = .ok e) ∧
    ∀ (read : DocumentReader) (t : FileTree) (path : Path) (document : Value)
      (es : List TypeEntry), t.readValue read path = .ok document →
      Value.Holds HeldBy es document → load? read t path = .ok es := by
  refine ⟨TypeEntry.holds_value, fun _ _ => TypeEntry.ofValue?_eq, ?_⟩
  intro read t path document es hdocument hheld
  rw [load?, hdocument]
  exact ofDocument?_eq hheld

namespace Sample

def catalogueName : Text := "types.yml".text

def catalogueText : Text :=
  ("types:\n- package: shop\n  name: Box\n  comment: \x27\x27\n  ancestors: []\n  methods: []\n" ++
   "  fields:\n  - name: LIMIT\n    type: int\n    static: true\n    comment: \x27\x27\n" ++
   "    modifiers: [final]\n    value: \x27\x27\n").text

def shelf : FileTree :=
  (FileTree.bare ["srv".text]).set ["srv".text, catalogueName]
    (.file (Utf8.encode catalogueText))

def limit : Field where
  name := "LIMIT".text
  type := "int".text
  isStatic := true
  modifiers := ["final".text]
  constantValue := some []

def box : TypeEntry where
  name := "Box".text
  package := "shop".text
  fields := [limit]

def boxEntries : Mapping :=
  [(.text CatalogueKey.package, .text box.package),
   (.text CatalogueKey.name, .text box.name),
   (.text CatalogueKey.comment, .text []),
   (.text CatalogueKey.ancestors, .list []),
   (.text CatalogueKey.methods, .list []),
   (.text CatalogueKey.fields, .list [limit.value])]

def catalogueDocument : Value :=
  .map [(.text CatalogueKey.types, .list [.map boxEntries])]

theorem readValue_shelf :
    shelf.readValue Yaml.value? (Path.ofText catalogueName) = .ok catalogueDocument := by
  apply Value.eq_ok_of_isExactly
  decide +kernel

theorem holds_boxEntries : Value.Holds TypeEntry.HeldBy box (.map boxEntries) := by
  refine ⟨_, rfl, ?_⟩
  exact {
    name := rfl
    package := rfl
    comment := rfl
    ancestors := Mapping.lists_map rfl Ancestor.holds_value
    methods := Mapping.lists_map rfl Method.holds_value
    fields := Mapping.lists_map rfl Field.holds_value }

theorem holds_catalogueDocument : Value.Holds HeldBy [box] catalogueDocument :=
  ⟨_, rfl, _, _, rfl, rfl, .cons holds_boxEntries .nil⟩

end Sample

open Catalogue.Sample

theorem sample_catalogue_read_back :
    Value.Holds TypeEntry.HeldBy box (.map boxEntries) ∧
    shelf.readValue Yaml.value? (Path.ofText catalogueName) = .ok catalogueDocument ∧
    Value.Holds HeldBy [box] catalogueDocument ∧
    TypeEntry.ofValue? (.map boxEntries) = .ok box ∧
    load? Yaml.value? shelf (Path.ofText catalogueName) = .ok [box] :=
  ⟨holds_boxEntries, readValue_shelf, holds_catalogueDocument,
    what_is_written_is_read_back.2.1 _ _ holds_boxEntries,
    what_is_written_is_read_back.2.2 _ _ _ _ _ readValue_shelf holds_catalogueDocument⟩

end Catalogue

end ApiPages

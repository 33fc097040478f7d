import ApiPages.Page.Context
import ApiPages.Value.Display
import ApiPages.Value.Merge

/-!
Settings as a file gives them: of any kind, save for the implicit roots, which are names. A page
fails only over those settings that it uses.
-/
namespace ApiPages

namespace SettingsKey

def fileExtension : Text := "file_extension".text
def packageIndex : Text := "package_index".text
def implicitRoots : Text := additiveKey
def lineBreak : Text := "line_break".text
def codeLanguage : Text := "code_language".text
def hierarchySeparator : Text := "hierarchy_separator".text
def summarizeFields : Text := "summarize_fields".text

def all : List Text :=
  [fileExtension, packageIndex, implicitRoots, lineBreak, codeLanguage, hierarchySeparator,
   summarizeFields]

theorem all_nodup : all.Nodup := by decide

end SettingsKey

def Context.mapping (c : Context) : Mapping :=
  [(.text SettingsKey.fileExtension, .text c.fileExtension),
   (.text SettingsKey.packageIndex, .text c.packageIndex),
   (.text SettingsKey.implicitRoots, .tuple (c.implicitRoots.map .text)),
   (.text SettingsKey.lineBreak, .text c.lineBreak),
   (.text SettingsKey.codeLanguage, .text c.codeLanguage),
   (.text SettingsKey.hierarchySeparator, .text c.hierarchySeparator),
   (.text SettingsKey.summarizeFields, .bool c.summarizeFields)]

structure Settings where
  fileExtension : Value
  packageIndex : Value
  implicitRoots : List Text
  lineBreak : Value
  codeLanguage : Value
  hierarchySeparator : Value
  summarizeFields : Value

namespace Settings

def names (v : Value) : List Text := (v.sequence?.getD []).filterMap Value.text?

/-- The settings that a mapping holds; what is not in it is null. -/
def ofMapping (m : Mapping) : Settings :=
  let get (key : Text) : Value := (m.at? key).getD .null
  { fileExtension := get SettingsKey.fileExtension
    packageIndex := get SettingsKey.packageIndex
    implicitRoots := names (get SettingsKey.implicitRoots)
    lineBreak := get SettingsKey.lineBreak
    codeLanguage := get SettingsKey.codeLanguage
    hierarchySeparator := get SettingsKey.hierarchySeparator
    summarizeFields := get SettingsKey.summarizeFields }

def default : Settings := ofMapping ({} : Context).mapping

instance : Inhabited Settings := ⟨default⟩

/-- Texts to be joined, from some position on. -/
def textsFrom? (position : Nat) : List Value → Except Fault (List Text)
  | [] => .ok []
  | item :: rest =>
    match item.text? with
    | some t => do return t :: (← textsFrom? (position + 1) rest)
    | none => .error (.notText position item.kind)

/-- The pieces of a link target, escaped. Each of them is looked up first, and has to be a text when
they are joined. -/
def targetPieces? (v : Value) : Except Fault (List Text) := do
  let items ← v.items?
  match items.find? fun item => !item.hashable with
  | some item => .error (.unhashable item.unhashableKind)
  | none => return (← textsFrom? 0 items).map Markdown.escapeTargetPiece

def separator? (v : Value) : Except Fault Text :=
  match v with
  | .text t => .ok t
  | .octets _ => .error (.notOctets 0 "str".text)
  | v => .error (.lacks v.kind "join".text)

def appended? (v : Value) : Except Fault Text :=
  match v.text? with
  | some t => .ok t
  | none => .error (.notAppended v.kind)

/-- What a page is told when it asks. Whatever is only put into a line counts by its display. -/
def style (s : Settings) : PageStyle where
  fileExtension := s.fileExtension.display?
  indexTarget := (targetPieces? s.packageIndex).map List.flatten
  implicitRoots := s.implicitRoots
  lineBreak := appended? s.lineBreak
  codeLanguage := s.codeLanguage.display?
  separator := separator? s.hierarchySeparator
  summarizeFields := s.summarizeFields.truthy

end Settings

end ApiPages

import ApiPages.Fault
import ApiPages.Markdown.Link

/-!
How pages are named and formatted.
-/
namespace ApiPages

structure Context where
  fileExtension : Text := ".md".text
  packageIndex : Text := "README.md".text
  implicitRoots : List Text := ["java.lang.Object".text, "object".text]
  lineBreak : Text := "<br>".text
  codeLanguage : Text := "java".text
  hierarchySeparator : Text := " > ".text
  summarizeFields : Bool := false
  deriving DecidableEq, Repr

/-- What a page asks for while it is laid out. Settings read from a file are checked only where they
are used, so each answer may be a fault. -/
structure PageStyle where
  fileExtension : Except Fault Text
  /-- The target of the link to the package index, escaped. -/
  indexTarget : Except Fault Text
  implicitRoots : List Text
  lineBreak : Except Fault Text
  codeLanguage : Except Fault Text
  separator : Except Fault Text
  summarizeFields : Bool

def Context.style (c : Context) : PageStyle where
  fileExtension := .ok c.fileExtension
  indexTarget := .ok (Markdown.escapeTarget c.packageIndex)
  implicitRoots := c.implicitRoots
  lineBreak := .ok c.lineBreak
  codeLanguage := .ok c.codeLanguage
  separator := .ok c.hierarchySeparator
  summarizeFields := c.summarizeFields

end ApiPages

import ApiPages.Document.Basic
import ApiPages.Page.Body

/-!
A page built and written to its file.
-/
namespace ApiPages

structure PageReport where
  path : Path
  drops : List Drop
  deriving DecidableEq, Repr

def PageReport.degraded (r : PageReport) : Bool := !r.drops.isEmpty

namespace Page

def path (extension : Text) (t : TypeEntry) (directory : Path) : Path :=
  directory.append (pageName extension t.name)

def closingRecord (r : PageReport) : LogRecord :=
  if r.degraded then .pageDegraded r.path r.drops.length else .pageWritten r.path

def build (style : PageStyle) (t : TypeEntry) (directory : Path) : Job PageError PageReport := do
  let extension ← Job.ofExcept .fault style.fileExtension
  let d ← Document.create (path extension t directory)
  let w ← get
  match body style w.tree.workingDirectory t with
  | .error stop => do
    Job.record (stop.drops.map .memberSkipped)
    throw (.fault stop.fault)
  | .ok b => do
    Job.record (b.drops.map .memberSkipped)
    Document.finalize { d with lines := b.lines }
    let report : PageReport := ⟨d.path, b.drops⟩
    Job.record [closingRecord report]
    return report

end Page

end ApiPages

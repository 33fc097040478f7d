import ApiPages.Page.Build

/-!
The pages of many types written into one directory. Two types with one file are refused before
anything is written.
-/
namespace ApiPages

inductive BatchError where
  /-- Two types, by their qualified names, have the same file. -/
  | collision (later earlier : Text) (path : Path)
  | page (e : PageError)
  deriving DecidableEq, Repr

def collisionMessage (later earlier : Text) (path : Path) : Text :=
  later ++ " and ".text ++ earlier ++ " both map to ".text ++ path.text

namespace Batch

def checkPaths (style : PageStyle) (directory : Path) (taken : List (Path × Text)) :
    List TypeEntry → Except BatchError Unit
  | [] => .ok ()
  | t :: rest =>
    match style.fileExtension with
    | .error fault => .error (.page (.fault fault))
    | .ok extension =>
      let path := Page.path extension t directory
      match taken.lookup path with
      | some earlier => .error (.collision t.qualifiedName earlier path)
      | none => checkPaths style directory ((path, t.qualifiedName) :: taken) rest

def progressStep : Nat := 50

/-- Builds the pages one after the other; `done` of `total` are there already. -/
def buildAll (style : PageStyle) (directory : Path) (total done : Nat) :
    List TypeEntry → Job PageError (List PageReport)
  | [] => pure []
  | t :: rest => do
    let report ← Page.build style t directory
    if (done + 1) % progressStep = 0 then Job.record [.batchProgress (done + 1) total]
    let reports ← buildAll style directory total (done + 1) rest
    return report :: reports

def write (style : PageStyle) (types : List TypeEntry) (directory : Path) :
    Job BatchError (List PageReport) := do
  Job.ofExcept id (checkPaths style directory [] types)
  Job.record [.batchStarted types.length]
  let w ← get
  match buildAll style directory types.length 0 types w with
  | .error e w => do set w; throw (.page e)
  | .ok reports w => do
    set w
    let degraded := (reports.filter PageReport.degraded).length
    Job.record [.batchFinished types.length degraded directory]
    return reports

end Batch

end ApiPages

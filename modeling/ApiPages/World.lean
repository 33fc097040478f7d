import ApiPages.FileTree.Directories
import ApiPages.Log

/-!
What building pages acts on: the file tree and the log. An operation that fails leaves behind what
it did before.
-/
namespace ApiPages

structure World where
  tree : FileTree
  log : List LogRecord
  deriving DecidableEq, Repr

abbrev Job (ε α : Type) := EStateM ε World α

namespace Job

def record {ε : Type} (records : List LogRecord) : Job ε Unit :=
  modify fun w => { w with log := w.log ++ records }

def ofExcept {ε δ α : Type} (wrap : δ → ε) : Except δ α → Job ε α
  | .ok a => pure a
  | .error e => throw (wrap e)

end Job

end ApiPages

import ApiPages.Member.Rejection
import ApiPages.Path.Basic
import ApiPages.Text.Quoted

/-!
The records of what happened while pages were built.
-/
namespace ApiPages

structure Drop where
  place : Text
  rejection : Rejection
  deriving DecidableEq, Repr

inductive LogLevel where
  | debug
  | info
  | warning
  deriving DecidableEq, Repr

inductive LogSource where
  | document
  | members
  | page
  | batch
  deriving DecidableEq, Repr

inductive LogRecord where
  | memberSkipped (drop : Drop)
  | linesWritten (count : Nat) (path : Path)
  | pageWritten (path : Path)
  | pageDegraded (path : Path) (drops : Nat)
  | batchStarted (total : Nat)
  | batchProgress (done total : Nat)
  | batchFinished (total degraded : Nat) (directory : Path)
  deriving DecidableEq, Repr

namespace LogRecord

def level : LogRecord → LogLevel
  | .memberSkipped _ => .warning
  | .linesWritten _ _ => .debug
  | .pageDegraded _ _ => .warning
  | _ => .info

def source : LogRecord → LogSource
  | .memberSkipped _ => .members
  | .linesWritten _ _ => .document
  | .pageWritten _ => .page
  | .pageDegraded _ _ => .page
  | _ => .batch

def message : LogRecord → Text
  | .memberSkipped drop =>
    "Skipping ".text ++ drop.place ++ " member ".text ++ Text.quoted drop.rejection.member ++
      ": ".text ++ drop.rejection.reason
  | .linesWritten count path =>
    "Wrote ".text ++ Text.ofNat count ++ " lines to ".text ++ path.text
  | .pageWritten path => "Wrote ".text ++ path.text
  | .pageDegraded path drops =>
    "Wrote ".text ++ path.text ++ " with ".text ++ Text.ofNat drops ++
      " member(s) dropped".text
  | .batchStarted total => "Writing ".text ++ Text.ofNat total ++ " class pages...".text
  | .batchProgress done total =>
    "  ... wrote ".text ++ Text.ofNat done ++ '/'.code :: Text.ofNat total ++ " pages".text
  | .batchFinished total degraded directory =>
    "Wrote ".text ++ Text.ofNat total ++ " pages (".text ++ Text.ofNat degraded ++
      " degraded) into ".text ++ directory.text

end LogRecord

end ApiPages

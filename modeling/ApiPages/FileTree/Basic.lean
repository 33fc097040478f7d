import ApiPages.Path.Basic
import ApiPages.Text.Utf8

/-!
A tree of directories and regular files, seen from a working directory, with the operations of the
system on it. A place in the tree is the list of names on the way from the root, and a name is a
text that has octets. There are no links and no permissions: what the system refuses, it refuses for
what is in the tree, for the length of a name, or for want of room.
-/
namespace ApiPages

inductive Entry where
  | directory
  | file (octets : List UInt8)
  deriving DecidableEq, Repr

inductive Refusal where
  | noEntry
  | exists
  | notDirectory
  | isDirectory
  | nameTooLong
  deriving DecidableEq, Repr

/-- Why a file does not hold what was to be written. Only if it was refused is it as it was. -/
inductive WriteFailure where
  | refused (r : Refusal)
  | notEncodable
  | noSpace
  deriving DecidableEq, Repr

structure FileTree where
  workingDirectory : List Text
  /-- All entries below the root by their places; no place occurs twice. -/
  entries : List (List Text × Entry)
  /-- The places at which a file gets no more than so many octets. -/
  room : List (List Text × Nat)
  deriving DecidableEq, Repr

namespace FileTree

def bare (workingDirectory : List Text) : FileTree :=
  ⟨workingDirectory,
    ((List.range workingDirectory.length).map fun n =>
      (workingDirectory.take (n + 1), .directory)), []⟩

def get? (t : FileTree) (place : List Text) : Option Entry :=
  if place.isEmpty then some .directory else t.entries.lookup place

def put (place : List Text) (e : Entry) : List (List Text × Entry) → List (List Text × Entry)
  | [] => [(place, e)]
  | (p, old) :: rest => if p = place then (p, e) :: rest else (p, old) :: put place e rest

def set (t : FileTree) (place : List Text) (e : Entry) : FileTree :=
  { t with entries := put place e t.entries }

/-- The most octets a name may have, and the first length of a path that is refused. -/
def mostNameOctets : Nat := 255
def pathLimit : Nat := 4096

def placeIn (here : List Text) (name : Text) : Except Refusal (List Text) :=
  if name = Lexical.up then .ok here.dropLast
  else if mostNameOctets < Utf8.size name then .error .nameTooLong
  else .ok (here ++ [name])

def enter (t : FileTree) (here : List Text) (name : Text) : Except Refusal (List Text) := do
  let place ← placeIn here name
  match t.get? place with
  | none => .error .noEntry
  | some (.file _) => .error .notDirectory
  | some .directory => .ok place

def start (t : FileTree) (p : Path) : List Text :=
  if p.root = .none then t.workingDirectory else []

/-- The place that a path leads to. All its parts but the last must be directories; the last need
not exist. -/
def locate (t : FileTree) (p : Path) : Except Refusal (List Text) :=
  if pathLimit ≤ Utf8.size p.text then .error .nameTooLong
  else match p.parts.getLast? with
    | none => .ok (t.start p)
    | some name => do placeIn (← p.parts.dropLast.foldlM t.enter (t.start p)) name

def entryAt (t : FileTree) (p : Path) : Except Refusal Entry := do
  match t.get? (← t.locate p) with
  | some e => .ok e
  | none => .error .noEntry

/-- Whether a path leads to a directory. A path that leads nowhere does not; a name that is too long
is refused even here. -/
def isDirectory? (t : FileTree) (p : Path) : Except Refusal Bool :=
  if p.fault?.isSome then .ok false
  else match t.entryAt p with
    | .ok .directory => .ok true
    | .ok (.file _) => .ok false
    | .error .nameTooLong => .error .nameTooLong
    | .error _ => .ok false

def exists? (t : FileTree) (p : Path) : Except Refusal Bool :=
  if p.fault?.isSome then .ok false
  else match t.entryAt p with
    | .ok _ => .ok true
    | .error .nameTooLong => .error .nameTooLong
    | .error _ => .ok false

def makeDirectory (t : FileTree) (p : Path) : Except Refusal FileTree := do
  let place ← t.locate p
  match t.get? place with
  | some _ => .error .exists
  | none => .ok (t.set place .directory)

def openAt (t : FileTree) (p : Path) : Except Refusal (List Text) := do
  let place ← t.locate p
  match t.get? place with
  | some .directory => .error .isDirectory
  | _ => .ok place

/-- What there is room for of the octets that are written to a file. -/
def taken (t : FileTree) (place : List Text) (octets : List UInt8) : List UInt8 :=
  match t.room.lookup place with
  | some n => octets.take n
  | none => octets

/-- Writes octets to a file, or nothing if there are none to be had. To open a file empties it, and
what was written of it stays when the room is used up. -/
def writeFile (t : FileTree) (p : Path) (octets? : Option (List UInt8)) :
    Except WriteFailure Unit × FileTree :=
  match t.openAt p with
  | .error r => (.error (.refused r), t)
  | .ok place =>
    match octets? with
    | none => (.error .notEncodable, t.set place (.file []))
    | some octets =>
      let taken := t.taken place octets
      (if taken = octets then .ok () else .error .noSpace, t.set place (.file taken))

def readFile (t : FileTree) (p : Path) : Except Refusal (List UInt8) := do
  match ← t.entryAt p with
  | .file octets => .ok octets
  | .directory => .error .isDirectory

end FileTree

end ApiPages

/-
# A disk

A disk holds files at places; a place is the list of names that leads to it
from the root. A directory is where something is, or what was made as one. A
path is looked up name by name from the working directory, so every piece of
it but the last has to be a directory. Writing a file makes the directories that
are missing on the way to it.

Key definitions: `Disk`, `Disk.Fault`, `Disk.placeOf`, `Disk.find`, `Disk.read`,
`Disk.write`, `Disk.below`, `Disk.enter`.
-/
import DeadBranch.Disk.Path

namespace DeadBranch

/-- The content of a file. -/
abbrev Bytes := List UInt8

/-- The names that lead from the root to a file or directory. -/
abbrev Place := List String

/-- Files and directories, with the directory that paths start from. -/
structure Disk where
  files : List (Place × Bytes)
  /-- Directories that were made, whether or not there is something in them. -/
  dirs : List Place
  here : Place
deriving DecidableEq, Repr

namespace Disk

/-- Why a path cannot be used. -/
inductive Fault where
  | noEntry | notDirectory | isDirectory
deriving DecidableEq, Repr

/-- The fault in the words of the system. -/
def Fault.message : Fault → String
  | noEntry => "No such file or directory (os error 2)"
  | notDirectory => "Not a directory (os error 20)"
  | isDirectory => "Is a directory (os error 21)"

/-- The content of the file at a place. -/
def fileAt? (d : Disk) (p : Place) : Option Bytes := d.files.lookup p

/-- Is there a file at a place? -/
def isFileAt (d : Disk) (p : Place) : Bool := (d.fileAt? p).isSome

/-- Is a place a directory? -/
def isDirAt (d : Disk) (p : Place) : Bool :=
  p.isEmpty || d.dirs.any p.isPrefixOf || d.files.any fun f => p.isPrefixOf f.1 && p != f.1

/-- Where a path starts. -/
def start (d : Disk) (path : String) : Place := if DiskPath.isAbsolute path then [] else d.here

/-- The place that one piece of a path leads to. -/
def along (p : Place) (piece : String) : Place :=
  if piece = "" ∨ piece = "." then p
  else if piece = ".." then p.dropLast
  else p ++ [piece]

/-- The place that a path leads to, whether or not something is there. -/
def placeOf (d : Disk) (path : String) : Place :=
  (DiskPath.pieces path).foldl along (d.start path)

/-- One piece further along a path. -/
def step (d : Disk) (p : Place) (piece : String) : Except Fault Place :=
  if !d.isDirAt p then .error (if d.isFileAt p then .notDirectory else .noEntry)
  else if d.isDirAt (along p piece) || d.isFileAt (along p piece) then .ok (along p piece)
  else .error .noEntry

/-- The place that a path names, if something is there. -/
def find (d : Disk) (path : String) : Except Fault Place :=
  if path = "" then .error .noEntry else (DiskPath.pieces path).foldlM d.step (d.start path)

/-- Does a path name a directory? -/
def isDir (d : Disk) (path : String) : Bool := (d.find path).toOption.any d.isDirAt

/-- Does a path name a file? -/
def isFile (d : Disk) (path : String) : Bool := (d.find path).toOption.any d.isFileAt

/-- Does a path name anything? -/
def holds (d : Disk) (path : String) : Bool := (d.find path).toOption.isSome

/-- The content of the file that a path names. -/
def read (d : Disk) (path : String) : Except Fault Bytes := do
  match d.fileAt? (← d.find path) with
  | some bytes => return bytes
  | none => throw .isDirectory

/-- The disk with the working directory changed. -/
def enter (d : Disk) (path : String) : Except Fault Disk := do
  let p ← d.find path
  if d.isDirAt p then return { d with here := p } else throw .notDirectory

/-- The disk with a content at a place. -/
def put (d : Disk) (p : Place) (bytes : Bytes) : Disk :=
  { d with
    files :=
      if d.isFileAt p then d.files.map fun f => if f.1 = p then (p, bytes) else f
      else d.files ++ [(p, bytes)] }

/-- The disk with a directory at a place. -/
def makeDir (d : Disk) (p : Place) : Except Fault Disk :=
  if d.isFileAt p then .error .notDirectory
  else if d.isDirAt p then .ok d
  else .ok { d with dirs := d.dirs ++ [p] }

/-- The disk with the directories that pieces of a path are looked up in. -/
def makeAlong (d : Disk) (p : Place) : List String → Except Fault Disk
  | [] => .ok d
  | piece :: pieces => do (← d.makeDir p).makeAlong (along p piece) pieces

/-- The disk after a file was written, the directories above it made. -/
def write (d : Disk) (path : String) (bytes : Bytes) : Except Fault Disk := do
  let made ← d.makeAlong (d.start path) (DiskPath.pieces path)
  if made.isDirAt (d.placeOf path) then throw .isDirectory
  return made.put (d.placeOf path) bytes

/-- The names from a directory down to each file below it, depth first and in
the order of the names. -/
def below (d : Disk) (p : Place) : List (List String) :=
  let tails := d.files.filterMap fun f =>
    if p.isPrefixOf f.1 then some (f.1.drop p.length) else none
  tails.mergeSort fun a b => (DiskPath.compareLists Ord.compare a b).isLE

end Disk
end DeadBranch

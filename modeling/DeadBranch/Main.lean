/-
# The command line

Loads what the arguments name from the file system into a `Disk`, runs the
program on it, and carries out what the program left: the output, the lines
said besides it, and the files that it wrote.

Key definitions: `main`.
-/
import DeadBranch.Command.Run

namespace DeadBranch
namespace CommandLine

/-- A path of the file system, as a directory that may hold entries. -/
def entryAt (path : String) : IO.FS.DirEntry := ⟨path, ""⟩

/-- The files at or below a path, each with its place. Links below it are
passed over. -/
partial def load (path : String) (place : Place) (isNamed : Bool) (d : Disk) : IO Disk := do
  let kind ← try
      let entry := (entryAt path).root
      let found ← if isNamed then entry.metadata else entry.symlinkMetadata
      pure (some found.type)
    catch _ => pure none
  match kind with
  | some .dir =>
    let entries ← (entryAt path).root.readDir
    entries.foldlM (fun d entry => load entry.path.toString (place ++ [entry.fileName]) false d)
      { d with dirs := d.dirs ++ [place] }
  | some .file => return d.put place (← IO.FS.readBinFile path).toList
  | _ => return d

/-- A place as a path. -/
def pathOf (p : Place) : String := "/" ++ DiskPath.ofNames p

/-- Loads what a path names, links on the way left aside. -/
def loadNamed (d : Disk) (path : String) : IO Disk :=
  load (pathOf (d.placeOf path)) (d.placeOf path) true d

/-- The settings file of the user. -/
def userSettings : IO (Option String) := do
  let home ← IO.getEnv "HOME"
  let configured := (← IO.getEnv "XDG_CONFIG_HOME").filter DiskPath.isAbsolute
  let dir := configured.or (home.map fun home => DiskPath.join home ".config")
  return dir.map fun dir => DiskPath.joinAll dir ["leanify", "config.toml"]

/-- The paths that arguments name besides the directory to work in. -/
def namedPaths (a : Arguments) (user : Option String) : List String :=
  let inputs := match a.command with
    | .shrink paths _ => paths
    | .check paths _ => paths
    | .eval _ => []
  localSettings :: a.config.toList ++ user.toList ++ inputs

/-- The part of the file system that arguments name. -/
def snapshot (args : List String) (user : Option String) : IO Disk := do
  let here := (DiskPath.pieces (← IO.currentDir).toString).filter (· != "")
  let d : Disk := ⟨[], [here], here⟩
  match Arguments.read args with
  | .error _ => return d
  | .ok a =>
    let there := d.placeOf (a.directory.getD ".")
    let isDir ← (entryAt (pathOf there)).root.isDir
    let d := if isDir then { d with dirs := d.dirs ++ [there] } else d
    let d ← (namedPaths a user).foldlM loadNamed { d with here := there }
    return { d with here }

/-- Makes the directories and writes the files that a disk holds and another one
does not. -/
def store (before after : Disk) : IO Unit := do
  for place in after.dirs do
    if !before.isDirAt place then
      IO.FS.createDirAll (pathOf place)
  for (place, bytes) in after.files do
    if before.fileAt? place != some bytes then
      IO.FS.createDirAll (pathOf place.dropLast)
      IO.FS.writeBinFile (pathOf place) ⟨bytes.toArray⟩

end CommandLine
end DeadBranch

open DeadBranch in
/-- Runs the program. -/
def main (args : List String) : IO UInt32 := do
  let user ← CommandLine.userSettings
  let disk ← CommandLine.snapshot args user
  let report := runProgram user args disk
  CommandLine.store disk report.disk
  let stdout ← IO.getStdout
  stdout.write ⟨report.output.toArray⟩
  stdout.flush
  for line in report.errors do
    IO.eprintln line
  return report.exitCode.toUInt32

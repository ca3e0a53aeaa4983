/-
**The program.**

What a command may read is taken from the file system before it is carried out, and what it prints
and writes goes out afterwards.  Nothing else is done here.

Main definitions:

* `Snapshot.path`, `Snapshot.directory`, `Snapshot.of` — the part of the file system that a command
  may read;
* `main` — the program.
-/

import JavaOutline.CommandLine
import Std.Time

set_option autoImplicit false

namespace JavaOutline

namespace Snapshot

/-- The names from the root after one more segment of a path. -/
def step (names : List String) (segment : String) : List String :=
  if segment == "" || segment == "." then names
  else if segment == ".." then names.dropLast
  else names ++ [segment]

/-- What stands under names from the root of the file system. -/
def entry? (names : List String) : IO (Option FileEntry) := do
  let place := (← IO.currentDir) / ("/" ++ "/".intercalate names)
  if ← place.isDir then return some .directory
  try return some (.file (← IO.FS.readBinFile place)) catch _ => return none

/-- The tree with what a path leads to and everything on the way. -/
def path (tree : FileTree) (path : String) : IO FileTree := do
  let segments := Path.segments path
  let mut tree := tree
  for count in List.range (segments.length + 1) do
    let names := (segments.take count).foldl step (tree.origin path)
    if (tree.entry? names).isNone then
      if let some entry ← entry? names then tree := tree.put names entry
  return tree

/-- The tree with the directories and the sources below a directory. -/
def directory (tree : FileTree) (root : String) : IO FileTree := do
  let place := (← IO.currentDir) / root
  let mut tree ← path tree root
  if ← place.isDir then
    for found in ← place.walkDir do
      if found.extension == some "java" || (← found.isDir) then
        tree ← path tree found.toString
  return tree

/-- The part of the file system that a command line may read or write. -/
def of (line : CommandLine) : IO FileTree := do
  let here := (Path.segments (← IO.currentDir).toString).filter (!·.isEmpty)
  let start : FileTree := { workingDirectory := here }
  let (files, roots) := line.inputs
  let tree ← (["."] ++ files ++ line.emitTree.toList).foldlM path start
  roots.foldlM directory tree

end Snapshot

/-- The number of processors, one if it is not known. -/
def processorCount : IO Nat := do
  try
    let lines ← IO.FS.lines "/proc/cpuinfo"
    return max 1 (lines.toList.countP (Text.beginsWith · "processor"))
  catch _ => return 1

/-- The time as log lines carry it. -/
def currentTime : IO String := do
  let now ← Std.Time.Timestamp.now
  return (Std.Time.DateTime.ofTimestamp now .UTC).toISO8601String

/-- What surrounds a command line. -/
def surroundings (arguments : List String) : IO Surroundings := do
  let tree ←
    match CommandLine.parse arguments with
    | .run line => Snapshot.of line
    | .help | .version | .usageError => pure {}
  let environment ← Preferences.variableNames.filterMapM fun name => do
    return (← IO.getEnv name).map ((name, ·))
  return { tree, environment, processors := ← processorCount, time := ← currentTime }

/-- Writes the file that a command line asked for, if the command went well. -/
def writeEmitted (arguments : List String) (result : CommandResult) : IO Unit := do
  match CommandLine.parse arguments with
  | .run { emitTree := some path, .. } =>
      match result.status, result.tree.read path with
      | 0, .ok text => IO.FS.writeFile path text
      | _, _ => return ()
  | _ => return ()

end JavaOutline

/-- The program. -/
def main (arguments : List String) : IO UInt32 := do
  let result := JavaOutline.command (← JavaOutline.surroundings arguments) arguments
  JavaOutline.writeEmitted arguments result
  IO.print result.printed.out
  IO.eprint result.printed.err
  return UInt32.ofNat result.status

import Std.Time.Zoned
import OscalValidation.CommandLine.Places
import OscalValidation.Console.Plain

set_option autoImplicit false

/-! # The program

The program gathers the files that a run may use into a tree, runs the command on it, shows what
the run printed and logged, and carries the changes of the tree out. Servers are not asked.
-/

namespace OscalValidation.CommandLine

/-- How deep directories are looked into. -/
def deepest : Nat := 32

/-- The tree with what stands under a name; what lies in a directory is added by `below`. -/
def gatherEntry (below : FileTree → EntryName → IO FileTree) (tree : FileTree)
    (name : EntryName) : IO FileTree := do
  let place := (← IO.currentDir) / name.path.text
  match ← place.readDir.toBaseIO with
  | .ok found =>
      found.toList.foldlM (fun tree entry => below tree (name ++ [entry.fileName]))
        (tree.insertDirectory name)
  | .error _ =>
      match ← (IO.FS.readBinFile place).toBaseIO with
      | .ok content => return tree.insertFile name content.toList
      | .error _ => return tree

/-- The tree with what stands under a name, and what lies below it up to a depth. -/
def gatherBelow : Nat → FileTree → EntryName → IO FileTree
  | 0 => gatherEntry fun tree _ => pure tree
  | depth + 1 => gatherEntry (gatherBelow depth)

/-- The tree with what stands at a place; the directories on the way are not looked into. -/
def gatherAt (tree : FileTree) (place : Path) : IO FileTree := do
  let names := waypoints place
  let tree ← names.dropLast.foldlM (fun tree name => gatherBelow 0 tree name) tree
  gatherBelow deepest tree (names.getLastD [])

/-- The variables of the environment that the program knows. -/
def knownVariables : IO Configuration.Variables :=
  Configuration.settingsByVariable.filterMapM fun (name, _) => do
    let name := Configuration.variableStart ++ name
    return (← IO.getEnv name).map fun value => (name, value)

def carryOut : FileTree.Change → IO Unit
  | .write path content => IO.FS.writeBinFile path.text ⟨content.toArray⟩
  | .makeDirectory path => IO.FS.createDirAll path.text
  | .remove path => IO.FS.removeFile path.text

def twoDigits (n : Nat) : String := (if n < 10 then "0" else "") ++ toString n

/-- A time, to the second, by the seconds since the start of 1970. -/
def timeText (seconds : Nat) : String :=
  let day := Std.Time.PlainDate.ofEpochDay (.ofNat (seconds / 86400))
  let date := s!"{day.year.toInt}-{twoDigits day.month.toNat}-{twoDigits day.day.toNat}"
  let hour := twoDigits (seconds / 3600 % 24)
  let minute := twoDigits (seconds / 60 % 60)
  let second := twoDigits (seconds % 60)
  s!"{date}T{hour}:{minute}:{second}+00:00"

/-- A line of the log as it is shown. -/
def logText (line : LogLine) : String :=
  match line.level with
  | .info => "INFO     " ++ line.text
  | .error => "ERROR    " ++ line.text

end OscalValidation.CommandLine

open OscalValidation CommandLine in
/-- **The program.** -/
def main (arguments : List String) : IO UInt32 := do
  let environment ← knownVariables
  let files ← (places arguments environment).foldlM gatherAt FileTree.empty
  let time := timeText (← Std.Time.Timestamp.now).toSecondsSinceUnixEpoch.val.toNat
  let run := CommandLine.run arguments environment ⟨files, fun _ => none⟩ time
  for item in run.printed do
    for line in item.lines do IO.println line
  for line in run.log do IO.println (logText line)
  (files.changes run.files).forM carryOut
  return run.status.toUInt32

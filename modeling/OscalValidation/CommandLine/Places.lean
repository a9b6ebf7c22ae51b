import OscalValidation.CommandLine.Run

set_option autoImplicit false

/-! # Places of a run

A run reads and writes where its configuration says and where its arguments and variables point
to. These places are known before the run, so what stands there can be gathered into one tree
of files; afterwards the run's tree tells which files changed.
-/

namespace OscalValidation

def EntryName.path : EntryName → Path
  | first :: rest => if first == "/" || first == "//" then ⟨first, rest⟩ else ⟨"", first :: rest⟩
  | [] => ⟨"", []⟩

namespace FileTree

/-- A change that turns one tree into another. -/
inductive Change
  | write (path : Path) (content : Text.Bytes)
  | makeDirectory (path : Path)
  | remove (path : Path)
deriving DecidableEq

/-- **The changes from one tree to another:** what is new or different, in the order of the new
tree, and then the files that are gone. -/
def changes (before after : FileTree) : List Change :=
  let made := after.entries.filterMap fun (name, entry) =>
    if before.entryAt? name == some entry then none
    else match entry with
      | .file content => some (.write name.path content)
      | .directory => some (.makeDirectory name.path)
  let gone := before.entries.filterMap fun (name, entry) =>
    match entry, after.entryAt? name with
    | .file _, none => some (.remove name.path)
    | _, _ => none
  made ++ gone

end FileTree

namespace CommandLine

/-- The texts in an argument that may be paths: the argument, and the value of an option that is
written together with it. -/
def pathsInArgument (argument : String) : List String :=
  match argument.toList with
  | '-' :: '-' :: rest => [String.ofList ((rest.dropWhile (· != '=')).drop 1)]
  | '-' :: _ :: rest => [String.ofList rest]
  | _ => [argument]

/-- The places of the usual configuration. -/
def usualPlaces : List Path :=
  let c : Configuration := {}
  [.ofString c.rulesBase, .ofString c.contentBase, c.schematronDirectory, c.xspecDirectory,
    c.summaryDirectory]

/-- **The places that a run may read or write.** -/
def places (arguments : List String) (environment : Configuration.Variables) : List Path :=
  usualPlaces ++ (arguments.flatMap pathsInArgument ++ environment.map (·.2)).filterMap fun text =>
    if text.isEmpty then none else some (.ofString text)

/-- The entries on the way to a place, and the place itself at the end. -/
def waypoints (place : Path) : List EntryName :=
  let start : EntryName := if place.root.isEmpty then [] else [place.root]
  (List.range (place.parts.length + 1)).map fun n =>
    start ++ (place.parts.take n).foldl
      (fun names part => if part == ".." then names.dropLast else names ++ [part]) []

end CommandLine

end OscalValidation

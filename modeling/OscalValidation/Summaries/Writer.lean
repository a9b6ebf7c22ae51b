import OscalValidation.Files.Tree
import OscalValidation.Json.Printer

set_option autoImplicit false

/-! # Writing summaries

The files of one command are written together. Their texts are made first, then all of them are
staged under other names beside their places, and only then each one is moved to its place. A
fault while staging takes the staged files away again; a fault while moving leaves things as
they are.
-/

namespace OscalValidation

/-- **The text of a summary file.** -/
def summaryText (value : Json) : String := value.indented ++ "\n"

/-- Why files could not be written. -/
inductive WriteFault
  | file (fault : FileFault)
  /-- The place of a file is a path without a name. -/
  | nameless (path : Path)
deriving DecidableEq

namespace SummaryWriter

/-- A file that is staged: where it is, and where it is to be. -/
structure Staged where
  temporary : Path
  target : Path
deriving DecidableEq

/-- Named contents without repetition: a name keeps its first place and its last content. -/
def distinct {α : Type} (outputs : List (String × α)) : List (String × α) :=
  outputs.foldl (fun done (name, value) =>
    if done.any (·.1 == name) then
      done.map fun entry => if entry.1 == name then (name, value) else entry
    else done ++ [(name, value)]) []

/-- Where the file for a place is staged. -/
def temporaryFor (target : Path) : Path := target.withName s!".{target.name}.tmp"

/-- The tree without the files that are staged. -/
def discard (staged : List Staged) (tree : FileTree) : FileTree :=
  staged.foldl (fun tree s => tree.remove s.temporary) tree

/-- What is staged after the files that are left, and the tree; `done` is staged already. -/
def stage (directory : Path) :
    List Staged → FileTree → List (String × String) → Except WriteFault (List Staged) × FileTree
  | done, tree, [] => (.ok done, tree)
  | done, tree, (name, content) :: rest =>
      let target := directory.join name
      if target.name.isEmpty then (.error (.nameless target), tree)
      else match tree.write (temporaryFor target) (Text.encode content) with
        | .ok tree => stage directory (done ++ [⟨temporaryFor target, target⟩]) tree rest
        | .error e => (.error (.file e), discard done tree)

/-- What is written after the staged files that are left were moved to their places, and the
tree; `done` is written already. -/
def move : List Path → FileTree → List Staged → Except WriteFault (List Path) × FileTree
  | done, tree, [] => (.ok done, tree)
  | done, tree, s :: rest =>
      match tree.replace s.temporary s.target with
      | .ok tree => move (done ++ [s.target]) tree rest
      | .error e => (.error (.file e), tree)

/-- **Writes named summaries into a directory,** which is made if need be: the places of the
files, and the tree. -/
def writeAll (directory : Path) (outputs : List (String × Json)) (tree : FileTree) :
    Except WriteFault (List Path) × FileTree :=
  let texts := (distinct outputs).map fun (name, value) => (name, summaryText value)
  match tree.makeDirectories directory with
  | .error e => (.error (.file e), tree)
  | .ok tree =>
      match stage directory [] tree texts with
      | (.error e, tree) => (.error e, tree)
      | (.ok staged, tree) => move [] tree staged

end SummaryWriter

end OscalValidation

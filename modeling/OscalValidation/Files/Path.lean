set_option autoImplicit false

/-! # Paths of files

A path is a list of names below a root or below the working directory. Empty names and names
that mean the same directory drop out when a path is read; a name that means the directory
above stays, since what it leads to depends on the files.
-/

namespace OscalValidation

/-- **A path:** the root it starts from, empty for the working directory, and the names below. -/
structure Path where
  /-- The root: nothing, one slash, or two. -/
  root : String
  parts : List String
deriving DecidableEq, Inhabited

namespace Path

/-- The parts of a list between the occurrences of `mark`. -/
def splitAtChar (mark : Char) : List Char → List (List Char)
  | [] => [[]]
  | c :: rest =>
      if c = mark then [] :: splitAtChar mark rest
      else match splitAtChar mark rest with
        | [] => [[c]]
        | part :: parts => (c :: part) :: parts

/-- The path that a text spells. -/
def ofString (s : String) : Path :=
  let root := match s.toList with
    | '/' :: '/' :: '/' :: _ => "/"
    | '/' :: '/' :: _ => "//"
    | '/' :: _ => "/"
    | _ => ""
  ⟨root, ((splitAtChar '/' s.toList).map String.ofList).filter fun part =>
    part != "" && part != "."⟩

def text (path : Path) : String :=
  if path.root.isEmpty && path.parts.isEmpty then "." else path.root ++ "/".intercalate path.parts

/-- The path `name` as seen from `path`; a name with a root stands for itself. -/
def join (path : Path) (name : String) : Path :=
  let below := ofString name
  if below.root.isEmpty then ⟨path.root, path.parts ++ below.parts⟩ else below

/-- The last name, empty if there is none. -/
def name (path : Path) : String := path.parts.getLastD ""

/-- The path with another last name. -/
def withName (path : Path) (name : String) : Path := ⟨path.root, path.parts.dropLast ++ [name]⟩

/-- The directory that holds what the path leads to. -/
def parent (path : Path) : Path := ⟨path.root, path.parts.dropLast⟩

end Path

end OscalValidation

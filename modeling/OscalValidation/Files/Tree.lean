import OscalValidation.Files.Path
import OscalValidation.Text.Encoding

set_option autoImplicit false

/-! # Trees of files

The files that the program reads and writes are a value: the entries by their names from the
working directory, or from the root. Every operation returns the tree that is left, or the
fault that it met together with the path it was given.
-/

namespace OscalValidation

open Text (Bytes)

/-- What stands at a place in the tree. -/
inductive Entry
  | file (content : Bytes)
  | directory
deriving DecidableEq, Inhabited

/-- The names from the working directory, or from a root that comes first, to an entry. -/
abbrev EntryName := List String

/-- **A tree of files.** The working directory and the root are always there. -/
structure FileTree where
  entries : List (EntryName × Entry)
deriving Inhabited

/-- The kinds of faults. -/
inductive FileFaultKind
  /-- There is nothing at the place. -/
  | notFound
  /-- There is something at the place already. -/
  | alreadyExists
  /-- A file stands where a directory is needed. -/
  | notDirectory
  /-- A directory stands where a file is needed. -/
  | isDirectory
  /-- A name is too long, or the whole path is. -/
  | nameTooLong
deriving DecidableEq

/-- **A fault of an operation on files,** with the paths it was given. -/
structure FileFault where
  kind : FileFaultKind
  /-- The path as it was given. -/
  path : Path
  /-- The second path of an operation that has two. -/
  target : Option Path := none
deriving DecidableEq

/-- The wording of a kind of fault, with its number. -/
def FileFaultKind.message : FileFaultKind → String
  | .notFound => "[Errno 2] No such file or directory"
  | .alreadyExists => "[Errno 17] File exists"
  | .notDirectory => "[Errno 20] Not a directory"
  | .isDirectory => "[Errno 21] Is a directory"
  | .nameTooLong => "[Errno 36] File name too long"

def FileFault.message (fault : FileFault) : String :=
  let target := match fault.target with
    | some target => s!" -> {Text.quoted target.text}"
    | none => ""
  s!"{fault.kind.message}: {Text.quoted fault.path.text}{target}"

namespace FileTree

def empty : FileTree := ⟨[]⟩

/-- The name of a root or of the working directory: an entry that is always there. -/
def isTop (name : EntryName) : Bool := name == [] || name == ["/"] || name == ["//"]

def entryAt? (tree : FileTree) (name : EntryName) : Option Entry :=
  if isTop name then some .directory else tree.entries.lookup name

/-- The tree with `entry` under `name`. -/
def set (tree : FileTree) (name : EntryName) (entry : Entry) : FileTree :=
  if tree.entries.any (·.1 == name) then
    ⟨tree.entries.map fun old => if old.1 == name then (name, entry) else old⟩
  else ⟨tree.entries ++ [(name, entry)]⟩

/-- The tree without the entry under `name`. -/
def erase (tree : FileTree) (name : EntryName) : FileTree :=
  ⟨tree.entries.filter (·.1 != name)⟩

/-! ## From paths to names -/

/-- How many bytes a name in a directory may have. -/
def maxNameBytes : Nat := 255

/-- How many bytes a path may have. -/
def maxPathBytes : Nat := 4095

/-- The name that the parts of a path lead to from a directory. Every part but the last leads
through a directory; nothing is known above the working directory. -/
def walk (tree : FileTree) : EntryName → List String → Except FileFaultKind EntryName
  | name, [] => .ok name
  | name, part :: rest =>
      match tree.entryAt? name with
      | none => .error .notFound
      | some (.file _) => .error .notDirectory
      | some .directory =>
          if part = ".." then
            if name == [] then .error .notFound
            else if isTop name then tree.walk name rest
            else tree.walk name.dropLast rest
          else if maxNameBytes < part.utf8ByteSize then .error .nameTooLong
          else tree.walk (name ++ [part]) rest

/-- The name that a path leads to. -/
@[irreducible]
def locate (tree : FileTree) (path : Path) : Except FileFaultKind EntryName :=
  if maxPathBytes < path.text.utf8ByteSize then .error .nameTooLong
  else tree.walk (if path.root.isEmpty then [] else [path.root]) path.parts

def find (tree : FileTree) (path : Path) : Except FileFaultKind Entry :=
  match tree.locate path with
  | .error kind => .error kind
  | .ok name => match tree.entryAt? name with
      | some entry => .ok entry
      | none => .error .notFound

/-! ## Questions -/

/-- There is something at the path. That it is too long is a fault also here. -/
def «exists» (tree : FileTree) (path : Path) : Except FileFault Bool :=
  match tree.find path with
  | .ok _ => .ok true
  | .error .nameTooLong => .error ⟨.nameTooLong, path, none⟩
  | .error _ => .ok false

/-- There is a file at the path. -/
def isFile (tree : FileTree) (path : Path) : Except FileFault Bool :=
  match tree.find path with
  | .ok (.file _) => .ok true
  | .error .nameTooLong => .error ⟨.nameTooLong, path, none⟩
  | _ => .ok false

/-- The content of the file at a path. -/
def read (tree : FileTree) (path : Path) : Except FileFault Bytes :=
  match tree.find path with
  | .ok (.file content) => .ok content
  | .ok .directory => .error ⟨.isDirectory, path, none⟩
  | .error kind => .error ⟨kind, path, none⟩

/-! ## Changes -/

/-- The tree after writing a file; its directory must be there. -/
def write (tree : FileTree) (path : Path) (content : Bytes) : Except FileFault FileTree :=
  match tree.locate path with
  | .error kind => .error ⟨kind, path, none⟩
  | .ok name =>
      match tree.entryAt? name, tree.entryAt? name.dropLast with
      | some .directory, _ => .error ⟨.isDirectory, path, none⟩
      | some (.file _), _ => .ok (tree.set name (.file content))
      | none, some .directory => .ok (tree.set name (.file content))
      | none, some (.file _) => .error ⟨.notDirectory, path, none⟩
      | none, none => .error ⟨.notFound, path, none⟩

/-- The tree after making a directory inside a directory that is there. -/
def makeDirectory (tree : FileTree) (path : Path) : Except FileFault FileTree :=
  match tree.locate path with
  | .error kind => .error ⟨kind, path, none⟩
  | .ok name =>
      match tree.entryAt? name, tree.entryAt? name.dropLast with
      | some _, _ => .error ⟨.alreadyExists, path, none⟩
      | none, some .directory => .ok (tree.set name .directory)
      | none, some (.file _) => .error ⟨.notDirectory, path, none⟩
      | none, none => .error ⟨.notFound, path, none⟩

/-- The tree after making a directory and, where it has none to lie in, the directories around
it; a directory that is there already stays. The bound is the number of parts of the path. -/
def makeDirectoriesWithin (tree : FileTree) (path : Path) : Nat → Except FileFault FileTree
  | 0 => .ok tree
  | bound + 1 =>
      match tree.find path, tree.makeDirectory path with
      | .ok .directory, _ => .ok tree
      | _, .error ⟨.notFound, _, _⟩ => do
          let tree ← tree.makeDirectoriesWithin path.parent bound
          match tree.find path with
          | .ok .directory => return tree
          | _ => tree.makeDirectory path
      | _, made => made

/-- The tree after making a directory and the directories it lies in. -/
def makeDirectories (tree : FileTree) (path : Path) : Except FileFault FileTree :=
  tree.makeDirectoriesWithin path (path.parts.length + 1)

/-- The tree without the file at a path, if there is one. -/
def remove (tree : FileTree) (path : Path) : FileTree :=
  match tree.locate path with
  | .ok name => match tree.entryAt? name with
      | some (.file _) => tree.erase name
      | _ => tree
  | .error _ => tree

/-- The tree after a file took the place of `target`; a directory does not give way. -/
def replace (tree : FileTree) (path target : Path) : Except FileFault FileTree :=
  match tree.locate path, tree.locate target with
  | .error kind, _ | _, .error kind => .error ⟨kind, path, some target⟩
  | .ok name, .ok targetName =>
      match tree.entryAt? name, tree.entryAt? targetName with
      | some (.file _), some .directory => .error ⟨.isDirectory, path, some target⟩
      | some (.file content), _ => .ok ((tree.erase name).set targetName (.file content))
      | some .directory, _ => .error ⟨.isDirectory, path, some target⟩
      | none, _ => .error ⟨.notFound, path, some target⟩

/-- The tree with a file and all directories it lies in. -/
def insertFile (tree : FileTree) (name : EntryName) (content : Bytes) : FileTree :=
  let tree := (List.range name.length).foldl (fun tree n =>
    if isTop (name.take n) || (tree.entryAt? (name.take n)).isSome then tree
    else tree.set (name.take n) .directory) tree
  tree.set name (.file content)

/-- The tree with a directory and all directories it lies in. -/
def insertDirectory (tree : FileTree) (name : EntryName) : FileTree :=
  (List.range (name.length + 1)).foldl (fun tree n =>
    if isTop (name.take n) || (tree.entryAt? (name.take n)).isSome then tree
    else tree.set (name.take n) .directory) tree

end FileTree

end OscalValidation

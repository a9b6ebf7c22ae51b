import OscalValidation.Files.Tree

set_option autoImplicit false

/-! # Artifact sources

Artifacts are named relative to a base: a directory, or the address of a server. What the
program can reach is a value, so that reading an artifact is a function of it.
-/

namespace OscalValidation

open Text (Bytes)

/-- The answer of a server. -/
structure Response where
  status : Nat
  body : Bytes
deriving Inhabited

/-- **What the program can reach:** files, and servers by address. -/
structure Storage where
  files : FileTree
  /-- What a server answers to an address, if it can be reached. -/
  respond : String → Option Response

/-- Why an artifact cannot be read. -/
inductive FetchFault
  | file (fault : FileFault)
  /-- The server answers with a failure. -/
  | status (code : Nat)
  | unreachable
deriving DecidableEq

/-- The wording of a failure to read an artifact. -/
def FetchFault.message : FetchFault → String
  | .file fault => fault.message
  | .status code => s!"<http {code}>"
  | .unreachable => "All connection attempts failed"

/-- **An artifact source:** the base that names are relative to. -/
structure ArtifactSource where
  base : String
  /-- The base is the address of a server. -/
  isRemote : Bool
deriving DecidableEq, Inhabited

namespace ArtifactSource

/-- The text begins with another one. -/
def startsWith (start : String) (s : String) : Bool := start.toList.isPrefixOf s.toList

/-- The text without slashes at its end. -/
def dropSlashesRight (s : String) : String :=
  String.ofList (s.toList.reverse.dropWhile (· == '/')).reverse

/-- The text without slashes at its start. -/
def dropSlashesLeft (s : String) : String := String.ofList (s.toList.dropWhile (· == '/'))

/-- The source with a base. Only addresses in small letters are those of servers. -/
def ofBase (base : String) : ArtifactSource :=
  if startsWith "http://" base || startsWith "https://" base then
    ⟨dropSlashesRight base ++ "/", true⟩
  else ⟨base, false⟩

/-- The path of an artifact in a directory. -/
def path (source : ArtifactSource) (name : String) : Path := (Path.ofString source.base).join name

/-- **Where an artifact is:** an address or the path of a file. -/
def resolve (source : ArtifactSource) (name : String) : String :=
  if source.isRemote then source.base ++ dropSlashesLeft name else (source.path name).text

/-- There is something where an artifact should be; a server is not asked. -/
def exists? (source : ArtifactSource) (files : FileTree) (name : String) :
    Except FileFault (Option Bool) :=
  if source.isRemote then .ok none else (files.exists (source.path name)).map some

/-- A status that tells of success. -/
def isSuccess (status : Nat) : Bool := 200 ≤ status && status < 300

/-- **The content of an artifact.** -/
def fetch (source : ArtifactSource) (storage : Storage) (name : String) :
    Except FetchFault Bytes :=
  if source.isRemote then
    match storage.respond (source.resolve name) with
    | none => .error .unreachable
    | some response =>
        if isSuccess response.status then .ok response.body else .error (.status response.status)
  else (storage.files.read (source.path name)).mapError .file

end ArtifactSource

end OscalValidation

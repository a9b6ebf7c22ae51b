import OscalValidation.Console.Markup
import OscalValidation.Document.Representation
import OscalValidation.Session.Basic

set_option autoImplicit false

/-! # What a run finds around it

A run depends on more than its arguments, variables and files: on the rule engine, on the library
that checks values against schemas, on the encodings that documents can be read in, on the console,
and on what comes between from outside. All this is one value, so that what is said of runs can be
said whatever is around them.
-/

namespace OscalValidation.CommandLine

/-- The stages of a validation. -/
inductive Stage
  /-- The file is looked up, and the session is made. -/
  | opening
  | judging
  | writing
deriving DecidableEq

/-- **What comes between from outside,** such as a disk that fails, or memory or stack that is used
up. -/
inductive Interruption
  /-- An error of the system, by its wording. -/
  | system (message : String)
  /-- Any other exception, by its name. -/
  | foreign (name : String)
deriving DecidableEq

/-- **What a run finds around it.** -/
structure Host (σ α : Type) where
  engine : Session → RuleEngine σ α
  /-- The state in which the engine starts. -/
  start : Storage → σ
  library : SchemaLibrary := .plain
  /-- The structural document that bytes hold in an encoding that is not known here. -/
  decode : Text.Bytes → Option Xml.Document := fun _ => none
  /-- The name of what the console raises instead of printing an item. -/
  refusal : Console.Item → Option String := fun _ => none
  /-- What comes between in a stage. -/
  interruption : Stage → Option Interruption := fun _ => none

namespace Host

variable {σ α : Type}

/-- The usual surroundings: rule artifacts are run by the engine for them, and nothing comes
between. -/
def usual : Host Storage RuleArtifact where
  engine := Session.engine
  start := id

/-- The structural document that a file holds in an encoding that is not known here. -/
def foreignDocument? (host : Host σ α) (files : FileTree) (path : Path) : Option Xml.Document :=
  match files.read path with
  | .ok content =>
      if Representation.ofBytes? content = some .xml ∧ (Xml.readBytes? content).isNone then
        host.decode content
      else none
  | .error _ => none

/-- **What validating a file in a session comes to.** -/
def judgement (host : Host σ α) (session : Session) (storage : Storage) (path : Path)
    (type : Option String) : Except ValidationFault ValidationResult :=
  let service := session.serviceWith (host.engine session)
  let request : ValidationRequest := { type := .ofText? type }
  let state : ValidationState σ α := ⟨{}, host.start storage⟩
  match host.foreignDocument? storage.files path with
  | some document => (service.validate (.tree document) request state).1
  | none => (service.validateFile storage.files path request state).1

/-- What is printed of items up to the first that is refused, and the name of what that raises. -/
def print (host : Host σ α) : List Console.Item → List Console.Item × Option String
  | [] => ([], none)
  | item :: rest =>
      match host.refusal item with
      | some name => ([], some name)
      | none =>
          let (printed, raised) := host.print rest
          (item :: printed, raised)

end Host

end OscalValidation.CommandLine

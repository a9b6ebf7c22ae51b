import OscalValidation.Conversion.Fault
import OscalValidation.Conversion.Rules
import OscalValidation.Files.Tree
import OscalValidation.Json.Bytes
import OscalValidation.Schema.WellFormed

set_option autoImplicit false

/-! # Conversion artifacts

The table of a converter can be kept in files. A file may include others of its directory:
what it holds itself goes before what it includes, lists are joined, and objects are merged
member by member. The schema is a file of its own that the table names.
-/

namespace OscalValidation

/-! ## Merging -/

namespace Json

mutual

/-- A value over the one it may replace: a list is joined to it, without what is in it
already, an object is merged with it, anything else replaces it. -/
def mergeOver (base : Option Json) : Json → Json
  | .arr ys =>
      match base with
      | some (.arr xs) => .arr (xs ++ ys.filter fun y => !xs.any (·.same true y))
      | _ => .arr ys
  | .obj members =>
      match base with
      | some (.obj under) => .obj (membersOver under under members)
      | _ => .obj members
  | value => value

/-- The members `merged` with further members over those of `base`. -/
def membersOver (base merged : List (String × Json)) : List (String × Json) → List (String × Json)
  | [] => merged
  | (name, value) :: rest =>
      membersOver base (setMember name (mergeOver (base.lookup name) value) merged) rest

end

/-- **Members over others:** the names of `base` come first, those only in `top` after them. -/
def merge (base top : List (String × Json)) : List (String × Json) := membersOver base base top

end Json

/-! ## Faults -/

/-- **Why the files of a converter cannot be used.** -/
inductive ArtifactFault
  /-- A file of the table cannot be read. -/
  | unreadable (path : Path) (reason : String)
  /-- The file of the schema cannot be read, or is no schema. -/
  | badSchema (path : Path) (reason : String)
  /-- A file is no text in its encoding. -/
  | undecodable (error : Text.DecodeError)
  /-- A file goes beyond what can be read: an integer has too many digits, or the nesting is too
  deep. -/
  | excess (error : Json.ReadError)
  /-- Checking a schema raises an exception of this name. -/
  | raised (name : String)
  /-- A file holds another value than an object. -/
  | notAnObject (value : Json)
  | missing (name : String)
  /-- An entry that must list names is of another kind. -/
  | notAList (value : Json)
  /-- An array or object stands where a name must stand in a list. -/
  | notAName (value : Json)
  /-- An entry that must hold entries by name is of another kind. -/
  | notEntries (value : Json)
  /-- The name of a file is no text. -/
  | notAFileName (value : Json)
  /-- The name of a file holds a null character, which no file can have. -/
  | nullInName (path : Path)
  /-- Inclusions go too deep; files that include each other in a circle have no end. -/
  | tooDeep (path : Path)

/-- What is told about a file that is no schema. -/
def schemaFault : String := "<schema-error>"

/-- The heading of a fault in the files themselves; faults of the table's form have none. -/
def ArtifactFault.heading? : ArtifactFault → Option String
  | .unreadable path _ => some s!"Could not load conversion artifact {path.text}"
  | .badSchema path _ => some s!"Invalid schema {path.text}"
  | _ => none

/-- The diagnostics of a fault in the files themselves. -/
def ArtifactFault.diagnostics : ArtifactFault → List String
  | .unreadable _ reason | .badSchema _ reason => [reason]
  | _ => []

/-- The wording of a fault in the files themselves. -/
def ArtifactFault.message? (fault : ArtifactFault) : Option String :=
  fault.heading?.map fun heading => withDiagnostics heading fault.diagnostics

/-! ## Reading files -/

/-- The value in a file; `fault` says what it means if there is none. -/
def readJsonFile (tree : FileTree) (path : Path) (fault : Path → String → ArtifactFault) :
    Except ArtifactFault Json :=
  if path.text.toList.contains '\x00' then .error (.nullInName path)
  else
    match tree.read path with
    | .error e => .error (fault path e.message)
    | .ok bytes =>
        match Json.readFile bytes with
        | .ok value => .ok value
        | .error (.decode e) => .error (.undecodable e)
        | .error (.read e) => .error (if e.isExcess then .excess e else fault path e.message)

/-- The items that an entry lists: those of an array, the names of an object, or the
characters of a text. -/
def listedItems : Json → Except ArtifactFault (List Json)
  | .arr items => .ok items
  | .obj members => .ok (members.map fun member => .str member.1)
  | .str text => .ok (text.toList.map fun c => .str (String.singleton c))
  | value => .error (.notAList value)

/-- The members of the table in a file, over those of the files it includes. The bound limits
how deep inclusions may go. -/
def loadMembers (tree : FileTree) (directory : Path) :
    Nat → String → Except ArtifactFault (List (String × Json))
  | 0, name => .error (.tooDeep (directory.join name))
  | bound + 1, name => do
      match ← readJsonFile tree (directory.join name) .unreadable with
      | .obj members =>
          let included ← listedItems ((members.lookup "include").getD (.arr []))
          included.foldlM (fun table item =>
            match item with
            | .str file => do return Json.merge (← loadMembers tree directory bound file) table
            | item => throw (.notAFileName item))
            (members.filter fun member => member.1 != "include")
      | value => throw (.notAnObject value)

/-! ## The table -/

/-- What an entry lists, where names are expected. -/
def listedValues (value : Json) : Except ArtifactFault (List Json) := do
  let items ← listedItems value
  items.mapM fun item =>
    match item with
    | .arr _ | .obj _ => throw (.notAName item)
    | item => pure item

/-- The names that an entry lists, each once. -/
def listedNames (value : Json) : Except ArtifactFault (List String) := do
  let values ← listedValues value
  return (values.filterMap Json.text?).eraseDups

/-- The entries by name of an object. -/
def entriesOf (value : Json) : Except ArtifactFault (List (String × Json)) :=
  match value with
  | .obj members => .ok members
  | value => .error (.notEntries value)

/-- The table that members describe. What names the root member, the items of arrays and the
members that become text is kept as it is. -/
def ConversionRules.ofMembers (members : List (String × Json)) :
    Except ArtifactFault ConversionRules := do
  let entry (name : String) (absent : Json) := (members.lookup name).getD absent
  match members.lookup "root" with
  | none => throw (.missing "root")
  | some root =>
      let flags ← listedNames (entry "flags" (.arr []))
      let byElement ← entriesOf (entry "element-flags" (.obj []))
      let elementFlags ← byElement.mapM fun (name, value) => do
        return (name, ← listedNames value)
      let groups := entry "groups" (.obj [])
      let values := entry "values" (.obj [])
      let prose ← listedValues (entry "markup-multiline" (.arr []))
      return ⟨root, flags, elementFlags, groups, values, prose⟩

def loadSchema (library : SchemaLibrary) (tree : FileTree) (path : Path) :
    Except ArtifactFault SchemaDocument := do
  let json ← readJsonFile tree path .badSchema
  match library.raises json, SchemaDocument.ofJson? library json with
  | some name, _ => throw (.raised name)
  | none, some schema => return schema
  | none, none => throw (.badSchema path schemaFault)

def inclusionDepth : Nat := 900

/-- **The converter of a type, from the files of a directory.** -/
def Converter.load (library : SchemaLibrary) (tree : FileTree) (directory : Path)
    (type : DocumentType) : Except ArtifactFault Converter := do
  let members ← loadMembers tree directory inclusionDepth type.conversionArtifact
  let rules ← ConversionRules.ofMembers members
  match members.lookup "schema" with
  | none => throw (.missing "schema")
  | some (.str name) =>
      let path := directory.join name
      return ⟨rules, path.name, ← loadSchema library tree path⟩
  | some value => throw (.notAFileName value)

end OscalValidation

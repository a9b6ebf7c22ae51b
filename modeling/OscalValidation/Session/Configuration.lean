import OscalValidation.Document.Type
import OscalValidation.Files.Path

set_option autoImplicit false

/-! # Configuration

A configuration says where things are and which roles block a document. It starts from its
defaults, variables of the environment replace some of them, and options that a caller names
replace both.
-/

namespace OscalValidation

/-- **A configuration.** -/
structure Configuration where
  /-- The base of the rule artifacts. -/
  rulesBase : String := "dist/rules"
  /-- The base of the reference datasets. -/
  contentBase : String := "dist/content"
  ruleset : Ruleset := .rev5
  /-- The pattern of the names of rule artifacts. -/
  ruleArtifactPattern : String := "\x7bruleset\x7d/\x7bdocument_type\x7d.xsl"
  /-- The directory of the converters, if they are not those that come with the program. -/
  conversionDirectory : Option Path := none
  /-- The directory of the sources of rules. -/
  schematronDirectory : Path := .ofString "src/rules"
  /-- The directory of the sources of tests. -/
  xspecDirectory : Path := .ofString "test/rules"
  summaryDirectory : Path := .ofString "dist/rules"
  /-- The roles that block a document. -/
  blockingRoles : List String := ["error", "fatal", "critical"]
deriving DecidableEq

/-- **A change of a configuration.** -/
inductive Setting
  | rulesBase (base : String)
  | contentBase (base : String)
  /-- The key of the ruleset as it was given. -/
  | ruleset (key : Json)
  | ruleArtifactPattern (pattern : String)
  | conversionDirectory (path : Path)
  | schematronDirectory (path : Path)
  | xspecDirectory (path : Path)
  | summaryDirectory (path : Path)
  | blockingRoles (roles : List String)

namespace Configuration

/-- The configuration after a change; only the key of a ruleset can be refused. -/
def apply (c : Configuration) : Setting → Except UnknownTag Configuration
  | .rulesBase base => .ok { c with rulesBase := base }
  | .contentBase base => .ok { c with contentBase := base }
  | .ruleset key => (Ruleset.parse key).map fun ruleset => { c with ruleset := ruleset }
  | .ruleArtifactPattern pattern => .ok { c with ruleArtifactPattern := pattern }
  | .conversionDirectory path => .ok { c with conversionDirectory := some path }
  | .schematronDirectory path => .ok { c with schematronDirectory := path }
  | .xspecDirectory path => .ok { c with xspecDirectory := path }
  | .summaryDirectory path => .ok { c with summaryDirectory := path }
  | .blockingRoles roles => .ok { c with blockingRoles := roles }

def applyAll (c : Configuration) (settings : List Setting) : Except UnknownTag Configuration :=
  settings.foldlM apply c

/-! ## The environment -/

abbrev Variables := List (String × String)

/-- What the names of all variables begin with. -/
def variableStart : String := "OSCALCHECK_"

/-- The value of a variable; an empty one counts as none. -/
def given? (environment : Variables) (name : String) : Option String :=
  (environment.lookup (variableStart ++ name)).filter (· != "")

/-- The roles that a text lists between commas: trimmed, in lower case, without empty ones. -/
def rolesOf (s : String) : List String :=
  ((Path.splitAtChar ',' s.toList).map fun part => normalizeTag (String.ofList part)).filter
    (· != "")

/-- The variables, and what each changes. -/
def settingsByVariable : List (String × (String → Setting)) :=
  [("RULES_BASE", .rulesBase),
    ("CONTENT_BASE", .contentBase),
    ("RULESET", fun s => .ruleset (.str s)),
    ("RULE_ARTIFACT_PATTERN", .ruleArtifactPattern),
    ("CONVERSION_ARTIFACT_DIR", fun s => .conversionDirectory (.ofString s)),
    ("SCHEMATRON_DIR", fun s => .schematronDirectory (.ofString s)),
    ("XSPEC_DIR", fun s => .xspecDirectory (.ofString s)),
    ("SUMMARY_OUTPUT_DIR", fun s => .summaryDirectory (.ofString s)),
    ("BLOCKING_ROLES", fun s => .blockingRoles (rolesOf s))]

/-- **The configuration of an environment.** -/
def ofVariables (environment : Variables) : Except UnknownTag Configuration :=
  applyAll {} (settingsByVariable.filterMap fun (name, setting) =>
    (given? environment name).map setting)

/-! ## Options by name -/

/-- Why a configuration cannot be changed as a caller asks for. -/
inductive Fault
  /-- The key of the ruleset is unknown. -/
  | tag (fault : UnknownTag)
  | unknownOption (name : String)

/-- What a named option with a value changes, if there is such an option. -/
def setting? (name : String) (value : Json) : Option Setting :=
  let s := value.text?.getD ""
  match name with
  | "rules_base" => some (.rulesBase s)
  | "content_base" => some (.contentBase s)
  | "ruleset" => some (.ruleset value)
  | "rule_artifact_pattern" => some (.ruleArtifactPattern s)
  | "conversion_artifact_dir" => some (.conversionDirectory (.ofString s))
  | "schematron_dir" => some (.schematronDirectory (.ofString s))
  | "xspec_dir" => some (.xspecDirectory (.ofString s))
  | "summary_output_dir" => some (.summaryDirectory (.ofString s))
  | "blocking_roles" =>
      some (.blockingRoles ((value.items?.getD []).filterMap Json.text?))
  | _ => none

def isGiven : Json → Bool
  | .null => false
  | _ => true

/-- **The configuration with options replaced by name.** An option without a value stays; the
ruleset is looked at before the names of the others. -/
def override (c : Configuration) (options : List (String × Json)) :
    Except Fault Configuration := do
  let given := options.filter fun option => isGiven option.2
  if let some key := given.lookup "ruleset" then
    let _ ← (Ruleset.parse key).mapError .tag
  let settings ← given.mapM fun (name, value) =>
    match setting? name value with
    | some setting => .ok setting
    | none => .error (.unknownOption name)
  (c.applyAll settings).mapError .tag

end Configuration

end OscalValidation

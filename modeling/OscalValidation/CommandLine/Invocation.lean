import OscalValidation.CommandLine.Arguments
import OscalValidation.Files.Tree
import OscalValidation.Session.Configuration

set_option autoImplicit false

/-! # Invocations

The program is called with options of its own, a command, and what belongs to the command. Some
options take their value from the environment where they are not given.
-/

namespace OscalValidation.CommandLine

/-- **A command.** -/
inductive Command
  /-- Validates the document in a file, of a type if one is declared, and writes a report. -/
  | validate (path : Path) (type : Option String) (report : Option Path)
  | catalogs (sources output : Option String)
  | views (sources output : Option String)
  /-- Writes the scenario summaries of a type. -/
  | scenarios (type : String) (sources output : Option String)
  /-- Checks what the program needs, and the rule artifacts. -/
  | doctor (dependencies rules : Bool)
deriving DecidableEq

/-- **An invocation.** -/
structure Invocation where
  verbose : Bool
  /-- Only what went wrong is told. -/
  quiet : Bool
  /-- The base of the rule artifacts. -/
  rulesBase : Option String
  /-- The base of the reference datasets. -/
  contentBase : Option String
  ruleset : Option Ruleset
  command : Command
deriving DecidableEq

/-- What the program is asked for. -/
inductive Request
  | help
  | run (invocation : Invocation)
deriving DecidableEq

/-! ## Forms -/

/-- The options of the program itself. -/
def programForms : List OptionForm :=
  [{ key := "verbose", long := "verbose", short := some 'v', takesValue := false },
    { key := "quiet", long := "quiet", short := some 'q', takesValue := false },
    { key := "rules-base", long := "rules-base" },
    { key := "content-base", long := "content-base" },
    { key := "ruleset", long := "ruleset" }]

/-- The option for what a command writes. -/
def outputForm : OptionForm := { key := "output", long := "output", short := some 'o' }

def commandForms : List (String × List OptionForm) :=
  [("validate", [{ key := "type", long := "type" }, outputForm]),
    ("generate-schematron-summaries",
      [{ key := "sources", long := "schematron-dir" }, outputForm]),
    ("create-assertion-view", [{ key := "sources", long := "schematron-dir" }, outputForm]),
    ("create-xspec-summaries", [{ key := "sources", long := "xspec-dir" }, outputForm]),
    ("doctor",
      [{ key := "dependencies", long := "check-deps", takesValue := false },
        { key := "rules", long := "check-rules", takesValue := false }])]

/-! ## Reading -/

/-- The only word, which must be there. -/
def onlyWord (key : String) : List String → Except UsageFault String
  | [] => .error (.missingArgument key)
  | [word] => .ok word
  | _ :: rest => .error (.unwantedArguments rest)

def noWords : List String → Except UsageFault Unit
  | [] => .ok ()
  | words => .error (.unwantedArguments words)

/-- The path of a file, which is no directory. -/
def filePath (files : FileTree) (word : String) : Except UsageFault Path :=
  let path := Path.ofString word
  match word, files.find path with
  | "", _ => .ok path
  | _, .ok .directory => .error (.directory word)
  | _, _ => .ok path

def command (files : FileTree) (name : String) (a : Arguments) : Except UsageFault Command :=
  let sources := a.value? "sources"
  let output := a.value? "output"
  match name with
  | "validate" => do
      let path ← filePath files (← onlyWord "path" a.words)
      return .validate path (a.value? "type") (output.map Path.ofString)
  | "generate-schematron-summaries" => do
      noWords a.words
      return .catalogs sources output
  | "create-assertion-view" => do
      noWords a.words
      return .views sources output
  | "create-xspec-summaries" => do
      return .scenarios (← onlyWord "document_type" a.words) sources output
  | "doctor" => do
      noWords a.words
      return .doctor (a.has "dependencies") (a.has "rules")
  | name => .error (.unknownCommand name)

/-- The value of an option, or of a variable of the environment where it is not given. -/
def valueOr (environment : Configuration.Variables) (a : Arguments) (key name : String) :
    Option String :=
  match a.value? key with
  | some value => some value
  | none => Configuration.given? environment name

/-- The ruleset that a text chooses; the case of letters does not count. -/
def chosenRuleset (value : String) : Except UsageFault Ruleset :=
  match Ruleset.all.find? (·.key == Text.lowerCase value) with
  | some ruleset => .ok ruleset
  | none => .error (.badChoice "ruleset" value)

/-- **What the program is asked for.** Help is given before any value is looked at. -/
def Request.read (environment : Configuration.Variables) (files : FileTree)
    (arguments : List String) : Except UsageFault Request := do
  let own ← Arguments.read programForms false arguments
  if own.has "help" then return .help
  let ruleset ← (valueOr environment own "ruleset" "RULESET").mapM chosenRuleset
  match own.words with
  | [] => throw .missingCommand
  | name :: rest =>
      match commandForms.lookup name with
      | none => throw (.unknownCommand name)
      | some forms =>
          let inner ← Arguments.read forms true rest
          if inner.has "help" then return .help
          let command ← command files name inner
          return .run {
            verbose := own.has "verbose"
            quiet := own.has "quiet"
            rulesBase := valueOr environment own "rules-base" "RULES_BASE"
            contentBase := valueOr environment own "content-base" "CONTENT_BASE"
            ruleset := ruleset
            command := command }

end OscalValidation.CommandLine

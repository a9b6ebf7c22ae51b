set_option autoImplicit false

/-! # Arguments

The arguments of a program are options, which begin with a hyphen, and words. An option may
take a value: the argument after it, what follows an equals sign in a long option, or what
follows the letter of a short one. After two hyphens alone everything is a word.
-/

namespace OscalValidation.CommandLine

/-- **An option.** -/
structure OptionForm where
  /-- The name it is known by. -/
  key : String
  long : String
  short : Option Char := none
  takesValue : Bool := true
deriving DecidableEq

/-- The option that asks for help. -/
def helpForm : OptionForm := { key := "help", long := "help", takesValue := false }

/-- **Why arguments cannot be used.** -/
inductive UsageFault
  | unknownOption (spelling : String)
  | missingValue (key : String)
  /-- An option that takes no value has one. -/
  | unwantedValue (key : String)
  /-- The value of an option is none of its choices. -/
  | badChoice (key value : String)
  | missingArgument (key : String)
  /-- There are words that nobody wants. -/
  | unwantedArguments (words : List String)
  /-- A directory stands where a file is wanted. -/
  | directory (path : String)
  | missingCommand
  | unknownCommand (name : String)
deriving DecidableEq

/-- What was read from arguments. -/
structure Arguments where
  /-- The options by key, each with its value; the last one counts. -/
  options : List (String × String) := []
  words : List String := []
deriving DecidableEq

namespace Arguments

/-- The arguments with an option, which counts more than those before. -/
def withOption (a : Arguments) (key value : String) : Arguments :=
  { a with options := (key, value) :: a.options }

def value? (a : Arguments) (key : String) : Option String := a.options.lookup key

def has (a : Arguments) (key : String) : Bool := (a.value? key).isSome

/-- The letters of a short argument: the arguments with their options, and the option that
waits for its value. -/
def readShort (forms : List OptionForm) (a : Arguments) :
    List Char → Except UsageFault (Arguments × Option OptionForm)
  | [] => .ok (a, none)
  | c :: rest =>
      match forms.find? (·.short == some c) with
      | none => .error (.unknownOption (String.ofList ['-', c]))
      | some form =>
          if form.takesValue then
            if rest.isEmpty then .ok (a, some form)
            else .ok (a.withOption form.key (String.ofList rest), none)
          else readShort forms (a.withOption form.key "") rest

/-- An argument that begins with a hyphen and is longer. -/
def readOption (forms : List OptionForm) (a : Arguments) (arg : List Char) :
    Except UsageFault (Arguments × Option OptionForm) :=
  let spelling := arg.takeWhile (· != '=')
  let value := arg.drop spelling.length
  match forms.find? (fun form => ("--" ++ form.long).toList == spelling), value with
  | some form, [] =>
      if form.takesValue then .ok (a, some form) else .ok (a.withOption form.key "", none)
  | some form, _ :: value =>
      if form.takesValue then .ok (a.withOption form.key (String.ofList value), none)
      else .error (.unwantedValue form.key)
  | none, _ =>
      match arg with
      | '-' :: '-' :: _ => .error (.unknownOption (String.ofList spelling))
      | _ => readShort forms a arg.tail

/-- The arguments that are left. Where options may not follow words, everything from the first
word on is words. -/
def readAll (forms : List OptionForm) (mixed : Bool) :
    Option OptionForm → Arguments → List String → Except UsageFault Arguments
  | none, a, [] => .ok a
  | some form, _, [] => .error (.missingValue form.key)
  | some form, a, arg :: rest => readAll forms mixed none (a.withOption form.key arg) rest
  | none, a, arg :: rest =>
      if arg = "--" then .ok { a with words := a.words ++ rest }
      else match arg.toList with
        | '-' :: c :: letters =>
            match readOption forms a ('-' :: c :: letters) with
            | .ok (a, waiting) => readAll forms mixed waiting a rest
            | .error e => .error e
        | _ =>
            if mixed then readAll forms mixed none { a with words := a.words ++ [arg] } rest
            else .ok { a with words := a.words ++ arg :: rest }

/-- **What arguments say,** with help among the options. -/
def read (forms : List OptionForm) (mixed : Bool) (arguments : List String) :
    Except UsageFault Arguments :=
  readAll (helpForm :: forms) mixed none {} arguments

end Arguments

end OscalValidation.CommandLine

import OscalValidation.Decimal.Shortest
import OscalValidation.Json.Basic
import OscalValidation.Text.Quoted

set_option autoImplicit false

/-! # Writing object documents

Two layouts write a value as a document: one on a single line with every character beyond
ASCII escaped, and one with a member or item a line, indented by two spaces. A third
printer shows a value in a diagnostic, where texts stand in quotation marks.
-/

namespace OscalValidation

namespace Json

/-! ## Scalars -/

/-- The escape of one letter for a character, if it has one. -/
def shortEscape? : Char → Option Char
  | '"' => some '"'
  | '\\' => some '\\'
  | '\n' => some 'n'
  | '\r' => some 'r'
  | '\t' => some 't'
  | '\x0c' => some 'f'
  | '\x08' => some 'b'
  | _ => none

def escapedUnit (unit : Nat) : List Char := '\\' :: 'u' :: Text.hexDigits 4 unit

/-- The escape of a character by its code: one unit, or two beyond the first plane. -/
def escapedCode (c : Char) : List Char :=
  if c.toNat < 0x10000 then escapedUnit c.toNat
  else
    let offset := c.toNat - 0x10000
    escapedUnit (0xD800 + offset / 0x400) ++ escapedUnit (0xDC00 + offset % 0x400)

/-- How a character is written inside a text. -/
def writeChar (asciiOnly : Bool) (c : Char) : List Char :=
  match shortEscape? c with
  | some letter => ['\\', letter]
  | none =>
      if c.toNat < 32 ∨ (asciiOnly = true ∧ 127 ≤ c.toNat) then escapedCode c else [c]

def writeText (asciiOnly : Bool) (s : String) : List Char :=
  '"' :: s.toList.flatMap (writeChar asciiOnly) ++ ['"']

/-- A value that is neither array nor object. -/
def writeScalar (asciiOnly : Bool) : Json → List Char
  | bool true => "true".toList
  | bool false => "false".toList
  | int value => (toString value).toList
  | real value => (Binary64.documentLayout.text value).toList
  | str value => writeText asciiOnly value
  | _ => "null".toList

/-! ## One line -/

mutual

def writeLine : Json → List Char
  | arr items => '[' :: writeLineItems items ++ [']']
  | obj members => '{' :: writeLineMembers members ++ ['}']
  | scalar => writeScalar true scalar

/-- The items with commas between them. -/
def writeLineItems : List Json → List Char
  | [] => []
  | [item] => writeLine item
  | item :: items => writeLine item ++ ", ".toList ++ writeLineItems items

/-- The members with commas between them. -/
def writeLineMembers : List (String × Json) → List Char
  | [] => []
  | [(name, value)] => writeText true name ++ ": ".toList ++ writeLine value
  | (name, value) :: members =>
      writeText true name ++ ": ".toList ++ writeLine value ++ ", ".toList ++
        writeLineMembers members

end

/-- **The document on one line,** in ASCII. -/
def compact (value : Json) : String := String.ofList (writeLine value)

/-! ## Indented -/

/-- A line feed and the indentation of a depth. -/
def newLine (depth : Nat) : List Char := '\n' :: List.replicate (2 * depth) ' '

mutual

/-- The value, its own lines indented by `depth`. -/
def writeIndented (depth : Nat) : Json → List Char
  | arr [] => "[]".toList
  | arr (item :: items) =>
      '[' :: newLine (depth + 1) ++ writeIndentedItems (depth + 1) (item :: items) ++
        newLine depth ++ [']']
  | obj [] => "\x7b\x7d".toList
  | obj (member :: members) =>
      '{' :: newLine (depth + 1) ++ writeIndentedMembers (depth + 1) (member :: members) ++
        newLine depth ++ ['}']
  | scalar => writeScalar false scalar

def writeIndentedItems (depth : Nat) : List Json → List Char
  | [] => []
  | [item] => writeIndented depth item
  | item :: items =>
      writeIndented depth item ++ ',' :: newLine depth ++ writeIndentedItems depth items

def writeIndentedMembers (depth : Nat) : List (String × Json) → List Char
  | [] => []
  | [(name, value)] => writeText false name ++ ": ".toList ++ writeIndented depth value
  | (name, value) :: members =>
      writeText false name ++ ": ".toList ++ writeIndented depth value ++
        ',' :: newLine depth ++ writeIndentedMembers depth members

end

/-- The document with a member or item a line. -/
def indented (value : Json) : String := String.ofList (writeIndented 0 value)

/-! ## In diagnostics -/

mutual

/-- The value as a diagnostic shows it. -/
def showChars : Json → List Char
  | null => "None".toList
  | bool true => "True".toList
  | bool false => "False".toList
  | int value => (toString value).toList
  | real value => (Binary64.plainLayout.text value).toList
  | str value => (Text.quoted value).toList
  | arr items => '[' :: showItems items ++ [']']
  | obj members => '{' :: showMembers members ++ ['}']

/-- The items with commas between them. -/
def showItems : List Json → List Char
  | [] => []
  | [item] => showChars item
  | item :: items => showChars item ++ ", ".toList ++ showItems items

/-- The members with commas between them. -/
def showMembers : List (String × Json) → List Char
  | [] => []
  | [(name, value)] => (Text.quoted name).toList ++ ": ".toList ++ showChars value
  | (name, value) :: members =>
      (Text.quoted name).toList ++ ": ".toList ++ showChars value ++ ", ".toList ++
        showMembers members

end

/-- The value as a diagnostic shows it. -/
def shown (value : Json) : String := String.ofList (showChars value)

/-- The value in running text: a text as it is, anything else as it is shown. -/
def plain : Json → String
  | str value => value
  | value => value.shown

end Json

end OscalValidation

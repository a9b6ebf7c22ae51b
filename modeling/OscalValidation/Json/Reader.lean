import OscalValidation.Json.Basic

set_option autoImplicit false

/-! # Reading object documents

The reader works on the list of characters that are still to be read. When it stops it says
what it missed and how many characters were left, from which the position in the text
follows. Each function takes a bound on the number of its steps; the length of the text is
always enough, since every step uses up a character. How deep the document may be nested is limited
apart from that.
-/

namespace OscalValidation

namespace Json

/-! ## Problems -/

/-- What a text lacks of being a document. -/
inductive Problem
  | valueExpected
  /-- A member must begin with its name. -/
  | nameExpected
  /-- A name must be followed by a colon. -/
  | colonExpected
  /-- Members and items are separated by commas. -/
  | commaExpected
  | extraData
  /-- A text is not closed; the position is that of its opening quote. -/
  | unterminatedText
  /-- A control character stands in a text. -/
  | controlCharacter
  /-- A backslash is followed by a character that makes no escape. -/
  | unknownEscape
  /-- An escaped code is not four hexadecimal digits. -/
  | malformedCode
  /-- A byte order mark stands before the document. -/
  | byteOrderMark
deriving DecidableEq

def Problem.message : Problem → String
  | .valueExpected => "Expecting value"
  | .nameExpected => "Expecting property name enclosed in double quotes"
  | .colonExpected => "Expecting ':' delimiter"
  | .commaExpected => "Expecting ',' delimiter"
  | .extraData => "Extra data"
  | .unterminatedText => "Unterminated string starting at"
  | .controlCharacter => "Invalid control character at"
  | .unknownEscape => "Invalid \\escape"
  | .malformedCode => "Invalid \\uXXXX escape"
  | .byteOrderMark => "Unexpected UTF-8 BOM (decode using utf-8-sig)"

/-- Why a text could not be read. -/
inductive ReadError
  /-- The text is not a document. Lines and columns count from one, the offset from zero. -/
  | malformed (problem : Problem) (line column offset : Nat)
  /-- An integer has more digits than are accepted. -/
  | integerTooLong (digits : Nat)
  /-- An array or an object is nested too deep. -/
  | tooDeep (isArray : Bool)
deriving DecidableEq

/-- The wording of a failure to read. -/
def ReadError.message : ReadError → String
  | .malformed problem line column offset =>
      s!"{problem.message}: line {line} column {column} (char {offset})"
  | .integerTooLong digits =>
      s!"Exceeds the limit (4300 digits) for integer string conversion: value has {digits} " ++
        "digits; use sys.set_int_max_str_digits() to increase the limit"
  | .tooDeep isArray =>
      let kind := if isArray then "array" else "object"
      s!"maximum recursion depth exceeded while decoding a JSON {kind} from a unicode string"

/-- The text goes beyond what can be read, document or not. -/
def ReadError.isExcess : ReadError → Bool
  | .malformed .. => false
  | .integerTooLong _ | .tooDeep _ => true

/-- Where and why the reader stopped; the place is given by the number of characters left. -/
inductive Stop
  /-- The text is not a document. -/
  | problem (problem : Problem) (left : Nat)
  /-- An integer has more digits than are accepted. -/
  | integerTooLong (digits : Nat)
  /-- An array or an object is nested too deep. -/
  | tooDeep (isArray : Bool)

def stopAt {α : Type} (problem : Problem) (cs : List Char) : Except Stop (α × List Char) :=
  .error (.problem problem cs.length)

/-- Blanks between the parts of a document. -/
def isSpace (c : Char) : Bool :=
  c == ' ' || c == '\t' || c == '\n' || c == '\r'

def skipSpace (cs : List Char) : List Char := cs.dropWhile isSpace

/-! ## Texts

A text is read as a list of code units: an escaped code may be one half of a surrogate pair,
and two halves that meet make one character. -/

/-- The value of a hexadecimal digit. -/
def hexDigit? (c : Char) : Option Nat :=
  if '0' ≤ c ∧ c ≤ '9' then some (c.toNat - 48)
  else if 'a' ≤ c ∧ c ≤ 'f' then some (c.toNat - 87)
  else if 'A' ≤ c ∧ c ≤ 'F' then some (c.toNat - 55)
  else none

/-- The value of four hexadecimal digits. -/
def hexCode? (a b c d : Char) : Option Nat := do
  let a ← hexDigit? a
  let b ← hexDigit? b
  let c ← hexDigit? c
  let d ← hexDigit? d
  return ((a * 16 + b) * 16 + c) * 16 + d

/-- The character an escape of one letter stands for. -/
def escapedChar? : Char → Option Char
  | '"' => some '"'
  | '\\' => some '\\'
  | '/' => some '/'
  | 'b' => some '\x08'
  | 'f' => some '\x0c'
  | 'n' => some '\n'
  | 'r' => some '\r'
  | 't' => some '\t'
  | _ => none

/-- The escape whose backslash stands before `cs`; an escaped code must not end the text. -/
def readEscape (opening : Nat) (cs : List Char) : Except Stop (Nat × List Char) :=
  match cs with
  | [] => .error (.problem .unterminatedText opening)
  | 'u' :: a :: b :: c :: d :: next :: rest =>
      match hexCode? a b c d with
      | some code => .ok (code, next :: rest)
      | none => stopAt .malformedCode cs
  | 'u' :: _ => stopAt .malformedCode cs
  | c :: rest =>
      match escapedChar? c with
      | some c => .ok (c.toNat, rest)
      | none => .error (.problem .unknownEscape (cs.length + 1))

/-- The code units up to the closing quote. `opening` is the number of characters left at the
opening quote. -/
def readUnits (opening : Nat) : Nat → List Char → Except Stop (List Nat × List Char)
  | 0, _ | _, [] => .error (.problem .unterminatedText opening)
  | fuel + 1, c :: rest =>
      if c = '"' then .ok ([], rest)
      else if c = '\\' then do
        let (unit, rest) ← readEscape opening rest
        let (units, rest) ← readUnits opening fuel rest
        return (unit :: units, rest)
      else if c.toNat < 32 then stopAt .controlCharacter (c :: rest)
      else do
        let (units, rest) ← readUnits opening fuel rest
        return (c.toNat :: units, rest)

/-- The unit is the first half of a surrogate pair. -/
def isHighSurrogate (unit : Nat) : Bool := 0xD800 ≤ unit && unit < 0xDC00

/-- The unit is the second half of a surrogate pair. -/
def isLowSurrogate (unit : Nat) : Bool := 0xDC00 ≤ unit && unit < 0xE000

/-- The character of a code unit. Half a pair on its own is no character; the one that stands in for
it cannot be written to markup either. -/
def charOfUnit (unit : Nat) : Char :=
  if isHighSurrogate unit || isLowSurrogate unit then Char.ofNat 0xFFFF else Char.ofNat unit

/-- The characters of a list of code units. -/
def charsOfUnits : List Nat → List Char
  | [] => []
  | [unit] => [charOfUnit unit]
  | high :: low :: rest =>
      if isHighSurrogate high && isLowSurrogate low then
        Char.ofNat (0x10000 + (high - 0xD800) * 0x400 + (low - 0xDC00)) :: charsOfUnits rest
      else charOfUnit high :: charsOfUnits (low :: rest)

/-- The text whose opening quote stands before `cs`. -/
def readText (cs : List Char) : Except Stop (String × List Char) := do
  let (units, rest) ← readUnits (cs.length + 1) (cs.length + 1) cs
  return (String.ofList (charsOfUnits units), rest)

/-! ## Numbers -/

def isDigit (c : Char) : Bool := '0' ≤ c && c ≤ '9'

/-- The natural number that the digits denote. -/
def natOfDigits (digits : List Char) : Nat :=
  digits.foldl (fun n c => 10 * n + (c.toNat - 48)) 0

/-- The digits of an integer without sign and what follows; a leading zero stands alone. -/
def integerDigits? : List Char → Option (List Char × List Char)
  | '0' :: rest => some (['0'], rest)
  | cs =>
      match cs.takeWhile isDigit with
      | [] => none
      | digits => some (digits, cs.dropWhile isDigit)

/-- The digits after a decimal point, if a point and a digit come next. -/
def fractionDigits? : List Char → Option (List Char × List Char)
  | '.' :: rest =>
      match rest.takeWhile isDigit with
      | [] => none
      | digits => some (digits, rest.dropWhile isDigit)
  | _ => none

/-- The sign and digits of an exponent, if one comes next. -/
def exponentPart? : List Char → Option (Int × List Char)
  | mark :: rest =>
      if mark = 'e' ∨ mark = 'E' then
        let (negative, rest) := match rest with
          | '-' :: rest => (true, rest)
          | '+' :: rest => (false, rest)
          | rest => (false, rest)
        match rest.takeWhile isDigit with
        | [] => none
        | digits =>
            let power : Int := natOfDigits digits
            some (if negative then -power else power, rest.dropWhile isDigit)
      else none
  | [] => none

/-- The number that begins here; `none` if none does. -/
def readNumber? (cs : List Char) : Option (Except Stop (Json × List Char)) :=
  let (negative, digitsAndRest) := match cs with
    | '-' :: rest => (true, rest)
    | cs => (false, cs)
  match integerDigits? digitsAndRest with
  | none => none
  | some (whole, rest) =>
      let (fraction, afterFraction) := (fractionDigits? rest).getD ([], rest)
      let (power, afterPower) := (exponentPart? afterFraction).getD (0, afterFraction)
      if fraction.isEmpty && (exponentPart? afterFraction).isNone then
        if maxIntegerDigits < whole.length then some (.error (.integerTooLong whole.length))
        else
          let value : Int := natOfDigits whole
          some (.ok (.int (if negative then -value else value), rest))
      else
        let value := Binary64.ofDecimal negative (natOfDigits (whole ++ fraction))
          (power - fraction.length)
        some (.ok (.real value, afterPower))

/-! ## Nesting

Each array and object that is read takes up one level of a stack, which also holds the calls that
led to the reader. -/

/-- How deep arrays and objects may be nested: the 1000 levels of the stack, less those that are
taken up where a document is read. -/
def nestingLimit : Nat := 975

/-- The levels that are left inside an array or an object. -/
def deeper (isArray : Bool) : Nat → Except Stop Nat
  | 0 => .error (.tooDeep isArray)
  | levels + 1 => .ok levels

/-! ## Values -/

/-- The words that stand for a value. -/
def literals : List (List Char × Json) :=
  [("null".toList, null), ("true".toList, bool true), ("false".toList, bool false),
   ("NaN".toList, real .nan), ("Infinity".toList, real (.infinity false)),
   ("-Infinity".toList, real (.infinity true))]

def readScalar (cs : List Char) : Except Stop (Json × List Char) :=
  match literals.find? fun literal => literal.1.isPrefixOf cs with
  | some (word, value) => .ok (value, cs.drop word.length)
  | none =>
      match readNumber? cs with
      | some reading => reading
      | none => stopAt .valueExpected cs

mutual

/-- The value that begins here, without blanks before it. -/
def readValue : Nat → Nat → List Char → Except Stop (Json × List Char)
  | 0, _, cs => stopAt .valueExpected cs
  | fuel + 1, levels, cs =>
      match cs with
      | '"' :: rest => do
          let (text, rest) ← readText rest
          return (.str text, rest)
      | '[' :: rest => do
          let levels ← deeper true levels
          match skipSpace rest with
          | ']' :: rest => return (.arr [], rest)
          | rest =>
              let (items, rest) ← readItems fuel levels rest
              return (.arr items, rest)
      | '{' :: rest => do
          let levels ← deeper false levels
          match skipSpace rest with
          | '}' :: rest => return (.obj [], rest)
          | rest =>
              let (members, rest) ← readMembers fuel levels rest
              return (.obj (setMembers [] members), rest)
      | cs => readScalar cs

/-- The items up to the closing bracket; there is at least one. -/
def readItems : Nat → Nat → List Char → Except Stop (List Json × List Char)
  | 0, _, cs => stopAt .valueExpected cs
  | fuel + 1, levels, cs => do
      let (item, rest) ← readValue fuel levels cs
      match skipSpace rest with
      | ']' :: rest => return ([item], rest)
      | ',' :: rest =>
          let (items, rest) ← readItems fuel levels (skipSpace rest)
          return (item :: items, rest)
      | rest => stopAt .commaExpected rest

/-- The members up to the closing brace, as they are spelled; there is at least one. -/
def readMembers : Nat → Nat → List Char → Except Stop (List (String × Json) × List Char)
  | 0, _, cs => stopAt .nameExpected cs
  | fuel + 1, levels, cs =>
      match cs with
      | '"' :: rest => do
          let (name, rest) ← readText rest
          match skipSpace rest with
          | ':' :: rest =>
              let (value, rest) ← readValue fuel levels (skipSpace rest)
              match skipSpace rest with
              | '}' :: rest => return ([(name, value)], rest)
              | ',' :: rest =>
                  let (members, rest) ← readMembers fuel levels (skipSpace rest)
                  return ((name, value) :: members, rest)
              | rest => stopAt .commaExpected rest
          | rest => stopAt .colonExpected rest
      | cs => stopAt .nameExpected cs

end

/-- The document that makes up a whole text. A level of nesting takes two steps. -/
def readDocument (cs : List Char) : Except Stop Json := do
  let (value, rest) ← readValue (2 * cs.length + 2) nestingLimit (skipSpace cs)
  match skipSpace rest with
  | [] => return value
  | rest => .error (.problem .extraData rest.length)

/-! ## Positions -/

/-- The position that has `left` characters of `cs` after it. -/
def locate (cs : List Char) (problem : Problem) (left : Nat) : ReadError :=
  let before := cs.take (cs.length - left)
  .malformed problem (before.count '\n' + 1)
    ((before.reverse.takeWhile (· != '\n')).length + 1) before.length

/-- The document of a decoded text, in which no mark has a meaning of its own. -/
def readDecoded (s : String) : Except ReadError Json :=
  match readDocument s.toList with
  | .ok value => .ok value
  | .error (.problem problem left) => .error (locate s.toList problem left)
  | .error (.integerTooLong digits) => .error (.integerTooLong digits)
  | .error (.tooDeep isArray) => .error (.tooDeep isArray)

/-- **The document of a text.** A byte order mark shows that the text was decoded wrongly. -/
def read (s : String) : Except ReadError Json :=
  match s.toList with
  | '\uFEFF' :: _ => .error (locate s.toList .byteOrderMark s.toList.length)
  | _ => readDecoded s

end Json

end OscalValidation

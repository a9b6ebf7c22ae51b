import OscalValidation.Text.Encoding
import OscalValidation.Xml.Char

set_option autoImplicit false

/-! # Scanning markup

A scanner goes through the characters of a document and counts the lines it passes; only
line feeds end a line. It either takes what it looks for or fails, and nothing is told about
a failure: a document is well-formed or it is not.
-/

namespace OscalValidation.Xml

/-- Where a scanner stands. -/
structure Cursor where
  /-- The characters that are still to be read. -/
  rest : List Char
  /-- The line of the next character. -/
  line : Nat

/-- **A scanner** of some piece of markup. -/
abbrev Scanner (α : Type) := StateT Cursor Option α

namespace Scanner

def fail {α : Type} : Scanner α := fun _ => none

/-- Continues only if the condition holds. -/
def require (condition : Bool) : Scanner Unit := if condition then pure () else fail

/-- The characters that are still to be read. -/
def rest : Scanner (List Char) := fun cursor => some (cursor.rest, cursor)

/-- The line of the next character. -/
def line : Scanner Nat := fun cursor => some (cursor.line, cursor)

/-- Passes over the first `count` characters. -/
def advance (count : Nat) : Scanner Unit := fun cursor =>
  some ((), ⟨cursor.rest.drop count, cursor.line + (cursor.rest.take count).count '\n'⟩)

def sees (text : String) : Scanner Bool := do
  return text.toList.isPrefixOf (← rest)

/-- Takes the text if it comes next, and tells whether it did. -/
def accept (text : String) : Scanner Bool := do
  if ← sees text then
    advance text.length
    return true
  else return false

/-- Takes the text, which must come next. -/
def expect (text : String) : Scanner Unit := do require (← accept text)

/-- Takes the characters of a class. -/
def takeWhile (p : Char → Bool) : Scanner (List Char) := do
  let taken := (← rest).takeWhile p
  advance taken.length
  return taken

/-- Takes blanks, and tells whether there were any. -/
def space : Scanner Bool := do return !(← takeWhile isSpace).isEmpty

/-- Takes blanks, of which there must be some. -/
def someSpace : Scanner Unit := do require (← space)

/-- The characters before the first occurrence of `mark`, if it occurs. -/
def beforeMark? (mark : List Char) : List Char → Option (List Char)
  | [] => none
  | c :: cs => if mark.isPrefixOf (c :: cs) then some [] else (beforeMark? mark cs).map (c :: ·)

/-- Takes everything before the text `mark`, and the mark. -/
def through (mark : String) : Scanner (List Char) := do
  match beforeMark? mark.toList (← rest) with
  | some taken =>
      advance (taken.length + mark.length)
      return taken
  | none => fail

/-- Takes a name without a colon. -/
def localName : Scanner String := do
  match ← takeWhile isNameChar with
  | [] => fail
  | c :: cs => if isNameStart c then return String.ofList (c :: cs) else fail

/-- Takes a name that may have a prefix. -/
def name : Scanner (Option String × String) := do
  let first ← localName
  if ← accept ":" then
    let second ← localName
    return (some first, second)
  else return (none, first)

/-- Takes a text in quotes, with nothing in it replaced. -/
def quoted : Scanner (List Char) := do
  if ← accept "\"" then through "\""
  else
    expect "'"
    through "'"

/-- Scans another text as a whole, and goes on where it was. -/
def whole {α : Type} (text : List Char) (scanner : Scanner α) : Scanner α := fun cursor =>
  match scanner ⟨text, cursor.line⟩ with
  | some (a, ⟨[], _⟩) => some (a, cursor)
  | _ => none

end Scanner

/-! ## References -/

/-- The character of a reference by number, decimal or hexadecimal. -/
def charOfNumber? (hexadecimal : Bool) (digits : List Char) : Option Char :=
  let digit? (c : Char) : Option Nat :=
    if '0' ≤ c ∧ c ≤ '9' then some (c.toNat - 48)
    else if hexadecimal = true ∧ 'a' ≤ c ∧ c ≤ 'f' then some (c.toNat - 87)
    else if hexadecimal = true ∧ 'A' ≤ c ∧ c ≤ 'F' then some (c.toNat - 55)
    else none
  match digits with
  | [] => none
  | digits => do
      let code ← digits.foldlM (fun n c => do
        let d ← digit? c
        return min (n * (if hexadecimal then 16 else 10) + d) 0x110000) 0
      let c := Char.ofNat code
      if code = c.toNat ∧ isChar c = true ∧ code ≠ 0 then some c else none

/-- The characters that have a name everywhere. -/
def predefined : List (String × Char) :=
  [("lt", '<'), ("gt", '>'), ("amp", '&'), ("apos", '\''), ("quot", '"')]

/-- What an ampersand introduces. -/
inductive Reference
  /-- A character, by its number or a name that is defined everywhere. -/
  | char (c : Char)
  | entity (name : String)

/-- The reference at the start of the characters, whose ampersand is taken, and what follows
it. -/
def readReference? (cs : List Char) : Option (Reference × List Char) :=
  match Scanner.beforeMark? [';'] cs with
  | none => none
  | some body =>
      let rest := cs.drop (body.length + 1)
      match body with
      | '#' :: 'x' :: digits => (charOfNumber? true digits).map fun c => (.char c, rest)
      | '#' :: digits => (charOfNumber? false digits).map fun c => (.char c, rest)
      | body =>
          let name := String.ofList body
          match predefined.lookup name with
          | some c => some (.char c, rest)
          | none =>
              if isNameStart (body.headD '#') && body.all (fun c => isNameChar c || c == ':') then
                some (.entity name, rest)
              else none

/-! ## Entities -/

/-- What an entity stands for. -/
inductive EntityValue
  /-- A text that is given in the document. -/
  | internal (text : List Char)
  | external
  /-- A resource that is not markup. -/
  | unparsed

/-- The entities of a document. -/
structure Entities where
  /-- The entities for content, by name; the first declaration of a name counts. -/
  general : List (String × EntityValue)
  parameter : List (String × EntityValue)
  /-- Declarations may stand outside of the document, so a name without one is no fault. -/
  incomplete : Bool

def Entities.none : Entities := ⟨[], [], false⟩

/-- The text of an attribute, written with references. Blanks become spaces; a declared entity
is replaced by its text, in which no markup may begin. The flag tells whether there was such
an entity. The bound limits the steps. -/
def expandValue (entities : Entities) : Nat → List Char → Option (List Char × Bool)
  | 0, _ => Option.none
  | _, [] => some ([], false)
  | bound + 1, '&' :: rest => do
      let (reference, rest) ← readReference? rest
      let (after, used) ← expandValue entities bound rest
      match reference with
      | .char c => return (c :: after, used)
      | .entity name =>
          match entities.general.lookup name with
          | some (.internal text) =>
              let (inner, _) ← expandValue entities bound text
              return (inner ++ after, true)
          | some _ => Option.none
          | Option.none => if entities.incomplete then return (after, used) else Option.none
  | bound + 1, '\r' :: '\n' :: rest => do
      let (after, used) ← expandValue entities bound rest
      return (' ' :: after, used)
  | bound + 1, c :: rest => do
      if c == '<' || !isChar c then Option.none
      else
        let (after, used) ← expandValue entities bound rest
        return ((if isSpace c then ' ' else c) :: after, used)

/-- The text that an entity is declared to stand for: references to characters are replaced,
references to entities stay. References to entities for declarations have no place here. -/
def entityText : Nat → List Char → Option (List Char)
  | 0, _ => Option.none
  | _, [] => some []
  | bound + 1, '&' :: rest =>
      match rest with
      | '#' :: _ => do
          let (reference, rest) ← readReference? rest
          let after ← entityText bound rest
          match reference with
          | .char c => return c :: after
          | .entity _ => Option.none
      | _ => do
          let _ ← readReference? rest
          let after ← entityText bound rest
          return '&' :: after
  | _ + 1, '%' :: _ => Option.none
  | bound + 1, c :: rest => if isChar c then (entityText bound rest).map (c :: ·) else Option.none

end OscalValidation.Xml

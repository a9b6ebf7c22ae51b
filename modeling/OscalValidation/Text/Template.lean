import OscalValidation.Decimal.Power
import OscalValidation.Text.Quoted
import OscalValidation.Text.WordCharacter

set_option autoImplicit false

/-! # Templates

A template is a text with fields in braces. A field names a value, may choose a character of
it, may ask for its quoted form, and may give a layout: fill, alignment, width and precision.
A brace that is text is written twice.
-/

namespace OscalValidation.Text

/-! ## Faults -/

/-- How a template breaks the form of templates. -/
inductive TemplateProblem
  | singleOpening
  | singleClosing
  | openingInName
  | unclosedName
  | noConversion
  | afterConversion
  | unclosedLayout
  | tooManyDigits
  | emptyAttribute
  | afterBracket
  | unknownConversion (c : Char)
  | tooDeep
  | bothSeparators
  | noPrecision
  | badLayout (layout : String)
  | separator (mark : Char) (kind : Char)
  | unknownKind (kind : Char)
  | sign
  | blankSign
  | negativeZero
  | alternate
  | numericAlignment
deriving DecidableEq

/-- **Why a template has no text.** -/
inductive TemplateFault
  /-- A field names a value that is not there. -/
  | unknownValue (name : String)
  /-- A field asks for a value by position; there are none. -/
  | position (index : Nat)
  /-- A field asks for a character that a value does not have. -/
  | noCharacter
  /-- A field asks for a character by something else than a number. -/
  | notANumber
  /-- A field asks for a part that a value does not have. -/
  | noPart (name : String)
  /-- The template breaks the form of templates. -/
  | form (problem : TemplateProblem)
deriving DecidableEq

/-- A character outside of ASCII by its number. -/
def numberedChar (c : Char) : String :=
  "\\x" ++ String.ofList (Nat.toDigits 16 c.toNat)

/-- A character as a message shows it. -/
def shownChar (limit : Nat) (c : Char) : String :=
  if 32 < c.toNat ∧ c.toNat < limit then String.singleton c else numberedChar c

/-- The wording of a problem with the form. -/
def TemplateProblem.message : TemplateProblem → String
  | singleOpening => "Single '\x7b' encountered in format string"
  | singleClosing => "Single '\x7d' encountered in format string"
  | openingInName => "unexpected '\x7b' in field name"
  | unclosedName => "expected '\x7d' before end of string"
  | noConversion => "end of string while looking for conversion specifier"
  | afterConversion => "expected ':' after conversion specifier"
  | unclosedLayout => "unmatched '\x7b' in format spec"
  | tooManyDigits => "Too many decimal digits in format string"
  | emptyAttribute => "Empty attribute in format string"
  | afterBracket => "Only '.' or '[' may follow ']' in format field specifier"
  | unknownConversion c => "Unknown conversion specifier " ++ shownChar 127 c
  | tooDeep => "Max string recursion exceeded"
  | bothSeparators => "Cannot specify both ',' and '_'."
  | noPrecision => "Format specifier missing precision"
  | badLayout layout => s!"Invalid format specifier '{layout}' for object of type 'str'"
  | separator mark kind => s!"Cannot specify '{mark}' with '{shownChar 128 kind}'."
  | unknownKind kind =>
      s!"Unknown format code '{shownChar 128 kind}' for object of type 'str'"
  | sign => "Sign not allowed in string format specifier"
  | blankSign => "Space not allowed in string format specifier"
  | negativeZero => "Negative zero coercion (z) not allowed in string format specifier"
  | alternate => "Alternate form (#) not allowed in string format specifier"
  | numericAlignment => "'=' alignment not allowed in string format specifier"

def TemplateFault.message : TemplateFault → String
  | unknownValue name => quoted name
  | position index => s!"Replacement index {index} out of range for positional args tuple"
  | noCharacter => "string index out of range"
  | notANumber => "string indices must be integers, not 'str'"
  | noPart name => s!"'str' object has no attribute '{name}'"
  | form problem => problem.message

/-! ## Numbers -/

/-- The value of a decimal digit of some script. -/
def decimalValue? (c : Char) : Option Nat :=
  (decimalRanges.find? fun (first, last) => first ≤ c.toNat && c.toNat ≤ last).map
    fun (first, _) => (c.toNat - first) % 10

/-- The bound on numbers in templates. -/
def numberBound : Nat := twoTo 63

/-- The number that digits in front of a text spell, if there are any, and what follows. -/
def leadingNumber (cs : List Char) : Except TemplateFault (Option Nat × List Char) :=
  let digits := (cs.takeWhile isDecimalDigit).filterMap decimalValue?
  let n := digits.foldl (fun n d => n * 10 + d) 0
  if n ≥ numberBound then .error (.form .tooManyDigits)
  else .ok (if digits.isEmpty then none else some n, cs.dropWhile isDecimalDigit)

/-- The number that a whole text spells. -/
def wholeNumber (cs : List Char) : Except TemplateFault (Option Nat) := do
  if cs.all isDecimalDigit then return (← leadingNumber cs).1 else return none

/-! ## Fields -/

/-- **A field:** what it names, which form it asks for, and its layout. -/
structure TemplateField where
  /-- The name, with the parts it chooses. -/
  name : List Char
  conversion : Option Char
  /-- The layout, which may hold fields itself. -/
  layout : List Char
deriving Inhabited

/-- The name at the start of a field and what follows it, its end mark included; a bracket in
it reaches to the next one that closes. -/
def fieldName (inBracket : Bool) : List Char → Except TemplateFault (List Char × List Char)
  | [] => .error (.form .unclosedName)
  | c :: rest =>
      if inBracket then do
        let (name, rest) ← fieldName (c != ']') rest
        return (c :: name, rest)
      else if c = '\x7b' then .error (.form .openingInName)
      else if c = '\x7d' ∨ c = ':' ∨ c = '!' then .ok ([], c :: rest)
      else do
        let (name, rest) ← fieldName (c == '[') rest
        return (c :: name, rest)

/-- The layout up to the brace that closes the field, and what follows it. -/
def fieldLayout (depth : Nat) : List Char → Except TemplateFault (List Char × List Char)
  | [] => .error (.form .unclosedLayout)
  | c :: rest =>
      if c = '\x7d' ∧ depth = 0 then .ok ([], rest)
      else do
        let depth := if c = '\x7b' then depth + 1 else if c = '\x7d' then depth - 1 else depth
        let (layout, rest) ← fieldLayout depth rest
        return (c :: layout, rest)

/-- The field after an opening brace, and what follows it. -/
def field (cs : List Char) : Except TemplateFault (TemplateField × List Char) := do
  let (name, rest) ← fieldName false cs
  match rest with
  | ':' :: rest => do
      let (layout, rest) ← fieldLayout 0 rest
      return (⟨name, none, layout⟩, rest)
  | '!' :: [] => throw (.form .noConversion)
  | '!' :: conversion :: '\x7d' :: rest => return (⟨name, some conversion, []⟩, rest)
  | '!' :: conversion :: ':' :: rest => do
      let (layout, rest) ← fieldLayout 0 rest
      return (⟨name, some conversion, layout⟩, rest)
  | '!' :: _ :: [] => throw (.form .unclosedLayout)
  | '!' :: _ :: _ :: _ => throw (.form .afterConversion)
  | rest => return (⟨name, none, []⟩, rest.drop 1)

/-! ## Values -/

/-- The part of a value that the rest of a field's name chooses. The bound is the number of its
characters. -/
def choose : Nat → String → List Char → Except TemplateFault String
  | 0, value, _ | _, value, [] => .ok value
  | bound + 1, value, '[' :: rest => do
      let inside := rest.takeWhile (· != ']')
      let index ← wholeNumber inside
      if inside.isEmpty then throw (.form .emptyAttribute)
      match index with
      | none => throw .notANumber
      | some index =>
          match value.toList[index]? with
          | some c => choose bound (String.singleton c) ((rest.dropWhile (· != ']')).drop 1)
          | none => throw .noCharacter
  | _ + 1, _, '.' :: rest =>
      match rest.takeWhile fun c => c != '.' && c != '[' with
      | [] => .error (.form .emptyAttribute)
      | name => .error (.noPart (String.ofList name))
  | _ + 1, _, _ :: _ => .error (.form .afterBracket)

/-- The value that a field's name stands for. -/
def valueOf (values : List (String × String)) (name : List Char) :
    Except TemplateFault String := do
  let first := name.takeWhile fun c => c != '.' && c != '['
  let rest := name.dropWhile fun c => c != '.' && c != '['
  if first.isEmpty then throw (.position 0)
  match ← wholeNumber first with
  | some index => throw (.position index)
  | none =>
      match values.lookup (String.ofList first) with
      | some value => choose rest.length value rest
      | none => throw (.unknownValue (String.ofList first))

/-- A character of the quoted form without characters outside of ASCII. -/
def asciiChar (c : Char) : List Char :=
  if c.toNat < 128 then [c]
  else if c.toNat < 256 then '\\' :: 'x' :: hexDigits 2 c.toNat
  else if c.toNat < 0x10000 then '\\' :: 'u' :: hexDigits 4 c.toNat
  else '\\' :: 'U' :: hexDigits 8 c.toNat

/-- The form of a value that a field asks for. -/
def convert (value : String) : Option Char → Except TemplateFault String
  | none | some 's' => .ok value
  | some 'r' => .ok (quoted value)
  | some 'a' => .ok (String.ofList ((quoted value).toList.flatMap asciiChar))
  | some c => .error (.form (.unknownConversion c))

/-! ## Layouts -/

/-- How a value stands in its width. -/
inductive Alignment
  | left
  | right
  | center
  | numeric
deriving DecidableEq

def Alignment.ofChar? : Char → Option Alignment
  | '<' => some .left
  | '>' => some .right
  | '^' => some .center
  | '=' => some .numeric
  | _ => none

/-- The fill and the alignment at the start of a layout. -/
def fillAndAlignment (cs : List Char) : Option Char × Option Alignment × List Char :=
  match cs with
  | fill :: mark :: rest =>
      match Alignment.ofChar? mark, Alignment.ofChar? fill with
      | some alignment, _ => (some fill, some alignment, rest)
      | none, some alignment => (none, some alignment, mark :: rest)
      | none, none => (none, none, cs)
  | [mark] =>
      match Alignment.ofChar? mark with
      | some alignment => (none, some alignment, [])
      | none => (none, none, cs)
  | [] => (none, none, [])

/-- The mark that a layout begins with, if it is one of those given. -/
def mark? (marks : List Char) : List Char → Option Char × List Char
  | c :: rest => if marks.contains c then (some c, rest) else (none, c :: rest)
  | [] => (none, [])

/-- The separator of digits that a layout asks for. -/
def digitSeparator (cs : List Char) : Except TemplateFault (Option Char × List Char) :=
  let (comma, cs) := mark? [','] cs
  match comma, mark? ['_'] cs with
  | some _, (some _, _) => .error (.form .bothSeparators)
  | none, (some _, ',' :: _) => .error (.form .bothSeparators)
  | none, (some mark, rest) => .ok (some mark, rest)
  | comma, (none, rest) => .ok (comma, rest)

def precision : List Char → Except TemplateFault (Option Nat × List Char)
  | '.' :: rest => do
      match ← leadingNumber rest with
      | (none, _) => throw (.form .noPrecision)
      | (some n, rest) => return (some n, rest)
  | cs => .ok (none, cs)

/-- The kinds of values for which digits may be separated by a mark. -/
def separates (mark kind : Char) : Bool :=
  "deEfFgG%".toList.contains kind || (mark == '_' && "boxX".toList.contains kind)

/-- **A value in its layout:** cut to the precision and filled up to the width. -/
def layOut (value : String) (layout : List Char) : Except TemplateFault String := do
  if layout.isEmpty then return value
  let (fill, alignment, cs) := fillAndAlignment layout
  let (sign, cs) := mark? [' ', '+', '-'] cs
  let (negativeZero, cs) := mark? ['z'] cs
  let (alternate, cs) := mark? ['#'] cs
  let (fill, cs) := match fill, cs with
    | none, '0' :: rest => (some '0', rest)
    | fill, cs => (fill, cs)
  let (width, cs) ← leadingNumber cs
  let (separator, cs) ← digitSeparator cs
  let (most, cs) ← precision cs
  let kind ← match cs with
    | [] => pure 's'
    | [kind] => pure kind
    | _ => throw (.form (.badLayout (String.ofList layout)))
  match separator with
  | some mark => if !separates mark kind then throw (.form (.separator mark kind))
  | none => pure ()
  if kind ≠ 's' then throw (.form (.unknownKind kind))
  match sign with
  | some ' ' => throw (.form .blankSign)
  | some _ => throw (.form .sign)
  | none => pure ()
  if negativeZero.isSome then throw (.form .negativeZero)
  if alternate.isSome then throw (.form .alternate)
  if alignment = some .numeric then throw (.form .numericAlignment)
  let shown := match most with
    | some n => value.toList.take n
    | none => value.toList
  let padding := width.getD 0 - shown.length
  let before := match alignment with
    | some .right => padding
    | some .center => padding / 2
    | _ => 0
  let filler := fill.getD ' '
  return String.ofList
    (List.replicate before filler ++ shown ++ List.replicate (padding - before) filler)

/-! ## Templates -/

/-- The text of a template. Fields in layouts are filled in first; the first bound limits how
deep they may lie, the second is above the number of characters. -/
def expandTemplate (values : List (String × String)) :
    Nat → Nat → List Char → Except TemplateFault (List Char)
  | 0, _, _ => .error (.form .tooDeep)
  | _, 0, _ | _, _, [] => .ok []
  | depth + 1, bound + 1, '\x7b' :: '\x7b' :: rest => do
      return '\x7b' :: (← expandTemplate values (depth + 1) bound rest)
  | depth + 1, bound + 1, '\x7d' :: '\x7d' :: rest => do
      return '\x7d' :: (← expandTemplate values (depth + 1) bound rest)
  | _ + 1, _ + 1, '\x7d' :: _ => .error (.form .singleClosing)
  | _ + 1, _ + 1, ['\x7b'] => .error (.form .singleOpening)
  | depth + 1, bound + 1, '\x7b' :: rest => do
      let (f, rest) ← field rest
      let value ← convert (← valueOf values f.name) f.conversion
      let layout ←
        if f.layout.contains '\x7b' then expandTemplate values depth bound f.layout
        else pure f.layout
      let shown ← layOut value layout
      return shown.toList ++ (← expandTemplate values (depth + 1) bound rest)
  | depth + 1, bound + 1, c :: rest => do
      return c :: (← expandTemplate values (depth + 1) bound rest)

/-- How deep fields may lie in the layouts of fields. -/
def templateDepth : Nat := 2

/-- **The text of a template** with its fields filled in. -/
def fillTemplate (template : String) (values : List (String × String)) :
    Except TemplateFault String := do
  return String.ofList
    (← expandTemplate values templateDepth (template.length + 1) template.toList)

end OscalValidation.Text

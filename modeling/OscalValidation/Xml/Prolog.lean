import OscalValidation.Xml.Scanner
import OscalValidation.Xml.Tree
import OscalValidation.Xml.Uri

set_option autoImplicit false

/-! # What stands before the root

A document may open with a declaration of itself, and its type may declare entities and the
attributes of elements. Of the other declarations only their form matters. Comments and
instructions stand there as they do anywhere else.
-/

namespace OscalValidation.Xml

open Scanner

/-! ## Comments and instructions -/

/-- The text with every line end made a line feed, if all its characters are allowed. -/
def cleanText (cs : List Char) : Scanner (List Char) := do
  require (cs.all isChar)
  return Text.uniformLines cs

/-- The rest of a comment whose opening is taken. -/
def comment : Scanner Node := do
  let content ← through "--"
  expect ">"
  let text ← cleanText content
  return .comment (String.ofList text) (some (← line))

/-- The rest of an instruction whose opening is taken. -/
def instruction : Scanner Node := do
  let target ← localName
  require (target.toLower != "xml")
  if ← accept "?>" then return .instruction target "" (some (← line))
  else
    someSpace
    let content ← through "?>"
    let text ← cleanText content
    return .instruction target (String.ofList text) (some (← line))

/-- Comments, instructions and blanks in a row. -/
def miscellany : Nat → Scanner (List Node)
  | 0 => return []
  | bound + 1 => do
      let _ ← space
      if ← accept "<!--" then
        let node ← comment
        return node :: (← miscellany bound)
      else if ← accept "<?" then
        let node ← instruction
        return node :: (← miscellany bound)
      else return []

/-! ## Declarations -/

/-- What is declared of an attribute. -/
structure AttributeDeclaration where
  element : Option String × String
  name : Option String × String
  /-- The value is made of names, so blanks around and between them do not count. -/
  ofNames : Bool
  /-- The value where the attribute is not written, and whether it was declared with a
  reference to an entity. -/
  value : Option (String × Bool)

/-- **What is declared before the root.** -/
structure Prolog where
  entities : Entities
  /-- The attributes; the first declaration of an attribute counts. -/
  attributes : List AttributeDeclaration

def Prolog.empty : Prolog := ⟨Entities.none, []⟩

/-- The declaration of an attribute of an element. -/
def Prolog.attribute? (prolog : Prolog) (element name : Option String × String) :
    Option AttributeDeclaration :=
  prolog.attributes.find? fun a => a.element == element && a.name == name

/-- The declarations with one of an attribute, unless it is declared already. -/
def Prolog.declare (prolog : Prolog) (a : AttributeDeclaration) : Prolog :=
  if (prolog.attribute? a.element a.name).isSome then prolog
  else { prolog with attributes := prolog.attributes ++ [a] }

/-- The text without blanks around it and with one blank between its parts. -/
def joinNames (cs : List Char) : List Char :=
  let parts := (cs.splitBy fun a b => (a == ' ') == (b == ' ')).filter (·.head? != some ' ')
  [' '].intercalate parts

/-- The character may stand in a public identifier. -/
def isPublicChar (c : Char) : Bool :=
  c.isAlphanum || " \r\n-'()+,./:=?;!*#@$_%".toList.contains c

def publicId : Scanner Unit := do require ((← quoted).all isPublicChar)

/-- The name of a resource in quotes, which leads to no part of it. -/
def systemId : Scanner Unit := do
  let uri ← quoted
  require (Uri.isReference (String.ofList uri) && !uri.contains '#')

/-- An identifier of a resource outside: a system identifier, with a public one before it where
that keyword comes first. -/
def externalId : Scanner Bool := do
  if ← accept "SYSTEM" then
    someSpace
    systemId
    return true
  else if ← accept "PUBLIC" then
    someSpace
    publicId
    someSpace
    systemId
    return true
  else return false

/-- The rest of the declaration of an entity. -/
def entityDeclaration (entities : Entities) : Scanner Entities := do
  someSpace
  let isParameter ← accept "%"
  if isParameter then someSpace
  let name ← localName
  someSpace
  let value ← if ← externalId then
      let blank ← space
      if blank && !isParameter && (← accept "NDATA") then
        someSpace
        let _ ← localName
        pure EntityValue.unparsed
      else pure EntityValue.external
    else
      let source ← quoted
      match entityText (source.length + 1) (Text.uniformLines source) with
      | some text => pure (EntityValue.internal text)
      | none => fail
  let _ ← space
  expect ">"
  let add (table : List (String × EntityValue)) :=
    if (table.lookup name).isSome then table else table ++ [(name, value)]
  if isParameter then return { entities with parameter := add entities.parameter }
  else if (predefined.lookup name).isSome then return entities
  else return { entities with general := add entities.general }

/-- Takes the first text of a list that comes next, and tells whether there was one. -/
def acceptOne : List String → Scanner Bool
  | [] => return false
  | text :: rest => do
      if ← accept text then return true else acceptOne rest

/-- A mark that tells how often something occurs, if one comes next. -/
def occurrence : Scanner Unit := do
  let _ ← acceptOne ["?", "*", "+"]

/-- The particles of a group up to its end. Those of one group have one mark between them, a
bar or a comma, and a group may hold further groups. -/
def particles : Nat → Option String → Scanner Unit
  | 0, _ => fail
  | bound + 1, mark => do
      let _ ← space
      if ← accept "(" then particles bound none
      else
        let _ ← Scanner.name
      occurrence
      let _ ← space
      if ← accept ")" then return ()
      else match mark with
        | some text =>
            expect text
            particles bound mark
        | none =>
            if ← accept "|" then particles bound (some "|")
            else
              expect ","
              particles bound (some ",")

/-- Names after bars, up to the end of a group that repeats. -/
def mixedNames : Nat → Scanner Unit
  | 0 => fail
  | bound + 1 => do
      if ← accept ")*" then return ()
      else
        expect "|"
        let _ ← space
        let _ ← Scanner.name
        let _ ← space
        mixedNames bound

/-- The rest of the declaration of an element. -/
def elementDeclaration (bound : Nat) : Scanner Unit := do
  someSpace
  let _ ← Scanner.name
  someSpace
  if ← acceptOne ["EMPTY", "ANY"] then pure ()
  else
    expect "("
    let _ ← space
    if ← accept "#PCDATA" then
      let _ ← space
      if ← accept ")" then
        let _ ← accept "*"
      else mixedNames bound
    else
      particles bound none
      occurrence
  let _ ← space
  expect ">"

/-- Texts of a class with bars between them, up to the end of a group. -/
def choices (p : Char → Bool) : Nat → Scanner Unit
  | 0 => fail
  | bound + 1 => do
      let _ ← space
      let text ← takeWhile p
      require (!text.isEmpty)
      let _ ← space
      if ← accept ")" then return ()
      else
        expect "|"
        choices p bound

/-- The keywords of the types of attributes that are made of names. -/
def nameTypes : List String :=
  ["IDREFS", "IDREF", "ID", "ENTITIES", "ENTITY", "NMTOKENS", "NMTOKEN"]

/-- The type of an attribute: whether it is made of names. -/
def attributeType (bound : Nat) : Scanner Bool := do
  let ofName (c : Char) : Bool := isNameChar c || c == ':'
  if ← accept "CDATA" then return false
  else if ← accept "(" then
    choices ofName bound
    return true
  else if ← accept "NOTATION" then
    someSpace
    expect "("
    choices ofName bound
    return true
  else
    require (← acceptOne nameTypes)
    return true

/-- What stands for an attribute that is not written. -/
def attributeValue (entities : Entities) (ofNames : Bool) :
    Scanner (Option (String × Bool)) := do
  if ← acceptOne ["#REQUIRED", "#IMPLIED"] then return none
  else
    if ← accept "#FIXED" then someSpace
    let source ← quoted
    match expandValue entities (64 * source.length + 4096) source with
    | some (value, used) =>
        return some (String.ofList (if ofNames then joinNames value else value), used)
    | none => fail

/-- The rest of the declaration of the attributes of an element, whose name is taken. -/
def attributeDeclarations (element : Option String × String) :
    Nat → Prolog → Scanner Prolog
  | 0, _ => fail
  | bound + 1, prolog => do
      let blank ← space
      if ← accept ">" then return prolog
      else
        require blank
        let name ← Scanner.name
        someSpace
        let ofNames ← attributeType bound
        someSpace
        let value ← attributeValue prolog.entities ofNames
        attributeDeclarations element bound (prolog.declare ⟨element, name, ofNames, value⟩)

/-- The rest of the declaration of a notation. -/
def notationDeclaration : Scanner Unit := do
  someSpace
  let _ ← localName
  someSpace
  if ← accept "SYSTEM" then
    someSpace
    let _ ← quoted
  else
    expect "PUBLIC"
    someSpace
    publicId
    let blank ← space
    if blank && !(← sees ">") then
      let _ ← quoted
  let _ ← space
  expect ">"

/-- The declarations in a row, up to something else. -/
def declarations : Nat → Prolog → Scanner Prolog
  | 0, _ => fail
  | bound + 1, prolog => do
      let _ ← space
      if ← accept "<!ENTITY" then
        declarations bound { prolog with entities := ← entityDeclaration prolog.entities }
      else if ← accept "<!ELEMENT" then
        elementDeclaration bound
        declarations bound prolog
      else if ← accept "<!ATTLIST" then
        someSpace
        let element ← Scanner.name
        declarations bound (← attributeDeclarations element bound prolog)
      else if ← accept "<!NOTATION" then
        notationDeclaration
        declarations bound prolog
      else if ← accept "<!--" then
        let _ ← comment
        declarations bound prolog
      else if ← accept "<?" then
        let _ ← instruction
        declarations bound prolog
      else if ← accept "%" then
        let name ← localName
        expect ";"
        let prolog := { prolog with entities := { prolog.entities with incomplete := true } }
        match prolog.entities.parameter.lookup name with
        | some (.internal text) =>
            let prolog ← whole text (declarations bound prolog)
            declarations bound prolog
        | _ => declarations bound prolog
      else return prolog

/-- The declaration of the document's type, if it comes next. -/
def documentType (bound : Nat) (standalone : Bool) : Scanner Prolog := do
  if ← accept "<!DOCTYPE" then
    someSpace
    let _ ← Scanner.name
    let blank ← space
    let outside ← if blank then externalId else pure false
    let _ ← space
    let start : Prolog := ⟨{ Entities.none with incomplete := outside }, []⟩
    let prolog ← if ← accept "[" then
        let prolog ← declarations bound start
        expect "]"
        let _ ← space
        pure prolog
      else pure start
    expect ">"
    let incomplete := prolog.entities.incomplete && !standalone
    return { prolog with entities := { prolog.entities with incomplete := incomplete } }
  else return Prolog.empty

/-! ## The opening -/

/-- A setting of the declaration that opens a document, if it comes next after a blank. -/
def setting? (name : String) : Scanner (Option String) := do
  let cursor ← get
  let blank ← space
  if blank && (← accept name) then
    let _ ← space
    expect "="
    let _ ← space
    return some (String.ofList (← quoted))
  else
    set cursor
    return none

/-- The text is the name of an encoding. -/
def isEncodingName (name : String) : Bool :=
  match name.toList with
  | [] => false
  | c :: rest => c.isAlpha && rest.all fun c => c.isAlphanum || c == '.' || c == '_' || c == '-'

/-- The text is a version that can be read. -/
def isVersion (version : String) : Bool :=
  match version.toList with
  | '1' :: '.' :: digits => digits.all Char.isDigit
  | _ => false

/-- The declaration that opens a document, if there is one: whether the document stands
alone. -/
def opening : Scanner Bool := do
  if ← sees "<?xml" then
    let next := (← rest).drop 5
    if isSpace (next.headD 'x') then
      advance 5
      match ← setting? "version" with
      | none => fail
      | some version =>
          require (isVersion version)
          let encoding ← setting? "encoding"
          require (encoding.all isEncodingName)
          let standalone ← setting? "standalone"
          require (standalone.all fun s => s == "yes" || s == "no")
          let _ ← space
          expect "?>"
          return standalone == some "yes"
    else return false
  else return false

end OscalValidation.Xml

import OscalValidation.Xml.Prolog

set_option autoImplicit false

/-! # Reading structural documents

A text is a structural document if it is well-formed markup and every prefix in it is
declared. References to characters are replaced everywhere, references to declared entities
only in attributes: in content they stay as nodes of their own. The namespaces in scope are a
list of declarations, the innermost first.

The functions that follow the nesting of elements take a bound on their steps. It is computed
from the length of the text and is never met by a well-formed one.
-/

namespace OscalValidation.Xml

open Text (Bytes)

/-! ## Namespaces -/

/-- The namespace of the prefix that is declared everywhere. -/
def xmlNamespace : String := "http://www.w3.org/XML/1998/namespace"

/-- The namespace that no prefix may stand for. -/
def xmlnsNamespace : String := "http://www.w3.org/2000/xmlns/"

/-- Declared prefixes with their namespaces, the innermost first. -/
abbrev Scope := List (Option String × String)

/-- The namespace of an element's name: `none` if its prefix is not declared. -/
def elementNamespace? (scope : Scope) : Option String → Option (Option String)
  | some "xml" => some (some xmlNamespace)
  | some p => (scope.lookup (some p)).map some
  | none => match scope.lookup none with
      | some "" | none => some none
      | some uri => some (some uri)

/-- The namespace of an attribute's name: `none` if its prefix is not declared. -/
def attributeNamespace? (scope : Scope) : Option String → Option (Option String)
  | none => some none
  | some p => elementNamespace? scope (some p)

/-- An attribute as it is written. -/
structure WrittenAttribute where
  /-- The prefix and the local name. -/
  name : Option String × String
  /-- The value, with all references replaced. -/
  value : String
  /-- The value was written with a reference to a declared entity. -/
  usesEntity : Bool

/-- The declaration that an attribute makes, if it is one; it may be one that has no place in
any document. -/
def declarationOf? (a : WrittenAttribute) : Option Declaration :=
  match a.name with
  | (none, "xmlns") => some ⟨none, a.value⟩
  | (some "xmlns", p) => some ⟨some p, a.value⟩
  | _ => none

/-- A declaration that may be made. The prefix `xml` may only be given its own namespace. -/
def declarationOk (d : Declaration) : Bool :=
  match d.nsPrefix with
  | some "xml" => d.uri == xmlNamespace
  | some "xmlns" => false
  | some _ =>
      d.uri != "" && d.uri != xmlNamespace && d.uri != xmlnsNamespace && Uri.isReference d.uri
  | none =>
      d.uri == "" || (d.uri != xmlNamespace && d.uri != xmlnsNamespace && Uri.isReference d.uri)

/-- No value occurs twice in the list. -/
def distinct {α : Type} [BEq α] : List α → Bool
  | [] => true
  | a :: rest => !rest.contains a && distinct rest

/-- The tag that a name and attributes make in a scope, and the scope inside it. -/
def makeTag? (scope : Scope) (name : Option String × String) (written : List WrittenAttribute)
    (line : Nat) : Option (Tag × Scope) := do
  let declared := written.filterMap declarationOf?
  let plain := written.filter fun a => (declarationOf? a).isNone
  if !distinct (written.map (·.name)) || !declared.all declarationOk then none
  else
    let declarations := declared.filter fun d => d.nsPrefix != some "xml"
    let inner := declarations.map (fun d => (d.nsPrefix, d.uri)) ++ scope
    let uri ← elementNamespace? inner name.1
    let attributes ← plain.mapM fun a => do
      let uri ← attributeNamespace? inner a.name.1
      return (⟨⟨a.name.1, uri, a.name.2⟩, a.value, a.usesEntity⟩ : Attribute)
    let qualified := attributes.filterMap fun a => a.name.uri.map fun uri => (uri, a.name.localName)
    if distinct qualified then
      return (⟨⟨name.1, uri, name.2⟩, declarations, attributes, some line⟩, inner)
    else none

/-! ## Tags -/

open Scanner

/-- The attributes of a tag up to its end. -/
def attributes (entities : Entities) : Nat → Scanner (List WrittenAttribute)
  | 0 => fail
  | bound + 1 => do
      let blank ← space
      if (← sees ">") || (← sees "/>") then return []
      else
        require blank
        let name ← Scanner.name
        let _ ← space
        expect "="
        let _ ← space
        let source ← quoted
        match expandValue entities (64 * source.length + 4096) source with
        | some (value, used) =>
            let more ← attributes entities bound
            return ⟨name, String.ofList value, used⟩ :: more
        | none => fail

/-- The attributes of an element as they are declared: values made of names without further
blanks, and after those that are written the ones that are not. -/
def Prolog.complete (prolog : Prolog) (element : Option String × String)
    (written : List WrittenAttribute) : List WrittenAttribute :=
  let given := written.map fun a =>
    if (prolog.attribute? element a.name).any (·.ofNames) then
      { a with value := String.ofList (joinNames a.value.toList) }
    else a
  given ++ prolog.attributes.filterMap fun d =>
    if d.element == element && written.all (·.name != d.name) then
      d.value.map fun (value, usesEntity) => ⟨d.name, value, usesEntity⟩
    else none

/-! ## Content -/

mutual

/-- An element whose opening bracket is taken. -/
def element (prolog : Prolog) : Nat → Scope → Scanner Node
  | 0, _ => fail
  | bound + 1, scope => do
      let name ← Scanner.name
      let written ← attributes prolog.entities bound
      let line ← Scanner.line
      match makeTag? scope name (prolog.complete name written) line with
      | none => fail
      | some (tag, inner) =>
          if ← accept "/>" then return .element tag []
          else
            expect ">"
            let children ← content prolog bound inner
            expect "</"
            let closing ← Scanner.name
            require (closing == name)
            let _ ← space
            expect ">"
            return .element tag children

/-- Content up to the end tag around it or the end of the text. -/
def content (prolog : Prolog) : Nat → Scope → Scanner (List Node)
  | 0, _ => fail
  | bound + 1, scope => do
      match ← rest with
      | [] => return []
      | '<' :: '/' :: _ => return []
      | '<' :: _ =>
          if ← accept "<!--" then
            let node ← comment
            return node :: (← content prolog bound scope)
          else if ← accept "<![CDATA[" then
            let text ← cleanText (← through "]]>")
            return consText text (← content prolog bound scope)
          else if ← accept "<?" then
            let node ← instruction
            return node :: (← content prolog bound scope)
          else
            advance 1
            let node ← element prolog bound scope
            return node :: (← content prolog bound scope)
      | '&' :: after =>
          match readReference? after with
          | none => fail
          | some (reference, afterReference) =>
              advance (after.length + 1 - afterReference.length)
              match reference with
              | .char c => return consText [c] (← content prolog bound scope)
              | .entity name =>
                  entityContent prolog bound scope name
                  return .entity name :: (← content prolog bound scope)
      | _ =>
          let text ← takeWhile fun c => c != '<' && c != '&'
          require (beforeMark? "]]>".toList text).isNone
          let text ← cleanText text
          return consText text (← content prolog bound scope)

/-- An entity that content refers to must be declared, and what it stands for must be content
on its own. -/
def entityContent (prolog : Prolog) : Nat → Scope → String → Scanner Unit
  | 0, _, _ => fail
  | bound + 1, scope, name =>
      match prolog.entities.general.lookup name with
      | some (.internal text) => do
          let _ ← whole text (content prolog bound scope)
          return ()
      | some .external => pure ()
      | some .unparsed => fail
      | none => require prolog.entities.incomplete

end

/-! ## Documents -/

def document (bound : Nat) : Scanner Document := do
  let standalone ← opening
  let before ← miscellany bound
  let prolog ← documentType bound standalone
  let before := before ++ (← miscellany bound)
  expect "<"
  let root ← element prolog bound []
  let after ← miscellany bound
  match root, (← rest) with
  | .element tag children, [] => return ⟨before, ⟨tag, children⟩, after⟩
  | _, _ => fail

/-! ## Encodings -/

/-- The encoding that the declaration at the start of the bytes names, in small letters. -/
def declaredEncoding? (bytes : Bytes) : Option String :=
  let start := (bytes.take 1024).map fun b => Char.ofNat b.toNat
  let scan : Scanner (Option String) := do
    expect "<?xml"
    let _ ← setting? "version"
    setting? "encoding"
  match scan ⟨start, 1⟩ with
  | some (some name, _) => some name.toLower
  | _ => none

/-- The text of a document given as bytes. A byte order mark or zero bytes show code units of
two bytes; else the declaration names the encoding, and without one it is UTF-8. -/
def decodeDocument? (bytes : Bytes) : Option String :=
  let text (encoding : Text.Encoding) (bytes : Bytes) : Option String :=
    (Text.decode encoding false bytes).toOption
  let narrow (bytes : Bytes) : Option String :=
    match declaredEncoding? bytes with
    | none | some "utf-8" | some "utf8" => text .utf8 bytes
    | some "iso-8859-1" | some "iso8859-1" | some "latin1" | some "iso-latin-1" =>
        text .latin1 bytes
    | some "us-ascii" | some "ascii" => text .ascii bytes
    | some _ => none
  match bytes with
  | 0xFF :: 0xFE :: rest => text (.utf16 false) rest
  | 0xFE :: 0xFF :: rest => text (.utf16 true) rest
  | 0x3C :: 0x00 :: 0x3F :: 0x00 :: _ => text (.utf16 false) bytes
  | 0x00 :: 0x3C :: 0x00 :: 0x3F :: _ => text (.utf16 true) bytes
  | 0xEF :: 0xBB :: 0xBF :: rest => narrow rest
  | _ => narrow bytes

/-- What is told about a text that is no document. -/
def syntaxFault : String := "<xml-syntax-error>"

/-- The document of a text, if it is one. -/
def read? (s : String) : Option Document :=
  (document (10 * s.length + 100) ⟨s.toList, 1⟩).map (·.1)

/-- **The document that bytes hold,** if they hold one. -/
def readBytes? (bytes : Bytes) : Option Document := (decodeDocument? bytes).bind read?

end OscalValidation.Xml

import OscalValidation.XPath.Query

set_option autoImplicit false

/-! # Stylesheets

A stylesheet is a program that makes one document out of another. It consists of instructions,
which select nodes of the document and produce elements, attributes and text.
-/

namespace OscalValidation.Stylesheet

open XPath (Query ValueTemplate Prefixes)

/-- **An instruction.** -/
inductive Instruction
  | text (content : String)
  | element (name : Xml.Name) (attributes : List (Xml.Name × ValueTemplate))
      (body : List Instruction)
  /-- Produces an attribute of the element around it. -/
  | attributeNode (name : ValueTemplate) (prefixes : Prefixes) (body : List Instruction)
  /-- Produces the value of a query as text. -/
  | valueOf (query : Query)
  /-- Runs its body at each node. -/
  | forEach (query : Query) (body : List Instruction)
  /-- Runs one body or the other. -/
  | branch (test : Query) (body otherwise : List Instruction)
  /-- Gives a variable a value for the instructions that follow: that of a query, else what the
  body produces. -/
  | define (name : String) (query : Option Query) (body : List Instruction)
  /-- Says something and may stop the program. -/
  | message (stops : Option String) (body : List Instruction)
deriving Inhabited

/-- A variable of the whole stylesheet. -/
structure Global where
  name : String
  /-- A value from outside takes the place of its own. -/
  isParameter : Bool
  query : Option Query
  /-- What produces its value where there is no query. -/
  body : List Instruction

end Stylesheet

/-- **A stylesheet:** its variables, and what is run at the document. -/
structure Stylesheet where
  globals : List Stylesheet.Global
  body : List Stylesheet.Instruction

end OscalValidation

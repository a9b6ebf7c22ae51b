import OscalValidation.Decimal.Binary64

set_option autoImplicit false

/-! # Path expressions

A path expression selects nodes of a document, or computes a truth value, a number or a text
from them. This module holds its abstract form.
-/

namespace OscalValidation.XPath

/-- **The directions** in which a step leads away from a node. -/
inductive Axis
  | child
  | descendant
  | descendantOrSelf
  | parent
  | ancestor
  | ancestorOrSelf
  | following
  | followingSibling
  | preceding
  | precedingSibling
  | attributes
  | namespaces
  | self
deriving DecidableEq, Inhabited

/-- What a step accepts of what lies in its direction. -/
inductive NodeTest
  /-- Every element, or every attribute; with a prefix only those of its namespace. -/
  | anyName (nsPrefix : Option String)
  /-- Elements or attributes of a name. -/
  | name (nsPrefix : Option String) (localName : String)
  | comment
  | text
  /-- Instructions, of a target if one is given. -/
  | instruction (target : Option String)
  | node
deriving DecidableEq, Inhabited

/-- The operators with two operands. -/
inductive Operator
  | or
  | and
  | equal
  | notEqual
  | less
  | lessOrEqual
  | greater
  | greaterOrEqual
  | add
  | subtract
  | multiply
  | divide
  | remainder
  | union
deriving DecidableEq, Inhabited

/-- **A path expression.** -/
inductive Expr
  | literal (content : String)
  | number (value : Binary64)
  | variable (nsPrefix : Option String) (name : String)
  | call (nsPrefix : Option String) (name : String) (arguments : List Expr)
  /-- The number of an expression with an odd number of signs in front. -/
  | negate (operand : Expr)
  /-- The number of an expression with an even number of signs in front. -/
  | positive (operand : Expr)
  /-- Two operands with an operator between them. -/
  | binary (operator : Operator) (left right : Expr)
  | root
  /-- The node that the expression is evaluated at. -/
  | context
  /-- The nodes of an expression that meet a condition. -/
  | filter (source condition : Expr)
  /-- The nodes that a step leads to. -/
  | step (source : Expr) (axis : Axis) (test : NodeTest) (conditions : List Expr)
deriving Inhabited

end OscalValidation.XPath

import OscalValidation.XPath.Eval

set_option autoImplicit false

/-! # Queries

A rule artifact holds its expressions as text, each in the scope of some prefixes. A query is
such an expression, ready to be evaluated; a text can have queries in braces in it.
-/

namespace OscalValidation.XPath

/-- The values of variables, the innermost first. -/
abbrev Variables := List (String × Value)

/-- Prefixes with their namespaces, the innermost first. -/
abbrev Prefixes := List (String × String)

/-- The prefixes in scope inside an element. -/
def Prefixes.inside (outer : Prefixes) (tag : Xml.Tag) : Prefixes :=
  tag.declarations.filterMap (fun d => d.nsPrefix.map fun p => (p, d.uri)) ++ outer

/-- **A query:** an expression with the prefixes that it may use. -/
structure Query where
  expr : Expr
  prefixes : Prefixes
deriving Inhabited

namespace Query

/-- The query that a text spells. -/
def read? (prefixes : Prefixes) (s : String) : Option Query :=
  (Expr.read? s).map fun e => ⟨e, prefixes⟩

/-- The value of a query at a node, which is also the node that `current` means. -/
def value? (query : Query) (bindings : Variables) (ctx : Context) : Option Value :=
  query.expr.eval? ⟨query.prefixes, bindings, some ctx.node⟩ ctx

end Query

/-! ## Texts with queries -/

/-- A piece of a text. -/
inductive Piece
  /-- A piece that stands as it is. -/
  | text (content : String)
  | value (query : Query)
deriving Inhabited

/-- **A text with queries in it.** -/
abbrev ValueTemplate := List Piece

namespace ValueTemplate

/-- The characters before a closing brace that is not between quotation marks, and those after
it; the first argument is the mark that is open. -/
def upToBrace? : Option Char → List Char → Option (List Char × List Char)
  | _, [] => none
  | some mark, c :: rest =>
      (upToBrace? (if c = mark then none else some mark) rest).map fun (inner, after) =>
        (c :: inner, after)
  | none, c :: rest =>
      if c = '\x7d' then some ([], rest)
      else
        (upToBrace? (if c = '\'' ∨ c = '"' then some c else none) rest).map
          fun (inner, after) => (c :: inner, after)

/-- A character in front of pieces. -/
def cons (c : Char) : ValueTemplate → ValueTemplate
  | .text content :: rest => .text (String.ofList [c] ++ content) :: rest
  | pieces => .text (String.ofList [c]) :: pieces

/-- The pieces of characters: a brace that is text is written twice. The bound is the number of
characters. -/
def readWithin? (prefixes : Prefixes) : Nat → List Char → Option ValueTemplate
  | _, [] => some []
  | 0, _ :: _ => none
  | bound + 1, '\x7b' :: '\x7b' :: rest => (readWithin? prefixes bound rest).map (cons '\x7b')
  | bound + 1, '\x7d' :: '\x7d' :: rest => (readWithin? prefixes bound rest).map (cons '\x7d')
  | _, '\x7d' :: _ => none
  | bound + 1, '\x7b' :: rest => do
      let (inner, after) ← upToBrace? none rest
      let query ← Query.read? prefixes (String.ofList inner)
      return .value query :: (← readWithin? prefixes bound after)
  | bound + 1, c :: rest => (readWithin? prefixes bound rest).map (cons c)

/-- **The pieces of a text,** if its braces and the queries between them are in order. -/
def read? (prefixes : Prefixes) (s : String) : Option ValueTemplate :=
  readWithin? prefixes s.toList.length s.toList

/-- The text of a piece at a node. -/
def pieceText? (bindings : Variables) (ctx : Context) : Piece → Option String
  | .text content => some content
  | .value query => (query.value? bindings ctx).map Value.toText

/-- **The text at a node.** -/
def text? (template : ValueTemplate) (bindings : Variables) (ctx : Context) : Option String :=
  (template.mapM (pieceText? bindings ctx)).map String.join

end ValueTemplate

/-! ## Patterns of nodes -/

namespace Expr

/-- The expression leads downwards only, by children, by attributes and by everything below. -/
def isDownward : Expr → Bool
  | .root | .context => true
  | .step source .child _ _ | .step source .attributes _ _ => source.isDownward
  | .step source .descendantOrSelf .node [] => source.isDownward
  | _ => false

/-- The expression can say which nodes are meant: it is the document, or leads downwards and
ends with a child or an attribute, or is a union of such. -/
def isPattern : Expr → Bool
  | .binary .union left right => left.isPattern && right.isPattern
  | .root => true
  | .step source .child _ _ | .step source .attributes _ _ => source.isDownward
  | _ => false

/-- The steps of a pattern use known prefixes only. -/
def hasKnownPrefixes (env : Environment) : Expr → Bool
  | .binary _ left right => left.hasKnownPrefixes env && right.hasKnownPrefixes env
  | .step source axis test _ => (test.accepts? env axis).isSome && source.hasKnownPrefixes env
  | _ => true

end Expr

namespace Query

/-- The query whose text says which nodes are meant, if it can say so. -/
def readPattern? (prefixes : Prefixes) (s : String) : Option Query := do
  let query ← read? prefixes s
  if query.expr.isPattern && query.expr.hasKnownPrefixes ⟨prefixes, [], none⟩ then some query
  else none

/-- **A node is meant by a pattern** if the pattern leads to it from the node itself or from a
node that it lies in. -/
def means? (pattern : Query) (bindings : Variables) (node : Focus) : Option Bool := do
  let found ← (node :: node.ancestors).mapM fun start => do
    let items ← (← pattern.value? bindings ⟨start, 1, 1⟩).nodes?
    return items.any fun item => item.place == node.place
  return found.any id

end Query

end OscalValidation.XPath

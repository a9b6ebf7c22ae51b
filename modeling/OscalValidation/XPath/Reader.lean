import OscalValidation.XPath.Syntax
import OscalValidation.Decimal.Arithmetic
import OscalValidation.Xml.Char

set_option autoImplicit false

/-! # Reading path expressions

The grammar is that of the first edition of the language. Every function takes the characters
that are left and returns those that follow what it read; there is no value where the text
does not follow the grammar. The bound on the depth counts down with every call and is chosen
by `read?` so that no text reaches it.
-/

namespace OscalValidation.XPath

open Xml (isSpace isNameStart isNameChar)

/-! ## Characters -/

def skip (cs : List Char) : List Char := cs.dropWhile isSpace

/-- The characters after a spelling that they begin with. -/
def after? : List Char → List Char → Option (List Char)
  | [], cs => some cs
  | c :: spelling, d :: cs => if c = d then after? spelling cs else none
  | _ :: _, [] => none

def name? : List Char → Option (String × List Char)
  | c :: rest =>
      if isNameStart c then
        some (String.ofList (c :: rest.takeWhile isNameChar), rest.dropWhile isNameChar)
      else none
  | [] => none

/-- A name that may have a prefix. -/
def prefixedName? (cs : List Char) : Option ((Option String × String) × List Char) :=
  match name? cs with
  | none => none
  | some (first, ':' :: rest) =>
      match name? rest with
      | some (second, rest) => some ((some first, second), rest)
      | none => some ((none, first), ':' :: rest)
  | some (first, rest) => some ((none, first), rest)

/-- A text between quotation marks of one kind. -/
def literal? : List Char → Option (String × List Char)
  | q :: rest =>
      if q = '"' ∨ q = '\'' then
        match rest.dropWhile (· != q) with
        | _ :: after => some (String.ofList (rest.takeWhile (· != q)), after)
        | [] => none
      else none
  | [] => none

def digitsValue (cs : List Char) : Nat := cs.foldl (fun n c => n * 10 + (c.toNat - 48)) 0

/-- The value of a whole part, a fraction and an exponent: each is rounded where it joins. -/
def numberValue (whole fraction : List Char) (exponent : Int) : Binary64 :=
  let base := Binary64.ofRatio false (digitsValue whole) 1
  let value :=
    if fraction.isEmpty then base
    else base.add (.ofRatio false (digitsValue fraction) (tenTo fraction.length))
  if exponent = 0 then value
  else value.multiply
    (.ofRatio false (tenTo exponent.toNat) (tenTo (-exponent).toNat))

/-- The exponent of a number, zero if there is none. -/
def exponent (cs : List Char) : Int × List Char :=
  match cs with
  | c :: rest =>
      if c = 'e' ∨ c = 'E' then
        let (negative, rest) := match rest with
          | '-' :: rest => (true, rest)
          | '+' :: rest => (false, rest)
          | rest => (false, rest)
        let n : Int := min (digitsValue (rest.takeWhile Char.isDigit)) 400
        (if negative then -n else n, rest.dropWhile Char.isDigit)
      else (0, cs)
  | [] => (0, [])

def number? (cs : List Char) : Option (Binary64 × List Char) :=
  let whole := cs.takeWhile Char.isDigit
  let rest := cs.dropWhile Char.isDigit
  let (fraction, rest) := match rest with
    | '.' :: rest => (rest.takeWhile Char.isDigit, rest.dropWhile Char.isDigit)
    | rest => ([], rest)
  if whole.isEmpty ∧ fraction.isEmpty then none
  else
    let (power, rest) := exponent rest
    some (numberValue whole fraction power, rest)

/-! ## Words of the language -/

/-- The direction that a word names. -/
def Axis.ofName? : String → Option Axis
  | "ancestor" => some .ancestor
  | "ancestor-or-self" => some .ancestorOrSelf
  | "attribute" => some .attributes
  | "child" => some .child
  | "descendant" => some .descendant
  | "descendant-or-self" => some .descendantOrSelf
  | "following" => some .following
  | "following-sibling" => some .followingSibling
  | "namespace" => some .namespaces
  | "parent" => some .parent
  | "preceding" => some .preceding
  | "preceding-sibling" => some .precedingSibling
  | "self" => some .self
  | _ => none

/-- The words that test for a kind of node. -/
def nodeKinds : List String := ["comment", "node", "processing-instruction", "text"]

/-- The number of levels of binding of the operators other than the union. -/
def levels : Nat := 6

/-- The operators of a level, each with its spelling. -/
def operatorsOf : Nat → List (String × Operator)
  | 0 => [("or", .or)]
  | 1 => [("and", .and)]
  | 2 => [("=", .equal), ("!=", .notEqual)]
  | 3 => [("<=", .lessOrEqual), ("<", .less), (">=", .greaterOrEqual), (">", .greater)]
  | 4 => [("+", .add), ("-", .subtract)]
  | _ => [("*", .multiply), ("div", .divide), ("mod", .remainder)]

/-- The operator of a level that the characters begin with. -/
def operator? (level : Nat) (cs : List Char) : Option (Operator × List Char) :=
  (operatorsOf level).findSome? fun (spelling, operator) =>
    (after? spelling.toList cs).map fun rest => (operator, rest)

/-- Every node below the nodes of an expression, and those nodes. -/
def Expr.andBelow (source : Expr) : Expr := .step source .descendantOrSelf .node []

/-- The signs in front of an operand, and what follows them. -/
def signs : List Char → Nat × List Char
  | '-' :: rest => let (n, after) := signs rest; (n + 1, after)
  | c :: rest => if isSpace c then signs rest else (0, c :: rest)
  | [] => (0, [])

/-- A step along a path may begin with the character right after a slash at the start. -/
def beginsStep (c : Char) : Bool :=
  c.isAlpha || c == '_' || c == '.' || c == '@' || c == '*'

/-- What an operand begins with that is no path. -/
def beginsPrimary : List Char → Bool
  | '.' :: c :: _ => c.isDigit
  | c :: cs =>
      c == '$' || c == '(' || c == '"' || c == '\'' || c.isDigit ||
        (match name? (c :: cs) with
          | some (word, rest) => (skip rest).head? == some '(' && !nodeKinds.contains word
          | none => false)
  | [] => false

/-- The test of a step after its direction. -/
def nodeTest? (cs : List Char) : Option (NodeTest × List Char) :=
  match skip cs with
  | '*' :: rest => some (.anyName none, rest)
  | cs => do
      let (first, rest) ← name? cs
      match skip rest with
      | '(' :: inside =>
          let inside := skip inside
          match first, inside with
          | "comment", ')' :: rest => some (.comment, rest)
          | "text", ')' :: rest => some (.text, rest)
          | "node", ')' :: rest => some (.node, rest)
          | "processing-instruction", ')' :: rest => some (.instruction none, rest)
          | "processing-instruction", inside => do
              let (target, rest) ← literal? inside
              match skip rest with
              | ')' :: rest => some (.instruction (some target), rest)
              | _ => none
          | _, _ => none
      | _ =>
          match rest with
          | ':' :: '*' :: rest => some (.anyName (some first), rest)
          | ':' :: rest => do
              let (second, rest) ← name? rest
              some (.name (some first) second, rest)
          | rest => some (.name none first, rest)

def axis (cs : List Char) : Axis × List Char :=
  match cs with
  | '@' :: rest => (.attributes, rest)
  | _ =>
      match name? cs with
      | none => (.child, cs)
      | some (word, rest) =>
          match Axis.ofName? word, skip rest with
          | some found, ':' :: ':' :: rest => (found, rest)
          | _, _ => (.child, cs)

/-! ## Expressions -/

mutual

/-- An expression of operators that bind as tightly as those of a level, or more tightly. -/
def expression? : Nat → Nat → List Char → Option (Expr × List Char)
  | 0, _, _ => none
  | depth + 1, level, cs =>
      if level < levels then do
        let (first, rest) ← expression? depth (level + 1) cs
        operations? depth level first rest
      else signed? depth cs

/-- What operators of a level make of a first operand. -/
def operations? : Nat → Nat → Expr → List Char → Option (Expr × List Char)
  | 0, _, _, _ => none
  | depth + 1, level, left, cs =>
      match operator? level (skip cs) with
      | none => some (left, skip cs)
      | some (operator, rest) => do
          let (right, rest) ← expression? depth (level + 1) rest
          operations? depth level (.binary operator left right) rest

def signed? : Nat → List Char → Option (Expr × List Char)
  | 0, _ => none
  | depth + 1, cs => do
      let (count, cs) := signs cs
      let (first, rest) ← path? depth cs
      let (operand, rest) ← unions? depth first rest
      if count = 0 then some (operand, rest)
      else if count % 2 = 1 then some (.negate operand, rest)
      else some (.positive operand, rest)

/-- The union of a first path with those that follow. -/
def unions? : Nat → Expr → List Char → Option (Expr × List Char)
  | 0, _, _ => none
  | depth + 1, left, cs =>
      match skip cs with
      | '|' :: rest => do
          let (right, rest) ← path? depth rest
          unions? depth (.binary .union left right) rest
      | cs => some (left, cs)

/-- A path, or another operand with conditions and steps after it. -/
def path? : Nat → List Char → Option (Expr × List Char)
  | 0, _ => none
  | depth + 1, cs =>
      let cs := skip cs
      if beginsPrimary cs then do
        let (primary, rest) ← primary? depth cs
        let (filtered, rest) ← filters? depth primary rest
        match rest with
        | '/' :: _ => relative? depth filtered rest
        | _ => some (filtered, rest)
      else match cs with
        | '/' :: _ => absolute? depth .root cs
        | _ => relative? depth .context cs

/-- An operand that is no path. -/
def primary? : Nat → List Char → Option (Expr × List Char)
  | 0, _ => none
  | depth + 1, cs =>
      match cs with
      | '$' :: rest => do
          let ((nsPrefix, word), rest) ← prefixedName? rest
          some (.variable nsPrefix word, rest)
      | '(' :: rest => do
          let (inner, rest) ← expression? depth 0 rest
          match skip rest with
          | ')' :: rest => some (inner, rest)
          | _ => none
      | c :: _ =>
          if c = '"' ∨ c = '\'' then
            (literal? cs).map fun (content, rest) => (.literal content, rest)
          else if c.isDigit ∨ c = '.' then
            (number? cs).map fun (value, rest) => (.number value, rest)
          else do
            let ((nsPrefix, word), rest) ← prefixedName? cs
            match skip rest with
            | '(' :: rest =>
                match skip rest with
                | ')' :: rest => some (.call nsPrefix word [], rest)
                | rest => do
                    let (arguments, rest) ← arguments? depth rest
                    some (.call nsPrefix word arguments, rest)
            | _ => none
      | [] => none

/-- The arguments of a function and the parenthesis that closes them. -/
def arguments? : Nat → List Char → Option (List Expr × List Char)
  | 0, _ => none
  | depth + 1, cs => do
      let (first, rest) ← expression? depth 0 cs
      match skip rest with
      | ')' :: rest => some ([first], rest)
      | ',' :: rest => do
          let (others, rest) ← arguments? depth rest
          some (first :: others, rest)
      | _ => none

def condition? : Nat → List Char → Option (Expr × List Char)
  | 0, _ => none
  | depth + 1, cs => do
      let (condition, rest) ← expression? depth 0 cs
      match skip rest with
      | ']' :: rest => some (condition, rest)
      | _ => none

/-- What conditions make of a first operand. -/
def filters? : Nat → Expr → List Char → Option (Expr × List Char)
  | 0, _, _ => none
  | depth + 1, source, cs =>
      match skip cs with
      | '[' :: rest => do
          let (condition, rest) ← condition? depth rest
          filters? depth (.filter source condition) rest
      | cs => some (source, cs)

def conditions? : Nat → List Char → Option (List Expr × List Char)
  | 0, _ => none
  | depth + 1, cs =>
      match skip cs with
      | '[' :: rest => do
          let (condition, rest) ← condition? depth rest
          let (others, rest) ← conditions? depth rest
          some (condition :: others, rest)
      | cs => some ([], cs)

/-- A path that begins with slashes. -/
def absolute? : Nat → Expr → List Char → Option (Expr × List Char)
  | 0, _, _ => none
  | depth + 1, source, cs =>
      match cs with
      | '/' :: '/' :: rest => do
          let (path, rest) ← relative? depth source.andBelow (skip rest)
          absolute? depth path rest
      | '/' :: rest =>
          match skip rest with
          | c :: rest =>
              if beginsStep c then do
                let (path, rest) ← relative? depth source (c :: rest)
                absolute? depth path rest
              else absolute? depth source (c :: rest)
          | [] => some (source, [])
      | cs => some (source, cs)

/-- The steps from the nodes of an expression. -/
def relative? : Nat → Expr → List Char → Option (Expr × List Char)
  | 0, _, _ => none
  | depth + 1, source, cs => do
      let (source, cs) := match skip cs with
        | '/' :: '/' :: rest => (source.andBelow, rest)
        | '/' :: rest => (source, rest)
        | cs => (source, cs)
      let (first, rest) ← step? depth source cs
      steps? depth first rest

/-- The steps after a first one. -/
def steps? : Nat → Expr → List Char → Option (Expr × List Char)
  | 0, _, _ => none
  | depth + 1, source, cs =>
      match skip cs with
      | '/' :: '/' :: rest => do
          let (next, rest) ← step? depth source.andBelow rest
          steps? depth next rest
      | '/' :: rest => do
          let (next, rest) ← step? depth source rest
          steps? depth next rest
      | cs => some (source, cs)

def step? : Nat → Expr → List Char → Option (Expr × List Char)
  | 0, _, _ => none
  | depth + 1, source, cs =>
      match skip cs with
      | '.' :: '.' :: rest => some (.step source .parent .node [], rest)
      | '.' :: rest => some (source, rest)
      | cs => do
          let (direction, rest) := axis cs
          let (test, rest) ← nodeTest? rest
          let (conditions, rest) ← conditions? depth rest
          some (.step source direction test conditions, rest)

end

/-- The calls that one character can cost. -/
def depthPerCharacter : Nat := 16

/-- **The expression that a text spells,** if it spells one. -/
def Expr.read? (s : String) : Option Expr := do
  let (e, rest) ← expression? (depthPerCharacter * (s.toList.length + 2)) 0 s.toList
  if (skip rest).isEmpty then some e else none

end OscalValidation.XPath

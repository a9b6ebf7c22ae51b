import OscalValidation.XPath.Focus
import OscalValidation.XPath.Reader

set_option autoImplicit false

/-! # Values of path expressions

An expression has a value at a node, unless it needs what is not there: an unknown variable,
function or prefix, or nodes where the value is something else. What is not evaluated is not
missed: the second operand of `and` and `or` counts only where the first does not decide.
-/

namespace OscalValidation.XPath

open Xml (isSpace)

/-- **A value.** -/
inductive Value
  /-- Nodes, each once and in document order. -/
  | nodes (items : List Focus)
  | truth (holds : Bool)
  | number (value : Binary64)
  | text (content : String)
deriving Inhabited

/-- What an expression may refer to. -/
structure Environment where
  namespaces : List (String × String) := []
  bindings : List (String × Value) := []
  /-- The node that an instruction works on, where there is one. -/
  current : Option Focus := none
deriving Inhabited

/-- Where an expression is evaluated: a node, and its position among how many. -/
structure Context where
  node : Focus
  position : Nat := 1
  size : Nat := 1
deriving Inhabited

/-! ## Conversions -/

/-- The number that a text spells; any other text spells none. -/
def numberOfText (s : String) : Binary64 :=
  let cs := skip s.toList
  let (negative, cs) := match cs with
    | '-' :: rest => (true, rest)
    | cs => (false, cs)
  match number? cs with
  | some (value, rest) =>
      if (skip rest).isEmpty then (if negative then value.negate else value) else .nan
  | none => .nan

/-- A number by a truth value. -/
def numberOfTruth (b : Bool) : Binary64 := .ofInt (if b then 1 else 0)

def numberOfNat (n : Nat) : Binary64 := .ofInt n

/-- A number is neither zero nor undefined. -/
def numberHolds (x : Binary64) : Bool :=
  match x with
  | .nan => false
  | .infinity _ => true
  | .finite _ mantissa _ => mantissa != 0

namespace Value

def nodes? : Value → Option (List Focus)
  | nodes items => some items
  | _ => none

/-- The value as a text: that of the first node. -/
def toText : Value → String
  | nodes items => (items.head?.map Focus.text).getD ""
  | truth b => if b then "true" else "false"
  | number x => x.expressionText
  | text s => s

def toNumber : Value → Binary64
  | truth b => numberOfTruth b
  | number x => x
  | v => numberOfText v.toText

/-- The value as a truth value. -/
def holds : Value → Bool
  | nodes items => !items.isEmpty
  | truth b => b
  | number x => numberHolds x
  | text s => s != ""

end Value

/-! ## Comparisons -/

def Operator.ofNumbers (operator : Operator) (x y : Binary64) : Bool :=
  match operator with
  | .equal => x.sameValue y
  | .notEqual => !x.sameValue y
  | .less => x.less y
  | .lessOrEqual => x.lessOrEqual y
  | .greater => y.less x
  | _ => y.lessOrEqual x

/-- The operator asks only whether its operands are the same. -/
def Operator.isEquality (operator : Operator) : Bool :=
  operator == .equal || operator == .notEqual

/-- A comparison of texts: by their characters, or by the numbers that they spell. -/
def Operator.ofTexts (operator : Operator) (s t : String) : Bool :=
  match operator with
  | .equal => s == t
  | .notEqual => s != t
  | _ => operator.ofNumbers (numberOfText s) (numberOfText t)

/-- A comparison of values none of which has nodes: as truth values, else as numbers, else as
texts. -/
def Operator.ofPlain (operator : Operator) (v w : Value) : Bool :=
  if operator.isEquality then
    match v, w with
    | .truth _, _ | _, .truth _ =>
        operator.ofNumbers (numberOfTruth v.holds) (numberOfTruth w.holds)
    | .number _, _ | _, .number _ => operator.ofNumbers v.toNumber w.toNumber
    | _, _ => operator.ofTexts v.toText w.toText
  else operator.ofNumbers v.toNumber w.toNumber

/-- **A comparison of values.** With nodes it asks whether some node meets it. -/
def Operator.compare (operator : Operator) : Value → Value → Bool
  | .nodes items, .nodes others =>
      items.any fun n => others.any fun m => operator.ofTexts n.text m.text
  | .nodes items, .truth b => operator.ofPlain (.truth !items.isEmpty) (.truth b)
  | .truth b, .nodes items => operator.ofPlain (.truth b) (.truth !items.isEmpty)
  | .nodes items, w => items.any fun n => operator.ofPlain (.text n.text) w
  | v, .nodes items => items.any fun n => operator.ofPlain v (.text n.text)
  | v, w => operator.ofPlain v w

/-- The value of an operator for the values of its operands; the union needs nodes. -/
def Operator.apply? (operator : Operator) (v w : Value) : Option Value :=
  match operator with
  | .or => some (.truth (v.holds || w.holds))
  | .and => some (.truth (v.holds && w.holds))
  | .add => some (.number (v.toNumber.add w.toNumber))
  | .subtract => some (.number (v.toNumber.subtract w.toNumber))
  | .multiply => some (.number (v.toNumber.multiply w.toNumber))
  | .divide => some (.number (v.toNumber.divide w.toNumber))
  | .remainder => some (.number (v.toNumber.remainder w.toNumber))
  | .union => do
      let items ← v.nodes?
      let others ← w.nodes?
      return .nodes (Focus.inOrder (items ++ others))
  | comparison => some (.truth (comparison.compare v w))

/-! ## Functions -/

def Environment.namespaceOf? (env : Environment) (nsPrefix : String) : Option String :=
  if nsPrefix = "xml" then some "http://www.w3.org/XML/1998/namespace"
  else env.namespaces.lookup nsPrefix

/-- The rest of a text after the first place where another one stands. -/
def afterFirst? (pattern : List Char) : List Char → Option (List Char)
  | [] => if pattern.isEmpty then some [] else none
  | c :: rest =>
      match after? pattern (c :: rest) with
      | some found => some found
      | none => afterFirst? pattern rest

/-- The characters at the positions from `start` on, and before `stop` if there is one. -/
def substring (s : String) (start : Binary64) (length : Option Binary64) : String :=
  let first := start.round
  String.ofList (s.toList.zipIdx.filterMap fun (c, index) =>
    let position := numberOfNat (index + 1)
    if first.lessOrEqual position &&
        (match length with
          | some length => position.less (first.add length.round)
          | none => true)
    then some c else none)

/-- Characters with blanks at the end dropped and each other run of blanks made one space. -/
def joinBlankChars : List Char → List Char
  | [] => []
  | c :: rest =>
      if isSpace c then
        match joinBlankChars rest with
        | [] => []
        | ' ' :: tail => ' ' :: tail
        | tail => ' ' :: tail
      else c :: joinBlankChars rest

/-- The text with blanks at its ends dropped and those inside joined. -/
def joinBlanks (s : String) : String :=
  String.ofList ((joinBlankChars s.toList).dropWhile (· == ' '))

/-- The text with each character replaced by its partner; one without a partner drops out. -/
def translate (s mapped images : String) : String :=
  String.ofList (s.toList.filterMap fun c =>
    match mapped.toList.findIdx? (· == c) with
    | none => some c
    | some index => images.toList[index]?)

/-- The language of a node: that of the nearest element that has one. -/
def languageOf? (node : Focus) : Option String :=
  (node :: node.ancestors).findSome? fun n =>
    (n.attributes.findSome? fun
      | .attributeAt _ _ content =>
          if content.name.denotes "http://www.w3.org/XML/1998/namespace" "lang" then
            some content.value
          else none
      | _ => none)

/-- A language is another one or a part of it; the case of letters does not count. -/
def withinLanguage (wanted language : String) : Bool :=
  match after? (wanted.toList.map Char.toLower) (language.toList.map Char.toLower) with
  | some [] | some ('-' :: _) => true
  | _ => false

/-- The first node of a single argument, or of the context without one. -/
def firstNode? (ctx : Context) : List Value → Option (Option Focus)
  | [] => some (some ctx.node)
  | [.nodes items] => some items.head?
  | _ => none

/-- The text of a single argument, or of the context without one. -/
def oneText? (ctx : Context) : List Value → Option String
  | [] => some ctx.node.text
  | [v] => some v.toText
  | _ => none

/-- **The value of a function** for the values of its arguments. -/
def applyFunction? (env : Environment) (ctx : Context) (name : String) (values : List Value) :
    Option Value :=
  let ofName (f : Xml.Name → String) : Option Value :=
    (firstNode? ctx values).map fun node => .text (((node.bind Focus.name?).map f).getD "")
  match name, values with
  | "last", [] => some (.number (numberOfNat ctx.size))
  | "position", [] => some (.number (numberOfNat ctx.position))
  | "current", [] => env.current.map fun node => .nodes [node]
  | "count", [.nodes items] => some (.number (numberOfNat items.length))
  | "id", [_] => some (.nodes [])
  | "local-name", _ => ofName (·.localName)
  | "namespace-uri", _ => ofName fun n => n.uri.getD ""
  | "name", _ => ofName Xml.Name.written
  | "string", _ => (oneText? ctx values).map .text
  | "string-length", _ =>
      (oneText? ctx values).map fun s => .number (numberOfNat s.toList.length)
  | "normalize-space", _ => (oneText? ctx values).map fun s => .text (joinBlanks s)
  | "concat", _ :: _ :: _ => some (.text (String.join (values.map Value.toText)))
  | "starts-with", [v, w] =>
      some (.truth (after? w.toText.toList v.toText.toList).isSome)
  | "contains", [v, w] =>
      some (.truth (afterFirst? w.toText.toList v.toText.toList).isSome)
  | "substring-before", [v, w] =>
      let s := v.toText.toList
      let pattern := w.toText.toList
      some (.text (match afterFirst? pattern s with
        | some rest => String.ofList (s.take (s.length - rest.length - pattern.length))
        | none => ""))
  | "substring-after", [v, w] =>
      some (.text (String.ofList ((afterFirst? w.toText.toList v.toText.toList).getD [])))
  | "substring", [v, start] => some (.text (substring v.toText start.toNumber none))
  | "substring", [v, start, length] =>
      some (.text (substring v.toText start.toNumber (some length.toNumber)))
  | "translate", [v, mapped, images] =>
      some (.text (translate v.toText mapped.toText images.toText))
  | "boolean", [v] => some (.truth v.holds)
  | "not", [v] => some (.truth !v.holds)
  | "true", [] => some (.truth true)
  | "false", [] => some (.truth false)
  | "lang", [v] =>
      some (.truth (((languageOf? ctx.node).map (withinLanguage v.toText)).getD false))
  | "number", [] => some (.number (numberOfText ctx.node.text))
  | "number", [v] => some (.number v.toNumber)
  | "sum", [.nodes items] =>
      some (.number (items.foldl (fun x n => x.add (numberOfText n.text)) (.ofInt 0)))
  | "floor", [v] => some (.number v.toNumber.floor)
  | "ceiling", [v] => some (.number v.toNumber.ceiling)
  | "round", [v] => some (.number v.toNumber.round)
  | _, _ => none

/-! ## Steps -/

/-- The nodes that a test accepts in a direction; a prefix must be known. -/
def NodeTest.accepts? (env : Environment) (axis : Axis) : NodeTest → Option (Focus → Bool)
  | .anyName none => some (Focus.isPrincipal axis)
  | .anyName (some p) => do
      let uri ← env.namespaceOf? p
      return fun node =>
        node.isPrincipal axis && ((node.name?.map (·.uri == some uri)).getD false)
  | .name none localName => some fun node =>
      node.isPrincipal axis &&
        ((node.name?.map fun n => n.uri.isNone && n.localName == localName).getD false)
  | .name (some p) localName => do
      let uri ← env.namespaceOf? p
      return fun node =>
        node.isPrincipal axis && ((node.name?.map (·.denotes uri localName)).getD false)
  | .comment => some fun | .childAt _ _ (.comment ..) => true | _ => false
  | .text => some fun | .childAt _ _ (.text _) => true | _ => false
  | .instruction none => some fun | .childAt _ _ (.instruction ..) => true | _ => false
  | .instruction (some target) => some fun
      | .childAt _ _ (.instruction found _ _) => found == target
      | _ => false
  | .node => some fun | .childAt _ _ (.entity _) => false | _ => true

/-- A condition is met: a number is the position wanted. -/
def meets (position : Nat) : Value → Bool
  | .number x => x.sameValue (numberOfNat position)
  | v => v.holds

mutual

/-- **The value of an expression** at a node, if it has one. -/
def Expr.eval? (env : Environment) (ctx : Context) : Expr → Option Value
  | .literal content => some (.text content)
  | .number value => some (.number value)
  | .variable none name => env.bindings.lookup name
  | .variable (some _) _ => none
  | .call none name arguments => do
      applyFunction? env ctx name (← evalAll? env ctx arguments)
  | .call (some _) _ _ => none
  | .negate operand => do return .number (← operand.eval? env ctx).toNumber.negate
  | .positive operand => do return .number (← operand.eval? env ctx).toNumber
  | .binary operator left right => do
      let v ← left.eval? env ctx
      match operator, v.holds with
      | .or, true => return .truth true
      | .and, false => return .truth false
      | operator, _ => operator.apply? v (← right.eval? env ctx)
  | .root => some (.nodes [(ctx.node :: ctx.node.ancestors).getLastD ctx.node])
  | .context => some (.nodes [ctx.node])
  | .filter source condition => do
      let items ← (← source.eval? env ctx).nodes?
      let size := items.length
      let kept ← items.zipIdx.mapM fun (node, index) => do
        let v ← condition.eval? env ⟨node, index + 1, size⟩
        return if meets (index + 1) v then [node] else []
      return .nodes kept.flatten
  | .step source axis test conditions => do
      let items ← (← source.eval? env ctx).nodes?
      let accepts ← test.accepts? env axis
      let found ← items.mapM fun node =>
        restrict? env conditions ((node.along axis).filter accepts)
      return .nodes (Focus.inOrder found.flatten)

/-- The values of expressions in a row. -/
def evalAll? (env : Environment) (ctx : Context) : List Expr → Option (List Value)
  | [] => some []
  | e :: rest => do
      let v ← e.eval? env ctx
      return v :: (← evalAll? env ctx rest)

/-- The nodes that meet all conditions, each in turn among those that met the ones before. -/
def restrict? (env : Environment) : List Expr → List Focus → Option (List Focus)
  | [], items => some items
  | condition :: rest, items => do
      let size := items.length
      let kept ← items.zipIdx.mapM fun (node, index) => do
        let v ← condition.eval? env ⟨node, index + 1, size⟩
        return if meets (index + 1) v then [node] else []
      restrict? env rest kept.flatten

end

end OscalValidation.XPath

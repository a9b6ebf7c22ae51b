import Mathlib.Data.List.DropRight
import OscalValidation.XPath.Reader
import OscalValidation.Xml.Tree

set_option autoImplicit false

/-! # Paths of named steps

A named step leads to the children of a name: it has a condition for each part of the name, and may
have a number. The readers of the grammar count their depth down, so what one of them reads is said
from some depth on (`Reads`): first of the operands of a condition, then of its operators level by
level, then of conditions, steps and paths. Main statement: a path of named steps is read as the
expression that it spells (`read?_steps`).
-/

namespace OscalValidation.XPath

open Xml (isSpace isNameStart isNameChar isLocalName)

/-! ## Named steps -/

/-- The two parts of the name of an element. -/
inductive NamePart
  | localName
  | namespaceUri

namespace NamePart

/-- The part of a name; without a namespace it is empty. -/
def of (part : NamePart) (name : Xml.Name) : String :=
  match part with
  | localName => name.localName
  | namespaceUri => name.uri.getD ""

def other : NamePart → NamePart
  | localName => namespaceUri
  | namespaceUri => localName

/-- The function that gives the part. -/
def function : NamePart → String
  | localName => "local-name"
  | namespaceUri => "namespace-uri"

/-- The condition that the part is a text, as it is written before other characters. -/
def conditionText (part : NamePart) (value : String) (rest : List Char) : List Char :=
  part.function.toList ++ '(' :: ')' :: '=' :: '\'' :: (value.toList ++ '\'' :: rest)

/-- The condition that the part is a text. -/
def condition (part : NamePart) (value : String) : Expr :=
  .binary .equal (.call none part.function []) (.literal value)

end NamePart

/-- **A step to a child** of a name, which may be the one with a number among the children of
this name. -/
structure NamedStep where
  /-- The part of the name that is asked for first. -/
  first : NamePart
  name : Xml.Name
  /-- The number, if it is given. -/
  position : Option Nat

namespace NamedStep

/-- The number in brackets, before other characters. -/
def positionText : Option Nat → List Char → List Char
  | none, rest => rest
  | some n, rest => '[' :: (n.repr.toList ++ ']' :: rest)

/-- The conditions on both parts of the name, as they are written before other characters. -/
def nameText (s : NamedStep) (rest : List Char) : List Char :=
  s.first.conditionText (s.first.of s.name) (' ' :: 'a' :: 'n' :: 'd' :: ' ' ::
    s.first.other.conditionText (s.first.other.of s.name) (']' :: rest))

/-- The conditions on both parts of the name. -/
def nameCondition (s : NamedStep) : Expr :=
  .binary .and (s.first.condition (s.first.of s.name))
    (s.first.other.condition (s.first.other.of s.name))

/-- The step as it is written before other characters. -/
def text (s : NamedStep) (rest : List Char) : List Char :=
  '/' :: '*' :: '[' :: s.nameText (positionText s.position rest)

def conditions (s : NamedStep) : List Expr :=
  s.nameCondition :: s.position.toList.map fun n => .number (.ofInt n)

/-- The step from the nodes of an expression. -/
def expr (source : Expr) (s : NamedStep) : Expr :=
  .step source .child (.anyName none) s.conditions

/-- The name holds no mark at which a literal would end. -/
def IsPlain (s : NamedStep) : Prop := ∀ part : NamePart, '\'' ∉ (part.of s.name).toList

end NamedStep

/-! ## Reading -/

/-- **From some depth on** the reader finds the value, and these characters are left. -/
def Reads {α : Type} (reader : Nat → List Char → Option (α × List Char)) (least : Nat)
    (cs : List Char) (value : α) (rest : List Char) : Prop :=
  ∀ depth, least ≤ depth → reader depth cs = some (value, rest)

theorem Reads.mono {α : Type} {reader : Nat → List Char → Option (α × List Char)}
    {least least' : Nat} {cs rest : List Char} {value : α} (h : Reads reader least cs value rest)
    (hle : least ≤ least') : Reads reader least' cs value rest :=
  fun depth hdepth => h depth (Nat.le_trans hle hdepth)

/-! ### Characters -/

theorem isSpace_of_isDigit {c : Char} (h : c.isDigit = true) : isSpace c = false := by
  cases hspace : isSpace c with
  | false => rfl
  | true =>
      simp only [isSpace, Bool.or_eq_true, beq_iff_eq] at hspace
      rcases hspace with ((rfl | rfl) | rfl) | rfl <;> cases h

theorem skip_cons {c : Char} (h : isSpace c = false) (cs : List Char) :
    skip (c :: cs) = c :: cs := by
  rw [skip, List.dropWhile_cons, if_neg (by simp [h])]

theorem skip_skip (cs : List Char) : skip (skip cs) = skip cs :=
  List.dropWhile_idempotent isSpace cs

/-- Characters of a class end where one follows that is not of the class. -/
theorem takeWhile_dropWhile_append {p : Char → Bool} {taken rest : List Char}
    (htaken : ∀ c ∈ taken, p c = true) (hrest : ∀ c ∈ rest.head?, p c = false) :
    (taken ++ rest).takeWhile p = taken ∧ (taken ++ rest).dropWhile p = rest := by
  rw [List.takeWhile_append_of_pos htaken, List.dropWhile_append_of_pos htaken]
  cases rest with
  | nil => exact ⟨List.append_nil taken, rfl⟩
  | cons c cs =>
      rw [List.takeWhile_cons, List.dropWhile_cons, hrest c rfl]
      exact ⟨List.append_nil taken, rfl⟩

/-- A name ends where a character follows that no name holds. -/
theorem name?_append {name rest : List Char} (hname : isLocalName name = true)
    (hrest : ∀ c ∈ rest.head?, isNameChar c = false) :
    name? (name ++ rest) = some (String.ofList name, rest) := by
  cases name with
  | nil => cases hname
  | cons first more =>
      rw [isLocalName, Bool.and_eq_true, List.all_eq_true] at hname
      obtain ⟨htake, hdrop⟩ := takeWhile_dropWhile_append hname.2 hrest
      rw [List.cons_append, name?, if_pos hname.1, htake, hdrop]

/-- A literal ends at the mark that it began with. -/
theorem literal?_quoted {content : List Char} (h : '\'' ∉ content) (rest : List Char) :
    literal? ('\'' :: (content ++ '\'' :: rest)) = some (String.ofList content, rest) := by
  have hkeep : ∀ c ∈ content, (c != '\'') = true := by
    intro c hc
    rw [bne_iff_ne]
    rintro rfl
    exact h hc
  have hstop : ∀ c ∈ ('\'' :: rest).head?, (c != '\'') = false := by
    rintro c ⟨⟩
    rfl
  obtain ⟨htake, hdrop⟩ := takeWhile_dropWhile_append hkeep hstop
  rw [literal?, if_pos (Or.inr rfl), hdrop, htake]

theorem number?_digits {digits : List Char} (hne : digits ≠ [])
    (hdigits : ∀ c ∈ digits, c.isDigit = true) (rest : List Char) :
    number? (digits ++ ']' :: rest) = some (numberValue digits [] 0, ']' :: rest) := by
  have hstop : ∀ c ∈ (']' :: rest).head?, c.isDigit = false := by
    rintro c ⟨⟩
    decide
  obtain ⟨htake, hdrop⟩ := takeWhile_dropWhile_append hdigits hstop
  rw [number?, htake, hdrop]
  simp [hne, exponent]

/-- What the functions begin with. -/
theorem NamePart.exists_function_eq (part : NamePart) :
    ∃ c more, part.function.toList = c :: more ∧ (c = 'l' ∨ c = 'n') := by
  have hfirst : part.function.toList.head? = some 'l' ∨ part.function.toList.head? = some 'n' := by
    cases part <;> decide
  cases hcs : part.function.toList with
  | nil => simp [hcs] at hfirst
  | cons c more => exact ⟨c, more, rfl, by simpa [hcs] using hfirst⟩

theorem name?_call (part : NamePart) (rest : List Char) :
    name? (part.function.toList ++ '(' :: rest) = some (part.function, '(' :: rest) := by
  rw [name?_append, String.ofList_toList]
  · cases part <;> decide
  · intro c hc
    cases hc
    decide

theorem skip_conditionText (part : NamePart) (value : String) (rest : List Char) :
    skip (part.conditionText value rest) = part.conditionText value rest := by
  obtain ⟨c, more, hcs, hfirst⟩ := part.exists_function_eq
  rw [NamePart.conditionText, hcs]
  refine skip_cons ?_ _
  rcases hfirst with rfl | rfl <;> decide

/-! ### Operands -/

section Operands

variable {cs rest : List Char} {e : Expr} {k : Nat}

/-- What follows ends a path: no condition, no step and no further path comes next. -/
def EndsPath (rest : List Char) : Prop :=
  ∀ c ∈ (skip rest).head?, c ≠ '[' ∧ c ≠ '/' ∧ c ≠ '|'

/-- A sign begins no operand. -/
theorem signs_of_beginsPrimary (h : beginsPrimary (skip cs) = true) : signs cs = (0, skip cs) := by
  induction cs with
  | nil => rfl
  | cons c rest ih =>
      by_cases hspace : isSpace c = true
      · have hskip : skip (c :: rest) = skip rest := by
          rw [skip, List.dropWhile_cons, if_pos hspace, skip]
        have hsign : c ≠ '-' := by
          rintro rfl
          exact absurd hspace (by decide)
        rw [hskip] at h ⊢
        rw [signs, if_pos hspace, ih h]
        exact hsign
      · rw [Bool.not_eq_true] at hspace
        rw [skip_cons hspace] at h ⊢
        have hsign : c ≠ '-' := by
          rintro rfl
          have hname : name? ('-' :: rest) = none := by
            rw [name?, if_neg (by decide)]
          simp [beginsPrimary, hname, Char.isDigit] at h
        rw [signs, if_neg (by simp [hspace])]
        exact hsign

/-- An operand that is no path is an expression of the innermost level. -/
theorem reads_operand (hbegins : beginsPrimary (skip cs) = true)
    (h : Reads primary? k (skip cs) e rest) (hends : EndsPath rest) :
    Reads (expression? · levels) (k + 5) cs e (skip rest) := by
  intro depth hdepth
  obtain ⟨depth, rfl⟩ := Nat.exists_eq_add_of_le' (Nat.le_trans (Nat.le_add_left 5 k) hdepth)
  have hprimary : primary? (depth + 1 + 1) (skip cs) = some (e, rest) := h _ (by omega)
  have hfilters : filters? (depth + 1 + 1) e rest = some (e, skip rest) := by
    rw [filters?]
    split
    · next heq => exact absurd rfl (hends '[' (by rw [heq]; rfl)).1
    · rfl
  have hpath : path? (depth + 2 + 1) (skip cs) = some (e, skip rest) := by
    rw [path?, skip_skip, if_pos hbegins, hprimary]
    dsimp only [Option.bind_eq_bind, Option.bind_some]
    rw [hfilters]
    dsimp only [Option.bind_some]
    split
    · next heq => exact absurd rfl (hends '/' (by rw [heq]; rfl)).2.1
    · rfl
  have hunions : unions? (depth + 2 + 1) e (skip rest) = some (e, skip rest) := by
    rw [unions?, skip_skip]
    split
    · next heq => exact absurd rfl (hends '|' (by rw [heq]; rfl)).2.2
    · rfl
  have hsigned : signed? (depth + 3 + 1) cs = some (e, skip rest) := by
    rw [signed?, signs_of_beginsPrimary hbegins]
    dsimp only
    rw [hpath]
    dsimp only [Option.bind_eq_bind, Option.bind_some]
    rw [hunions]
    rfl
  show expression? (depth + 4 + 1) levels cs = _
  rw [expression?, if_neg (Nat.lt_irrefl _), hsigned]

theorem reads_literal {content : List Char} (h : '\'' ∉ content) (rest : List Char) :
    Reads primary? 1 ('\'' :: (content ++ '\'' :: rest)) (.literal (String.ofList content))
      rest := by
  intro depth hdepth
  obtain ⟨depth, rfl⟩ := Nat.exists_eq_add_of_le' hdepth
  rw [primary?]
  · simp [literal?_quoted h]
  · simp
  · simp

theorem reads_call (part : NamePart) (rest : List Char) :
    Reads primary? 1 (part.function.toList ++ '(' :: ')' :: rest) (.call none part.function [])
      rest := by
  intro depth hdepth
  obtain ⟨depth, rfl⟩ := Nat.exists_eq_add_of_le' hdepth
  have hprefixed : prefixedName? (part.function.toList ++ '(' :: ')' :: rest) =
      some ((none, part.function), '(' :: ')' :: rest) := by
    rw [prefixedName?, name?_call]
    rfl
  obtain ⟨c, more, hcs, hfirst⟩ := part.exists_function_eq
  have hc : c ≠ '$' ∧ c ≠ '(' ∧ ¬ (c = '"' ∨ c = '\'') ∧ ¬ (c.isDigit = true ∨ c = '.') := by
    rcases hfirst with rfl | rfl <;> decide
  obtain ⟨hdollar, hparenthesis, hquote, hdigit⟩ := hc
  rw [hcs, List.cons_append] at hprefixed ⊢
  rw [primary?, if_neg hquote, if_neg hdigit, hprefixed]
  · have hopens : isSpace '(' = false := by decide
    have hcloses : isSpace ')' = false := by decide
    simp [skip_cons hopens, skip_cons hcloses]
  · exact hdollar
  · exact hparenthesis

theorem reads_number {digits : List Char} (hne : digits ≠ [])
    (hdigits : ∀ c ∈ digits, c.isDigit = true) (rest : List Char) :
    Reads primary? 1 (digits ++ ']' :: rest) (.number (numberValue digits [] 0)) (']' :: rest) := by
  intro depth hdepth
  obtain ⟨depth, rfl⟩ := Nat.exists_eq_add_of_le' hdepth
  have hnumber := number?_digits hne hdigits rest
  cases digits with
  | nil => exact absurd rfl hne
  | cons c more =>
      have hdigit : c.isDigit = true := hdigits c List.mem_cons_self
      have hother : ∀ d : Char, d.isDigit = false → c ≠ d := by
        rintro d hd rfl
        rw [hd] at hdigit
        cases hdigit
      rw [List.cons_append] at hnumber ⊢
      rw [primary?, if_neg (not_or.mpr ⟨hother _ (by decide), hother _ (by decide)⟩),
        if_pos (Or.inl hdigit), hnumber]
      · rfl
      · exact hother _ (by decide)
      · exact hother _ (by decide)

theorem beginsPrimary_call (part : NamePart) (rest : List Char) :
    beginsPrimary (part.function.toList ++ '(' :: rest) = true := by
  have hname := name?_call part rest
  have hskip : skip ('(' :: rest) = '(' :: rest := skip_cons (by decide) rest
  have hkind : part.function ∉ nodeKinds := by cases part <;> decide
  obtain ⟨c, more, hcs, hfirst⟩ := part.exists_function_eq
  have hdot : c ≠ '.' := by rcases hfirst with rfl | rfl <;> decide
  rw [hcs, List.cons_append] at hname ⊢
  unfold beginsPrimary
  split
  · next heq => exact absurd (List.cons_eq_cons.mp heq).1 hdot
  · next heq =>
    rw [← heq, hname]
    simp [hskip, hkind]
  · next heq => cases heq

theorem beginsPrimary_literal (rest : List Char) : beginsPrimary ('\'' :: rest) = true := by
  simp [beginsPrimary]

theorem beginsPrimary_number {c : Char} (h : c.isDigit = true) (rest : List Char) :
    beginsPrimary (c :: rest) = true := by
  have hdot : c ≠ '.' := by
    rintro rfl
    cases h
  unfold beginsPrimary
  split
  · next heq => exact absurd (List.cons_eq_cons.mp heq).1 hdot
  · next heq =>
    cases heq
    simp [h]
  · next heq => cases heq

end Operands

/-! ### Operators -/

section Operators

variable {cs rest : List Char} {e : Expr} {k level : Nat}

/-- Where no operator of some levels follows, an expression of a level above them is one of
theirs. -/
theorem reads_climb {upper : Nat} (n : Nat) (hlevel : level + n = upper) (hupper : upper ≤ levels)
    (h : Reads (expression? · upper) k cs e rest) (hskip : skip rest = rest)
    (hnone : ∀ l, level ≤ l → l < upper → operator? l rest = none) :
    Reads (expression? · level) (k + 2 * n) cs e rest := by
  induction n generalizing level with
  | zero =>
      rw [Nat.add_zero] at hlevel
      rwa [hlevel]
  | succ n ih =>
      have hnext := @ih (level + 1) (by omega) fun l hl => hnone l (by omega)
      intro depth hdepth
      obtain ⟨depth, rfl⟩ : ∃ d, depth = d + 1 + 1 := ⟨depth - 2, by omega⟩
      have hfirst : expression? (depth + 1) (level + 1) cs = some (e, rest) := hnext _ (by omega)
      have hoperations : operations? (depth + 1) level e rest = some (e, rest) := by
        rw [operations?, hskip, hnone level (Nat.le_refl _) (by omega)]
      show expression? (depth + 1 + 1) level cs = _
      rw [expression?, if_pos (by omega), hfirst]
      exact hoperations

/-- Two operands with an operator between them. -/
theorem reads_operation (hlevel : level < levels) {operator : Operator} {left right : Expr}
    {between after : List Char} (hleft : Reads (expression? · (level + 1)) k cs left between)
    (hoperator : operator? level (skip between) = some (operator, after))
    (hright : Reads (expression? · (level + 1)) k after right rest)
    (hnone : operator? level (skip rest) = none) :
    Reads (expression? · level) (k + 3) cs (.binary operator left right) (skip rest) := by
  intro depth hdepth
  obtain ⟨depth, rfl⟩ : ∃ d, depth = d + 1 + 1 + 1 := ⟨depth - 3, by omega⟩
  have hfirst : expression? (depth + 1 + 1) (level + 1) cs = some (left, between) :=
    hleft _ (by omega)
  have hsecond : expression? (depth + 1) (level + 1) after = some (right, rest) :=
    hright _ (by omega)
  have hends : operations? (depth + 1) level (.binary operator left right) rest =
      some (.binary operator left right, skip rest) := by
    rw [operations?, hnone]
  have hoperations : operations? (depth + 1 + 1) level left between =
      some (.binary operator left right, skip rest) := by
    rw [operations?, hoperator]
    dsimp only
    rw [hsecond]
    exact hends
  show expression? (depth + 1 + 1 + 1) level cs = _
  rw [expression?, if_pos hlevel, hfirst]
  exact hoperations

theorem operator?_bracket (level : Nat) (cs : List Char) : operator? level (']' :: cs) = none := by
  unfold operator? operatorsOf
  split <;> simp [after?]

theorem operator?_equal (cs : List Char) : operator? 2 ('=' :: cs) = some (.equal, cs) := by
  simp [operator?, operatorsOf, after?]

theorem operator?_and (cs : List Char) :
    operator? 1 ('a' :: 'n' :: 'd' :: cs) = some (.and, cs) := by
  simp [operator?, operatorsOf, after?]

theorem operator?_equal_eq_none (h : 3 ≤ level) (cs : List Char) :
    operator? level ('=' :: cs) = none := by
  unfold operator? operatorsOf
  split <;> first | omega | simp [after?]

theorem operator?_and_eq_none (h : 2 ≤ level) (cs : List Char) :
    operator? level ('a' :: cs) = none := by
  unfold operator? operatorsOf
  split <;> first | omega | simp [after?]

/-- A condition on a part of a name is read where an operand of `and` may stand. -/
theorem reads_equality (part : NamePart) {value : String} (hvalue : '\'' ∉ value.toList)
    (hcs : skip cs = part.conditionText value rest) (hends : EndsPath rest)
    (hnone : ∀ l, 2 ≤ l → l < levels → operator? l (skip rest) = none) :
    Reads (expression? · 2) 15 cs (part.condition value) (skip rest) := by
  have hafter (cs : List Char) : skip ('=' :: cs) = '=' :: cs := skip_cons (by decide) cs
  have hcall : Reads (expression? · levels) 6 cs (.call none part.function [])
      (skip ('=' :: '\'' :: (value.toList ++ '\'' :: rest))) := by
    apply reads_operand
    · rw [hcs]
      exact beginsPrimary_call part _
    · rw [hcs]
      exact reads_call part _
    · intro c hc
      rw [hafter] at hc
      cases hc
      decide
  have hliteral : Reads (expression? · levels) 6 ('\'' :: (value.toList ++ '\'' :: rest))
      (.literal value) (skip rest) := by
    have hskip : skip ('\'' :: (value.toList ++ '\'' :: rest)) =
        '\'' :: (value.toList ++ '\'' :: rest) := skip_cons (by decide) _
    have hread := reads_literal hvalue rest
    rw [String.ofList_toList] at hread
    apply reads_operand
    · rw [hskip]
      exact beginsPrimary_literal _
    · rw [hskip]
      exact hread
    · exact hends
  -- both sides bind closer than `=`, so each is read up to it and no further
  have hleft := @reads_climb _ _ _ _ 3 _ 3 rfl (Nat.le_refl _) hcall (skip_skip _) fun l hl _ => by
    rw [hafter]
    exact operator?_equal_eq_none hl _
  have hright := @reads_climb _ _ _ _ 3 _ 3 rfl (Nat.le_refl _) hliteral (skip_skip _)
    fun l hl => hnone l (by omega)
  rw [← skip_skip rest]
  refine reads_operation (by decide) hleft ?_ hright ?_
  · rw [hafter, hafter]
    exact operator?_equal _
  · rw [skip_skip]
    exact hnone 2 (Nat.le_refl _) (by decide)

/-- Conditions on both parts of a name, the one before the other. -/
theorem reads_nameText (s : NamedStep) (hplain : s.IsPlain) (rest : List Char) :
    Reads (expression? · 0) 20 (s.nameText rest) s.nameCondition (']' :: rest) := by
  have hbracket : skip (']' :: rest) = ']' :: rest := skip_cons (by decide) rest
  have hspace (cs : List Char) : skip (' ' :: cs) = skip cs := by
    rw [skip, List.dropWhile_cons, if_pos (by decide), skip]
  have hand (cs : List Char) : skip (' ' :: 'a' :: cs) = 'a' :: cs := by
    rw [hspace]
    exact skip_cons (by decide) cs
  have hleft := @reads_equality (s.nameText rest) _ s.first _ (hplain s.first)
    (skip_conditionText _ _ _) ?_ ?_
  · have hright := @reads_equality (' ' :: s.first.other.conditionText (s.first.other.of s.name)
      (']' :: rest)) (']' :: rest) s.first.other _ (hplain s.first.other) ?_ ?_ ?_
    · rw [hbracket] at hright
      have hboth := @reads_operation _ _ _ 1 (by decide) .and _ _ _ _ hleft ?_ hright ?_
      · rw [hbracket] at hboth
        exact reads_climb 1 rfl (by decide) hboth hbracket fun l _ _ => operator?_bracket l rest
      · rw [hand, skip_cons (by decide)]
        exact operator?_and _
      · rw [hbracket]
        exact operator?_bracket _ _
    · rw [hspace]
      exact skip_conditionText _ _ _
    · intro c hc
      rw [hbracket] at hc
      cases hc
      decide
    · intro l _ _
      rw [hbracket]
      exact operator?_bracket _ _
  · intro c hc
    rw [hand] at hc
    cases hc
    decide
  · intro l hl _
    rw [hand]
    exact operator?_and_eq_none hl _

end Operators

/-! ### Steps -/

section Steps

variable {rest : List Char} {source e : Expr} {k : Nat}

theorem reads_condition {cs : List Char}
    (h : Reads (expression? · 0) k cs e (']' :: rest)) : Reads condition? (k + 1) cs e rest := by
  intro depth hdepth
  obtain ⟨depth, rfl⟩ : ∃ d, depth = d + 1 := ⟨depth - 1, by omega⟩
  have hexpression : expression? depth 0 cs = some (e, ']' :: rest) := h _ (by omega)
  rw [condition?, hexpression]
  simp [skip_cons (show isSpace ']' = false by decide)]

theorem reads_conditions_nil (hskip : skip rest = rest) (hrest : rest.head? ≠ some '[') :
    Reads conditions? 1 rest [] rest := by
  intro depth hdepth
  obtain ⟨depth, rfl⟩ := Nat.exists_eq_add_of_le' hdepth
  rw [conditions?, hskip]
  split
  · next heq => exact absurd rfl hrest
  · rfl

theorem reads_conditions_cons {cs after : List Char} {others : List Expr}
    (h : Reads (expression? · 0) k cs e (']' :: after))
    (hothers : Reads conditions? k after others rest) :
    Reads conditions? (k + 2) ('[' :: cs) (e :: others) rest := by
  intro depth hdepth
  obtain ⟨depth, rfl⟩ : ∃ d, depth = d + 1 := ⟨depth - 1, by omega⟩
  have hcondition : condition? depth cs = some (e, after) := reads_condition h _ (by omega)
  have hmore : conditions? depth after = some (others, rest) := hothers _ (by omega)
  rw [conditions?, skip_cons (by decide)]
  simp [hcondition, hmore]

/-- The value of the digits of a number is the number. -/
theorem numberValue_repr (n : Nat) : numberValue n.repr.toList [] 0 = .ofInt n := by
  have hvalue : digitsValue n.repr.toList = n := by
    rw [Nat.toList_repr]
    calc digitsValue (Nat.toDigits 10 n)
        = Nat.ofDigitChars 10 (Nat.toDigits 10 n) 0 := by
          simp [digitsValue, Nat.ofDigitChars, Nat.mul_comm]
      _ = n := Nat.ofDigitChars_ten_toDigits
  have hsign : decide ((n : Int) < 0) = false := by simp
  rw [numberValue, hvalue, Binary64.ofInt, hsign]
  rfl

theorem isDigit_of_mem_repr {n : Nat} {c : Char} (h : c ∈ n.repr.toList) : c.isDigit = true := by
  rw [Nat.toList_repr] at h
  exact Nat.isDigit_of_mem_toDigits (by decide) (by decide) h

theorem reads_position (n : Nat) (rest : List Char) :
    Reads (expression? · 0) 18 (n.repr.toList ++ ']' :: rest) (.number (.ofInt n))
      (']' :: rest) := by
  have hbracket : skip (']' :: rest) = ']' :: rest := skip_cons (by decide) rest
  have hdigits : ∀ c ∈ n.repr.toList, c.isDigit = true := fun c hc => isDigit_of_mem_repr hc
  have hne : n.repr.toList ≠ [] := by
    rw [Nat.toList_repr]
    exact Nat.toDigits_ne_nil
  have hnumber := reads_number hne hdigits rest
  rw [numberValue_repr] at hnumber
  have hoperand : Reads (expression? · levels) 6 (n.repr.toList ++ ']' :: rest)
      (.number (.ofInt n)) (skip (']' :: rest)) := by
    have hskip : skip (n.repr.toList ++ ']' :: rest) = n.repr.toList ++ ']' :: rest ∧
        beginsPrimary (n.repr.toList ++ ']' :: rest) = true := by
      cases hcs : n.repr.toList with
      | nil => exact absurd hcs hne
      | cons c more =>
          have hdigit : c.isDigit = true := hdigits c (by rw [hcs]; exact List.mem_cons_self)
          exact ⟨skip_cons (isSpace_of_isDigit hdigit) _, beginsPrimary_number hdigit _⟩
    apply reads_operand
    · rw [hskip.1]
      exact hskip.2
    · rw [hskip.1]
      exact hnumber
    · intro c hc
      rw [hbracket] at hc
      cases hc
      decide
  rw [hbracket] at hoperand
  exact reads_climb 6 rfl (Nat.le_refl _) hoperand hbracket fun l _ _ => operator?_bracket l _

/-- The conditions of a named step are read up to what follows the step. -/
theorem reads_conditions (s : NamedStep) (hplain : s.IsPlain) (hskip : skip rest = rest)
    (hrest : rest.head? ≠ some '[') :
    Reads conditions? 24 ('[' :: s.nameText (NamedStep.positionText s.position rest))
      s.conditions rest := by
  have hname := reads_nameText s hplain (NamedStep.positionText s.position rest)
  have hend := reads_conditions_nil hskip hrest
  refine reads_conditions_cons (hname.mono (by decide : 20 ≤ 22)) ?_
  cases hposition : s.position with
  | none => exact hend.mono (by decide)
  | some n =>
      exact (reads_conditions_cons (reads_position n rest) (hend.mono (by decide))).mono (by decide)

/-- After a step nothing comes, or another step. -/
def EndsStep (rest : List Char) : Prop := ∀ c ∈ rest.head?, c = '/'

theorem EndsStep.skip_eq (h : EndsStep rest) : skip rest = rest := by
  cases rest with
  | nil => rfl
  | cons c cs =>
      cases h c rfl
      exact skip_cons (by decide) cs

theorem EndsStep.head?_ne (h : EndsStep rest) : rest.head? ≠ some '[' := by
  intro heq
  have hc : '[' = '/' := h '[' heq
  exact absurd hc (by decide)

/-- A step that begins with neither a blank nor a full stop has a direction, a test and
conditions. -/
theorem step?_of_first (depth : Nat) (source : Expr) {c : Char} (hspace : isSpace c = false)
    (hdot : c ≠ '.') (cs : List Char) :
    step? (depth + 1) source (c :: cs) = (do
      let (test, rest) ← nodeTest? (axis (c :: cs)).2
      let (conditions, rest) ← conditions? depth rest
      some (.step source (axis (c :: cs)).1 test conditions, rest)) := by
  rw [step?, skip_cons hspace]
  split
  · next heq => exact absurd (List.cons_eq_cons.mp heq).1 hdot
  · next heq => exact absurd (List.cons_eq_cons.mp heq).1 hdot
  · rfl

/-- After a single slash a step follows. -/
theorem steps?_slash (depth : Nat) (source : Expr) {c : Char} (hc : c ≠ '/') (cs : List Char) :
    steps? (depth + 1) source ('/' :: c :: cs) = (do
      let (next, rest) ← step? depth source (c :: cs)
      steps? depth next rest) := by
  rw [steps?, skip_cons (by decide)]
  split
  · next heq => exact absurd (List.cons_eq_cons.mp (List.cons_eq_cons.mp heq).2).1 hc
  · next heq =>
    cases heq
    rfl
  · next hno => exact absurd rfl (hno _)

/-- A named step is read after the slash that leads to it. -/
theorem reads_step (source : Expr) (s : NamedStep) (hplain : s.IsPlain) (hrest : EndsStep rest) :
    Reads (step? · source) 25 (s.text rest).tail (s.expr source) rest := by
  intro depth hdepth
  obtain ⟨depth, rfl⟩ : ∃ d, depth = d + 1 := ⟨depth - 1, by omega⟩
  have hconditions := reads_conditions s hplain hrest.skip_eq hrest.head?_ne depth (by omega)
  have haxis (cs : List Char) : axis ('*' :: cs) = (.child, '*' :: cs) := by
    have hname : name? ('*' :: cs) = none := by rw [name?, if_neg (by decide)]
    rw [axis, hname]
    exact fun _ heq => nomatch heq
  have htest (cs : List Char) : nodeTest? ('*' :: cs) = some (.anyName none, cs) := by
    rw [nodeTest?, skip_cons (by decide)]
    rfl
  rw [NamedStep.text, List.tail_cons]
  show step? (depth + 1) source _ = _
  rw [step?_of_first _ _ (by decide) (by decide), haxis, htest]
  dsimp only [Option.bind_eq_bind, Option.bind_some]
  rw [hconditions]
  rfl

/-- **A path of named steps is read** from the nodes of an expression on, whatever is read after
it from the nodes that it leads to. -/
theorem reads_steps (steps : List NamedStep) (hplain : ∀ s ∈ steps, s.IsPlain)
    {after : List Char} (hafter : EndsStep after)
    (h : Reads (steps? · (steps.foldl NamedStep.expr source)) k after e rest) (hk : 25 ≤ k) :
    Reads (steps? · source) (k + steps.length) (steps.foldr NamedStep.text after) e rest := by
  induction steps generalizing source with
  | nil => exact h
  | cons s more ih =>
      obtain ⟨hs, hmore⟩ := List.forall_mem_cons.mp hplain
      have hends : EndsStep (more.foldr NamedStep.text after) := by
        cases more with
        | nil => exact hafter
        | cons s' more => exact fun c hc => by cases hc; rfl
      intro depth hdepth
      rw [List.length_cons] at hdepth
      obtain ⟨depth, rfl⟩ : ∃ d, depth = d + 1 := ⟨depth - 1, by omega⟩
      have hstep := reads_step source s hs hends depth (by omega)
      have hsteps := ih hmore h depth (by omega)
      rw [List.foldr_cons]
      show steps? (depth + 1) source _ = _
      rw [NamedStep.text, List.tail_cons] at hstep
      rw [NamedStep.text, steps?_slash _ _ (by decide)]
      rw [show step? depth source _ = _ from hstep]
      exact hsteps

theorem reads_end (source : Expr) : Reads (steps? · source) 1 [] source [] := by
  intro depth hdepth
  obtain ⟨depth, rfl⟩ := Nat.exists_eq_add_of_le' hdepth
  rfl

/-- The step to an attribute is read after the slash that leads to it. -/
theorem reads_attribute (source : Expr) {name : String} (hname : isLocalName name.toList = true) :
    Reads (steps? · source) 3 ('/' :: '@' :: name.toList)
      (.step source .attributes (.name none name) []) [] := by
  intro depth hdepth
  obtain ⟨depth, rfl⟩ : ∃ d, depth = d + 1 + 1 + 1 := ⟨depth - 3, by omega⟩
  have hread : name? name.toList = some (name, []) := by
    have happend := @name?_append _ [] hname nofun
    rwa [List.append_nil, String.ofList_toList] at happend
  have htest : nodeTest? name.toList = some (.name none name, []) := by
    cases hcs : name.toList with
    | nil => simp [hcs, isLocalName] at hname
    | cons c more =>
        rw [hcs, isLocalName, Bool.and_eq_true] at hname
        rw [hcs] at hread
        have hstart {d : Char} (hd : isNameStart d = false) : c ≠ d := by
          rintro rfl
          rw [hname.1] at hd
          cases hd
        have hspace : isSpace c = false := by
          simp only [isSpace, Bool.or_eq_false_iff, beq_eq_false_iff_ne]
          exact ⟨⟨⟨hstart (by decide), hstart (by decide)⟩, hstart (by decide)⟩,
            hstart (by decide)⟩
        rw [nodeTest?, skip_cons hspace]
        split
        · next heq => exact absurd (List.cons_eq_cons.mp heq).1 (hstart (by decide))
        · rw [hread]
          rfl
  show steps? (depth + 1 + 1 + 1) source _ = _
  rw [steps?_slash _ _ (by decide), step?_of_first _ _ (by decide) (by decide), axis, htest]
  rfl

end Steps

/-! ### Paths -/

section Paths

variable {steps : List NamedStep} {e : Expr} {k : Nat}

/-- A path from the document on is read like the steps that it consists of. -/
theorem reads_absolute {s : NamedStep} {rest : List Char}
    (h : Reads (steps? · .root) k (s.text rest) e []) :
    Reads (absolute? · .root) (k + 2) (s.text rest) e [] := by
  intro depth hdepth
  obtain ⟨depth, rfl⟩ : ∃ d, depth = d + 1 + 1 := ⟨depth - 2, by omega⟩
  have hsteps : steps? (depth + 1) .root (s.text rest) = some (e, []) := h _ (by omega)
  rw [NamedStep.text, steps?_slash _ _ (by decide)] at hsteps
  have hrelative (cs : List Char) : relative? (depth + 1) .root ('*' :: cs) = (do
      let (next, rest) ← step? depth .root ('*' :: cs)
      steps? depth next rest) := by
    rw [relative?, skip_cons (by decide)]
    rfl
  rw [← hrelative] at hsteps
  have hend : absolute? (depth + 1) e [] = some (e, []) := rfl
  show absolute? (depth + 1 + 1) .root (s.text rest) = _
  rw [NamedStep.text, absolute?, skip_cons (by decide)]
  · dsimp only
    rw [if_pos (by decide), hsteps]
    exact hend
  · exact fun _ heq => nomatch heq

theorem operator?_nil (level : Nat) : operator? level [] = none := by
  unfold operator? operatorsOf
  split <;> simp [after?]

/-- Such a path is an expression of every level. -/
theorem reads_path {s : NamedStep} {rest : List Char}
    (h : Reads (steps? · .root) k (s.text rest) e []) :
    Reads (expression? · 0) (k + 17) (s.text rest) e [] := by
  have hlevels : Reads (expression? · levels) (k + 5) (s.text rest) e [] := by
    intro depth hdepth
    obtain ⟨depth, rfl⟩ : ∃ d, depth = d + 1 + 1 + 1 := ⟨depth - 3, by omega⟩
    have habsolute : absolute? depth .root (s.text rest) = some (e, []) :=
      reads_absolute h _ (by omega)
    have hpath : path? (depth + 1) (s.text rest) = some (e, []) := by
      rw [NamedStep.text] at habsolute ⊢
      have hprimary (cs : List Char) : beginsPrimary ('/' :: cs) = false := by
        have hname : name? ('/' :: cs) = none := by rw [name?, if_neg (by decide)]
        simp [beginsPrimary, hname, Char.isDigit]
      rw [path?, skip_cons (by decide), hprimary]
      exact habsolute
    have hunions : unions? (depth + 1) e [] = some (e, []) := rfl
    have hsigned : signed? (depth + 1 + 1) (s.text rest) = some (e, []) := by
      have hsigns : signs (s.text rest) = (0, s.text rest) := by
        rw [NamedStep.text, signs, if_neg (by decide)]
        exact fun heq => absurd heq (by decide)
      rw [signed?, hsigns]
      dsimp only
      rw [hpath]
      dsimp only [Option.bind_eq_bind, Option.bind_some]
      rw [hunions]
      rfl
    show expression? (depth + 1 + 1 + 1) levels (s.text rest) = _
    rw [expression?, if_neg (Nat.lt_irrefl _), hsigned]
  exact reads_climb 6 rfl (Nat.le_refl _) hlevels rfl fun l _ _ => operator?_nil l

theorem length_le_foldr_text (steps : List NamedStep) (after : List Char) :
    steps.length ≤ (steps.foldr NamedStep.text after).length := by
  induction steps with
  | nil => exact Nat.zero_le _
  | cons s more ih =>
      have htext (rest : List Char) : rest.length + 1 ≤ (s.text rest).length := by
        have hposition : rest.length ≤ (NamedStep.positionText s.position rest).length := by
          cases s.position with
          | none => exact Nat.le_refl _
          | some n =>
              simp only [NamedStep.positionText, List.length_cons, List.length_append]
              omega
        simp only [NamedStep.text, NamedStep.nameText, NamePart.conditionText, List.length_cons,
          List.length_append]
        omega
      rw [List.foldr_cons, List.length_cons]
      exact Nat.le_trans (Nat.succ_le_succ ih) (htext _)

theorem foldr_text_ne_nil (hne : steps ≠ []) (after : List Char) :
    steps.foldr NamedStep.text after ≠ [] := by
  cases steps with
  | nil => exact absurd rfl hne
  | cons s more => exact List.cons_ne_nil _ _

/-- **A path of named steps is an expression,** with whatever is read after it. -/
theorem read?_steps (hne : steps ≠ []) (hplain : ∀ s ∈ steps, s.IsPlain) (after : List Char)
    (hafter : EndsStep after)
    (h : Reads (steps? · (steps.foldl NamedStep.expr .root)) 25 after e []) :
    Expr.read? (String.ofList (steps.foldr NamedStep.text after)) = some e := by
  have hsteps := reads_steps steps hplain hafter h (Nat.le_refl _)
  have hlength := length_le_foldr_text steps after
  cases steps with
  | nil => exact absurd rfl hne
  | cons s more =>
      have hread : expression? (depthPerCharacter *
          (((s :: more).foldr NamedStep.text after).length + 2)) 0
          ((s :: more).foldr NamedStep.text after) = some (e, []) := by
        apply reads_path hsteps
        rw [List.length_cons] at hlength ⊢
        unfold depthPerCharacter
        omega
      rw [Expr.read?, String.toList_ofList, hread]
      rfl

end Paths

end OscalValidation.XPath

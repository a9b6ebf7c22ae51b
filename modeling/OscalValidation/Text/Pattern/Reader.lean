import OscalValidation.Text.Pattern

set_option autoImplicit false

/-! # Reading patterns

The written form of a pattern: characters stand for themselves, a full stop for any
character but a line feed, brackets for sets, `\d`, `\s` and `\w` and their capitals for
kinds, `^`, `$`, `\A`, `\Z`, `\b` and `\B` for anchors, parentheses group, a bar separates
choices, and `*`, `+`, `?` and braces repeat. A text that is no written form is refused.
-/

namespace OscalValidation.Text

namespace Pattern

def ofChar (c : Char) : Pattern := one ⟨false, [.range c c]⟩

def hexValue? (digits : List Char) : Option Nat :=
  digits.foldlM (fun n c =>
    if c.isDigit then some (n * 16 + (c.toNat - 48))
    else if 'a' ≤ c ∧ c ≤ 'f' then some (n * 16 + (c.toNat - 87))
    else if 'A' ≤ c ∧ c ≤ 'F' then some (n * 16 + (c.toNat - 55))
    else none) 0

/-- A kind of characters by its letter; the capital stands for all others. -/
def kindOfLetter? : Char → Option CharPart
  | 'd' => some (.kind .digit false)
  | 'D' => some (.kind .digit true)
  | 's' => some (.kind .blank false)
  | 'S' => some (.kind .blank true)
  | 'w' => some (.kind .word false)
  | 'W' => some (.kind .word true)
  | _ => none

/-- The control characters that have letters. -/
def controlOfLetter? : Char → Option Char
  | 'n' => some '\n'
  | 't' => some '\t'
  | 'r' => some '\r'
  | 'f' => some '\x0c'
  | 'v' => some '\x0b'
  | 'a' => some '\x07'
  | '0' => some '\x00'
  | _ => none

/-- The character after a backslash: a control by its letter, a code of two, four or eight
hexadecimal digits, or a character that is no letter or digit for itself. -/
def readEscapedChar? : List Char → Option (Char × List Char)
  | [] => none
  | c :: rest =>
      let code (width : Nat) : Option (Char × List Char) :=
        if rest.length < width then none
        else (hexValue? (rest.take width)).map fun n => (Char.ofNat n, rest.drop width)
      match controlOfLetter? c with
      | some control => some (control, rest)
      | none =>
          if c = 'x' then code 2
          else if c = 'u' then code 4
          else if c = 'U' then code 8
          else if c.isAlphanum then none
          else some (c, rest)

/-! ## Sets -/

/-- One end of a range, or a kind, in a set. -/
def readSetItem? : List Char → Option (CharPart × List Char)
  | [] => none
  | '\\' :: 'b' :: rest => some (.range '\x08' '\x08', rest)
  | '\\' :: c :: rest =>
      match kindOfLetter? c with
      | some part => some (part, rest)
      | none => (readEscapedChar? (c :: rest)).map fun (c, rest) => (.range c c, rest)
  | c :: rest => some (.range c c, rest)

/-- The parts of a set up to its closing bracket, which does not count in first place. -/
def readSetParts? (first : Bool) : Nat → List Char → Option (List CharPart × List Char)
  | 0, _ => none
  | fuel + 1, cs =>
      match cs, first with
      | ']' :: rest, false => some ([], rest)
      | _, _ => do
          let (part, rest) ← readSetItem? cs
          let (part, rest) ← match part, rest with
            | .range low _, '-' :: next :: more =>
                if next = ']' then pure (part, rest)
                else match readSetItem? (next :: more) with
                  | some (.range high _, rest) =>
                      if low ≤ high then pure (.range low high, rest) else none
                  | _ => none
            | .kind _ _, '-' :: next :: _ =>
                if next = ']' then pure (part, rest) else none
            | _, _ => pure (part, rest)
          let (parts, rest) ← readSetParts? false fuel rest
          return (part :: parts, rest)

/-- The set whose opening bracket stands before `cs`. -/
def readSet? (cs : List Char) : Option (Pattern × List Char) :=
  match cs with
  | '^' :: rest =>
      (readSetParts? true (rest.length + 1) rest).map fun (parts, rest) => (one ⟨true, parts⟩, rest)
  | _ => (readSetParts? true (cs.length + 1) cs).map fun (parts, rest) => (one ⟨false, parts⟩, rest)

/-! ## Repetition -/

/-- The natural number that digits denote; none without digits. -/
def countOfDigits? (digits : List Char) : Option Nat :=
  if digits.isEmpty then none else some (digits.foldl (fun n c => 10 * n + (c.toNat - 48)) 0)

/-- The bounds in braces, whose opening brace stands before `cs`. Braces that hold anything
else are characters like others. -/
def readBounds? (cs : List Char) : Option ((Nat × Option Nat) × List Char) :=
  let least := cs.takeWhile Char.isDigit
  match cs.dropWhile Char.isDigit with
  | '}' :: rest => (countOfDigits? least).map fun n => ((n, some n), rest)
  | ',' :: rest =>
      let most := rest.takeWhile Char.isDigit
      match rest.dropWhile Char.isDigit with
      | '}' :: rest => some (((countOfDigits? least).getD 0, countOfDigits? most), rest)
      | _ => none
  | _ => none

/-- The mark of repetition at the start of `cs`. -/
def readRepeat? (cs : List Char) : Option ((Nat × Option Nat) × List Char) :=
  match cs with
  | '*' :: rest => some ((0, none), rest)
  | '+' :: rest => some ((1, none), rest)
  | '?' :: rest => some ((0, some 1), rest)
  | '{' :: rest => readBounds? rest
  | _ => none

def boundsOk : Nat × Option Nat → Bool
  | (least, some most) => least ≤ most
  | (_, none) => true

/-- The pattern `p` with the repetition that follows it, if one does. A second mark may only
say how to look for the match; an anchor may not be repeated by a mark of its own. -/
def applyRepeat? (p : Pattern) (cs : List Char) : Option (Pattern × List Char) :=
  match readRepeat? cs with
  | none => some (p, cs)
  | some (bounds, rest) =>
      let rest := match rest with
        | '?' :: rest => rest
        | '+' :: rest => rest
        | rest => rest
      let anchored := match p with
        | anchor _ => true
        | _ => false
      if !boundsOk bounds || anchored || (readRepeat? rest).isSome then none
      else some (p.times bounds.1 bounds.2, rest)

/-! ## Groups -/

/-- The opening of a group after its parenthesis: a mark for a group without a number, or with
a name, is passed over; other marks are refused. -/
def skipGroupMark? : List Char → Option (List Char)
  | '?' :: ':' :: rest => some rest
  | '?' :: 'P' :: '<' :: rest =>
      match rest.dropWhile (· != '>') with
      | '>' :: rest => some rest
      | _ => none
  | '?' :: _ => none
  | cs => some cs

/-- A pattern in parentheses; unlike an anchor, such a pattern may be repeated. -/
def grouped : Pattern → Pattern
  | anchor a => seq (anchor a) empty
  | p => p

mutual

/-- The choices up to a closing parenthesis or the end. -/
def readChoices? : Nat → List Char → Option (Pattern × List Char)
  | 0, _ => none
  | fuel + 1, cs => do
      let (p, rest) ← readSequence? fuel cs
      match rest with
      | '|' :: rest =>
          let (q, rest) ← readChoices? fuel rest
          return (orElse p q, rest)
      | rest => return (p, rest)

/-- The sequence up to a bar, a closing parenthesis or the end. -/
def readSequence? : Nat → List Char → Option (Pattern × List Char)
  | 0, _ => none
  | fuel + 1, cs =>
      match cs with
      | [] => some (empty, [])
      | '|' :: _ | ')' :: _ => some (empty, cs)
      | cs => do
          let (p, rest) ← readAtom? fuel cs
          let (p, rest) ← applyRepeat? p rest
          let (q, rest) ← readSequence? fuel rest
          return (andThen p q, rest)

/-- One character, set, anchor or group. -/
def readAtom? : Nat → List Char → Option (Pattern × List Char)
  | 0, _ | _, [] => none
  | fuel + 1, c :: rest =>
      match c with
      | '.' => some (one ⟨true, [.range '\n' '\n']⟩, rest)
      | '^' => some (anchor .start, rest)
      | '$' => some (anchor .lineEnd, rest)
      | '[' => readSet? rest
      | '(' => do
          let inner ← skipGroupMark? rest
          let (p, rest) ← readChoices? fuel inner
          match rest with
          | ')' :: rest => return (grouped p, rest)
          | _ => none
      | '*' | '+' | '?' => none
      | '{' => if (readBounds? rest).isSome then none else some (ofChar '{', rest)
      | '\\' =>
          match rest with
          | 'A' :: rest => some (anchor .start, rest)
          | 'Z' :: rest => some (anchor .textEnd, rest)
          | 'b' :: rest => some (anchor (.wordBoundary false), rest)
          | 'B' :: rest => some (anchor (.wordBoundary true), rest)
          | letter :: more =>
              match kindOfLetter? letter with
              | some part => some (one ⟨false, [part]⟩, more)
              | none => (readEscapedChar? rest).map fun (c, rest) => (ofChar c, rest)
          | [] => none
      | c => some (ofChar c, rest)

end

/-- **The pattern of a written form.** -/
def read? (source : String) : Option Pattern :=
  match readChoices? (3 * source.length + 3) source.toList with
  | some (p, []) => some p
  | _ => none

end Pattern

end OscalValidation.Text

import OscalValidation.Text.Blank
import OscalValidation.Text.WordCharacter

set_option autoImplicit false

/-! # Patterns

A pattern describes the texts it is found in. It is built from single characters, anchors,
sequence, choice and repetition. Whether a pattern is found is decided by derivatives: after
reading a character the pattern becomes one for what may follow. An anchor reads nothing; it
holds or fails by the character before and the characters after its place.
-/

namespace OscalValidation.Text

/-! ## Sets of characters -/

/-- A kind of characters that has a letter of its own in patterns. -/
inductive CharKind
  | digit
  | blank
  | word
deriving DecidableEq

/-- The character is of the kind. -/
def CharKind.contains : CharKind → Char → Bool
  | .digit, c => isDecimalDigit c
  | .blank, c => isBlank c
  | .word, c => isWordCharacter c

/-- A part of a set of characters. -/
inductive CharPart
  /-- The characters from `first` to `last`. -/
  | range (first last : Char)
  /-- The characters of a kind, or those that are not. -/
  | kind (kind : CharKind) (negated : Bool)
deriving DecidableEq

/-- The character belongs to the part. -/
def CharPart.contains : CharPart → Char → Bool
  | .range first last, c => first ≤ c && c ≤ last
  | .kind k negated, c => k.contains c != negated

/-- A set of characters: the union of its parts, or all characters outside of it. -/
structure CharSet where
  /-- The characters outside of the parts are meant. -/
  negated : Bool
  parts : List CharPart
deriving DecidableEq

/-- The character belongs to the set. -/
def CharSet.contains (set : CharSet) (c : Char) : Bool :=
  set.parts.any (·.contains c) != set.negated

/-! ## Patterns -/

/-- A condition on a place in a text. -/
inductive Anchor
  | start
  /-- The end of the text, or the place before a line feed that ends it. -/
  | lineEnd
  | textEnd
  /-- A place between a word character and none, or one where that is not so; a text without
  characters has neither. -/
  | wordBoundary (negated : Bool)
deriving DecidableEq

/-- A place in a text: the character before it, if there is one, and the characters after. -/
structure Surroundings where
  before : Option Char
  after : List Char

/-- The anchor holds at a place. -/
def Anchor.holds (place : Surroundings) : Anchor → Bool
  | .start => place.before.isNone
  | .lineEnd => place.after.isEmpty || place.after == ['\n']
  | .textEnd => place.after.isEmpty
  | .wordBoundary negated =>
      (place.before.isSome || !place.after.isEmpty) &&
        ((place.before.any isWordCharacter) != (place.after.head?.any isWordCharacter)) != negated

/-- **A pattern.** -/
inductive Pattern
  | never
  | empty
  | one (set : CharSet)
  /-- The empty text at a place where the anchor holds. -/
  | anchor (anchor : Anchor)
  /-- A match of the first followed by a match of the second. -/
  | seq (first second : Pattern)
  | alt (first second : Pattern)
  /-- Any number of matches in a row. -/
  | star (body : Pattern)
deriving DecidableEq

namespace Pattern

/-- Sequence, with the two patterns that need no sequence taken out. -/
def andThen : Pattern → Pattern → Pattern
  | never, _ => never
  | _, never => never
  | empty, q => q
  | p, empty => p
  | p, q => seq p q

/-- Choice, without a choice between equal patterns or one that never matches. -/
def orElse : Pattern → Pattern → Pattern
  | never, q => q
  | p, never => p
  | p, alt q r => if p = q ∨ p = r then alt q r else alt p (alt q r)
  | p, q => if p = q then p else alt p q

/-- The pattern matches the empty text at a place. -/
def matchesEmpty (place : Surroundings) : Pattern → Bool
  | never | one _ => false
  | empty | star _ => true
  | anchor a => a.holds place
  | seq p q => p.matchesEmpty place && q.matchesEmpty place
  | alt p q => p.matchesEmpty place || q.matchesEmpty place

/-- What must match after the character `c` that comes next at a place. -/
def derivative (place : Surroundings) (c : Char) : Pattern → Pattern
  | never | empty | anchor _ => never
  | one set => if set.contains c then empty else never
  | seq p q =>
      let first := andThen (p.derivative place c) q
      if p.matchesEmpty place then orElse first (q.derivative place c) else first
  | alt p q => orElse (p.derivative place c) (q.derivative place c)
  | star p => andThen (p.derivative place c) (star p)

/-- A match that may begin here, or one under way as `current`, ends somewhere in `cs`. -/
def searchFrom (pattern : Pattern) (before : Option Char) (current : Pattern) :
    List Char → Bool
  | [] => (orElse current pattern).matchesEmpty ⟨before, []⟩
  | c :: rest =>
      let here : Surroundings := ⟨before, c :: rest⟩
      let active := orElse current pattern
      active.matchesEmpty here || searchFrom pattern (some c) (active.derivative here c) rest

/-- **The pattern is found in a text.** -/
def foundIn (pattern : Pattern) (s : String) : Bool :=
  pattern.searchFrom none never s.toList

/-- `p` between `least` and `most` times in a row; without `most` any number of times from
`least` on. -/
def times (p : Pattern) (least : Nat) (most : Option Nat) : Pattern :=
  let tail := match most with
    | none => star p
    | some most => (List.range (most - least)).foldl (fun q _ => orElse empty (andThen p q)) empty
  (List.range least).foldl (fun q _ => andThen p q) tail

end Pattern

end OscalValidation.Text

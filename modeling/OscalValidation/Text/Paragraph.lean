import OscalValidation.Text.Blank

set_option autoImplicit false

/-! # Paragraphs

Prose is divided into paragraphs by blank lines: a blank line is a stretch of blank
characters with two line feeds in it. A paragraph is trimmed, and an empty one is dropped
unless nothing else is left.
-/

namespace OscalValidation.Text

/-- The pieces of a text between its blank lines. There is always at least one. -/
def splitBlankLines (cs : List Char) : List (List Char) :=
  match cs with
  | [] => [[]]
  | c :: rest =>
      if c = '\n' ∧ '\n' ∈ rest.takeWhile isBlank then
        [] :: splitBlankLines (rest.dropWhile isBlank)
      else
        match splitBlankLines rest with
        | [] => [[c]]
        | piece :: pieces => (c :: piece) :: pieces
termination_by cs.length
decreasing_by
  · have := (List.dropWhile_sublist (l := rest) isBlank).length_le
    simp only [List.length_cons]
    omega
  · simp

/-- The paragraphs of a text, given and returned as lists of characters. -/
def paragraphsOfChars (cs : List Char) : List (List Char) :=
  match ((splitBlankLines cs).map trimChars).filter (!·.isEmpty) with
  | [] => [trimChars cs]
  | paragraphs => paragraphs

/-- **The paragraphs of a text.** They are trimmed; only a text that is blank as a whole has
an empty paragraph. -/
def paragraphs (s : String) : List String :=
  (paragraphsOfChars s.toList).map String.ofList

end OscalValidation.Text

set_option autoImplicit false

/-! # Console markup

What is printed may hold marks in brackets that set colours and weight. Text that comes from
elsewhere is escaped, so that nothing in it reads as a mark: a backslash stands before each
bracket that would open one.
-/

namespace OscalValidation.Console

/-- A mark may begin with the character. -/
def beginsMark (c : Char) : Bool :=
  ('a' ≤ c && c ≤ 'z') || c == '#' || c == '/' || c == '@'

/-- What follows a bracket makes it open a mark. -/
def opensMark : List Char → Bool
  | c :: rest =>
      beginsMark c && (rest.dropWhile fun d => d != '[' && d != ']').head? == some ']'
  | [] => false

/-- Characters after a number of backslashes, with every bracket that opens a mark escaped; the
backslashes in front of such a bracket are doubled. -/
def escapeAfter (slashes : Nat) : List Char → List Char
  | [] => List.replicate slashes '\\'
  | '\\' :: rest => escapeAfter (slashes + 1) rest
  | '[' :: rest =>
      List.replicate (if opensMark rest then 2 * slashes + 1 else slashes) '\\' ++
        '[' :: escapeAfter 0 rest
  | c :: rest => List.replicate slashes '\\' ++ c :: escapeAfter 0 rest

/-- Characters that do not end in a single backslash, which would escape what comes next. -/
def closeSlashes (cs : List Char) : List Char :=
  match cs.reverse with
  | '\\' :: '\\' :: _ => cs
  | '\\' :: _ => cs ++ ['\\']
  | _ => cs

/-- **A text without marks.** -/
def escape (s : String) : String := String.ofList (closeSlashes (escapeAfter 0 s.toList))

/-- What is handed to the console. -/
inductive Item
  /-- A line, which may hold marks. -/
  | line (content : String)
  | panel (content style : String)
  /-- A table with a title, the headings of its columns, and its rows. -/
  | table (title : String) (columns : List String) (rows : List (List String))
deriving DecidableEq

end OscalValidation.Console

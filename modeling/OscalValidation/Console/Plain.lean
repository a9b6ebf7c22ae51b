import OscalValidation.Console.Markup

set_option autoImplicit false

/-! # Plain text on the console

Where there are no colours, an item is shown as lines of plain text: marks drop out, escaped
brackets lose their backslash, a panel gets a frame, and the cells of a table stand in columns.
-/

namespace OscalValidation.Console

/-- Characters after a number of backslashes, inside or outside a mark, without their marks. Of
the backslashes in front of a bracket that could open a mark every second one stays, and an odd
one escapes the bracket. -/
def dropMarks (inMark : Bool) (slashes : Nat) : List Char → List Char
  | [] => List.replicate slashes '\\'
  | c :: rest =>
      if inMark then dropMarks (c != ']') 0 rest
      else if c = '\\' then dropMarks false (slashes + 1) rest
      else if c = '[' ∧ opensMark rest then
        let kept := List.replicate (slashes / 2) '\\'
        if slashes % 2 = 1 then kept ++ '[' :: dropMarks false 0 rest
        else kept ++ dropMarks true 0 rest
      else List.replicate slashes '\\' ++ c :: dropMarks false 0 rest

/-- **A text as it is shown,** without its marks. -/
def plain (s : String) : String := String.ofList (dropMarks false 0 s.toList)

/-- A text filled with blanks up to a width. -/
def fill (width : Nat) (s : String) : String :=
  s ++ String.ofList (List.replicate (width - s.length) ' ')

/-- The width that a column needs. -/
def widest (texts : List String) : Nat := (texts.map String.length).foldl max 0

/-- The lines of a panel: a frame around the lines of its text. -/
def panelLines (content : String) : List String :=
  let lines := (plain content).splitOn "\n"
  let width := widest lines
  let bar := String.ofList (List.replicate (width + 2) '─')
  ["╭" ++ bar ++ "╮"] ++ lines.map (fun line => "│ " ++ fill width line ++ " │") ++
    ["╰" ++ bar ++ "╯"]

/-- The lines of a table: its title, the headings, and the rows in columns. -/
def tableLines (title : String) (columns : List String) (rows : List (List String)) :
    List String :=
  let shown := columns :: rows.map (·.map plain)
  let widths := (List.range columns.length).map fun n =>
    widest (shown.map fun row => row.getD n "")
  plain title :: shown.map fun row => "  ".intercalate (List.zipWith fill widths row)

/-- **The lines that show an item.** -/
def Item.lines : Item → List String
  | .line content => (plain content).splitOn "\n"
  | .panel content _ => panelLines content
  | .table title columns rows => tableLines title columns rows

end OscalValidation.Console

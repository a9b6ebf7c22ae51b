set_option autoImplicit false

/-! # Ranges of code points

A property of characters is kept as a table of closed ranges of code points, in
increasing order. The modules of this folder that hold such a table say which property
it is; the tables are those of version 14 of the Unicode character database.
-/

namespace OscalValidation.Text

/-- `c` lies in one of the closed ranges of `table`. -/
def inRanges (table : List (Nat × Nat)) (c : Char) : Bool :=
  table.any fun range => range.1 ≤ c.toNat && c.toNat ≤ range.2

end OscalValidation.Text

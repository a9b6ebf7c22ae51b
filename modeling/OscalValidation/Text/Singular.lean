set_option autoImplicit false

/-! # Singular forms

An array has a plural name, and each of its items becomes an element whose name is the
singular. The rules are those of English spelling, applied to the ending alone.
-/

namespace OscalValidation.Text

/-- The name ends in `es` after a sibilant, as `classes`, `boxes`, `matches`, `hashes` do. -/
def endsInSibilantPlural (name : List Char) : Bool :=
  ["sses", "xes", "ches", "shes"].any fun ending => ending.toList.isSuffixOf name

/-- The singular of a name given as its characters. -/
def singularChars (name : List Char) : List Char :=
  if "ies".toList.isSuffixOf name then name.take (name.length - 3) ++ ['y']
  else if endsInSibilantPlural name then name.take (name.length - 2)
  else if "s".toList.isSuffixOf name && !"ss".toList.isSuffixOf name then name.dropLast
  else name

/-- **The singular of a name:** `ies` becomes `y`; `es` is dropped after a sibilant; a final
`s` is dropped unless it is doubled; any other name is its own singular. -/
def singular (name : String) : String :=
  String.ofList (singularChars name.toList)

end OscalValidation.Text

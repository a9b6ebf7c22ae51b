import OscalValidation.Text.Caseless

set_option autoImplicit false

/-! # Patterns of addresses

An address pattern is a text with parameters, each written as a colon and a name. An address
matches if its fixed parts are those of the pattern, whatever their case, and each parameter
stands for at least one character and no slash. One slash may follow at the end, unless the
pattern ends in one.
-/

namespace OscalValidation.Site

/-- A part of an address pattern. -/
inductive PatternPart
  /-- A character that stands for itself. -/
  | fixed (c : Char)
  | parameter (name : String)
deriving DecidableEq

/-- **An address pattern.** -/
structure AddressPattern where
  parts : List PatternPart
  mayEndInSlash : Bool
deriving DecidableEq

/-- A character of a parameter's name. -/
def isNameChar (c : Char) : Bool := ('a' ≤ c && c ≤ 'z') || c == '_'

/-- The name that ends a run of characters, and the parts that they are: `name` holds the
characters of a name that is being read, the last one first. -/
def closeName (name : List Char) (parts : List PatternPart) : List PatternPart :=
  match name with
  | [] => .fixed ':' :: parts
  | _ => .parameter (String.ofList name.reverse) :: parts

/-- The parts of a pattern; inside the name of a parameter `name` holds its characters, the
last one first. -/
def partsOf (name : Option (List Char)) : List Char → List PatternPart
  | [] =>
      match name with
      | none => []
      | some name => closeName name []
  | c :: rest =>
      match name with
      | some name =>
          if isNameChar c then partsOf (some (c :: name)) rest
          else if c = ':' then closeName name (partsOf (some []) rest)
          else closeName name (.fixed c :: partsOf none rest)
      | none => if c = ':' then partsOf (some []) rest else .fixed c :: partsOf none rest

namespace AddressPattern

/-- The pattern that a text spells. -/
def ofString (template : String) : AddressPattern :=
  ⟨partsOf none template.toList, template.toList.getLast? != some '/'⟩

def parameters (pattern : AddressPattern) : List String :=
  pattern.parts.filterMap fun
    | .parameter name => some name
    | .fixed _ => none

/-- The values of the parameters in parts that make up a whole address. Each value is as long
as the rest allows. -/
def matchParts (mayEndInSlash : Bool) : List PatternPart → List Char →
    Option (List (String × String))
  | [], [] => some []
  | [], rest => if mayEndInSlash && rest == ['/'] then some [] else none
  | .fixed p :: parts, c :: rest =>
      if Text.sameCaseless p c then matchParts mayEndInSlash parts rest else none
  | .fixed _ :: _, [] => none
  | .parameter name :: parts, cs =>
      (List.range (cs.takeWhile (· != '/')).length).reverse.findSome? fun shorter =>
        (matchParts mayEndInSlash parts (cs.drop (shorter + 1))).map
          ((name, String.ofList (cs.take (shorter + 1))) :: ·)

/-- **The values of the parameters in an address,** if it matches. -/
def match? (pattern : AddressPattern) (address : String) : Option (List (String × String)) :=
  matchParts pattern.mayEndInSlash pattern.parts address.toList

/-- The address with values for the parameters; the first name without a value if one has
none. -/
def format (pattern : AddressPattern) (values : List (String × String)) :
    Except String String := do
  let pieces ← pattern.parts.mapM fun part =>
    match part with
    | .fixed c => pure (String.singleton c)
    | .parameter name =>
        match values.lookup name with
        | some value => pure value
        | none => throw name
  return String.join pieces

end AddressPattern

end OscalValidation.Site

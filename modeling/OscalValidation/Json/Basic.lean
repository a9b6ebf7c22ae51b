import OscalValidation.Decimal.Binary64

set_option autoImplicit false

/-! # Object documents

A document in the object representation is a tree of objects, arrays and scalars. The
members of an object keep their order, and no name occurs twice among them: setting a name
that is already there replaces the value in its place. Numbers spelled without fraction and
exponent are integers of any size; the others are numbers of double precision.
-/

namespace OscalValidation

/-- **A value of an object document.** -/
inductive Json
  /-- The value that stands for nothing. -/
  | null
  | bool (value : Bool)
  | int (value : Int)
  /-- A number with a fraction or an exponent. -/
  | real (value : Binary64)
  | str (value : String)
  | arr (items : List Json)
  | obj (members : List (String × Json))
deriving Inhabited

namespace Json

/-! ## Members -/

/-- The members after `name` was given `value`: in the place of `name` if it is there, else
at the end. -/
def setMember (name : String) (value : Json) : List (String × Json) → List (String × Json)
  | [] => [(name, value)]
  | (key, old) :: rest =>
      if key = name then (key, value) :: rest else (key, old) :: setMember name value rest

/-- The members after those of the second list were set one by one. -/
def setMembers (members added : List (String × Json)) : List (String × Json) :=
  added.foldl (fun done member => setMember member.1 member.2 done) members

/-- The value of a member; only an object has any. -/
def member? : Json → String → Option Json
  | obj members, name => members.lookup name
  | _, _ => none

/-- A text that may be missing. -/
def ofText? : Option String → Json
  | some s => str s
  | none => null

def ofTexts (texts : List String) : Json := arr (texts.map str)

def ofNames (names : List (String × String)) : Json :=
  obj (names.map fun (name, text) => (name, str text))

def ofNat (n : Nat) : Json := int n

/-- The text, if the value is one. -/
def text? : Json → Option String
  | str value => some value
  | _ => none

/-- The items, if the value is an array. -/
def items? : Json → Option (List Json)
  | arr items => some items
  | _ => none

/-- Whether a value counts as given: nothing, `false`, zero and whatever is empty do not. -/
def isGiven : Json → Bool
  | null => false
  | bool value => value
  | int value => value != 0
  | real value => !value.sameValue (.zero false)
  | str value => !value.isEmpty
  | arr items => !items.isEmpty
  | obj members => !members.isEmpty

/-! ## Long integers

An integer can be read from a text, and written as one, up to a number of digits. -/

/-- How many digits an integer may have where it is read or written. -/
def maxIntegerDigits : Nat := 4300

/-- An integer with more digits than can be written. -/
@[irreducible]
def isLong (value : Int) : Bool := Nat.pow 10 maxIntegerDigits ≤ value.natAbs

mutual

/-- There is an integer in the value that cannot be written. -/
def holdsLong : Json → Bool
  | int value => isLong value
  | arr items => itemsHoldLong items
  | obj members => membersHoldLong members
  | _ => false

def itemsHoldLong : List Json → Bool
  | [] => false
  | item :: rest => holdsLong item || itemsHoldLong rest

def membersHoldLong : List (String × Json) → Bool
  | [] => false
  | (_, value) :: rest => holdsLong value || membersHoldLong rest

end

/-! ## Equality of values

Values are compared by what they denote: an integer equals the number of double precision
with the same value, and the order of members does not count. In one reading of equality a
truth value also equals the number one or zero. The value that is no number equals itself. -/

/-- The value of a scalar that counts as an integer. -/
def asInt? (truthIsNumber : Bool) : Json → Option Int
  | int value => some value
  | bool value => if truthIsNumber then some (if value then 1 else 0) else none
  | _ => none

/-- Equality of scalars; of arrays and objects it is false. -/
def sameScalar (truthIsNumber : Bool) : Json → Json → Bool
  | null, null => true
  | str a, str b => a == b
  | real .nan, real .nan => true
  | real a, real b => a.sameValue b
  | bool a, bool b => a == b
  | real a, b => match asInt? truthIsNumber b with
      | some n => a.equalsInt n
      | none => false
  | a, real b => match asInt? truthIsNumber a with
      | some n => b.equalsInt n
      | none => false
  | a, b => match asInt? truthIsNumber a, asInt? truthIsNumber b with
      | some m, some n => m == n
      | _, _ => false

mutual

def same (truthIsNumber : Bool) : Json → Json → Bool
  | arr xs, arr ys => sameItems truthIsNumber xs ys
  | obj xs, obj ys => xs.length == ys.length && sameMembers truthIsNumber xs ys
  | x, y => sameScalar truthIsNumber x y

/-- The two lists of items are equal item by item. -/
def sameItems (truthIsNumber : Bool) : List Json → List Json → Bool
  | [], [] => true
  | x :: xs, y :: ys => same truthIsNumber x y && sameItems truthIsNumber xs ys
  | _, _ => false

/-- Every member of the first list has an equal one in the second. -/
def sameMembers (truthIsNumber : Bool) : List (String × Json) → List (String × Json) → Bool
  | [], _ => true
  | (name, x) :: xs, ys =>
      (match ys.lookup name with
        | some y => same truthIsNumber x y
        | none => false) && sameMembers truthIsNumber xs ys

end

end Json

end OscalValidation

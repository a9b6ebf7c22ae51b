set_option autoImplicit false

/-! # Places in a document

A place is the way from the root of an object document to one of its values: the names of
members and the positions of items that are passed. Diagnostics name the place they are
about.
-/

namespace OscalValidation

/-- One step down in a document. -/
inductive Step
  /-- To the member of an object. -/
  | member (name : String)
  /-- To the item of an array; the first has position zero. -/
  | item (position : Nat)
deriving DecidableEq

def Step.text : Step → String
  | .member name => name
  | .item position => toString position

/-- **A place:** the steps from the root, the last one first. -/
structure Place where
  /-- The steps, the last one first. -/
  upward : List Step
deriving DecidableEq

namespace Place

def root : Place := ⟨[]⟩

def below (place : Place) (step : Step) : Place := ⟨step :: place.upward⟩

/-- The texts of the steps from the root. -/
def texts (place : Place) : List String := (place.upward.map Step.text).reverse

/-- The place as diagnostics name it. -/
def text (place : Place) : String := " -> ".intercalate place.texts

end Place

end OscalValidation

import Mathlib.Algebra.BigOperators.Group.List.Basic
import OscalValidation.Proofs.Conversion.Representation

set_option autoImplicit false

/-! # Counting elements

An element that represents a value has, in all, as many elements in it as members and items that
become elements and paragraphs that scalars are divided into (`countElements_of_represents`).
-/

namespace OscalValidation

namespace Conversion

open Xml (Node Attribute countElements)

variable {rules : ConversionRules} {Left : List Attribute → List Attribute → Prop} {label : Label}

/-! ## Branches -/

theorem length_branches (members : List (String × Json)) :
    (branches rules label members).length = memberElements rules label (.obj members) := by
  rw [branches, List.length_flatMap, memberElements]
  congr 1
  refine List.map_congr_left fun member _ => ?_
  obtain ⟨key, value⟩ := member
  cases value with
  | arr items => simp [branchesOf]
  | _ => rfl

theorem branches_cons (key : String) (value : Json) (rest : List (String × Json)) :
    branches rules label ((key, value) :: rest) =
      (if rules.isValue label key || rules.isFlag label key then []
        else branchesOf rules (key, value)) ++ branches rules label rest := by
  cases hv : rules.isValue label key <;> cases hf : rules.isFlag label key <;>
    simp [branches, childMembers, hv, hf]

/-! ## Sums -/

section Sums

variable (weight : Label → Json → Nat)

theorem sum_items (items : List Json) :
    ((items.map fun item => (label, item)).map fun b => sumOver rules weight b.1 b.2).sum =
      sumOverItems rules weight label items := by
  induction items with
  | nil => rfl
  | cons item rest ih => rw [sumOverItems, ← ih, List.map_cons, List.map_cons, List.sum_cons]

theorem sumOverMembers_cons (key : String) (value : Json) (rest : List (String × Json)) :
    sumOverMembers rules weight label ((key, value) :: rest) =
      (if rules.isValue label key || rules.isFlag label key then 0
        else ((branchesOf rules (key, value)).map fun b => sumOver rules weight b.1 b.2).sum) +
        sumOverMembers rules weight label rest := by
  cases value with
  | arr items => rw [sumOverMembers, branchesOf, sum_items]
  | _ => simp [sumOverMembers, branchesOf]

/-- The sum over the members of an object is that over the elements they become. -/
theorem sum_branches (members : List (String × Json)) :
    ((branches rules label members).map fun b => sumOver rules weight b.1 b.2).sum =
      sumOverMembers rules weight label members := by
  induction members with
  | nil => rfl
  | cons member rest ih =>
      obtain ⟨key, value⟩ := member
      rw [branches_cons, List.map_append, List.sum_append, ih, sumOverMembers_cons]
      split
      · rfl
      · rfl

/-- A scalar stands for its element alone. -/
theorem sumOver_of_scalarText? {value : Json} {text : String}
    (h : value.scalarText? = some text) : sumOver rules weight label value = weight label value := by
  cases value with
  | obj members => cases h
  | _ => rfl

end Sums

/-! ## Elements -/

theorem countElements_append (xs ys : List Node) :
    countElements (xs ++ ys) = countElements xs + countElements ys := by
  induction xs with
  | nil => simp [countElements]
  | cons x rest ih => rw [List.cons_append, countElements, countElements, ih, Nat.add_assoc]

theorem countElements_texts (texts : List String) : countElements (texts.map .text) = 0 := by
  induction texts with
  | nil => rfl
  | cons text rest ih => simp [countElements, Node.elementCount, ih]

theorem countElements_paragraphs (contents : List String) :
    countElements (contents.map paragraphNode) = contents.length := by
  induction contents with
  | nil => rfl
  | cons content rest ih =>
      rw [List.map_cons, countElements, ih, paragraphNode, List.length_cons, Nat.add_comm]
      simp [countElements, Node.elementCount]

/-- The elements of a value, the element of the value itself excluded: those of its members,
and the paragraphs. -/
def contentElements (rules : ConversionRules) (label : Label) (value : Json) : Nat :=
  sumOver rules (memberElements rules) label value +
    sumOver rules (paragraphElements rules) label value

theorem contentElements_of_scalarText? {value : Json} {text : String}
    (h : value.scalarText? = some text) : contentElements rules label value =
      if rules.isProse label then (Text.paragraphs text).length else 0 := by
  have hmember : memberElements rules label value = 0 := by
    cases value with
    | obj members => cases h
    | _ => rfl
  rw [contentElements, sumOver_of_scalarText? _ h, sumOver_of_scalarText? _ h, hmember,
    Nat.zero_add, paragraphElements, h]

theorem paragraphElements_obj (members : List (String × Json)) :
    paragraphElements rules label (.obj members) = 0 :=
  rfl

mutual

/-- **The contents that represent a value have as many elements as the value has members and
items that become elements, and paragraphs.** -/
theorem countElements_of_represents {label : Label} {value : Json} {attributes : List Attribute}
    {contents : List Node} : Represents rules Left label value attributes contents →
      countElements contents = contentElements rules label value
  | .object _ _ _ others => by
      rw [countElements_append, countElements_texts, Nat.zero_add,
        countElements_of_representAll others, length_branches]
      unfold contentElements
      -- both weights are summed over the branches, which are the members that become elements
      rw [List.sum_map_add, sum_branches, sum_branches, sumOver, sumOver, paragraphElements_obj]
      omega
  | .prose isProse scalar => by
      rw [countElements_paragraphs, contentElements_of_scalarText? scalar, if_pos isProse]
  | .text isPlain scalar => by
      rw [contentElements_of_scalarText? scalar, isPlain, if_neg Bool.false_ne_true]
      simp [countElements, Node.elementCount]

theorem countElements_of_representAll {values : List (Label × Json)} {nodes : List Node} :
    RepresentAll rules Left values nodes →
      countElements nodes = values.length + (values.map fun b => contentElements rules b.1 b.2).sum
  | .nil => rfl
  | .cons first others => by
      rw [countElements, Node.elementCount, countElements_of_represents first,
        countElements_of_representAll others, List.length_cons, List.map_cons, List.sum_cons]
      dsimp only
      omega

end

end Conversion

end OscalValidation

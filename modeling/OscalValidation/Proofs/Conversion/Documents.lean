import OscalValidation.Proofs.Conversion.Counting
import OscalValidation.Proofs.Conversion.Faithful
import OscalValidation.Proofs.Schema.Demands

set_option autoImplicit false

/-! # Converted documents

Main statement: a document that is converted represents the root member, whatever the tables of
the converter say (`convert_represents`). No text or element is lost, repeated, invented or moved,
and so it is with attributes exactly if no two flags of an object give one name; only members that
are empty arrays leave no trace.
-/

namespace OscalValidation

open Conversion

namespace Conversion

/-- **A member leaves no attribute, text or element exactly if it is an empty array.** -/
theorem leavesNoTrace_iff {rules : ConversionRules} {label : Label} {place : Place}
    {member : String × Json} {parts : List Part}
    (h : memberParts rules label place [member] = .ok parts) :
    attributesOf parts = [] ∧ textOf parts = [] ∧ childrenOf parts = [] ↔
      member.2 = .arr [] := by
  obtain ⟨key, value⟩ := member
  by_cases hv : rules.isValue label key = true
  · obtain ⟨text, more, htext, hmore, rfl⟩ := memberParts_cons_value hv h
    cases hmore
    constructor
    · rintro ⟨-, ht, -⟩
      cases ht
    · rintro rfl
      cases htext
  by_cases hf : rules.isFlag label key = true
  · obtain ⟨a, more, ha, hmore, rfl⟩ := memberParts_cons_flag hv hf h
    cases hmore
    constructor
    · rintro ⟨hattributes, -, -⟩
      cases hattributes
    · rintro rfl
      cases ha.value
  cases value with
  | arr items =>
      obtain ⟨nodes, more, hnodes, hmore, rfl⟩ := memberParts_cons_items hv hf h
      cases hmore
      -- an array has as many elements as items, so only an empty one has none
      cases items with
      | nil =>
          cases hnodes
          exact ⟨fun _ => rfl, fun _ => ⟨rfl, rfl, rfl⟩⟩
      | cons item rest =>
          obtain ⟨-, inner, others, -, -, rfl⟩ := itemNodes_cons_eq_ok_iff.mp hnodes
          constructor
          · rintro ⟨-, -, hc⟩
            cases hc
          · intro hitems
            cases hitems
  | _ =>
      obtain ⟨inner, more, -, hmore, rfl⟩ :=
        memberParts_cons_element hv hf (fun _ => Json.noConfusion) h
      cases hmore
      constructor
      · rintro ⟨-, -, hc⟩
        cases hc
      · intro hitems
        cases hitems

end Conversion

namespace Converter

variable {converter : Converter} {type : DocumentType} {document : Json}

theorem rootMember_eq_ok_iff {name : String} {body : Json} :
    converter.rootMember type document = .ok (name, body) ↔
      converter.rules.root = .str name ∧ document.member? name = some body := by
  unfold rootMember
  cases converter.rules.root with
  | str root =>
      rw [Json.str.injEq]
      dsimp only
      split
      · next found hbody =>
        simp only [Except.ok.injEq, Prod.mk.injEq]
        constructor
        · rintro ⟨rfl, rfl⟩
          exact ⟨rfl, hbody⟩
        · rintro ⟨rfl, h⟩
          exact ⟨rfl, Option.some.inj (hbody.symm.trans h)⟩
      · next hbody =>
        refine ⟨fun h => (nomatch h), ?_⟩
        rintro ⟨rfl, h⟩
        rw [hbody] at h
        cases h
  | _ => cases document <;> simp

theorem conform_eq_ok_iff : converter.conform document = .ok () ↔
    converter.schema.violations document = [] ∧ converter.schema.further document = .ok [] := by
  rw [← SchemaDocument.findings_eq_ok_nil_iff]
  unfold conform
  split
  · next h => simp [h]
  · next h => simp [h]
  · next h =>
    rw [h]
    refine ⟨fun hok => ?_, fun hnil => ?_⟩
    · split at hok <;> cases hok
    · simp_all

theorem nameRoot_eq_ok_iff {name : String} :
    nameRoot name = .ok () ↔ Xml.checkElementName name = .ok () := by
  unfold nameRoot
  split <;> simp_all

/-- When a conversion succeeds, and what it makes. -/
theorem convert_eq_ok_iff {result : Xml.Document} :
    converter.convert type document = .ok result ↔
      ∃ (root : String) (body : Json) (parts : List Part), converter.rules.root = .str root ∧
        document.member? root = some body ∧ converter.conform document = .ok () ∧
        Xml.checkElementName root = .ok () ∧
        partsOf converter.rules root (Place.root.below (.member root)) body = .ok parts ∧
        result = ⟨[], assemble root declarations parts, []⟩ := by
  simp only [convert, bind_eq_ok_iff, Prod.exists, rootMember_eq_ok_iff, nameRoot_eq_ok_iff,
    pure_eq_ok_iff, Unique.exists_iff, PUnit.default_eq_unit, exists_and_left, and_assoc,
    eq_comm (b := result)]

/-- **A converted document represents the root member of the document it is made from,** if this has
distinct names, as every document that is read. Its elements are the root, the elements that
members and items become, and the paragraphs. Its attributes are those that are left of the flags,
and just the flags exactly if no two of an object give one name. -/
theorem convert_represents {result : Xml.Document}
    (h : converter.convert type document = .ok result) :
    (∀ text, Json.read text = .ok document → document.isDistinct = true) ∧
    (document.isDistinct = true →
      ∃ (root : String) (body : Json), converter.rules.root = .str root ∧
        document.member? root = some body ∧ result.before = [] ∧ result.after = [] ∧
        result.root.tag.name = elementName root ∧
        Represents converter.rules Leaves root body result.root.tag.attributes
          result.root.children ∧
        (Represents converter.rules Eq root body result.root.tag.attributes
            result.root.children ↔ FlagsApart converter.rules root body) ∧
        result.root.node.elementCount = 1 +
          sumOver converter.rules (memberElements converter.rules) root body +
          sumOver converter.rules (paragraphElements converter.rules) root body) ∧
    ∀ (label : Label) (place : Place) (member : String × Json) (parts : List Part),
      memberParts converter.rules label place [member] = .ok parts →
      (attributesOf parts = [] ∧ textOf parts = [] ∧ childrenOf parts = [] ↔
        member.2 = .arr []) := by
  refine ⟨fun text hread => Json.isDistinct_of_read hread, fun hd => ?_,
    fun label place member parts h => leavesNoTrace_iff h⟩
  obtain ⟨root, body, parts, hroot, hbody, -, -, hparts, rfl⟩ := convert_eq_ok_iff.mp h
  have hrepresents := represents_of_partsOf root _ body parts hparts
    (Json.isDistinct_of_member? hbody hd)
  refine ⟨root, body, hroot, hbody, rfl, rfl, rfl, hrepresents, hrepresents.eq_iff, ?_⟩
  have hcount := countElements_of_represents hrepresents
  rw [contentElements] at hcount
  rw [Nat.add_assoc, ← hcount]
  rfl

/-- A converter with an entry in each of its tables. -/
def specimen : Converter :=
  ⟨⟨.str "plan", ["id"], [("part", ["ns"])], .ofNames [("parts", "part")],
    .ofNames [("prop", "value")], [.str "remarks"]⟩, "plan.json", { root := .always, targets := [] }⟩

/-- A document with a member of each kind. -/
def specimenDocument : Json :=
  .obj [("plan", .obj [("title", .str "T"), ("id", .str "a"),
    ("parts", .arr [.obj [("ns", .str "n"), ("prop", .obj [("value", .int 3)])], .str "b"]),
    ("notes", .arr []), ("remarks", .str "one\n\ntwo")])]

/-- The document with a member of each kind becomes six elements and two paragraphs. -/
theorem convert_specimen : specimenDocument.isDistinct = true ∧
    ∃ body result, specimen.convert .ssp specimenDocument = .ok result ∧
      specimenDocument.member? "plan" = some body ∧
      Represents specimen.rules Leaves "plan" body result.root.tag.attributes
        result.root.children ∧
      result.root.node.elementCount = 8 := by
  have hd : specimenDocument.isDistinct = true := by decide
  have hok : (specimen.convert .ssp specimenDocument).isOk = true := by decide +kernel
  refine ⟨hd, ?_⟩
  cases h : specimen.convert .ssp specimenDocument with
  | error fault =>
      rw [h] at hok
      cases hok
  | ok result =>
      obtain ⟨-, hrepresented, -⟩ := convert_represents h
      obtain ⟨root, body, hroot, hbody, -, -, -, hrepresents, -, hcount⟩ := hrepresented hd
      cases hroot
      refine ⟨body, result, rfl, hbody, hrepresents, ?_⟩
      rw [hcount]
      cases hbody
      decide +kernel

/-! ## Flags of one name -/

/-- A flag in the notation with braces, which gives the name `b`. -/
def bracedFlag : String := "\x7b\x7d" ++ "b"

/-- A converter with two flags that give one name. -/
def clashing : Converter :=
  ⟨⟨.str "r", ["b", bracedFlag], [], .obj [], .obj [], []⟩, "s.json",
    { root := .always, targets := [] }⟩

def clashingDocument : Json := .obj [("r", .obj [("b", .str "1"), (bracedFlag, .str "2")])]

/-- **Of two flags that give one name only the value of the second is left.** -/
theorem convert_clashing : ∃ body result,
    clashing.convert .ssp clashingDocument = .ok result ∧
    clashingDocument.member? "r" = some body ∧
    result.root.tag.attributes = [⟨⟨none, none, "b"⟩, "2", false⟩] ∧
    ¬ Represents clashing.rules Eq "r" body result.root.tag.attributes result.root.children := by
  have hok : (clashing.convert .ssp clashingDocument).toOption.map (·.root.tag.attributes) =
      some [⟨⟨none, none, "b"⟩, "2", false⟩] := by decide +kernel
  cases h : clashing.convert .ssp clashingDocument with
  | error fault =>
      rw [h] at hok
      cases hok
  | ok result =>
      rw [h] at hok
      have hattributes : result.root.tag.attributes = [⟨⟨none, none, "b"⟩, "2", false⟩] :=
        Option.some.inj hok
      refine ⟨_, result, rfl, rfl, hattributes, fun hrepresents => ?_⟩
      -- there are two flags, and one attribute
      obtain ⟨written, -, -, flags, rfl, -⟩ := represents_obj_iff.mp hrepresents
      have hlength := flags.length_eq
      rw [hattributes] at hlength
      exact absurd hlength (by decide +kernel)

end Converter

end OscalValidation

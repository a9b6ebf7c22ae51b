import OscalValidation.Proofs.Conversion.Skeleton
import OscalValidation.Proofs.Text.Patterns

set_option autoImplicit false

/-! # Identifiers in converted documents

Where a bundled schema asks for an identifier, the element has one as an attribute
(`Converter.convert_identifiers`): five groups of hexadecimal digits that tell a version and a
variant (`IsUuid`), or these with a line feed behind them, since the pattern of the schema ends at
the end of a line and not of the text (`uuidPattern_iff`).
-/

namespace OscalValidation

namespace Conversion

open Xml (Element Attribute)
open Schema (Requires HasProperty HasItems HasPattern IsTyped Conforms)
open Text (CharSet Pattern)

/-! ## Identifiers as texts -/

def isHexDigit (c : Char) : Bool :=
  ('0' ≤ c && c ≤ '9') || ('A' ≤ c && c ≤ 'F') || ('a' ≤ c && c ≤ 'f')

/-- The group has so many characters, all of them hexadecimal digits. -/
def IsHexGroup (length : Nat) (group : List Char) : Prop :=
  group.length = length ∧ ∀ c ∈ group, isHexDigit c = true

/-- **The text is an identifier** of version 4 or 5: hexadecimal groups with hyphens between them,
and nothing else. -/
def IsUuid (s : String) : Prop :=
  ∃ (low mid : List Char) (version : Char) (high : List Char) (variant : Char)
    (clock node : List Char),
    s.toList = low ++ '-' :: (mid ++ '-' :: (version :: high ++ '-' ::
      (variant :: clock ++ '-' :: node))) ∧
    IsHexGroup 8 low ∧ IsHexGroup 4 mid ∧ version ∈ "45".toList ∧ IsHexGroup 3 high ∧
    variant ∈ "89ABab".toList ∧ IsHexGroup 3 clock ∧ IsHexGroup 12 node

theorem IsUuid.length {s : String} (h : IsUuid s) : s.length = 36 := by
  obtain ⟨low, mid, version, high, variant, clock, node, hs, ⟨hlow, -⟩, ⟨hmid, -⟩, -, ⟨hhigh, -⟩,
    -, ⟨hclock, -⟩, hnode, -⟩ := h
  rw [← String.length_toList, hs]
  simp only [List.length_append, List.length_cons, hlow, hmid, hhigh, hclock, hnode]

/-- An identifier does not end in a line feed. -/
theorem IsUuid.getLast?_ne {s : String} (h : IsUuid s) : s.toList.getLast? ≠ some '\n' := by
  obtain ⟨low, mid, version, high, variant, clock, node, hs, -, -, -, -, -, -, hnode, hhex⟩ := h
  intro hlast
  have hne : node ≠ [] := by
    rintro rfl
    cases hnode
  have hnode : s.toList.getLast? = node.getLast? := by
    rw [hs]
    simp [List.getLast?_append, List.getLast?_cons, List.getLast?_eq_some_getLast hne]
  rw [hnode] at hlast
  exact absurd (hhex '\n' (List.mem_of_getLast? hlast)) (by decide)

/-! ## The pattern of identifiers -/

def hexDigits : CharSet := ⟨false, [.range '0' '9', .range 'A' 'F', .range 'a' 'f']⟩

def hyphen : CharSet := ⟨false, [.range '-' '-']⟩

def versionDigits : CharSet := ⟨false, [.range '4' '4', .range '5' '5']⟩

def variantDigits : CharSet :=
  ⟨false, [.range '8' '8', .range '9' '9', .range 'A' 'A', .range 'B' 'B', .range 'a' 'a',
    .range 'b' 'b']⟩

/-- The sets that the characters of an identifier are of, in their order. -/
def uuidSets : List CharSet :=
  List.replicate 8 hexDigits ++ hyphen :: (List.replicate 4 hexDigits ++ hyphen ::
    (versionDigits :: List.replicate 3 hexDigits ++ hyphen ::
      (variantDigits :: List.replicate 3 hexDigits ++ hyphen :: List.replicate 12 hexDigits)))

/-- The characters are of the sets, one by one. -/
abbrev Spelled (sets : List CharSet) (cs : List Char) : Prop :=
  List.Forall₂ (fun set c => set.contains c = true) sets cs

theorem contains_single {c d : Char} : (Text.CharPart.range c c).contains d = true ↔ d = c := by
  rw [Text.CharPart.contains, Bool.and_eq_true, decide_eq_true_eq, decide_eq_true_eq]
  constructor
  · exact fun ⟨hfirst, hlast⟩ => Char.le_antisymm hlast hfirst
  · rintro rfl
    exact ⟨Char.le_refl d, Char.le_refl d⟩

theorem contains_hyphen {c : Char} : hyphen.contains c = true ↔ c = '-' := by
  simp [hyphen, CharSet.contains, contains_single]

theorem contains_versionDigits {c : Char} :
    versionDigits.contains c = true ↔ c ∈ "45".toList := by
  simp [versionDigits, CharSet.contains, contains_single]

theorem contains_variantDigits {c : Char} :
    variantDigits.contains c = true ↔ c ∈ "89ABab".toList := by
  simp [variantDigits, CharSet.contains, contains_single]

theorem contains_hexDigits (c : Char) : hexDigits.contains c = isHexDigit c := by
  simp [hexDigits, CharSet.contains, Text.CharPart.contains, isHexDigit, Bool.or_assoc]

theorem spelled_replicate_iff {n : Nat} {cs : List Char} :
    Spelled (List.replicate n hexDigits) cs ↔ IsHexGroup n cs := by
  induction n generalizing cs with
  | zero =>
      constructor
      · rintro ⟨⟩
        exact ⟨rfl, nofun⟩
      · rintro ⟨h, -⟩
        rw [List.length_eq_zero_iff.mp h]
        exact .nil
  | succ n ih =>
      rw [List.replicate_succ]
      constructor
      · rintro (_ | ⟨hc, hcs⟩)
        obtain ⟨hlength, hhex⟩ := ih.mp hcs
        exact ⟨congrArg (· + 1) hlength,
          List.forall_mem_cons.mpr ⟨(contains_hexDigits _).symm.trans hc, hhex⟩⟩
      · rintro ⟨hlength, hhex⟩
        cases cs with
        | nil => cases hlength
        | cons c cs =>
            obtain ⟨hc, hcs⟩ := List.forall_mem_cons.mp hhex
            exact .cons ((contains_hexDigits c).trans hc) (ih.mpr ⟨Nat.succ.inj hlength, hcs⟩)

/-- A group up to a hyphen. -/
theorem spelled_group_iff {group sets : List CharSet} {cs : List Char} :
    Spelled (group ++ hyphen :: sets) cs ↔
      ∃ front rest, cs = front ++ '-' :: rest ∧ Spelled group front ∧ Spelled sets rest := by
  induction group generalizing cs with
  | nil =>
      constructor
      · rintro (_ | ⟨hc, hrest⟩)
        exact ⟨[], _, congrArg (· :: _) (contains_hyphen.mp hc), .nil, hrest⟩
      · rintro ⟨_, rest, rfl, ⟨⟩, hrest⟩
        exact .cons (contains_hyphen.mpr rfl) hrest
  | cons set group ih =>
      constructor
      · rintro (_ | ⟨hc, hcs⟩)
        obtain ⟨front, rest, rfl, hfront, hrest⟩ := ih.mp hcs
        exact ⟨_ :: front, rest, rfl, .cons hc hfront, hrest⟩
      · rintro ⟨_, rest, rfl, _ | ⟨hc, hfront⟩, hrest⟩
        exact .cons hc (ih.mpr ⟨_, rest, rfl, hfront, hrest⟩)

theorem spelled_cons_iff {set : CharSet} {sets : List CharSet} {cs : List Char} :
    Spelled (set :: sets) cs ↔
      ∃ c rest, cs = c :: rest ∧ set.contains c = true ∧ Spelled sets rest :=
  List.forall₂_cons_left_iff.trans ⟨fun ⟨c, rest, hc, hrest, h⟩ => ⟨c, rest, h, hc, hrest⟩,
    fun ⟨c, rest, h, hc, hrest⟩ => ⟨c, rest, hc, hrest, h⟩⟩

theorem spelled_uuidSets_iff {s : String} : Spelled uuidSets s.toList ↔ IsUuid s := by
  unfold uuidSets IsUuid
  simp only [spelled_group_iff, spelled_cons_iff, spelled_replicate_iff, contains_versionDigits,
    contains_variantDigits]
  constructor
  · rintro ⟨low, _, hs, hlow, mid, _, rfl, hmid, _, _, rfl, ⟨version, high, rfl, hversion, hhigh⟩,
      _, node, rfl, ⟨variant, clock, rfl, hvariant, hclock⟩, hnode⟩
    exact ⟨low, mid, version, high, variant, clock, node, hs, hlow, hmid, hversion, hhigh, hvariant,
      hclock, hnode⟩
  · rintro ⟨low, mid, version, high, variant, clock, node, hs, hlow, hmid, hversion, hhigh,
      hvariant, hclock, hnode⟩
    exact ⟨low, _, hs, hlow, mid, _, rfl, hmid, _, _, rfl, ⟨version, high, rfl, hversion, hhigh⟩,
      _, node, rfl, ⟨variant, clock, rfl, hvariant, hclock⟩, hnode⟩

/-- **Where the pattern of identifiers is found:** in an identifier, with or without a line feed
behind it. -/
theorem uuidPattern_iff {s : String} :
    Schema.uuidPattern.foundIn s = true ↔ ∃ uuid, IsUuid uuid ∧ (s = uuid ∨ s = uuid ++ "\n") := by
  have hfactors : Schema.uuidPattern.factors =
      .anchor .start :: (uuidSets.map .one ++ [.anchor .lineEnd]) := by decide +kernel
  rw [Pattern.foundIn_line_iff hfactors]
  constructor
  · rintro ⟨line, hline, hs⟩
    refine ⟨String.ofList line, spelled_uuidSets_iff.mp (by rwa [String.toList_ofList]), ?_⟩
    rw [← String.toList_inj, ← String.toList_inj, String.toList_append, String.toList_ofList]
    exact hs
  · rintro ⟨uuid, huuid, hs⟩
    refine ⟨uuid.toList, spelled_uuidSets_iff.mpr huuid, ?_⟩
    rw [← String.toList_inj, ← String.toList_inj, String.toList_append] at hs
    exact hs

/-! ## Identifiers as attributes -/

section Attributes

variable {rules : ConversionRules} {label : Label} {key text : String} {value : Json} {e : Element}

/-- **A flag is an attribute** exactly if the value has the member, with its text. -/
theorem StandsFor.attribute?_iff (h : StandsFor rules label value e)
    (hnames : ∀ key ∈ rules.flagNames, IsName key)
    (hv : rules.isValue label key = false) (hf : rules.isFlag label key = true) :
    e.attribute? key = some text ↔
      ∃ given, value.member? key = some given ∧ given.scalarText? = some text := by
  constructor
  · intro hattribute
    obtain ⟨a, hfound, -⟩ := Option.map_eq_some_iff.mp hattribute
    have ha : a.name.localName = key := by
      have := List.find?_some hfound
      simp only [Bool.and_eq_true, beq_iff_eq] at this
      exact this.2
    cases value with
    | obj members =>
        -- the attribute is that of a member, so there is one of its name
        obtain ⟨_, _, hflags, -⟩ := h.parts
        obtain ⟨m, hm, hflag⟩ :=
          exists_of_mem_forall₂ hflags.flip (List.mem_of_find?_eq_some hfound)
        obtain ⟨hmember, hkind⟩ := List.mem_filter.mp hm
        rw [Bool.and_eq_true] at hkind
        have hname : IsName m.1 := hnames _ (ConversionRules.mem_flagNames_of_isFlag hkind.2)
        have hkey : m.1 = key := by rw [← ha, hname.spells_iff.mp hflag.name]
        have hisSome : (members.lookup key).isSome = true := by
          rw [List.lookup_isSome_iff]
          exact ⟨m, hmember, by rw [hkey]; exact beq_self_eq_true _⟩
        obtain ⟨given, hgiven⟩ := Option.isSome_iff_exists.mp hisSome
        obtain ⟨content, hcontent⟩ := h.scalar_of_flag hgiven hv hf
        rw [h.attribute_of_flag hnames hgiven hv hf hcontent] at hattribute
        exact ⟨given, hgiven, hcontent.trans hattribute⟩
    | _ =>
        obtain ⟨-, h⟩ := h
        generalize e.children = children at h
        generalize e.tag.attributes = attributes at h hfound
        cases h <;> cases hfound
  · rintro ⟨given, hgiven, htext⟩
    cases value with
    | obj members => exact h.attribute_of_flag hnames hgiven hv hf htext
    | _ => cases hgiven

end Attributes

/-! ## Elements with identifiers -/

/-- **An identifier below the root:** the one of an element whose schema asks for it. -/
def HasIdentifier (converter : Converter) (body : Json) (root : Element) (uuid : String) : Prop :=
  ∃ schema label value e, Describes converter body root schema label value e ∧
    HasProperty converter.schema.targets schema "uuid" Schema.uuidRef ∧
    e.attribute? "uuid" = some uuid

/-- The schema of an object leads along the names of members to that of the items of an array. -/
inductive LeadsTo (targets : List (String × Schema)) : Schema → List String → Schema → Prop
  | items {schema array inner : Schema} {key : String}
      (property : HasProperty targets schema key array) (described : HasItems targets array inner) :
      LeadsTo targets schema [key] inner
  | member {schema middle inner : Schema} {key : String} {path : List String}
      (property : HasProperty targets schema key middle) (rest : LeadsTo targets middle path inner) :
      LeadsTo targets schema (key :: path) inner

/-- The items of the array that the names of members lead to. -/
def itemsAt : List String → Json → List Json
  | [], .arr items => items
  | [], _ => []
  | key :: path, value => ((value.member? key).map (itemsAt path)).getD []

/-- The arrays in documents of a type whose items have identifiers. -/
def identifiedItems : DocumentType → List (List String)
  | .ssp => [["metadata", "parties"], ["control-implementation", "implemented-requirements"]]
  | .sap => [["metadata", "parties"]]
  | .sar => [["metadata", "parties"], ["results"]]
  | .poam => [["metadata", "parties"], ["poam-items"]]

theorem mem_itemsAt_cons {key : String} {path : List String} {value item : Json}
    (h : item ∈ itemsAt (key :: path) value) :
    ∃ members inner, value = .obj members ∧ members.lookup key = some inner ∧
      item ∈ itemsAt path inner := by
  rw [itemsAt] at h
  cases hmember : value.member? key with
  | none =>
      rw [hmember] at h
      cases h
  | some inner =>
      rw [hmember] at h
      cases value with
      | obj members => exact ⟨members, inner, rfl, hmember, h⟩
      | _ => cases hmember

section Describes

variable {converter : Converter} {body : Json} {root : Element} {schema inner : Schema}
  {label : Label} {value item : Json} {path : List String} {e : Element}

/-- **Items that a schema leads to are described,** each with an element. -/
theorem Describes.exists_itemAt
    (hall : ∀ schema label value e, Describes converter body root schema label value e →
      StandsFor converter.rules label value e)
    (hleads : LeadsTo converter.schema.targets schema path inner)
    (h : Describes converter body root schema label value e) (hitem : item ∈ itemsAt path value) :
    ∃ label e, Describes converter body root inner label item e := by
  induction hleads generalizing label value e with
  | @items schema array inner key property described =>
      obtain ⟨members, given, rfl, hlookup, hitem⟩ := mem_itemsAt_cons hitem
      cases given with
      | arr items =>
          obtain ⟨child, -, helement⟩ := (hall _ _ _ _ h).exists_item hlookup hitem
          exact ⟨_, child, .item h property described hlookup hitem helement⟩
      | _ => cases hitem
  | @member schema middle inner key path property rest ih =>
      obtain ⟨members, given, rfl, hlookup, hitem⟩ := mem_itemsAt_cons hitem
      -- what leads further is an object, so it has an element of its own
      have hobject : ∃ inside, given = .obj inside := by
        cases rest <;> exact (mem_itemsAt_cons hitem).imp fun _ ⟨_, hgiven, _⟩ => hgiven
      obtain ⟨inside, rfl⟩ := hobject
      have hstands := hall _ _ _ _ h
      obtain ⟨hf, hv⟩ := hstands.not_flag hlookup rfl
      obtain ⟨child, -, hchild⟩ := h.exists_member hstands property hlookup nofun hf hv
      exact ih hchild hitem

end Describes

end Conversion

open Conversion
open Schema (HasProperty HasItems Conforms)

/-! ## The bundled converters -/

namespace Schema

variable {targets : List (String × Schema)} {schema inner : Schema} {key : String}

/-- The members of an object have the schemas that are listed. -/
theorem HasProperty.of_demands {required : List String} {properties : List (String × Schema)}
    (h : demands targets schema = [.type [.object], .required required, .properties properties])
    (hmem : (key, inner) ∈ properties) : HasProperty targets schema key inner :=
  ⟨properties, by simp [h], hmem⟩

/-- The items of the arrays that are listed have identifiers. -/
theorem exists_leadsTo (type : DocumentType) {path : List String}
    (h : path ∈ identifiedItems type) :
    ∃ inner, LeadsTo (Converter.ofType type).schema.targets (body type) path inner ∧
      HasProperty (Converter.ofType type).schema.targets inner "uuid" uuidRef := by
  have hparties : ∃ inner,
      LeadsTo (Converter.ofType type).schema.targets (body type) ["metadata", "parties"] inner ∧
        HasProperty (Converter.ofType type).schema.targets inner "uuid" uuidRef := by
    have hmetadata : HasProperty (Converter.ofType type).schema.targets (body type) "metadata"
        metadataRef := by
      cases type <;> exact .of_demands rfl (.tail _ (.head _))
    refine ⟨_, .member hmetadata (.items (.of_demands rfl
      (.tail _ (.tail _ (.tail _ (.tail _ (.tail _ (.tail _ (.tail _ (.head _)))))))))
      (.tail _ (.head _))), .of_demands rfl (.head _)⟩
  cases type with
  | sap =>
      rw [identifiedItems, List.mem_singleton] at h
      exact h ▸ hparties
  | ssp =>
      rw [identifiedItems, List.mem_cons, List.mem_singleton] at h
      rcases h with rfl | rfl
      · exact hparties
      · exact ⟨_, .member (.of_demands rfl (.tail _ (.tail _ (.tail _ (.tail _ (.tail _ (.head _)))))))
          (.items (.of_demands rfl (.head _)) (.tail _ (.tail _ (.head _)))),
          .of_demands rfl (.head _)⟩
  | sar =>
      rw [identifiedItems, List.mem_cons, List.mem_singleton] at h
      rcases h with rfl | rfl
      · exact hparties
      · exact ⟨_, .items (.of_demands rfl (.tail _ (.tail _ (.tail _ (.head _)))))
          (.tail _ (.tail _ (.head _))), .of_demands rfl (.head _)⟩
  | poam =>
      rw [identifiedItems, List.mem_cons, List.mem_singleton] at h
      rcases h with rfl | rfl
      · exact hparties
      · exact ⟨_, .items (.of_demands rfl (.tail _ (.tail _ (.tail _ (.tail _ (.head _))))))
          (.tail _ (.head _)), .of_demands rfl (.head _)⟩

end Schema

/-- Identifiers are attributes everywhere. -/
theorem ConversionRules.isFlag_uuid (type : DocumentType) (label : Label) :
    (ofType type).isFlag label "uuid" = true ∧ (ofType type).isValue label "uuid" = false := by
  have hflag : (ofType type).isFlag label "uuid" = true := by
    have hflags : (ofType type).flags.contains "uuid" = true := by cases type <;> decide
    rw [isFlag, hflags, Bool.true_or]
  refine ⟨hflag, ?_⟩
  rw [Bool.eq_false_iff]
  intro hvalue
  rw [isFlag_of_isValue type hvalue] at hflag
  cases hflag

namespace Converter

variable {type : DocumentType} {document : Json} {result : Xml.Document}

/-- **The identifier of an element is the one of its value,** and the pattern is found in it. -/
theorem attribute_uuid_iff {schema : Schema} {label : Label} {uuid : String} {value : Json}
    {e : Xml.Element} (hconforms : Conforms (ofType type).schema.targets schema value)
    (hstands : StandsFor (ofType type).rules label value e)
    (hproperty : HasProperty (ofType type).schema.targets schema "uuid" Schema.uuidRef) :
    e.attribute? "uuid" = some uuid ↔ value.member? "uuid" = some (.str uuid) := by
  obtain ⟨hflag, hvalue⟩ := ConversionRules.isFlag_uuid type label
  rw [hstands.attribute?_iff (by cases type <;> decide +kernel) hvalue hflag]
  constructor
  · rintro ⟨given, hgiven, htext⟩
    cases value with
    | obj members =>
        obtain ⟨content, rfl⟩ := (hconforms.property hproperty hgiven).string List.mem_cons_self
        cases htext
        exact hgiven
    | _ => cases hgiven
  · exact fun hgiven => ⟨_, hgiven, rfl⟩

/-- **An identifier in a converted document** has at most a line feed too many. -/
theorem exists_isUuid {body : Json} {uuid : String}
    (hall : ∀ schema label value e, Describes (ofType type) body result.root schema label value e →
      Conforms (ofType type).schema.targets schema value ∧
        StandsFor (ofType type).rules label value e)
    (h : HasIdentifier (ofType type) body result.root uuid) :
    ∃ id, IsUuid id ∧ (uuid = id ∨ uuid = id ++ "\n") := by
  obtain ⟨schema, label, value, e, hdescribes, hproperty, hattribute⟩ := h
  obtain ⟨hconforms, hstands⟩ := hall _ _ _ _ hdescribes
  have hmember := (attribute_uuid_iff hconforms hstands hproperty).mp hattribute
  cases value with
  | obj members =>
      exact uuidPattern_iff.mp ((hconforms.property hproperty hmember).found
        ⟨Schema.uuidSource, .tail _ (.head _)⟩)
  | _ => cases hmember

/-- **The identifiers of a document that a bundled converter makes.** The root has one, and so has
each item of the arrays whose items have identifiers, if it is given there. Each is an identifier,
or one with a line feed behind it; so they are identifiers exactly if none ends in a line feed. -/
theorem convert_identifiers (type : DocumentType) (document : Json) (result : Xml.Document)
    (h : (ofType type).convert type document = .ok result) (hd : document.isDistinct = true) :
    ∃ body, document.member? type.rootName = some (.obj body) ∧
      (∃ uuid, result.root.attribute? "uuid" = some uuid ∧
        HasIdentifier (ofType type) (.obj body) result.root uuid) ∧
      (∀ path ∈ identifiedItems type, ∀ item ∈ itemsAt path (.obj body), ∃ schema label e,
        Describes (ofType type) (.obj body) result.root schema label item e ∧
        HasProperty (ofType type).schema.targets schema "uuid" Schema.uuidRef ∧
        ∀ uuid, e.attribute? "uuid" = some uuid ↔ item.member? "uuid" = some (.str uuid)) ∧
      (∀ uuid, HasIdentifier (ofType type) (.obj body) result.root uuid →
        ∃ id, IsUuid id ∧ (uuid = id ∨ uuid = id ++ "\n")) ∧
      ((∀ uuid, HasIdentifier (ofType type) (.obj body) result.root uuid → IsUuid uuid) ↔
        ∀ uuid, HasIdentifier (ofType type) (.obj body) result.root uuid →
          uuid.toList.getLast? ≠ some '\n') := by
  obtain ⟨body, hbody, hroot, hall⟩ := exists_describes_of_convert h hd
  have hnearly (uuid : String)
      (huuid : HasIdentifier (ofType type) (.obj body) result.root uuid) :
      ∃ id, IsUuid id ∧ (uuid = id ∨ uuid = id ++ "\n") := exists_isUuid hall huuid
  refine ⟨body, hbody, ?_, fun path hpath item hitem => ?_, hnearly, ?_⟩
  · obtain ⟨hconforms, hstands⟩ := hall _ _ _ _ hroot
    have hproperty : HasProperty (ofType type).schema.targets (Schema.body type) "uuid"
        Schema.uuidRef := by
      cases type <;> exact .of_demands rfl (.head _)
    have hrequires : Schema.Requires (ofType type).schema.targets (Schema.body type) "uuid" := by
      cases type <;> exact ⟨_, .tail _ (.head _), .head _⟩
    obtain ⟨given, hgiven⟩ := hconforms.required hrequires
    obtain ⟨uuid, rfl⟩ := (hconforms.property hproperty hgiven).string List.mem_cons_self
    have hattribute := (attribute_uuid_iff hconforms hstands hproperty).mpr hgiven
    exact ⟨uuid, hattribute, _, _, _, _, hroot, hproperty, hattribute⟩
  · obtain ⟨inner, hleads, hproperty⟩ := Schema.exists_leadsTo type hpath
    obtain ⟨label, e, hdescribes⟩ := Describes.exists_itemAt
      (fun _ _ _ _ hdescribes => (hall _ _ _ _ hdescribes).2) hleads hroot hitem
    obtain ⟨hconforms, hstands⟩ := hall _ _ _ _ hdescribes
    exact ⟨inner, label, e, hdescribes, hproperty,
      fun uuid => attribute_uuid_iff hconforms hstands hproperty⟩
  · refine ⟨fun hexact uuid huuid => (hexact uuid huuid).getLast?_ne, fun hends uuid huuid => ?_⟩
    obtain ⟨id, hid, rfl | rfl⟩ := hnearly uuid huuid
    · exact hid
    · refine absurd ?_ (hends _ huuid)
      rw [String.toList_append]
      exact List.getLast?_concat

/-- An assessment plan with an identifier of its own and a party with another. -/
def partyPlan (uuid : String) : Json :=
  .obj [("assessment-plan",
    .obj [("uuid", .str uuid),
      ("metadata", .obj [("title", .str "T"), ("last-modified", .str ""), ("version", .str ""),
        ("oscal-version", .str ""),
        ("parties", .arr [.obj [("uuid", .str "22222222-2222-5222-b222-222222222222"),
          ("type", .str "person")]])]),
      ("import-ssp", .obj [("href", .str "#")]),
      ("reviewed-controls", .obj [("control-selections", .arr [.obj []])])])]

theorem exists_result_of_attribute (type : DocumentType) (document : Json) (key text : String)
    (h : ((ofType type).convert type document).toOption.bind (·.root.attribute? key) = some text) :
    ∃ result, (ofType type).convert type document = .ok result ∧
      result.root.attribute? key = some text := by
  cases hresult : (ofType type).convert type document with
  | error fault =>
      rw [hresult] at h
      cases h
  | ok result =>
      rw [hresult] at h
      exact ⟨result, rfl, h⟩

/-- The plan and its party have their identifiers as attributes. -/
theorem convert_partyPlan : ∃ body result,
    (ofType .sap).convert .sap (partyPlan "11111111-1111-4111-8111-111111111111") = .ok result ∧
      HasIdentifier (ofType .sap) (.obj body) result.root "11111111-1111-4111-8111-111111111111" ∧
      HasIdentifier (ofType .sap) (.obj body) result.root
        "22222222-2222-5222-b222-222222222222" := by
  obtain ⟨result, h, hroot⟩ := exists_result_of_attribute .sap
    (partyPlan "11111111-1111-4111-8111-111111111111") "uuid"
    "11111111-1111-4111-8111-111111111111" (by decide +kernel)
  obtain ⟨body, hbody, ⟨uuid, hattribute, huuid⟩, hitems, -⟩ :=
    convert_identifiers .sap _ result h (by decide)
  have hsame : uuid = "11111111-1111-4111-8111-111111111111" :=
    Option.some.inj (hattribute.symm.trans hroot)
  cases hbody
  obtain ⟨schema, label, e, hdescribes, hproperty, hparty⟩ :=
    hitems _ List.mem_cons_self _ List.mem_cons_self
  exact ⟨_, result, h, hsame ▸ huuid, schema, label, _, e, hdescribes, hproperty,
    (hparty _).mpr rfl⟩

/-- The identifier of a plan may end in a line feed, which is in the attribute then. -/
theorem convert_partyPlan_line : ∃ result,
    (ofType .sap).convert .sap (partyPlan "11111111-1111-4111-8111-111111111111\n") = .ok result ∧
      result.root.attribute? "uuid" = some "11111111-1111-4111-8111-111111111111\n" ∧
      ¬ IsUuid "11111111-1111-4111-8111-111111111111\n" := by
  obtain ⟨result, h, hroot⟩ := exists_result_of_attribute .sap
    (partyPlan "11111111-1111-4111-8111-111111111111\n") "uuid"
    "11111111-1111-4111-8111-111111111111\n" (by decide +kernel)
  exact ⟨result, h, hroot, fun huuid => absurd huuid.length (by decide)⟩

end Converter

end OscalValidation

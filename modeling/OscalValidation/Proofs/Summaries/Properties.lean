import OscalValidation.Proofs.Summaries.Entries
import OscalValidation.Proofs.Xml.Namespaces

set_option autoImplicit false

/-! # The properties of an entry

An attribute that has no place of its own in an entry is a property. In a namespace it has a key
with a prefix, or with the namespace in braces where no declared prefix stands for it. In the scope
of the element a key denotes one name only (`KeyDenotes.unique`). So every attribute has a property
of its own in a source whose names are well-formed (`ofSchema_properties`), and they are in every
source that was read (`Xml.wellNamed_of_read?`).
-/

namespace OscalValidation

open Conversion (IsName)
open Scenario (Leads)
open Schematron (Scoped placesIn scopedAt)
open Xml (Attribute Declaration Element Follows Node Scope attributeNamespace?)

/-! ## Scopes of places -/

/-- The scope inside elements that lie in each other, the outermost first. -/
def scopeInside (outer : Scope) (around : List Element) : Scope :=
  around.foldl (fun outer e => e.tag.scope outer) outer

/-- **The scope inside the element of a place.** -/
def Scenario.Place.inner (place : Scenario.Place) : Scope :=
  place.element.tag.scope (scopeInside [] place.around)

/-- On the way to an element the declarations follow the scope, and its names are well-formed. -/
theorem follows_of_leads {nodes : List Node} {path : List Element} {e : Element}
    (hleads : Leads nodes path e) {declarations : List Declaration} {scope : Scope}
    (h : Follows declarations scope)
    (hnames : Xml.EachInScopeIn (fun outer tag _ => tag.WellNamed outer) scope nodes) :
    Follows (Scenario.scope declarations path) (scopeInside scope path) ∧
      e.tag.WellNamed (scopeInside scope path) := by
  induction hleads generalizing declarations scope with
  | here mem => exact ⟨h, (Xml.eachInScopeIn_iff.mp hnames _ mem).1⟩
  | @inside nodes outer e path mem inner ih =>
      obtain ⟨htag, hchildren⟩ := Xml.eachInScopeIn_iff.mp hnames _ mem
      exact ih (h.inside htag) hchildren

/-- The declarations of what is at a place of a source follow the scope of the place. -/
theorem follows_of_mem_placesIn {schema : Element} (hnames : schema.node.WellNamed [])
    {place : Scenario.Place} (hplace : place ∈ placesIn schema) :
    Follows (scopedAt place).inner place.inner ∧
      place.element.tag.WellNamed (scopeInside [] place.around) := by
  obtain ⟨path, haround, hleads⟩ := Scenario.leads_of_mem_placesOfNode [] schema.node hplace
  rw [List.nil_append] at haround
  obtain ⟨hfollows, htag⟩ := follows_of_leads hleads Xml.follows_nil ⟨hnames, trivial⟩
  rw [← haround] at hfollows htag
  exact ⟨hfollows.inside htag, htag⟩

namespace Catalog

/-! ## Keys -/

/-- **What a key denotes in a scope:** a local name on its own, one in the namespace that its prefix
stands for, or one in the namespace in braces before it, which no declared prefix stands for. -/
inductive KeyDenotes (scope : Scope) : String → Option String → String → Prop
  | plain {localName : String} (name : IsName localName) :
      KeyDenotes scope localName none localName
  | prefixed {p uri localName : String} (prefixName : IsName p) (name : IsName localName)
      (stands : attributeNamespace? scope (some p) = some (some uri)) :
      KeyDenotes scope (p ++ ":" ++ localName) (some uri) localName
  /-- The name has its namespace in braces. -/
  | braced {uri localName : String} (name : IsName localName)
      (unnamed : ∀ p, scope.lookup (some p) ≠ some uri) :
      KeyDenotes scope ("\x7b" ++ uri ++ "\x7d" ++ localName) (some uri) localName

/-- Texts that are the same are cut at the last mark in the same way. -/
theorem append_cons_inj_of_not_mem {before before' after after' : List Char} {mark : Char}
    (hafter : mark ∉ after) (hafter' : mark ∉ after')
    (h : before ++ mark :: after = before' ++ mark :: after') :
    before = before' ∧ after = after' := by
  rcases List.append_eq_append_iff.mp h with ⟨between, rfl, heq⟩ | ⟨between, rfl, heq⟩
  · cases between with
    | nil => exact ⟨(List.append_nil _).symm, (List.cons_eq_cons.mp heq).2⟩
    | cons c between =>
        obtain ⟨-, rfl⟩ := List.cons_eq_cons.mp heq
        simp at hafter
  · cases between with
    | nil => exact ⟨List.append_nil _, (List.cons_eq_cons.mp heq).2.symm⟩
    | cons c between =>
        obtain ⟨-, rfl⟩ := List.cons_eq_cons.mp heq
        simp at hafter'

namespace KeyDenotes

variable {scope : Scope} {key localName : String} {uri : Option String}

/-- A key that is a name denotes this name. -/
theorem of_name (h : KeyDenotes scope key uri localName) (hkey : IsName key) :
    uri = none ∧ localName = key := by
  cases h with
  | plain => exact ⟨rfl, rfl⟩
  | prefixed => exact absurd (by simp) (hkey.not_mem (c := ':') (by decide))
  | braced => exact absurd (by simp) (hkey.not_mem (c := '\x7b') (by decide))

/-- **In a key with a prefix the prefix stands for the namespace.** -/
theorem of_prefixed {p rest : String} (h : KeyDenotes scope key uri localName) (hp : IsName p)
    (hkey : key = p ++ ":" ++ rest) :
    attributeNamespace? scope (some p) = some uri ∧ localName = rest := by
  have hchars : key.toList = p.toList ++ ':' :: rest.toList := by simp [hkey]
  cases h with
  | plain name =>
      refine absurd ?_ (name.not_mem (c := ':') (by decide))
      rw [hchars]
      simp
  | @prefixed p' uri localName prefixName name stands =>
      -- names have no colon, so both are cut at the same one
      have hkeys : p'.toList ++ ':' :: localName.toList = p.toList ++ ':' :: rest.toList := by
        rw [← hchars]
        simp
      obtain ⟨hpre, -, hlocal⟩ := (List.append_cons_inj_of_notMem
        (prefixName.not_mem (by decide)) (name.not_mem (by decide))).mp hkeys
      rw [← String.toList_injective hpre]
      exact ⟨stands, String.toList_injective hlocal⟩
  | braced =>
      -- a prefix does not begin with a brace
      have hbrace := hp.not_mem (c := '\x7b') (by decide)
      cases hfirst : p.toList with
      | nil =>
          unfold IsName at hp
          rw [hfirst] at hp
          cases hp
      | cons first others =>
          rw [hfirst] at hbrace hchars
          simp at hbrace hchars
          exact absurd hchars.1 hbrace.1

/-- In a key with a namespace in braces this is the namespace. -/
theorem of_braced {space rest : String} (h : KeyDenotes scope key uri localName)
    (hrest : IsName rest) (hkey : key = "\x7b" ++ space ++ "\x7d" ++ rest) :
    uri = some space ∧ localName = rest := by
  have hchars : key.toList = '\x7b' :: (space.toList ++ '\x7d' :: rest.toList) := by simp [hkey]
  cases h with
  | plain name =>
      refine absurd ?_ (name.not_mem (c := '\x7b') (by decide))
      rw [hchars]
      simp
  | @prefixed p uri localName prefixName name stands =>
      have hin : '\x7b' ∈ (p ++ ":" ++ localName).toList := by
        rw [hchars]
        simp
      simp [prefixName.not_mem (c := '\x7b') (by decide),
        name.not_mem (c := '\x7b') (by decide)] at hin
  | @braced uri localName name unnamed =>
      -- the namespace may have braces in it, but the last one ends it
      have hkeys : uri.toList ++ '\x7d' :: localName.toList =
          space.toList ++ '\x7d' :: rest.toList := by
        simpa using hchars
      obtain ⟨huri, hlocal⟩ := append_cons_inj_of_not_mem (name.not_mem (by decide))
        (hrest.not_mem (by decide)) hkeys
      exact ⟨congrArg some (String.toList_injective huri), String.toList_injective hlocal⟩

/-- **A key denotes one name.** -/
theorem unique {uri' : Option String} {localName' : String}
    (h : KeyDenotes scope key uri localName) (h' : KeyDenotes scope key uri' localName') :
    uri = uri' ∧ localName = localName' := by
  cases h' with
  | plain name => exact h.of_name name
  | prefixed prefixName name stands =>
      obtain ⟨huri, hlocal⟩ := h.of_prefixed prefixName rfl
      exact ⟨Option.some.inj (huri.symm.trans stands), hlocal⟩
  | braced name unnamed => exact h.of_braced name rfl

end KeyDenotes

/-- **The key of an attribute denotes its name.** -/
theorem keyDenotes_propertyName {declarations : List Declaration} {scope : Scope}
    (h : Follows declarations scope) {name : Xml.Name} (hname : IsName name.localName) :
    KeyDenotes scope (propertyName declarations name) name.uri name.localName := by
  unfold propertyName
  split
  · next huri =>
    rw [huri]
    exact .plain hname
  · next uri huri =>
    rw [huri]
    split
    · next p hfound =>
      obtain ⟨d, hd, hpre⟩ := List.exists_of_findSome?_eq_some hfound
      split at hpre
      · next hspace =>
        have hlookup := (h.mem_iff d).mp hd
        rw [hpre, beq_iff_eq.mp hspace] at hlookup
        obtain ⟨hp, hxml⟩ := h.prefixes d hd p hpre
        -- the prefix that is declared everywhere has its namespace also where it is declared again
        refine .prefixed hp hname ?_
        rw [Xml.attributeNamespace?_some, hlookup]
        split
        · next heq => rw [← hxml heq, beq_iff_eq.mp hspace]
        · rfl
      · cases hpre
    · next hnone =>
      rw [Xml.Name.expanded, huri]
      refine .braced hname fun p hlookup => ?_
      have hd := (h.mem_iff ⟨some p, uri⟩).mpr hlookup
      have hunnamed := List.findSome?_eq_none_iff.mp hnone _ hd
      simp at hunnamed

/-! ## Properties -/

/-- Pairs with distinct names that are set one by one stay as they are. -/
theorem foldl_setPair {α : Type} (key value : α → String) (entries : List α)
    {done : List (String × String)} (h : (done.map (·.1) ++ entries.map key).Nodup) :
    entries.foldl (fun done a => setPair done (key a) (value a)) done =
      done ++ entries.map fun a => (key a, value a) := by
  induction entries generalizing done with
  | nil => simp
  | cons a rest ih =>
      have hnew : done.any (·.1 == key a) = false := by
        rw [List.map_cons, List.nodup_append] at h
        rw [Bool.eq_false_iff]
        intro hany
        obtain ⟨pair, hpair, heq⟩ := List.any_eq_true.mp hany
        exact h.2.2 pair.1 (List.mem_map_of_mem hpair) (key a) List.mem_cons_self
          (beq_iff_eq.mp heq)
      have hset : setPair done (key a) (value a) = done ++ [(key a, value a)] := by
        rw [setPair, hnew]
        rfl
      rw [List.foldl_cons, hset, ih (by simpa using h), List.append_assoc]
      rfl

/-- The attributes of an element that have no place of their own in an entry. -/
def furtherAttributes (e : Element) : List Attribute :=
  e.tag.attributes.filter fun a =>
    a.name.uri ≠ none ∨ a.name.localName ∉ ["id", "test", "role", "diagnostics"]

/-- **The property tells of the attribute** in a scope. -/
structure TellsOf (scope : Scope) (a : Attribute) (property : String × String) : Prop where
  /-- It has the value of the attribute. -/
  value : property.2 = a.value
  /-- Its key denotes the name of the attribute. -/
  key : KeyDenotes scope property.1 a.name.uri a.name.localName
  /-- If the key has a prefix, the prefix stands for the namespace of the attribute. -/
  namespaceOf {p rest : String} (hp : IsName p) (hkey : property.1 = p ++ ":" ++ rest) :
    attributeNamespace? scope (some p) = some a.name.uri ∧ a.name.localName = rest

/-- **The properties are those of an element** in a scope. -/
structure PropertiesOf (scope : Scope) (e : Element) (properties : List (String × String)) :
    Prop where
  /-- There is one for every attribute that has no place of its own, and no other. -/
  each : List.Forall₂ (TellsOf scope) (furtherAttributes e) properties
  /-- No two have the same key. -/
  distinct : (properties.map (·.1)).Nodup

section Properties

variable {check : Scoped} {outer : Scope}

/-- Where keys are distinct, no property takes the place of another. -/
theorem propertiesOf_eq_map
    (h : ((furtherAttributes check.element).map fun a => propertyName check.inner a.name).Nodup) :
    propertiesOf check = (furtherAttributes check.element).map fun a =>
      (propertyName check.inner a.name, a.value) := by
  have hfilter : (check.element.tag.attributes.filter fun a =>
      !(a.name.uri.isNone && coreAttributes.contains a.name.localName)) =
      furtherAttributes check.element := by
    refine List.filter_congr fun a _ => ?_
    cases a.name.uri <;> simp [coreAttributes]
  have hnodup : ((([] : List (String × String)).map (·.1)) ++
      (furtherAttributes check.element).map fun a => propertyName check.inner a.name).Nodup := h
  rw [propertiesOf, hfilter, foldl_setPair (fun a : Attribute => propertyName check.inner a.name)
    (·.value) _ hnodup, List.nil_append]

theorem keyDenotes_of_mem (h : Follows check.inner (check.element.tag.scope outer))
    (hnames : check.element.tag.WellNamed outer) {a : Attribute}
    (ha : a ∈ furtherAttributes check.element) :
    KeyDenotes (check.element.tag.scope outer) (propertyName check.inner a.name) a.name.uri
      a.name.localName :=
  keyDenotes_propertyName h (hnames.attributes a (List.mem_of_mem_filter ha)).1

/-- **No two attributes have the same key,** as no two have one name in one namespace. -/
theorem nodup_propertyName (h : Follows check.inner (check.element.tag.scope outer))
    (hnames : check.element.tag.WellNamed outer) :
    ((furtherAttributes check.element).map fun a => propertyName check.inner a.name).Nodup := by
  have hexpanded : (furtherAttributes check.element).Pairwise fun a b =>
      (a.name.uri, a.name.localName) ≠ (b.name.uri, b.name.localName) :=
    (List.pairwise_map.mp hnames.unrepeated).filter _
  refine List.pairwise_map.mpr (hexpanded.imp_of_mem fun {a b} ha hb hne heq => ?_)
  -- a key that is the same denotes the name of the one and of the other
  have hfirst := keyDenotes_of_mem h hnames ha
  have hsecond := keyDenotes_of_mem h hnames hb
  rw [← heq] at hsecond
  obtain ⟨huri, hlocal⟩ := hfirst.unique hsecond
  exact hne (Prod.ext huri hlocal)

/-- **The properties of an assert or report** in a scope where its names are well-formed. -/
theorem propertiesOf_isPropertiesOf (h : Follows check.inner (check.element.tag.scope outer))
    (hnames : check.element.tag.WellNamed outer) :
    PropertiesOf (check.element.tag.scope outer) check.element (propertiesOf check) := by
  have hdistinct := nodup_propertyName h hnames
  rw [propertiesOf_eq_map hdistinct]
  constructor
  · rw [List.forall₂_map_right_iff, List.forall₂_same]
    intro a ha
    have hkey := keyDenotes_of_mem h hnames ha
    exact ⟨rfl, hkey, fun hp heq => hkey.of_prefixed hp heq⟩
  · rw [List.map_map]
    exact hdistinct

end Properties

/-! ## The catalog of a source -/

/-- Everything in an element at a place of a source is at a place of the source. -/
theorem placesOfNode_subset_placesIn {schema : Element} {place : Scenario.Place}
    (hplace : place ∈ placesIn schema) :
    Scenario.placesOfNode place.around place.element.node ⊆ placesIn schema := by
  rw [Element.node, Scenario.placesOfNode, List.cons_subset]
  refine ⟨hplace, ?_⟩
  rw [Schematron.placesIn_eq] at hplace ⊢
  exact Schematron.placesInside_subset hplace

theorem exists_place_of_mem_all {schema : Element} {place : Scenario.Place}
    (hplace : place ∈ placesIn schema) {localName : String} {e : Scoped}
    (he : e ∈ (scopedAt place).all localName) : ∃ inner ∈ placesIn schema, e = scopedAt inner := by
  rw [Scoped.all, scopedAt, Schematron.allInNode_eq] at he
  obtain ⟨inner, hinner, rfl⟩ := List.mem_map.mp he
  exact ⟨inner, placesOfNode_subset_placesIn hplace (List.mem_of_mem_filter hinner), rfl⟩

theorem exists_place_of_mem_elements {schema : Element} {place : Scenario.Place}
    (hplace : place ∈ placesIn schema) {e : Scoped} (he : e ∈ (scopedAt place).elements) :
    ∃ inner ∈ placesIn schema, e = scopedAt inner := by
  rw [Schematron.elements_scopedAt] at he
  obtain ⟨child, hchild, rfl⟩ := List.mem_map.mp he
  obtain ⟨node, hnode, helement⟩ := List.mem_filterMap.mp hchild
  refine ⟨⟨place.around ++ [place.element], child⟩, placesOfNode_subset_placesIn hplace ?_, rfl⟩
  cases node with
  | element tag children =>
      cases helement
      rw [Element.node, Scenario.placesOfNode]
      refine List.mem_cons_of_mem _ (Scenario.placesOfNode_subset hnode ?_)
      rw [Scenario.placesOfNode]
      exact List.mem_cons_self
  | _ => cases helement

/-- The asserts and reports of a source are at places. -/
theorem exists_place_of_mem_checks {schema pattern rule : Element} {check : Scoped}
    (h : (pattern, rule, check) ∈ checks schema) :
    ∃ place ∈ placesIn schema, check = scopedAt place := by
  have hschema : (⟨[], schema⟩ : Scenario.Place) ∈ placesIn schema := by
    rw [placesIn, Element.node, Scenario.placesOfNode]
    exact List.mem_cons_self
  obtain ⟨pattern, hpattern, h⟩ := List.mem_flatMap.mp h
  obtain ⟨rule, hrule, h⟩ := List.mem_flatMap.mp h
  obtain ⟨e, he, heq⟩ := List.mem_map.mp h
  cases heq
  -- from place to place: to the pattern, to the rule, to what is directly in it
  obtain ⟨first, hfirst, rfl⟩ := exists_place_of_mem_all hschema hpattern
  obtain ⟨second, hsecond, rfl⟩ := exists_place_of_mem_all hfirst hrule
  exact exists_place_of_mem_elements hsecond (List.mem_of_mem_filter he)

/-- **The properties of an entry are those of the first assert or report with its identifier,** in
the scope of its place, and every assert or report with an identifier has an entry. -/
theorem ofSchema_properties {schema : Element} (hnames : schema.node.WellNamed []) :
    (∀ check ∈ checks schema, ∀ id, Schematron.idOf? check.2.2.element = some id →
      ∃ entry, (id, entry) ∈ (ofSchema schema).entries) ∧
    ∀ id entry, (id, entry) ∈ (ofSchema schema).entries →
      ∃ pattern rule, ∃ place ∈ placesIn schema,
        (checks schema).find? (fun check => Schematron.idOf? check.2.2.element == some id) =
          some (pattern, rule, scopedAt place) ∧
        PropertiesOf place.inner place.element entry.properties := by
  constructor
  · intro check hcheck id hid
    have hmem := mem_keys_iff.mpr ⟨check, hcheck, hid⟩
    obtain ⟨⟨id, entry⟩, hentry, rfl⟩ := List.mem_map.mp hmem
    exact ⟨entry, hentry⟩
  · intro id entry hentry
    obtain ⟨⟨pattern, rule, check⟩, hfirst, rfl⟩ := mem_entries_iff.mp hentry
    obtain ⟨place, hplace, rfl⟩ := exists_place_of_mem_checks (List.mem_of_find?_eq_some hfirst)
    obtain ⟨hfollows, htag⟩ := follows_of_mem_placesIn hnames hplace
    exact ⟨pattern, rule, place, hplace, hfirst, propertiesOf_isPropertiesOf hfollows htag⟩

/-- A tag of rules on the first line. -/
def ruleTag (name : String) (declarations : List (String × String))
    (attributes : List Attribute) : Xml.Tag :=
  ⟨⟨some "s", some Schematron.uri, name⟩, declarations.map fun d => ⟨some d.1, d.2⟩, attributes,
    some 1⟩

/-- Rules with a prefix that is declared twice and two prefixes for one namespace. -/
def aliases : Element :=
  ⟨ruleTag "schema" [("s", Schematron.uri), ("a", "urn:a")] [],
    [.element (ruleTag "pattern" [("b", "urn:a")] []) [.element (ruleTag "rule" [] [])
      [.element (ruleTag "assert" [("a", "urn:b"), ("c", "urn:b")]
        [⟨⟨none, none, "id"⟩, "i", false⟩, ⟨⟨some "c", some "urn:b", "id"⟩, "1", false⟩,
          ⟨⟨some "b", some "urn:a", "id"⟩, "2", false⟩, ⟨⟨none, none, "see"⟩, "3", false⟩,
          ⟨⟨some "xml", some Xml.xmlNamespace, "lang"⟩, "en", false⟩]) []]]]⟩

def aliasesText : String :=
  "<s:schema xmlns:s='http://purl.oclc.org/dsdl/schematron' xmlns:a='urn:a'>" ++
    "<s:pattern xmlns:b='urn:a'><s:rule>" ++
    "<s:assert id='i' xmlns:a='urn:b' xmlns:c='urn:b' c:id='1' b:id='2' see='3' xml:lang='en'/>" ++
    "</s:rule></s:pattern></s:schema>"

theorem ofSchema_properties_aliases :
    aliases.node.WellNamed [] ∧ (∃ entry, ("i", entry) ∈ (ofSchema aliases).entries) ∧
      ∀ entry, ("i", entry) ∈ (ofSchema aliases).entries →
        ∃ place ∈ placesIn aliases, PropertiesOf place.inner place.element entry.properties := by
  have hread : Xml.read? aliasesText = some ⟨[], aliases, []⟩ := by decide +kernel
  have hnames : aliases.node.WellNamed [] := Xml.wellNamed_of_read? hread
  obtain ⟨hentries, hproperties⟩ := ofSchema_properties hnames
  have hcheck : ∃ check ∈ checks aliases, Schematron.idOf? check.2.2.element = some "i" := by
    decide +kernel
  obtain ⟨check, hmem, hid⟩ := hcheck
  refine ⟨hnames, hentries check hmem "i" hid, fun entry hentry => ?_⟩
  obtain ⟨-, -, place, hplace, -, h⟩ := hproperties "i" entry hentry
  exact ⟨place, hplace, h⟩

example : (ofSchema aliases).entries.map (·.2.properties) =
    [[("a:id", "1"), ("b:id", "2"), ("see", "3"),
      ("\x7bhttp://www.w3.org/XML/1998/namespace\x7dlang", "en")]] := by decide +kernel

end Catalog

end OscalValidation

import OscalValidation.Proofs.Xml.Reading
import OscalValidation.Xml.Fragment

set_option autoImplicit false

/-! # Names in their namespaces

A prefix stands for what the nearest declaration around it says. In a document that was read every
name is in the namespace of its prefix, and no two attributes of an element have one name in one
namespace, however many prefixes stand for it (`wellNamed_of_read?`). The declarations that are
collected on the way to an element are the nearest ones for their prefixes (`Follows.inside`).
-/

namespace OscalValidation.Xml

open Conversion (IsName)

/-- A prefix stands for what is declared nearest, apart from the one that is declared
everywhere. -/
theorem attributeNamespace?_some (scope : Scope) (p : String) :
    attributeNamespace? scope (some p) =
      if p = "xml" then some (some xmlNamespace) else (scope.lookup (some p)).map some := by
  unfold attributeNamespace? elementNamespace?
  split
  · next heq => cases heq
  · next heq =>
    obtain rfl := Option.some.inj heq
    split
    · next hxml => rw [if_pos (Option.some.inj hxml)]
    · next hne hother =>
      obtain rfl := Option.some.inj hother
      rw [if_neg hne]
    · next hnone => cases hnone

/-! ## Well-formed names -/

/-- **The names of a tag are well-formed** in the scope around it. -/
structure Tag.WellNamed (outer : Scope) (tag : Tag) : Prop where
  distinct : (tag.declarations.map (·.nsPrefix)).Nodup
  /-- A prefix is a name, and the one that is declared everywhere keeps its namespace. -/
  prefixes : ∀ d ∈ tag.declarations, ∀ p ∈ d.nsPrefix,
    IsName p ∧ (p = "xml" → d.uri = xmlNamespace)
  /-- The element is in the namespace of its prefix. -/
  name : IsName tag.name.localName ∧
    elementNamespace? (tag.scope outer) tag.name.nsPrefix = some tag.name.uri
  attributes : ∀ a ∈ tag.attributes, IsName a.name.localName ∧
    attributeNamespace? (tag.scope outer) a.name.nsPrefix = some a.name.uri
  /-- No two attributes have one name in one namespace. -/
  unrepeated : (tag.attributes.map fun a => (a.name.uri, a.name.localName)).Nodup

/-- **The names in a node are well-formed** in the scope around it. -/
def Node.WellNamed (scope : Scope) (node : Node) : Prop :=
  node.EachInScope (fun outer tag _ => tag.WellNamed outer) scope

/-! ## Tags that are read -/

theorem nodup_of_distinct {α : Type} [BEq α] [LawfulBEq α] {values : List α}
    (h : Xml.distinct values = true) : values.Nodup := by
  induction values with
  | nil => exact List.nodup_nil
  | cons a rest ih =>
      rw [Xml.distinct, Bool.and_eq_true, Bool.not_eq_true'] at h
      refine List.nodup_cons.mpr ⟨fun hmem => ?_, ih h.2⟩
      rw [List.contains_iff_mem.mpr hmem] at h
      cases h.1

/-- What is written of a declaration says for which prefix it is. -/
theorem name_of_declarationOf? {a : WrittenAttribute} {d : Declaration}
    (h : declarationOf? a = some d) :
    a.name = match d.nsPrefix with
      | none => (none, "xmlns")
      | some p => (some "xmlns", p) := by
  obtain ⟨name, value, used⟩ := a
  unfold declarationOf? at h
  split at h
  · next hname =>
    cases h
    exact hname
  · next hname =>
    cases h
    exact hname
  · cases h

/-- Only an attribute without a prefix has no namespace. -/
theorem eq_none_of_attributeNamespace? {scope : Scope} {nsPrefix : Option String}
    (h : attributeNamespace? scope nsPrefix = some none) : nsPrefix = none := by
  cases nsPrefix with
  | none => rfl
  | some p =>
      rw [attributeNamespace?_some] at h
      split at h
      · cases h
      · obtain ⟨uri, -, heq⟩ := Option.map_eq_some_iff.mp h
        cases heq

section Made

variable {outer : Scope} {name : Option String × String} {written : List WrittenAttribute}
  {tag : Tag}

/-- No prefix is declared twice, as no attribute is written twice. -/
theorem Tag.MadeFrom.nodup_declared (h : tag.MadeFrom outer name written) :
    (tag.declarations.map (·.nsPrefix)).Nodup := by
  have hnames : written.Pairwise fun a b => a.name ≠ b.name :=
    List.pairwise_map.mp (nodup_of_distinct h.names)
  have hdeclared : ((written.filterMap declarationOf?).map (·.nsPrefix)).Nodup := by
    refine List.pairwise_map.mpr (List.pairwise_filterMap.mpr (hnames.imp ?_))
    intro a b hne d hd d' hd' heq
    apply hne
    rw [name_of_declarationOf? hd, name_of_declarationOf? hd', heq]
  rw [h.declarations]
  exact hdeclared.sublist (List.filter_sublist.map _)

/-- No two attributes are written with the same prefix and local name. -/
theorem Tag.MadeFrom.pairwise_written (h : tag.MadeFrom outer name written) :
    tag.attributes.Pairwise fun a b =>
      (a.name.nsPrefix, a.name.localName) ≠ (b.name.nsPrefix, b.name.localName) := by
  have hsame : (written.filter fun a => (declarationOf? a).isNone).map (·.name) =
      tag.attributes.map fun made => (made.name.nsPrefix, made.name.localName) := by
    rw [← List.forall₂_eq_eq_eq, List.forall₂_map_left_iff, List.forall₂_map_right_iff]
    exact h.attributes.imp fun a made hmade => Prod.ext hmade.1.symm hmade.2.1.symm
  have hnodup := (nodup_of_distinct h.names).sublist
    ((List.filter_sublist (p := fun a => (declarationOf? a).isNone)).map _)
  rw [hsame] at hnodup
  exact List.pairwise_map.mp hnodup

/-- An attribute without a namespace has no prefix. -/
theorem Tag.MadeFrom.nsPrefix_eq_none (h : tag.MadeFrom outer name written) {a : Attribute}
    (ha : a ∈ tag.attributes) (hnone : a.name.uri = none) : a.name.nsPrefix = none := by
  obtain ⟨source, -, hpre, -, huri⟩ := exists_of_mem_forall₂ h.attributes.flip ha
  rw [hpre]
  rw [hnone] at huri
  exact eq_none_of_attributeNamespace? huri

/-- **No two attributes have one name in one namespace:** the reader compares those that have a
namespace, and the others are told apart as they are written. -/
theorem Tag.MadeFrom.nodup_expanded (h : tag.MadeFrom outer name written) :
    (tag.attributes.map fun a => (a.name.uri, a.name.localName)).Nodup := by
  have hqualified := List.pairwise_filterMap.mp (nodup_of_distinct h.qualified)
  refine List.pairwise_map.mpr ((hqualified.and h.pairwise_written).imp_of_mem ?_)
  intro a b ha hb hne heq
  obtain ⟨huri, hlocal⟩ := Prod.mk.inj heq
  cases hspace : a.name.uri with
  | none =>
      apply hne.2
      rw [h.nsPrefix_eq_none ha hspace, h.nsPrefix_eq_none hb (huri ▸ hspace), hlocal]
  | some uri =>
      have hspace' : b.name.uri = some uri := huri ▸ hspace
      refine hne.1 (uri, a.name.localName) ?_ (uri, b.name.localName) ?_ ?_
      · rw [hspace, Option.map_some]
      · rw [hspace', Option.map_some]
      · rw [hlocal]

/-- **A tag that was read has well-formed names.** -/
theorem Tag.MadeFrom.wellNamed (h : tag.MadeFrom outer name written) (hname : IsName name.2)
    (hwritten : ∀ a ∈ written, a.AsRead) : tag.WellNamed outer where
  distinct := h.nodup_declared
  prefixes := by
    intro d hd p hp
    rw [h.declarations, List.mem_filter, List.mem_filterMap] at hd
    obtain ⟨⟨a, ha, hdeclares⟩, hother⟩ := hd
    have hwrittenName := name_of_declarationOf? hdeclares
    rw [Option.mem_def.mp hp] at hwrittenName hother
    refine ⟨?_, fun hxml => ?_⟩
    · have hread := (hwritten a ha).1
      rwa [hwrittenName] at hread
    · -- the prefix that is declared everywhere is left out
      rw [hxml] at hother
      cases hother
  name := ⟨h.name.1 ▸ hname, h.name.2⟩
  attributes := by
    intro made hmade
    obtain ⟨a, ha, hpre, hlocal, huri⟩ := exists_of_mem_forall₂ h.attributes.flip hmade
    rw [hpre, hlocal]
    exact ⟨(hwritten a (List.mem_of_mem_filter ha)).1, huri⟩
  unrepeated := h.nodup_expanded

end Made

/-! ## Documents that are read -/

mutual

theorem Node.EachInScope.mono {P Q : Scope → Tag → List Node → Prop}
    (himp : ∀ scope tag children, P scope tag children → Q scope tag children) {scope : Scope} :
    (node : Node) → node.EachInScope P scope → node.EachInScope Q scope
  | .element tag children, h =>
      ⟨himp scope tag children h.1, EachInScopeIn.mono himp children h.2⟩
  | .text _, _ | .comment _ _, _ | .instruction _ _ _, _ | .entity _, _ => trivial

theorem EachInScopeIn.mono {P Q : Scope → Tag → List Node → Prop}
    (himp : ∀ scope tag children, P scope tag children → Q scope tag children) {scope : Scope} :
    (nodes : List Node) → EachInScopeIn P scope nodes → EachInScopeIn Q scope nodes
  | [], _ => trivial
  | node :: rest, h =>
      ⟨Node.EachInScope.mono himp node h.1, EachInScopeIn.mono himp rest h.2⟩

end

/-- **The names in a document that is read are well-formed.** -/
theorem wellNamed_of_read? {text : String} {document : Document}
    (h : read? text = some document) : document.root.node.WellNamed [] := by
  refine Node.EachInScope.mono (fun scope tag children hmade => ?_) _ (made_of_read? h).2
  obtain ⟨⟨name, written, hname, hwritten, hmade⟩, -⟩ := hmade
  exact hmade.wellNamed hname hwritten

/-! ## Declarations in scope -/

section Declarations

variable {own outer : List Declaration}

/-- Where the declarations around are one for each prefix, those of other prefixes are added. -/
theorem mem_addDeclarations_iff {d : Declaration}
    (hunique : ∀ d₁ ∈ outer, ∀ d₂ ∈ outer, d₁.nsPrefix = d₂.nsPrefix → d₁ = d₂) :
    d ∈ addDeclarations own outer ↔ d ∈ own ∨ d ∈ outer ∧ d.nsPrefix ∉ own.map (·.nsPrefix) := by
  induction outer generalizing own with
  | nil => simp [addDeclarations]
  | cons first rest ih =>
      have ih := fun own => @ih own fun d₁ h₁ d₂ h₂ =>
        hunique d₁ (List.mem_cons_of_mem first h₁) d₂ (List.mem_cons_of_mem first h₂)
      have hany : own.any (·.nsPrefix == first.nsPrefix) = true ↔
          first.nsPrefix ∈ own.map (·.nsPrefix) := by
        simp [List.any_eq_true, List.mem_map]
      rw [addDeclarations, List.foldl_cons]
      by_cases hin : first.nsPrefix ∈ own.map (·.nsPrefix)
      · rw [if_pos (hany.mpr hin)]
        refine (ih own).trans (or_congr_right ?_)
        rw [List.mem_cons]
        constructor
        · exact fun h => ⟨Or.inr h.1, h.2⟩
        · rintro ⟨rfl | h, hnot⟩
          · exact absurd hin hnot
          · exact ⟨h, hnot⟩
      · rw [if_neg (mt hany.mp hin)]
        refine (ih (own ++ [first])).trans ?_
        rw [List.mem_append, List.mem_singleton, List.map_append, List.mem_append,
          List.map_singleton, List.mem_singleton, List.mem_cons, not_or]
        constructor
        · rintro ((h | rfl) | ⟨h, hnot, -⟩)
          · exact Or.inl h
          · exact Or.inr ⟨Or.inl rfl, hin⟩
          · exact Or.inr ⟨Or.inr h, hnot⟩
        · rintro (h | ⟨rfl | h, hnot⟩)
          · exact Or.inl (Or.inl h)
          · exact Or.inl (Or.inr rfl)
          · -- one for the prefix of the first is the first
            by_cases heq : d.nsPrefix = first.nsPrefix
            · refine Or.inl (Or.inr ?_)
              exact hunique d (List.mem_cons_of_mem first h) first List.mem_cons_self heq
            · exact Or.inr ⟨h, hnot, heq⟩

/-- **The declarations are those of a scope:** for every prefix the nearest one. -/
structure Follows (declarations : List Declaration) (scope : Scope) : Prop where
  /-- The prefix of a declaration stands for its namespace, and there is a declaration for every
  prefix. -/
  mem_iff : ∀ d, d ∈ declarations ↔ scope.lookup d.nsPrefix = some d.uri
  /-- A prefix is a name, and the one that is declared everywhere keeps its namespace. -/
  prefixes : ∀ d ∈ declarations, ∀ p ∈ d.nsPrefix,
    IsName p ∧ (p = "xml" → d.uri = xmlNamespace)

theorem follows_nil : Follows [] [] := ⟨fun _ => by simp, nofun⟩

/-- Of declarations of different prefixes each is found under its prefix. -/
theorem lookup_declarations_eq_some_iff (h : (own.map (·.nsPrefix)).Nodup) {d : Declaration} :
    (own.map fun d => (d.nsPrefix, d.uri)).lookup d.nsPrefix = some d.uri ↔ d ∈ own := by
  have hkeys : ((own.map fun d => (d.nsPrefix, d.uri)).map (·.1)).Nodup := by
    rw [List.map_map]
    exact h
  rw [lookup_eq_some_iff_mem hkeys, List.mem_map]
  constructor
  · rintro ⟨⟨p, uri⟩, hmem, heq⟩
    cases heq
    exact hmem
  · exact fun hmem => ⟨d, hmem, rfl⟩

theorem lookup_declarations_eq_none_iff {p : Option String} :
    (own.map fun d => (d.nsPrefix, d.uri)).lookup p = none ↔ p ∉ own.map (·.nsPrefix) := by
  rw [List.lookup_eq_none_iff, List.forall_mem_map, List.mem_map, not_exists]
  exact forall_congr' fun d => by rw [not_and, bne_iff_ne, ne_comm]

/-- There is one declaration for a prefix. -/
theorem Follows.unique {scope : Scope} (h : Follows outer scope) :
    ∀ d₁ ∈ outer, ∀ d₂ ∈ outer, d₁.nsPrefix = d₂.nsPrefix → d₁ = d₂ := by
  rintro ⟨p₁, uri₁⟩ h₁ ⟨p₂, uri₂⟩ h₂ heq
  obtain rfl : p₁ = p₂ := heq
  obtain rfl : uri₁ = uri₂ :=
    Option.some.inj (((h.mem_iff _).mp h₁).symm.trans ((h.mem_iff _).mp h₂))
  rfl

/-- **In an element its own declarations come first,** and hide those of their prefixes. -/
theorem Follows.inside {scope : Scope} {tag : Tag} (h : Follows outer scope)
    (htag : tag.WellNamed scope) :
    Follows (addDeclarations tag.declarations outer) (tag.scope scope) := by
  constructor
  · intro d
    rw [mem_addDeclarations_iff h.unique, Tag.scope, List.lookup_append, Option.or_eq_some_iff,
      lookup_declarations_eq_some_iff htag.distinct, lookup_declarations_eq_none_iff, h.mem_iff d,
      and_comm (a := d.nsPrefix ∉ _)]
  · intro d hd p hp
    rcases (mem_addDeclarations_iff h.unique).mp hd with hd | hd
    · exact htag.prefixes d hd p hp
    · exact h.prefixes d hd.1 p hp

end Declarations

end OscalValidation.Xml

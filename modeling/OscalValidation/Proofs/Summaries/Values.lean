import OscalValidation.Proofs.Json.RoundTrip
import OscalValidation.Proofs.Summaries.Catalog
import OscalValidation.Summaries.Scenario
import OscalValidation.Summaries.View

set_option autoImplicit false

/-! # Summaries survive being written

A value without numbers in whose objects no name occurs twice is read back from its text as it
was, unless it is nested too deep (`Restorable.readBytes_summaryText`). Catalogs, assertion views and scenario summaries are
such values.
-/

namespace OscalValidation

namespace Json

/-- **The value can be restored from its text:** it is made of texts, no object in it has two
members of one name, and it is nested within some levels. -/
structure Restorable (levels : Nat) (value : Json) : Prop where
  textual : value.isTextual = true
  distinct : value.isDistinct = true
  shallow : value.nesting ≤ levels

section Restoring

variable {levels : Nat}

/-- **The text of a summary gives the summary back.** -/
theorem Restorable.readBytes_summaryText {value : Json} (h : Restorable levels value)
    (hlevels : levels ≤ nestingLimit) :
    readBytes (Text.encode (summaryText value)) = .ok value :=
  readBytes_indented h.textual h.distinct (h.shallow.trans hlevels)

theorem Restorable.mono {value : Json} (h : Restorable levels value) {more : Nat}
    (hmore : levels ≤ more) : Restorable more value :=
  ⟨h.textual, h.distinct, h.shallow.trans hmore⟩

theorem restorable_str (s : String) : Restorable levels (str s) := ⟨rfl, rfl, Nat.zero_le _⟩

theorem restorable_ofText? (s : Option String) : Restorable levels (ofText? s) := by
  cases s <;> exact ⟨rfl, rfl, Nat.zero_le _⟩

theorem restorable_arr {items : List Json} (h : ∀ item ∈ items, Restorable levels item) :
    Restorable (levels + 1) (arr items) :=
  ⟨areTextual_iff.mpr fun item hitem => (h item hitem).textual,
    areDistinct_iff.mpr fun item hitem => (h item hitem).distinct,
    Nat.succ_le_succ (itemsNesting_le_iff.mpr fun item hitem => (h item hitem).shallow)⟩

theorem restorable_ofTexts (texts : List String) : Restorable (levels + 1) (ofTexts texts) := by
  refine restorable_arr fun item hitem => ?_
  obtain ⟨s, -, rfl⟩ := List.mem_map.mp hitem
  exact restorable_str s

theorem restorable_obj {members : List (String × Json)} (hnames : (members.map (·.1)).Nodup)
    (h : ∀ m ∈ members, Restorable levels m.2) : Restorable (levels + 1) (obj members) :=
  ⟨haveTextual_iff.mpr fun m hm => (h m hm).textual,
    isDistinct_obj_iff.mpr ⟨hnames, haveDistinct_iff.mpr fun m hm => (h m hm).distinct⟩,
    Nat.succ_le_succ (membersNesting_le_iff.mpr fun m hm => (h m hm).shallow)⟩

end Restoring

end Json

open Json (restorable_str restorable_ofText? restorable_ofTexts restorable_arr restorable_obj)

/-! ## Summaries -/

theorem CatalogEntry.restorable_toJson {entry : CatalogEntry}
    (h : (entry.properties.map (·.1)).Nodup) : entry.toJson.Restorable 2 := by
  have hproperties : (Json.obj (entry.properties.map fun property =>
      (property.1, .str property.2))).Restorable 1 := by
    refine restorable_obj ?_ fun m hm => ?_
    · rwa [List.map_map]
    · obtain ⟨property, -, rfl⟩ := List.mem_map.mp hm
      exact restorable_str _
  refine restorable_obj (by simp) ?_
  simp only [List.forall_mem_cons]
  exact ⟨restorable_str _, restorable_str _, restorable_ofText? _, restorable_ofText? _,
    restorable_ofText? _, restorable_ofText? _, restorable_ofTexts _, hproperties,
    fun m hm => absurd hm List.not_mem_nil⟩

/-- **Catalogs can be restored.** -/
theorem Catalog.restorable_toJson (schema : Xml.Element) :
    (Catalog.ofSchema schema).toJson.Restorable 3 := by
  refine restorable_obj ?_ fun m hm => ?_
  · rw [List.map_map]
    exact nodup_keys schema
  · obtain ⟨⟨id, entry⟩, hentry, rfl⟩ := List.mem_map.mp hm
    obtain ⟨check, -, rfl⟩ := mem_entries_iff.mp hentry
    exact CatalogEntry.restorable_toJson (nodup_propertiesOf check.2.2)

/-- **Assertion views can be restored.** -/
theorem AssertionView.restorable_toJson (view : AssertionView) : view.toJson.Restorable 4 := by
  have hgroups : (Json.arr (view.groups.map fun group => .obj [("title", .str group.title),
      ("assertion-ids", .ofTexts group.assertionIds)])).Restorable 3 := by
    refine restorable_arr fun item hitem => ?_
    obtain ⟨group, -, rfl⟩ := List.mem_map.mp hitem
    refine restorable_obj (by simp) ?_
    simp only [List.forall_mem_cons]
    exact ⟨restorable_str _, restorable_ofTexts _, fun m hm => absurd hm List.not_mem_nil⟩
  refine restorable_obj (by simp) ?_
  simp only [List.forall_mem_cons]
  exact ⟨restorable_str _, hgroups, fun m hm => absurd hm List.not_mem_nil⟩

/-- **Scenario summaries can be restored.** -/
theorem ScenarioSummary.restorable_toJson (summary : ScenarioSummary) :
    summary.toJson.Restorable 1 := by
  refine restorable_obj (by simp) ?_
  simp only [List.forall_mem_cons]
  exact ⟨restorable_str _, restorable_ofText? _, restorable_ofText? _, restorable_str _,
    restorable_ofText? _, restorable_ofText? _, fun m hm => absurd hm List.not_mem_nil⟩

end OscalValidation

import OscalValidation.Proofs.Summaries.Phases
import OscalValidation.Summaries.Catalog

set_option autoImplicit false

/-! # What a catalog lists

A catalog has an entry for an identifier exactly if an assert or report of the source has that
identifier, and the entry is that of the first one which does (`mem_entries_iff`). So no
identifier is listed twice, and neither is a name among the properties of an entry.
-/

namespace OscalValidation

open Schematron (Scoped)

/-- The identifier of an assert or report, unless it is empty. -/
def Schematron.idOf? (e : Xml.Element) : Option String := (e.attribute? "id").filter (· != "")

theorem Schematron.idOf?_eq_none_iff {e : Xml.Element} :
    Schematron.idOf? e = none ↔ e.attribute? "id" = none ∨ e.attribute? "id" = some "" := by
  unfold Schematron.idOf?
  cases e.attribute? "id" with
  | none => simp
  | some id => simp

theorem Schematron.idOf?_eq_some_iff {e : Xml.Element} {id : String} :
    Schematron.idOf? e = some id ↔ e.attribute? "id" = some id ∧ id ≠ "" := by
  unfold Schematron.idOf?
  rw [Option.filter_eq_some_iff]
  simp

namespace Catalog

/-! ## One more assert or report -/

section Add

variable {diagnostics : List (String × String)} {catalog : Catalog}
  {check : Xml.Element × Xml.Element × Scoped}

/-- An assert or report without an identifier adds no entry. -/
theorem add_of_idOf?_eq_none (h : Schematron.idOf? check.2.2.element = none) :
    (add diagnostics catalog check).entries = catalog.entries := by
  rcases Schematron.idOf?_eq_none_iff.mp h with hid | hid
  · rw [add, hid]
  · rw [add, hid]
    rfl

/-- An assert or report adds an entry unless its identifier has one. -/
theorem add_of_idOf?_eq_some {id : String}
    (h : Schematron.idOf? check.2.2.element = some id) :
    (add diagnostics catalog check).entries =
      if id ∈ catalog.entries.map (·.1) then catalog.entries
      else catalog.entries ++ [(id, entryOf diagnostics check.1 check.2.1 check.2.2)] := by
  obtain ⟨hid, hne⟩ := Schematron.idOf?_eq_some_iff.mp h
  have hany : catalog.entries.any (·.1 == id) = true ↔ id ∈ catalog.entries.map (·.1) := by
    simp [List.any_eq_true, List.mem_map]
  rw [add, hid]
  split
  · next heq => exact absurd (Option.some.inj heq) hne
  · next heq => cases heq
  · next id' _ heq =>
    cases heq
    by_cases hin : id ∈ catalog.entries.map (·.1)
    · rw [if_pos (hany.mpr hin), if_pos hin]
    · rw [if_neg (mt hany.mp hin), if_neg hin]

/-- No identifier is listed twice. -/
theorem nodup_add (h : (catalog.entries.map (·.1)).Nodup) :
    ((add diagnostics catalog check).entries.map (·.1)).Nodup := by
  cases hid : Schematron.idOf? check.2.2.element with
  | none => rwa [add_of_idOf?_eq_none hid]
  | some id =>
      rw [add_of_idOf?_eq_some hid]
      split
      · exact h
      · next hnew =>
        rw [List.map_append, List.nodup_append]
        refine ⟨h, by simp, fun m hm n hn heq => hnew ?_⟩
        rw [List.map_singleton, List.mem_singleton] at hn
        rw [heq, hn] at hm
        exact hm

end Add

/-! ## All asserts and reports -/

/-- **Of the asserts and reports with an identifier the first has the entry,** unless the
identifier has an entry already. -/
theorem mem_entries_foldl_add {diagnostics : List (String × String)} {catalog : Catalog}
    {checks : List (Xml.Element × Xml.Element × Scoped)} {id : String} {entry : CatalogEntry} :
    (id, entry) ∈ (checks.foldl (add diagnostics) catalog).entries ↔
      (id, entry) ∈ catalog.entries ∨ id ∉ catalog.entries.map (·.1) ∧
        ∃ check, checks.find? (fun c => Schematron.idOf? c.2.2.element == some id) = some check ∧
          entry = entryOf diagnostics check.1 check.2.1 check.2.2 := by
  induction checks generalizing catalog with
  | nil => simp
  | cons check rest ih =>
      rw [List.foldl_cons, ih, List.find?_cons]
      cases hid : Schematron.idOf? check.2.2.element with
      | none => simp [add_of_idOf?_eq_none hid]
      | some id' =>
          rw [add_of_idOf?_eq_some hid]
          by_cases hin : id' ∈ catalog.entries.map (·.1)
          · -- the identifier has an entry, so it is not the one that is looked for
            rw [if_pos hin]
            refine or_congr_right (and_congr_right fun hnew => ?_)
            have hne : (id' == id) = false := beq_eq_false_iff_ne.mpr fun heq => hnew (heq ▸ hin)
            simp [hne]
          · rw [if_neg hin]
            by_cases heq : id' = id
            · subst heq
              simp [hin]
            · have hne : (id' == id) = false := beq_eq_false_iff_ne.mpr heq
              simp [hne, Ne.symm heq]

/-- An assert or report of a source with an identifier is found by it. -/
theorem exists_find?_iff {checks : List (Xml.Element × Xml.Element × Scoped)} {id : String} :
    (∃ check, checks.find? (fun c => Schematron.idOf? c.2.2.element == some id) = some check) ↔
      ∃ check ∈ checks, Schematron.idOf? check.2.2.element = some id := by
  rw [← Option.isSome_iff_exists, List.find?_isSome]
  simp

/-- **The entries of a catalog:** for every identifier the first assert or report that has it. -/
theorem mem_entries_iff {schema : Xml.Element} {id : String} {entry : CatalogEntry} :
    (id, entry) ∈ (ofSchema schema).entries ↔
      ∃ check, (checks schema).find?
          (fun c => Schematron.idOf? c.2.2.element == some id) = some check ∧
        entry = entryOf (diagnosticTexts schema) check.1 check.2.1 check.2.2 := by
  rw [ofSchema, mem_entries_foldl_add]
  simp

/-- **The identifiers of a catalog** are those of the asserts and reports of the source. -/
theorem mem_keys_iff {schema : Xml.Element} {id : String} :
    id ∈ (ofSchema schema).entries.map (·.1) ↔
      ∃ check ∈ checks schema, Schematron.idOf? check.2.2.element = some id := by
  rw [List.mem_map, ← exists_find?_iff]
  constructor
  · rintro ⟨⟨id', entry⟩, hentry, rfl⟩
    obtain ⟨check, hcheck, -⟩ := mem_entries_iff.mp hentry
    exact ⟨check, hcheck⟩
  · rintro ⟨check, hcheck⟩
    exact ⟨(id, _), mem_entries_iff.mpr ⟨check, hcheck, rfl⟩, rfl⟩

/-- **No identifier is listed twice.** -/
theorem nodup_keys (schema : Xml.Element) :
    ((ofSchema schema).entries.map (·.1)).Nodup := by
  have hempty : ((⟨[], []⟩ : Catalog).entries.map (·.1)).Nodup := List.nodup_nil
  exact List.foldlRecOn (motive := fun catalog : Catalog => (catalog.entries.map (·.1)).Nodup)
    _ _ hempty fun catalog h check _ => nodup_add h

/-- No name is listed twice among the properties of an assert or report. -/
theorem nodup_propertiesOf (check : Scoped) : ((propertiesOf check).map (·.1)).Nodup := by
  have hempty : (([] : List (String × String)).map (·.1)).Nodup := List.nodup_nil
  exact List.foldlRecOn
    (motive := fun done : List (String × String) => (done.map (·.1)).Nodup) _ _ hempty
    fun done h a _ => SummaryWriter.nodup_names_step _ _ h

end Catalog

end OscalValidation

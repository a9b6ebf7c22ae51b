import Mathlib.Data.List.Induction
import Mathlib.Data.List.Nodup
import OscalValidation.Conversion.Convert
import OscalValidation.Proofs.Conversion.Names
import OscalValidation.Proofs.Lists

set_option autoImplicit false

/-! # Attributes that are set one after another

`Leaves` says which attributes an element has after some were set, where setting one of a name that
is there already changes its value. Main statement: they are just those that were set exactly if
no two of them have one name (`Leaves.eq_iff`).
-/

namespace OscalValidation

namespace Conversion

open Xml (Name Attribute)

/-! ## Attributes that are left -/

/-- **The attributes that are left after some were set:** one of each name, in the order in which
the names come up, with the value that was set last. -/
structure Leaves (written attributes : List Attribute) : Prop where
  names : attributes.map (·.name) = (written.map (·.name)).eraseDups
  last : ∀ a ∈ attributes, ∃ before after, written = before ++ a :: after ∧
    ∀ b ∈ after, b.name ≠ a.name

section Setting

variable {a b : Attribute} {written attributes : List Attribute}

theorem names_setAttribute (a : Attribute) (attributes : List Attribute) :
    (setAttribute a attributes).map (·.name) =
      if (attributes.map (·.name)).contains a.name then attributes.map (·.name)
      else attributes.map (·.name) ++ [a.name] := by
  induction attributes with
  | nil => rfl
  | cons old rest ih =>
      rw [setAttribute]
      by_cases h : old.name = a.name
      · simp [h]
      · rw [if_neg h, List.map_cons, ih]
        have hne : (a.name == old.name) = false := by
          rw [beq_eq_false_iff_ne]
          exact fun heq => h heq.symm
        simp only [List.map_cons, List.contains_cons, hne, Bool.false_or]
        split <;> rfl

/-- What is there after setting an attribute is that, or was there and has another name. -/
theorem mem_setAttribute (h : (attributes.map (·.name)).Nodup) (hb : b ∈ setAttribute a attributes) :
    b = a ∨ b ∈ attributes ∧ b.name ≠ a.name := by
  induction attributes with
  | nil => exact Or.inl (List.mem_singleton.mp hb)
  | cons old rest ih =>
      obtain ⟨hold, hrest⟩ := List.nodup_cons.mp h
      rw [setAttribute] at hb
      split at hb
      · next heq =>
        rcases List.mem_cons.mp hb with rfl | hb
        · exact Or.inl rfl
        · refine Or.inr ⟨List.mem_cons_of_mem _ hb, fun hname => hold ?_⟩
          dsimp only
          rw [heq, ← hname]
          exact List.mem_map_of_mem hb
      · next hne =>
        rcases List.mem_cons.mp hb with rfl | hb
        · exact Or.inr ⟨List.mem_cons_self, hne⟩
        · exact (ih hrest hb).imp_right fun hb => ⟨List.mem_cons_of_mem _ hb.1, hb.2⟩

theorem Leaves.nodup (h : Leaves written attributes) : (attributes.map (·.name)).Nodup := by
  rw [h.names]
  exact nodup_eraseDups _

/-- Setting one more attribute. -/
theorem Leaves.concat (h : Leaves written attributes) (a : Attribute) :
    Leaves (written ++ [a]) (setAttribute a attributes) where
  names := by
    rw [names_setAttribute, List.map_append, List.map_singleton, eraseDups_concat, h.names]
    have hsame : ((written.map (·.name)).eraseDups).contains a.name =
        (written.map (·.name)).contains a.name := by
      simp only [List.contains_eq_mem, List.mem_eraseDups]
    rw [hsame]
  last b hb := by
    rcases mem_setAttribute h.nodup hb with rfl | ⟨hb, hne⟩
    · exact ⟨written, [], rfl, by simp⟩
    · obtain ⟨before, after, rfl, hafter⟩ := h.last b hb
      refine ⟨before, after ++ [a], by simp, fun c hc => ?_⟩
      rcases List.mem_append.mp hc with hc | hc
      · exact hafter c hc
      · rw [List.mem_singleton.mp hc]
        exact hne.symm

/-- **Setting attributes one after another leaves one of each name.** -/
theorem leaves_foldl (written : List Attribute) :
    Leaves written (written.foldl (fun done a => setAttribute a done) []) := by
  induction written using List.reverseRecOn with
  | nil => exact ⟨rfl, by simp⟩
  | append_singleton rest a ih =>
      rw [List.foldl_append]
      exact ih.concat a

/-- What is left was set. -/
theorem Leaves.subset (h : Leaves written attributes) : attributes ⊆ written := by
  intro a ha
  obtain ⟨before, after, rfl, -⟩ := h.last a ha
  exact List.mem_append_right _ List.mem_cons_self

/-- **Just the attributes that were set are left exactly if no two of them have one name.** -/
theorem Leaves.eq_iff (h : Leaves written attributes) :
    written = attributes ↔ (written.map (·.name)).Nodup := by
  constructor
  · rintro rfl
    exact h.nodup
  · intro hnodup
    have hnames : written.map (·.name) = attributes.map (·.name) := by
      rw [h.names, eraseDups_eq_self hnodup]
    -- both lists have the same names in order, and a name tells the attribute
    refine List.ext_getElem ?_ fun i hi hi' => ?_
    · simpa using congrArg List.length hnames
    · refine List.inj_on_of_nodup_map hnodup (List.getElem_mem hi)
        (h.subset (List.getElem_mem hi')) ?_
      have hname := congrArg (·[i]?) hnames
      simpa only [List.getElem?_map, List.getElem?_eq_getElem hi, List.getElem?_eq_getElem hi',
        Option.map_some, Option.some.injEq] using hname

end Setting

end Conversion

end OscalValidation

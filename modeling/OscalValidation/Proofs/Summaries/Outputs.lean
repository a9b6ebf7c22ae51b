import Mathlib.Data.List.Nodup
import Mathlib.Data.List.ProdSigma
import OscalValidation.Proofs.Summaries.AllOrNothing
import OscalValidation.Summaries.Generation

set_option autoImplicit false

/-! # The files of summaries

Every kind of summary has a file of its own for every document type (`fileName_injective`). Files
that are written hold their outputs, and every file of another name is as it was
(`written_of_writeAll`).
-/

namespace OscalValidation

open Text (Bytes)

/-- An entry that is kept is still at the paths that lead to it. -/
theorem FileTree.Adds.holds {tree tree' : FileTree} (h : tree.Adds tree') {path : Path}
    {content : Bytes} (hholds : tree.Holds path content) : tree'.Holds path content := by
  obtain ⟨place, hplace, hentry⟩ := FileTree.holds_iff.mp hholds
  exact FileTree.holds_iff.mpr
    ⟨place, FileTree.locate_mono (fun _ hdirectory => h.kept hdirectory) hplace, h.kept hentry⟩

namespace SummaryWriter

/-! ## Outputs without repetition -/

section Distinct

variable {α : Type}

/-- The step of leaving out repetitions adds an output that agrees with those before it. -/
theorem mem_distinct_step {done : List (String × α)} {name : String} {value : α}
    (h : ∀ entry ∈ done, entry.1 = name → entry = (name, value)) (output : String × α) :
    (output ∈ if done.any (·.1 == name) then
        done.map fun entry => if entry.1 == name then (name, value) else entry
      else done ++ [(name, value)]) ↔ output ∈ done ∨ output = (name, value) := by
  split
  · next hany =>
    have hsame : (done.map fun entry => if entry.1 == name then (name, value) else entry) =
        done := by
      refine (List.map_congr_left fun entry hentry => ?_).trans (List.map_id done)
      split
      · next heq => exact (h entry hentry (by simpa using heq)).symm
      · rfl
    obtain ⟨entry, hentry, hname⟩ := List.any_eq_true.mp hany
    have hthere := h entry hentry (by simpa using hname)
    rw [hsame]
    refine ⟨.inl, fun hmem => hmem.elim id fun heq => ?_⟩
    rw [heq, ← hthere]
    exact hentry
  · rw [List.mem_append, List.mem_singleton]

/-- **No output is lost as a repetition** if outputs of one name agree. -/
theorem mem_distinct_iff {outputs : List (String × α)}
    (h : ∀ output ∈ outputs, ∀ other ∈ outputs, output.1 = other.1 → output = other)
    (output : String × α) : output ∈ distinct outputs ↔ output ∈ outputs := by
  -- the induction is on the outputs that are left, with those before them in `done`
  suffices hrun : ∀ rest done : List (String × α),
      (∀ a ∈ done ++ rest, ∀ b ∈ done ++ rest, a.1 = b.1 → a = b) →
      (output ∈ rest.foldl (fun done next =>
        if done.any (·.1 == next.1) then
          done.map fun entry => if entry.1 == next.1 then (next.1, next.2) else entry
        else done ++ [(next.1, next.2)]) done ↔ output ∈ done ++ rest) by
    exact hrun outputs [] h
  intro rest
  induction rest with
  | nil => intro done _; simp
  | cons first rest ih =>
      intro done hagree
      have hsame : ∀ entry ∈ done, entry.1 = first.1 → entry = (first.1, first.2) :=
        fun entry hentry heq => hagree entry (List.mem_append_left _ hentry) first
          (List.mem_append_right _ List.mem_cons_self) heq
      have hstep := mem_distinct_step hsame
      rw [List.foldl_cons, ih]
      · rw [List.mem_append, hstep, List.mem_append, List.mem_cons, or_assoc]
      · have hsub : ∀ a, a ∈ (if done.any (·.1 == first.1) then
              done.map fun entry => if entry.1 == first.1 then (first.1, first.2) else entry
            else done ++ [(first.1, first.2)]) ++ rest → a ∈ done ++ first :: rest := by
          intro a ha
          rw [List.mem_append, hstep] at ha
          rw [List.mem_append, List.mem_cons, ← or_assoc]
          exact ha
        exact fun a ha b hb => hagree a (hsub a ha) b (hsub b hb)

end Distinct

/-! ## What is written -/

/-- **The name is that of a file and does not begin with a dot,** as the names do under which
files are staged. -/
structure IsPlain (name : String) : Prop where
  isFileName : IsFileName name
  /-- It begins with something else than a dot. -/
  undotted : name.toList.head? ≠ some '.'

theorem IsPlain.ne_temporary {name : String} (h : IsPlain name) (other : String) :
    s!".{other}.tmp" ≠ name := by
  rintro rfl
  refine h.undotted ?_
  simp [toString, String.toList_append]

/-- **What outputs leave behind** that were written into a directory. -/
structure Written (directory : Path) (outputs : List (String × Json)) (before after : FileTree) :
    Prop where
  /-- Every output is at its place. -/
  holds {output : String × Json} (h : output ∈ outputs) :
    after.Holds (directory.join output.1) (Text.encode (summaryText output.2))
  /-- Every file of another name is as it was, wherever it is. -/
  kept {other : Path} {name : String} {content : Bytes} (hname : IsPlain name)
    (hother : ∀ output ∈ outputs, output.1 ≠ name) (h : before.Holds (other.join name) content) :
    after.Holds (other.join name) content

/-- Outputs under plain names, one for each name, are put at different places. -/
theorem placesApart_of_isPlain {directory : Path} {tree : FileTree}
    {outputs : List (String × Json)} (hplain : ∀ output ∈ outputs, IsPlain output.1)
    (hagree : ∀ output ∈ outputs, ∀ other ∈ outputs, output.1 = other.1 → output = other) :
    PlacesApart directory tree ((distinct outputs).map (·.1)) := by
  have hmem := mem_distinct_iff hagree
  exact placesApart_distinct (fun output h => (hplain output ((hmem output).mp h)).isFileName)
    fun output _ other h => (hplain other ((hmem other).mp h)).ne_temporary output.1

/-- **Writing that succeeds** gives the places of the outputs and leaves them there. -/
theorem written_of_writeAll {directory : Path} {outputs : List (String × Json)}
    {before after : FileTree} {places : List Path} (hplain : ∀ output ∈ outputs, IsPlain output.1)
    (hagree : ∀ output ∈ outputs, ∀ other ∈ outputs, output.1 = other.1 → output = other)
    (hrun : writeAll directory outputs before = (.ok places, after)) :
    places = (distinct outputs).map (fun output => directory.join output.1) ∧
      Written directory outputs before after := by
  have hmem := mem_distinct_iff hagree
  cases hmade : before.makeDirectories directory with
  | error fault =>
      rw [writeAll, hmade] at hrun
      cases hrun
  | ok made =>
      have hadds := FileTree.makeDirectories_adds hmade
      have hapart : PlacesApart directory made ((distinct outputs).map (·.1)) :=
        placesApart_of_isPlain hplain hagree
      rcases stop_or_room directory made (texts (distinct outputs)) with
        ⟨changes, hstop⟩ | ⟨hstage, hroom⟩
      · -- where writing stops it fails
        obtain ⟨fault, left, hfails, -⟩ := writeAll_of_stop hmade hapart hstop
        rw [hfails] at hrun
        cases hrun
      · obtain ⟨written, hwrites, hchanged⟩ := writeAll_of_room hmade hapart hstage hroom
        rw [hwrites] at hrun
        cases hrun
        have hcomplete := complete_of_changed hadds hchanged hroom
        refine ⟨rfl, fun h => hcomplete.written ((hmem _).mpr h),
          fun {other name content} hname hother hholds => ?_⟩
        refine hchanged.holds (hadds.holds hholds) fun change hchange => ?_
        obtain ⟨o, ho, hchange⟩ := List.mem_flatMap.mp hchange
        obtain ⟨output, houtput, rfl⟩ := List.mem_map.mp ho
        have hin := (hmem output).mp houtput
        have hfile := (hplain output hin).isFileName
        simp only [List.mem_cons, List.not_mem_nil, or_false] at hchange
        rw [hname.isFileName.join_eq]
        rcases hchange with rfl | rfl
        · rw [hfile.join_eq]
          exact apart_of_ne hfile.2 hname.isFileName.2 (hother output hin)
        · rw [hfile.temporaryFor_eq]
          exact apart_of_ne (temporary_ne _) hname.isFileName.2 (hname.ne_temporary _)

end SummaryWriter

/-! ## Kinds of summaries -/

theorem DocumentType.mem_all (type : DocumentType) : type ∈ DocumentType.all := by
  cases type <;> decide

/-- **The kinds of summaries.** -/
inductive SummaryKind
  | catalog
  | view
  | scenarios
deriving DecidableEq

namespace SummaryKind

def fileName : SummaryKind → DocumentType → String
  | catalog => Catalog.fileName
  | view => AssertionView.fileName
  | scenarios => ScenarioSummary.fileName

theorem isPlain_fileName (kind : SummaryKind) (type : DocumentType) :
    SummaryWriter.IsPlain (kind.fileName type) := by
  refine ⟨?_, ?_⟩
  · unfold SummaryWriter.IsFileName
    cases kind <;> cases type <;> decide
  · cases kind <;> cases type <;> decide

/-- **No two summaries have files of one name.** -/
theorem fileName_injective {kind kind' : SummaryKind} {type type' : DocumentType}
    (h : kind.fileName type = kind'.fileName type') : kind = kind' ∧ type = type' := by
  have hnodup : (([catalog, view, scenarios].product DocumentType.all).map
      fun entry => entry.1.fileName entry.2).Nodup := by decide
  have hmem (kind : SummaryKind) (type : DocumentType) :
      (kind, type) ∈ [catalog, view, scenarios].product DocumentType.all :=
    List.mem_product.mpr ⟨by cases kind <;> decide, DocumentType.mem_all type⟩
  have heq := List.inj_on_of_nodup_map hnodup (hmem kind type) (hmem kind' type') h
  exact Prod.mk.inj heq

/-- The files of a kind for some types. -/
def outputs (kind : SummaryKind) (summary : DocumentType → Json) (types : List DocumentType) :
    List (String × Json) :=
  types.map fun type => (kind.fileName type, summary type)

theorem mem_outputs_iff {kind : SummaryKind} {summary : DocumentType → Json}
    {types : List DocumentType} {output : String × Json} :
    output ∈ kind.outputs summary types ↔
      ∃ type ∈ types, output = (kind.fileName type, summary type) := by
  simp [outputs, eq_comm]

/-- The summary of each type is at its place once the files of a kind are written. -/
theorem holds_of_written {kind : SummaryKind} {summary : DocumentType → Json}
    {types : List DocumentType} {directory : Path} {before after : FileTree} {type : DocumentType}
    (h : SummaryWriter.Written directory (kind.outputs summary types) before after)
    (htype : type ∈ types) : after.Holds (directory.join (kind.fileName type))
      (Text.encode (summaryText (summary type))) := by
  have houtput : (kind.fileName type, summary type) ∈ kind.outputs summary types :=
    mem_outputs_iff.mpr ⟨type, htype, rfl⟩
  have hholds := h.holds houtput
  exact hholds

section Outputs

variable {kind : SummaryKind} {summary : DocumentType → Json} {types : List DocumentType}
  {directory : Path} {before after : FileTree}

theorem isPlain_of_mem_outputs {output : String × Json} (h : output ∈ kind.outputs summary types) :
    SummaryWriter.IsPlain output.1 := by
  obtain ⟨type, -, rfl⟩ := mem_outputs_iff.mp h
  exact isPlain_fileName kind type

/-- Outputs of one name are the same. -/
theorem eq_of_mem_outputs {output other : String × Json}
    (houtput : output ∈ kind.outputs summary types) (hother : other ∈ kind.outputs summary types)
    (hname : output.1 = other.1) : output = other := by
  obtain ⟨type, -, rfl⟩ := mem_outputs_iff.mp houtput
  obtain ⟨type', -, rfl⟩ := mem_outputs_iff.mp hother
  rw [(fileName_injective hname).2]

theorem mem_distinct_outputs_iff {output : String × Json} :
    output ∈ SummaryWriter.distinct (kind.outputs summary types) ↔
      ∃ type ∈ types, output = (kind.fileName type, summary type) := by
  rw [SummaryWriter.mem_distinct_iff fun _ h _ h' => eq_of_mem_outputs h h', mem_outputs_iff]

/-- **Writing the files of a kind** for some types leaves the summary of each at its place. -/
theorem written_of_writeAll_outputs {places : List Path}
    (hrun : SummaryWriter.writeAll directory (kind.outputs summary types) before =
      (.ok places, after)) :
    (∀ path, path ∈ places ↔ ∃ type ∈ types, path = directory.join (kind.fileName type)) ∧
      SummaryWriter.Written directory (kind.outputs summary types) before after := by
  obtain ⟨rfl, hwritten⟩ := SummaryWriter.written_of_writeAll
    (fun _ => isPlain_of_mem_outputs) (fun _ h _ h' => eq_of_mem_outputs h h') hrun
  refine ⟨fun path => ?_, hwritten⟩
  rw [List.mem_map]
  constructor
  · rintro ⟨output, houtput, rfl⟩
    obtain ⟨type, htype, rfl⟩ := mem_distinct_outputs_iff.mp houtput
    exact ⟨type, htype, rfl⟩
  · rintro ⟨type, htype, rfl⟩
    exact ⟨_, mem_distinct_outputs_iff.mpr ⟨type, htype, rfl⟩, rfl⟩

/-- **The files of a kind are written where there is room for them,** and no directory changes. -/
theorem exists_writeAll_outputs {made : FileTree}
    (hmade : before.makeDirectories directory = .ok made)
    (hroom : ∀ type ∈ types, SummaryWriter.CanStage directory made (kind.fileName type) ∧
      made.HasRoom (directory.join (kind.fileName type))) :
    ∃ places after, SummaryWriter.writeAll directory (kind.outputs summary types) before =
      (.ok places, after) ∧ made.SameDirectories after := by
  have hall : ∀ o ∈ SummaryWriter.texts (SummaryWriter.distinct (kind.outputs summary types)),
      SummaryWriter.CanStage directory made o.1 ∧ made.HasRoom (directory.join o.1) := by
    intro o ho
    obtain ⟨output, houtput, rfl⟩ := List.mem_map.mp ho
    obtain ⟨type, htype, rfl⟩ := mem_distinct_outputs_iff.mp houtput
    exact hroom type htype
  obtain ⟨after, hrun, hchanged⟩ := SummaryWriter.writeAll_of_room hmade
    (SummaryWriter.placesApart_of_isPlain (fun _ => isPlain_of_mem_outputs)
      fun _ h _ h' => eq_of_mem_outputs h h')
    (fun o ho => (hall o ho).1) fun o ho => (hall o ho).2
  exact ⟨_, after, hrun, hchanged.directories⟩

end Outputs

end SummaryKind

end OscalValidation

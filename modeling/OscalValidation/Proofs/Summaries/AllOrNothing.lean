import OscalValidation.Proofs.Summaries.Phases

set_option autoImplicit false

/-! # Writing all files or none

Writing stops at an output whose place has no name, or that has no room for a file where it is
staged or where it is put. What the outputs before it changed is not undone (`Stop`), so writing
is all or nothing exactly if these changes leave everything as it was
(`writeAll_allOrNothing_iff`). A directory in the place of the second of two files shows that
they need not (`writeAll_not_allOrNothing`).
-/

namespace OscalValidation

namespace SummaryWriter

open FileTree (Apart FileChange Changed)

/-! ## What writing comes to -/

/-- The place is neither an output's nor one where an output is staged. -/
def Elsewhere (directory : Path) (outputs : List (String × Json)) (tree : FileTree)
    (place : EntryName) : Prop :=
  ∀ output ∈ outputs, tree.locate (directory.join output.1) ≠ .ok place ∧
    tree.locate (temporaryFor (directory.join output.1)) ≠ .ok place

/-- **All files are written,** and nothing else has changed but for new directories. -/
structure Complete (directory : Path) (outputs : List (String × Json))
    (before after : FileTree) : Prop where
  /-- Every output is at its place. -/
  written {output : String × Json} (h : output ∈ outputs) :
    after.Holds (directory.join output.1) (Text.encode (summaryText output.2))
  /-- No output is left where it was staged. -/
  cleared {output : String × Json} (h : output ∈ outputs) :
    after.HasNoFile (temporaryFor (directory.join output.1))
  /-- Every other entry is as it was. -/
  kept {place : EntryName} {entry : Entry} (h : before.entryAt? place = some entry)
    (hplace : Elsewhere directory outputs after place) : after.entryAt? place = some entry
  added {place : EntryName} {content : Text.Bytes}
    (h : after.entryAt? place = some (.file content))
    (hplace : Elsewhere directory outputs after place) :
    before.entryAt? place = some (.file content)

/-- **All or nothing:** writing returns the places of all files and they are written, or it fails
and nothing has changed but for new directories. -/
def AllOrNothing (directory : Path) (outputs : List (String × Json)) (before : FileTree) :
    Except WriteFault (List Path) × FileTree → Prop
  | (.ok places, after) => places = outputs.map (fun output => directory.join output.1) ∧
      Complete directory outputs before after
  | (.error _, after) => before.Untouched after

def texts (outputs : List (String × Json)) : List (String × String) :=
  outputs.map fun output => (output.1, summaryText output.2)

/-! ## Where writing stops -/

/-- **Writing stops at an output,** and these changes of the outputs before it remain. -/
inductive Stop (directory : Path) (tree : FileTree) (outputs : List (String × String)) :
    List FileChange → Prop
  /-- There is no room where an output is staged: what was staged is taken away. -/
  | staging {before after : List (String × String)} {output : String × String}
      (split : outputs = before ++ output :: after)
      (staged : ∀ o ∈ before, CanStage directory tree o.1)
      (named : (directory.join output.1).name.isEmpty = false)
      (full : ¬ tree.HasRoom (temporaryFor (directory.join output.1))) :
      Stop directory tree outputs (removals directory before)
  /-- The place of an output has no name: what was staged stays. -/
  | nameless {before after : List (String × String)} {output : String × String}
      (split : outputs = before ++ output :: after)
      (staged : ∀ o ∈ before, CanStage directory tree o.1)
      (unnamed : (directory.join output.1).name.isEmpty = true) :
      Stop directory tree outputs (stagings directory before)
  /-- There is no room at the place of an output: what was moved stays where it is, and so does
  what is staged. -/
  | moving {before after : List (String × String)} {output : String × String}
      (split : outputs = before ++ output :: after)
      (staged : ∀ o ∈ outputs, CanStage directory tree o.1)
      (moved : ∀ o ∈ before, tree.HasRoom (directory.join o.1))
      (full : ¬ tree.HasRoom (directory.join output.1)) :
      Stop directory tree outputs
        (movings directory before ++ stagings directory (output :: after))

section Stops

variable {directory : Path} {tree : FileTree} {outputs : List (String × String)}

/-- A property holds of all members of a list, or there is a first one that it does not hold of. -/
theorem forall_or_first {α : Type} (p : α → Prop) (xs : List α) :
    (∀ x ∈ xs, p x) ∨
      ∃ before x after, xs = before ++ x :: after ∧ (∀ y ∈ before, p y) ∧ ¬ p x := by
  induction xs with
  | nil => exact .inl fun x h => absurd h List.not_mem_nil
  | cons head rest ih =>
      by_cases hhead : p head
      · rcases ih with hall | ⟨before, x, after, rfl, hbefore, hx⟩
        · exact .inl (List.forall_mem_cons.mpr ⟨hhead, hall⟩)
        · exact .inr ⟨head :: before, x, after, rfl, List.forall_mem_cons.mpr ⟨hhead, hbefore⟩, hx⟩
      · exact .inr ⟨[], head, rest, rfl, fun x h => absurd h List.not_mem_nil, hhead⟩

/-- **Writing stops at an output unless all outputs have names and room.** -/
theorem stop_or_room (directory : Path) (tree : FileTree) (outputs : List (String × String)) :
    (∃ changes, Stop directory tree outputs changes) ∨
      (∀ o ∈ outputs, CanStage directory tree o.1) ∧
        ∀ o ∈ outputs, tree.HasRoom (directory.join o.1) := by
  rcases forall_or_first (fun o : String × String => CanStage directory tree o.1) outputs with
    hstage | ⟨before, output, after, hsplit, hbefore, houtput⟩
  · rcases forall_or_first (fun o : String × String => tree.HasRoom (directory.join o.1)) outputs
      with hroom | ⟨before, output, after, hsplit, hbefore, houtput⟩
    · exact .inr ⟨hstage, hroom⟩
    · exact .inl ⟨_, .moving hsplit hstage hbefore houtput⟩
  · cases hname : (directory.join output.1).name.isEmpty with
    | true => exact .inl ⟨_, .nameless hsplit hbefore hname⟩
    | false => exact .inl ⟨_, .staging hsplit hbefore hname fun hroom => houtput ⟨hname, hroom⟩⟩

theorem Stop.not_room {changes : List FileChange} (h : Stop directory tree outputs changes) :
    ¬ ∀ o ∈ outputs, CanStage directory tree o.1 ∧ tree.HasRoom (directory.join o.1) := by
  intro hall
  cases h with
  | staging split staged named full =>
      exact full (hall _ (split ▸ List.mem_append_right _ List.mem_cons_self)).1.2
  | nameless split staged unnamed =>
      have hname := (hall _ (split ▸ List.mem_append_right _ List.mem_cons_self)).1.1
      rw [unnamed] at hname
      cases hname
  | moving split staged moved full =>
      exact full (hall _ (split ▸ List.mem_append_right _ List.mem_cons_self)).2

theorem hasRoom_of_mem_movings {changed : List (String × String)}
    (hstage : ∀ o ∈ changed, CanStage directory tree o.1)
    (hroom : ∀ o ∈ changed, tree.HasRoom (directory.join o.1)) {change : FileChange}
    (h : change ∈ movings directory changed) : tree.HasRoom change.1 := by
  obtain ⟨o, ho, hchange⟩ := List.mem_flatMap.mp h
  simp only [List.mem_cons, List.not_mem_nil, or_false] at hchange
  rcases hchange with rfl | rfl
  · exact hroom o ho
  · exact (hstage o ho).2

/-- What has changed where writing stops had room. -/
theorem Stop.hasRoom {changes : List FileChange} (h : Stop directory tree outputs changes) :
    ∀ change ∈ changes, tree.HasRoom change.1 := by
  intro change hchange
  cases h with
  | staging split staged named full =>
      obtain ⟨o, ho, rfl⟩ := List.mem_map.mp hchange
      exact (staged o ho).2
  | nameless split staged unnamed =>
      obtain ⟨o, ho, rfl⟩ := List.mem_map.mp hchange
      exact (staged o ho).2
  | moving split staged moved full =>
      subst split
      rcases List.mem_append.mp hchange with hchange | hchange
      · exact hasRoom_of_mem_movings (fun o ho => staged o (List.mem_append_left _ ho)) moved
          hchange
      · obtain ⟨o, ho, rfl⟩ := List.mem_map.mp hchange
        exact (staged o (List.mem_append_right _ ho)).2

end Stops

/-! ## What remains where writing stops -/

section Runs

variable {directory : Path} {tree staged : FileTree} {before after : List (String × String)}
  {output : String × String}

theorem PlacesApart.of_append
    (h : PlacesApart directory tree ((before ++ output :: after).map (·.1))) :
    PlacesApart directory tree (before.map (·.1)) :=
  h.sublist ((List.sublist_append_left ..).map _)

/-- Whatever is staged can be taken away. -/
theorem exists_removal {outputs : List (String × String)} :
    ∀ change ∈ stagings directory outputs,
      ∃ change' ∈ removals directory outputs, change'.1 = change.1 := by
  intro change hchange
  obtain ⟨o, ho, rfl⟩ := List.mem_map.mp hchange
  exact ⟨_, List.mem_map_of_mem ho, rfl⟩

/-- Whatever is staged can be moved. -/
theorem exists_moving {outputs : List (String × String)} :
    ∀ change ∈ stagings directory outputs,
      ∃ change' ∈ movings directory outputs, change'.1 = change.1 := by
  intro change hchange
  obtain ⟨o, ho, rfl⟩ := List.mem_map.mp hchange
  exact ⟨_, (mem_movings directory ho).2, rfl⟩

/-- Where there is no room to stage an output, what was staged before is taken away. -/
theorem stage_full (hstage : ∀ o ∈ before, CanStage directory tree o.1)
    (hname : (directory.join output.1).name.isEmpty = false)
    (hfull : ¬ tree.HasRoom (temporaryFor (directory.join output.1)))
    (hapart : PlacesApart directory tree (before.map (·.1))) :
    ∃ fault tree', stage directory [] tree (before ++ output :: after) = (.error fault, tree') ∧
      tree.Changed tree' (removals directory before) := by
  obtain ⟨tree', hchanged, hrun⟩ := stage_prefix hstage hapart
  have hdirectories := hchanged.directories
  obtain ⟨fault, hstop⟩ := stage_cons_of_not_hasRoom hname
    (fun hroom => hfull (hdirectories.hasRoom_iff.mp hroom)) (before.map (stagedAs directory)) after
  refine ⟨fault, _, (hrun [] _).trans hstop, ?_⟩
  have hholds : ∀ o ∈ before,
      tree'.Holds (temporaryFor (directory.join o.1)) (Text.encode o.2) := fun o ho =>
    hchanged.holds_of_mem (List.mem_map_of_mem ho) (hstage o ho).2
  have hdiscard := discard_changed hholds (hapart.of_sameDirectories hdirectories)
  have hstaged : tree.Changed tree' (stagings directory before ++ []) := by
    rwa [List.append_nil]
  have hafter := hstaged.after hdiscard exists_removal (by simp)
  rwa [List.append_nil] at hafter

/-- Where the place of an output has no name, what was staged before stays. -/
theorem stage_nameless (hstage : ∀ o ∈ before, CanStage directory tree o.1)
    (hname : (directory.join output.1).name.isEmpty = true)
    (hapart : PlacesApart directory tree (before.map (·.1))) :
    ∃ fault tree', stage directory [] tree (before ++ output :: after) = (.error fault, tree') ∧
      tree.Changed tree' (stagings directory before) := by
  obtain ⟨tree', hchanged, hrun⟩ := stage_prefix hstage hapart
  exact ⟨_, tree', (hrun [] _).trans (stage_cons_of_nameless hname _ _), hchanged⟩

/-- All outputs with names and room are staged. -/
theorem stage_all {outputs : List (String × String)}
    (hstage : ∀ o ∈ outputs, CanStage directory tree o.1)
    (hapart : PlacesApart directory tree (outputs.map (·.1))) :
    ∃ tree', stage directory [] tree outputs = (.ok (outputs.map (stagedAs directory)), tree') ∧
      tree.Changed tree' (stagings directory outputs) := by
  obtain ⟨tree', hchanged, hrun⟩ := stage_prefix hstage hapart
  have hall := hrun [] []
  rw [List.append_nil, List.nil_append, stage] at hall
  exact ⟨tree', hall, hchanged⟩

/-- Where there is no room for an output, what was moved before stays, and so does what is
staged. -/
theorem move_full (hchanged : tree.Changed staged (stagings directory (before ++ output :: after)))
    (hstage : ∀ o ∈ before ++ output :: after, CanStage directory tree o.1)
    (hroom : ∀ o ∈ before, tree.HasRoom (directory.join o.1))
    (hfull : ¬ tree.HasRoom (directory.join output.1))
    (hapart : PlacesApart directory tree ((before ++ output :: after).map (·.1))) :
    ∃ fault tree',
      move [] staged ((before ++ output :: after).map (stagedAs directory)) =
        (.error fault, tree') ∧
      tree.Changed tree' (movings directory before ++ stagings directory (output :: after)) := by
  have hdirectories := hchanged.directories
  have hholds : ∀ o ∈ before ++ output :: after,
      staged.Holds (temporaryFor (directory.join o.1)) (Text.encode o.2) := fun o ho =>
    hchanged.holds_of_mem (List.mem_map_of_mem ho) (hstage o ho).2
  obtain ⟨tree', hmoved, hrun⟩ := move_prefix
    (fun o ho => hholds o (List.mem_append_left _ ho))
    (fun o ho => hdirectories.hasRoom_iff.mpr (hroom o ho))
    (hapart.of_append.of_sameDirectories hdirectories)
  -- what is not moved yet is apart from all that was moved
  have hkept : ∀ change ∈ stagings directory (output :: after),
      ∀ change' ∈ movings directory before, tree.Apart change.1 change'.1 := by
    intro change hchange change' hchange'
    obtain ⟨o, ho, rfl⟩ := List.mem_map.mp hchange
    obtain ⟨o', ho', hchange'⟩ := List.mem_flatMap.mp hchange'
    have hname : o.1 ∈ (output :: after).map (·.1) := List.mem_map_of_mem ho
    have hname' : o'.1 ∈ before.map (·.1) := List.mem_map_of_mem ho'
    simp only [List.mem_cons, List.not_mem_nil, or_false] at hchange'
    rw [List.map_append] at hapart
    rcases hchange' with rfl | rfl
    · exact hapart.across (List.mem_append_right _ hname) (List.mem_append_left _ hname')
    · exact ((List.pairwise_append.mp hapart.temporaries).2.2 _ hname' _ hname).symm
  have hstaged : tree.Changed staged
      (stagings directory before ++ stagings directory (output :: after)) := by
    rwa [stagings, List.map_append] at hchanged
  have hafter := hstaged.after hmoved exists_moving hkept
  -- the output itself is still staged, so moving it fails only for want of room
  have hsaved : tree'.Holds (temporaryFor (directory.join output.1)) (Text.encode output.2) :=
    hafter.holds_of_mem (List.mem_append_right _ List.mem_cons_self)
      (hstage output (List.mem_append_right _ List.mem_cons_self)).2
  obtain ⟨fault, hstop⟩ := move_cons_of_not_hasRoom hsaved
    (fun hroom' => hfull (hafter.directories.hasRoom_iff.mp hroom'))
    ([] ++ before.map fun o => directory.join o.1) (after.map (stagedAs directory))
  refine ⟨fault, tree', ?_, hafter⟩
  rw [List.map_append, hrun, List.map_cons, hstop]

/-- All outputs that are staged and have room are moved. -/
theorem move_all {outputs : List (String × String)}
    (hchanged : tree.Changed staged (stagings directory outputs))
    (hstage : ∀ o ∈ outputs, CanStage directory tree o.1)
    (hroom : ∀ o ∈ outputs, tree.HasRoom (directory.join o.1))
    (hapart : PlacesApart directory tree (outputs.map (·.1))) :
    ∃ tree', move [] staged (outputs.map (stagedAs directory)) =
        (.ok (outputs.map fun o => directory.join o.1), tree') ∧
      tree.Changed tree' (movings directory outputs) := by
  have hdirectories := hchanged.directories
  obtain ⟨tree', hmoved, hrun⟩ := move_prefix
    (fun o ho => hchanged.holds_of_mem (List.mem_map_of_mem ho) (hstage o ho).2)
    (fun o ho => hdirectories.hasRoom_iff.mpr (hroom o ho))
    (hapart.of_sameDirectories hdirectories)
  have hall := hrun [] []
  rw [List.append_nil, List.nil_append, move] at hall
  have hstaged : tree.Changed staged (stagings directory outputs ++ []) := by
    rwa [List.append_nil]
  have hafter := hstaged.after hmoved exists_moving (by simp)
  rw [List.append_nil] at hafter
  exact ⟨tree', hall, hafter⟩

end Runs

/-! ## All or nothing -/

section Outputs

variable {directory : Path} {before made after : FileTree} {outputs : List (String × Json)}

theorem map_fst_texts (outputs : List (String × Json)) :
    (texts outputs).map (·.1) = outputs.map (·.1) := by
  simp [texts]

/-- Writing fails where staging fails. -/
theorem writeAll_of_stage_error {fault : WriteFault}
    (hmade : before.makeDirectories directory = .ok made)
    (hstage : stage directory [] made (texts (distinct outputs)) = (.error fault, after)) :
    writeAll directory outputs before = (.error fault, after) := by
  rw [writeAll, hmade]
  dsimp only
  split
  · next hrun =>
    cases hrun.symm.trans hstage
    rfl
  · next hrun => cases hrun.symm.trans hstage

/-- Writing moves what was staged. -/
theorem writeAll_of_stage_ok {files : List Staged} {staged : FileTree}
    (hmade : before.makeDirectories directory = .ok made)
    (hstage : stage directory [] made (texts (distinct outputs)) = (.ok files, staged)) :
    writeAll directory outputs before = move [] staged files := by
  rw [writeAll, hmade]
  dsimp only
  split
  · next hrun => cases hrun.symm.trans hstage
  · next hrun =>
    cases hrun.symm.trans hstage
    rfl

/-- **Where writing stops, it fails,** and what the stop says has changed. -/
theorem writeAll_of_stop {changes : List FileChange}
    (hmade : before.makeDirectories directory = .ok made)
    (hapart : PlacesApart directory made ((distinct outputs).map (·.1)))
    (hstop : Stop directory made (texts (distinct outputs)) changes) :
    ∃ fault after, writeAll directory outputs before = (.error fault, after) ∧
      made.Changed after changes := by
  rw [← map_fst_texts] at hapart
  cases hstop with
  | staging split hstage hname hfull =>
      rw [split] at hapart
      obtain ⟨fault, after, hrun, hchanged⟩ := stage_full hstage hname hfull hapart.of_append
      rw [← split] at hrun
      exact ⟨fault, after, writeAll_of_stage_error hmade hrun, hchanged⟩
  | nameless split hstage hname =>
      rw [split] at hapart
      obtain ⟨fault, after, hrun, hchanged⟩ := stage_nameless hstage hname hapart.of_append
      rw [← split] at hrun
      exact ⟨fault, after, writeAll_of_stage_error hmade hrun, hchanged⟩
  | moving split hstage hroom hfull =>
      obtain ⟨staged, hrun, hstaged⟩ := stage_all hstage hapart
      have hwrite := writeAll_of_stage_ok hmade hrun
      rw [split] at hapart hstage hstaged hwrite
      obtain ⟨fault, after, hmove, hchanged⟩ := move_full hstaged hstage hroom hfull hapart
      exact ⟨fault, after, hwrite.trans hmove, hchanged⟩

/-- **Where all outputs have names and room, all of them are moved to their places.** -/
theorem writeAll_of_room (hmade : before.makeDirectories directory = .ok made)
    (hapart : PlacesApart directory made ((distinct outputs).map (·.1)))
    (hstage : ∀ o ∈ texts (distinct outputs), CanStage directory made o.1)
    (hroom : ∀ o ∈ texts (distinct outputs), made.HasRoom (directory.join o.1)) :
    ∃ after, writeAll directory outputs before =
        (.ok ((distinct outputs).map fun output => directory.join output.1), after) ∧
      made.Changed after (movings directory (texts (distinct outputs))) := by
  rw [← map_fst_texts] at hapart
  obtain ⟨staged, hrun, hstaged⟩ := stage_all hstage hapart
  obtain ⟨after, hmove, hchanged⟩ := move_all hstaged hstage hroom hapart
  refine ⟨after, ?_, hchanged⟩
  have hplaces : (texts (distinct outputs)).map (fun o => directory.join o.1) =
      (distinct outputs).map fun output => directory.join output.1 := by
    simp [texts]
  rw [writeAll_of_stage_ok hmade hrun, hmove, hplaces]

/-- After all outputs were moved to their places, they are written and all else is as it was. -/
theorem complete_of_changed (hadds : before.Adds made)
    (hchanged : made.Changed after (movings directory (texts outputs)))
    (hroom : ∀ o ∈ texts outputs, made.HasRoom (directory.join o.1)) :
    Complete directory outputs before after := by
  have htext {output : String × Json} (h : output ∈ outputs) :
      (output.1, summaryText output.2) ∈ texts outputs := List.mem_map_of_mem h
  have hother {place : EntryName} (hplace : Elsewhere directory outputs after place) :
      after.entryAt? place = made.entryAt? place := by
    refine hchanged.others fun change hchange hlocate => ?_
    obtain ⟨o, ho, hchange⟩ := List.mem_flatMap.mp hchange
    obtain ⟨output, houtput, rfl⟩ := List.mem_map.mp ho
    have hthere := hchanged.directories.locate_iff.mpr hlocate
    simp only [List.mem_cons, List.not_mem_nil, or_false] at hchange
    rcases hchange with rfl | rfl
    · exact (hplace output houtput).1 hthere
    · exact (hplace output houtput).2 hthere
  refine ⟨fun {output} h => ?_, fun {output} h content hholds => ?_, fun h hplace => ?_,
    fun h hplace => ?_⟩
  · have hmem := (mem_movings directory (htext h)).1
    have hplace := hroom _ (htext h)
    exact hchanged.holds_of_mem hmem hplace
  · obtain ⟨place, hplace, hentry⟩ := FileTree.holds_iff.mp hholds
    have hmem := (mem_movings directory (htext h)).2
    have hgone := hchanged.here hmem (hchanged.directories.locate_iff.mp hplace)
    rw [hentry] at hgone
    cases hgone
  · rw [hother hplace]
    exact hadds.kept h
  · rw [hother hplace] at h
    exact hadds.added h

end Outputs

/-- **When writing is all or nothing.** It is so exactly if, wherever it stops, the outputs before
leave everything as it was. -/
theorem writeAll_allOrNothing_iff (directory : Path) (outputs : List (String × Json))
    (before : FileTree)
    (hapart : ∀ made, before.makeDirectories directory = .ok made →
      PlacesApart directory made ((distinct outputs).map (·.1))) :
    AllOrNothing directory (distinct outputs) before (writeAll directory outputs before) ↔
      ∀ made, before.makeDirectories directory = .ok made →
        ∀ changes, Stop directory made (texts (distinct outputs)) changes →
          ∀ change ∈ changes, FileTree.FileChange.IsVoid made change := by
  constructor
  · -- where writing stops it fails, so all that it changed must have been so before
    intro hall made hmade changes hstop
    obtain ⟨fault, after, hrun, hchanged⟩ := writeAll_of_stop hmade (hapart made hmade) hstop
    rw [hrun] at hall
    have huntouched : before.Untouched after := hall
    exact (FileTree.untouched_iff (FileTree.makeDirectories_adds hmade) hchanged
      hstop.hasRoom).mp huntouched
  · intro hvoid
    cases hmade : before.makeDirectories directory with
    | error fault =>
        -- without its directory nothing is written
        rw [writeAll, hmade]
        exact ⟨id, id⟩
    | ok made =>
        have hadds := FileTree.makeDirectories_adds hmade
        rcases stop_or_room directory made (texts (distinct outputs)) with
          ⟨changes, hstop⟩ | ⟨hstage, hroom⟩
        · obtain ⟨fault, after, hrun, hchanged⟩ :=
            writeAll_of_stop hmade (hapart made hmade) hstop
          rw [hrun]
          exact (FileTree.untouched_iff hadds hchanged hstop.hasRoom).mpr
            (hvoid made hmade changes hstop)
        · obtain ⟨after, hrun, hchanged⟩ :=
            writeAll_of_room hmade (hapart made hmade) hstage hroom
          rw [hrun]
          exact ⟨rfl, complete_of_changed hadds hchanged hroom⟩

/-- Two files replace an old one and join it in its directory. -/
theorem writeAll_allOrNothing_of_old :
    let directory := Path.ofString "out"
    let outputs := [("a.json", Json.int 1), ("b.json", Json.int 2)]
    let before : FileTree := ⟨[(["out"], .directory), (["out", "a.json"], .file [111])]⟩
    (∀ made, before.makeDirectories directory = .ok made →
      PlacesApart directory made ((distinct outputs).map (·.1))) ∧
    AllOrNothing directory (distinct outputs) before (writeAll directory outputs before) := by
  intro directory outputs before
  have hapart : ∀ made, before.makeDirectories directory = .ok made →
      PlacesApart directory made ((distinct outputs).map (·.1)) := by
    intro made hmade
    refine placesApart_distinct ?_ ?_
    · unfold IsFileName
      decide
    · decide
  refine ⟨hapart, ?_⟩
  rw [writeAll_allOrNothing_iff directory outputs before hapart]
  intro made hmade changes hstop
  have hbefore : before.makeDirectories directory = .ok before := by with_unfolding_all rfl
  rw [hbefore] at hmade
  cases hmade
  exact absurd (by decide +kernel) hstop.not_room

/-- **A directory in the place of the second file:** writing fails, and the first file is new. -/
theorem writeAll_not_allOrNothing :
    let directory := Path.ofString "out"
    let outputs := [("a.json", Json.int 1), ("b.json", Json.int 2)]
    let before : FileTree := ⟨[(["out"], .directory), (["out", "a.json"], .file [111]),
      (["out", "b.json"], .directory)]⟩
    ¬ AllOrNothing directory (distinct outputs) before (writeAll directory outputs before) := by
  intro directory outputs before
  have hold : before.entryAt? ["out", "a.json"] = some (.file [111]) := rfl
  have hnew : (writeAll directory outputs before).2.entryAt? ["out", "a.json"] =
      some (.file [49, 10]) := by decide +kernel
  have hfails : (writeAll directory outputs before).1.isOk = false := by decide +kernel
  rcases hrun : writeAll directory outputs before with ⟨result, after⟩
  rw [hrun] at hnew hfails
  cases result with
  | error fault =>
      intro huntouched
      have hkept := FileTree.Untouched.kept huntouched hold
      rw [hnew] at hkept
      exact absurd hkept (by decide)
  | ok places => cases hfails

end SummaryWriter

end OscalValidation

import OscalValidation.Proofs.Files.Changes
import OscalValidation.Summaries.Writer

set_option autoImplicit false

/-! # The phases of writing

Staging files, taking them away again and moving them to their places each change the files of the
outputs that they got to, and no others (`stage_prefix`, `discard_changed`, `move_prefix`). What
stops a phase is an output whose place has no room for a file.
-/

namespace OscalValidation

namespace SummaryWriter

open FileTree (HasRoom Holds Apart FileChange Changed)

/-! ## Distinct outputs -/

theorem nodup_names_step {α : Type} {done : List (String × α)} (name : String) (value : α)
    (h : (done.map (·.1)).Nodup) :
    ((if done.any (·.1 == name) then
        done.map fun entry => if entry.1 == name then (name, value) else entry
      else done ++ [(name, value)]).map (·.1)).Nodup := by
  split
  · have hnames : (done.map fun entry => if entry.1 == name then (name, value) else entry).map
        (·.1) = done.map (·.1) := by
      rw [List.map_map]
      refine List.map_congr_left fun entry _ => ?_
      by_cases hentry : entry.1 = name <;> simp [hentry]
    rwa [hnames]
  · next hany =>
    rw [List.map_append, List.nodup_append]
    refine ⟨h, by simp, fun m hm n hn heq => hany ?_⟩
    obtain ⟨entry, hentry, rfl⟩ := List.mem_map.mp hm
    rw [List.map_singleton, List.mem_singleton] at hn
    exact List.any_eq_true.mpr ⟨entry, hentry, by simp [heq, hn]⟩

/-- No name is left twice. -/
theorem nodup_distinct {α : Type} (outputs : List (String × α)) :
    ((distinct outputs).map (·.1)).Nodup := by
  have hempty : (([] : List (String × α)).map (·.1)).Nodup := List.nodup_nil
  unfold distinct
  refine List.foldlRecOn (motive := fun done : List (String × α) => (done.map (·.1)).Nodup) _ _
    hempty fun done hdone output _ => ?_
  exact nodup_names_step output.1 output.2 hdone

/-! ## Outputs and their places -/

/-- The file of an output, staged. -/
def stagedAs (directory : Path) (output : String × String) : Staged :=
  ⟨temporaryFor (directory.join output.1), directory.join output.1⟩

/-- **The output can be staged:** its place has a name, and there is room where it is staged. -/
def CanStage (directory : Path) (tree : FileTree) (name : String) : Prop :=
  (directory.join name).name.isEmpty = false ∧
    tree.HasRoom (temporaryFor (directory.join name))

instance (directory : Path) (tree : FileTree) (name : String) :
    Decidable (CanStage directory tree name) :=
  inferInstanceAs (Decidable (_ ∧ _))

/-- **No two outputs share a place,** be it for good or while they are staged. -/
structure PlacesApart (directory : Path) (tree : FileTree) (names : List String) : Prop where
  /-- They are staged at different places. -/
  temporaries : names.Pairwise fun m n =>
    tree.Apart (temporaryFor (directory.join m)) (temporaryFor (directory.join n))
  /-- They are put at different places. -/
  targets : names.Pairwise fun m n => tree.Apart (directory.join m) (directory.join n)
  /-- None is put where one is staged. -/
  across {m n : String} (hm : m ∈ names) (hn : n ∈ names) :
    tree.Apart (temporaryFor (directory.join m)) (directory.join n)

def stagings (directory : Path) (outputs : List (String × String)) : List FileChange :=
  outputs.map fun o => (temporaryFor (directory.join o.1), some (Text.encode o.2))

/-- The changes of taking away what is staged. -/
def removals (directory : Path) (outputs : List (String × String)) : List FileChange :=
  outputs.map fun o => (temporaryFor (directory.join o.1), none)

/-- The changes of moving outputs to their places. -/
def movings (directory : Path) (outputs : List (String × String)) : List FileChange :=
  outputs.flatMap fun o =>
    [(directory.join o.1, some (Text.encode o.2)), (temporaryFor (directory.join o.1), none)]

/-- What moving an output changes. -/
theorem mem_movings (directory : Path) {outputs : List (String × String)}
    {output : String × String} (h : output ∈ outputs) :
    (directory.join output.1, some (Text.encode output.2)) ∈ movings directory outputs ∧
      (temporaryFor (directory.join output.1), none) ∈ movings directory outputs :=
  ⟨List.mem_flatMap.mpr ⟨output, h, List.mem_cons_self⟩,
    List.mem_flatMap.mpr ⟨output, h, List.mem_cons_of_mem _ List.mem_cons_self⟩⟩

section Places

variable {directory : Path} {tree tree' : FileTree}

theorem CanStage.of_sameDirectories (h : tree.SameDirectories tree') {name : String}
    (hs : CanStage directory tree name) : CanStage directory tree' name :=
  ⟨hs.1, h.hasRoom_iff.mpr hs.2⟩

theorem PlacesApart.of_sameDirectories (h : tree.SameDirectories tree') {names : List String}
    (hp : PlacesApart directory tree names) : PlacesApart directory tree' names :=
  ⟨hp.temporaries.imp fun ha => h.apart ha, hp.targets.imp fun ha => h.apart ha,
    fun hm hn => h.apart (hp.across hm hn)⟩

theorem PlacesApart.sublist {names names' : List String} (h : names'.Sublist names)
    (hp : PlacesApart directory tree names) : PlacesApart directory tree names' :=
  ⟨hp.temporaries.sublist h, hp.targets.sublist h,
    fun hm hn => hp.across (h.subset hm) (h.subset hn)⟩

/-- **The name is that of a file:** it spells a path of one part, which does not lead upwards. -/
def IsFileName (name : String) : Prop :=
  Path.ofString name = ⟨"", [name]⟩ ∧ name ≠ ".."

/-- The name of a staged file does not lead upwards. -/
theorem temporary_ne (name : String) : s!".{name}.tmp" ≠ ".." := by
  intro h
  have hlength := congrArg String.length h
  have htail : (".tmp" : String).length = 4 := rfl
  have htwo : ("..").length = 2 := rfl
  simp only [toString, String.length_append] at hlength
  omega

theorem IsFileName.join_eq {name : String} (h : IsFileName name) :
    directory.join name = ⟨directory.root, directory.parts ++ [name]⟩ := by
  rw [Path.join, h.1]
  rfl

theorem IsFileName.temporaryFor_eq {name : String} (h : IsFileName name) :
    temporaryFor (directory.join name) =
      ⟨directory.root, directory.parts ++ [s!".{name}.tmp"]⟩ := by
  rw [h.join_eq, temporaryFor, Path.withName, Path.name]
  simp

/-- Paths with two last names lead to two places. -/
theorem apart_of_ne {root root' : String} {parts parts' : List String} {m n : String}
    (hm : m ≠ "..") (hn : n ≠ "..") (hne : m ≠ n) :
    tree.Apart ⟨root, parts ++ [m]⟩ ⟨root', parts' ++ [n]⟩ := by
  intro place hplace hplace'
  obtain ⟨_, -, -, rfl⟩ := FileTree.walk_concat hm (FileTree.locate_eq_ok_iff.mp hplace).2
  obtain ⟨_, -, -, heq⟩ := FileTree.walk_concat hn (FileTree.locate_eq_ok_iff.mp hplace').2
  exact hne (List.singleton_inj.mp (List.append_inj' heq rfl).2)

/-- **Different names of files stand for different places,** unless a file is staged under
another one's name. -/
theorem placesApart_of_isFileName {names : List String} (hnames : ∀ name ∈ names, IsFileName name)
    (hnodup : names.Nodup) (hstaged : ∀ m ∈ names, ∀ n ∈ names, s!".{m}.tmp" ≠ n) :
    PlacesApart directory tree names where
  temporaries := by
    refine hnodup.imp_of_mem fun {m n} hm hn hne => ?_
    rw [(hnames m hm).temporaryFor_eq, (hnames n hn).temporaryFor_eq]
    exact apart_of_ne (temporary_ne m) (temporary_ne n) fun h =>
      hne (by simpa [toString] using h)
  targets := by
    refine hnodup.imp_of_mem fun {m n} hm hn hne => ?_
    rw [(hnames m hm).join_eq, (hnames n hn).join_eq]
    exact apart_of_ne (hnames m hm).2 (hnames n hn).2 hne
  across {m n} hm hn := by
    rw [(hnames m hm).temporaryFor_eq, (hnames n hn).join_eq]
    exact apart_of_ne (temporary_ne m) (hnames n hn).2 (hstaged m hm n hn)

/-- Distinct outputs under names of files are put at different places, unless one is staged under
another one's name. -/
theorem placesApart_distinct {α : Type} {outputs : List (String × α)}
    (hnames : ∀ output ∈ distinct outputs, IsFileName output.1)
    (hstaged : ∀ output ∈ distinct outputs, ∀ other ∈ distinct outputs,
      s!".{output.1}.tmp" ≠ other.1) :
    PlacesApart directory tree ((distinct outputs).map (·.1)) := by
  refine placesApart_of_isFileName (fun name h => ?_) (nodup_distinct outputs) fun m hm n hn => ?_
  · obtain ⟨output, houtput, rfl⟩ := List.mem_map.mp h
    exact hnames output houtput
  · obtain ⟨output, houtput, rfl⟩ := List.mem_map.mp hm
    obtain ⟨other, hother, rfl⟩ := List.mem_map.mp hn
    exact hstaged output houtput other hother

end Places

/-! ## Staging -/

section Stage

variable {directory : Path}

theorem stage_cons_of_canStage {tree : FileTree} {name content : String} {place : EntryName}
    (hname : (directory.join name).name.isEmpty = false)
    (hplace : tree.locate (temporaryFor (directory.join name)) = .ok place)
    (hroom : tree.entryAt? place ≠ some .directory) (done : List Staged)
    (rest : List (String × String)) :
    stage directory done tree ((name, content) :: rest) =
      stage directory (done ++ [stagedAs directory (name, content)])
        (tree.set place (.file (Text.encode content))) rest := by
  rw [stage, hname, if_neg Bool.false_ne_true,
    FileTree.write_of_locate rfl (temporary_ne _) hplace hroom]
  rfl

/-- Staging stops where there is no room, and what is staged is taken away. -/
theorem stage_cons_of_not_hasRoom {tree : FileTree} {name content : String}
    (hname : (directory.join name).name.isEmpty = false)
    (hroom : ¬ tree.HasRoom (temporaryFor (directory.join name))) (done : List Staged)
    (rest : List (String × String)) :
    ∃ fault, stage directory done tree ((name, content) :: rest) =
      (.error fault, discard done tree) := by
  have hwrite : ∃ fault, tree.write (temporaryFor (directory.join name)) (Text.encode content) =
      .error fault := FileTree.write_of_not_hasRoom hroom
  obtain ⟨fault, hfault⟩ := hwrite
  refine ⟨.file fault, ?_⟩
  rw [stage, hname, if_neg Bool.false_ne_true, hfault]

/-- Staging stops at a place without a name, and what is staged stays. -/
theorem stage_cons_of_nameless {tree : FileTree} {name content : String}
    (hname : (directory.join name).name.isEmpty = true) (done : List Staged)
    (rest : List (String × String)) :
    stage directory done tree ((name, content) :: rest) =
      (.error (.nameless (directory.join name)), tree) := by
  rw [stage, hname, if_pos rfl]

/-- **Staging gets over all outputs that can be staged,** and puts their files there. -/
theorem stage_prefix {tree : FileTree} {before : List (String × String)}
    (hstage : ∀ o ∈ before, CanStage directory tree o.1)
    (hapart : PlacesApart directory tree (before.map (·.1))) :
    ∃ tree', tree.Changed tree' (stagings directory before) ∧
      ∀ done rest, stage directory done tree (before ++ rest) =
        stage directory (done ++ before.map (stagedAs directory)) tree' rest := by
  induction before generalizing tree with
  | nil => exact ⟨tree, .refl tree, fun done rest => by simp⟩
  | cons output more ih =>
      obtain ⟨name, content⟩ := output
      obtain ⟨hname, place, hplace, hroom⟩ := hstage _ List.mem_cons_self
      have hset := FileTree.changed_set hplace hroom (Text.encode content)
      obtain ⟨hfirst, -⟩ := List.pairwise_cons.mp hapart.temporaries
      obtain ⟨tree', hchanged, hrun⟩ := ih
        (fun o ho => (hstage o (List.mem_cons_of_mem _ ho)).of_sameDirectories hset.directories)
        ((hapart.sublist (List.sublist_cons_self ..)).of_sameDirectories hset.directories)
      refine ⟨tree', ?_, fun done rest => ?_⟩
      · -- the later outputs are staged elsewhere, so the first one stays
        have hset' : tree.Changed _ ([] ++ stagings directory [(name, content)]) := hset
        refine (hset'.after hchanged (by simp) ?_).of_mem_iff (by simp [stagings, or_comm])
        simp only [stagings, List.map_cons, List.map_nil, List.mem_singleton, List.mem_map]
        rintro _ rfl _ ⟨o, ho, rfl⟩
        exact hfirst _ (List.mem_map_of_mem ho)
      · rw [List.cons_append, stage_cons_of_canStage hname hplace hroom, hrun, List.map_cons,
          List.append_assoc, List.singleton_append]

end Stage

/-! ## Taking away -/

section Discard

variable {directory : Path}

/-- **Taking away what is staged** removes these files. -/
theorem discard_changed {tree : FileTree} {outputs : List (String × String)}
    (hholds : ∀ o ∈ outputs, tree.Holds (temporaryFor (directory.join o.1)) (Text.encode o.2))
    (hapart : PlacesApart directory tree (outputs.map (·.1))) :
    tree.Changed (discard (outputs.map (stagedAs directory)) tree)
      (removals directory outputs) := by
  induction outputs generalizing tree with
  | nil => exact .refl tree
  | cons output more ih =>
      obtain ⟨place, hplace, hentry⟩ := FileTree.holds_iff.mp (hholds _ List.mem_cons_self)
      have hroom : tree.entryAt? place ≠ some .directory := by simp [hentry]
      have herase : tree.Changed (tree.erase place) ([] ++ removals directory [output]) :=
        FileTree.changed_erase hplace hroom
      obtain ⟨hfirst, -⟩ := List.pairwise_cons.mp hapart.temporaries
      have hmore : (tree.erase place).Changed
          (discard (more.map (stagedAs directory)) (tree.erase place))
          (removals directory more) := ih
        (fun o ho => herase.holds (hholds o (List.mem_cons_of_mem _ ho)) (by
          simp only [removals, List.map_cons, List.map_nil, List.nil_append, List.mem_singleton]
          rintro _ rfl
          exact hfirst _ (List.mem_map_of_mem ho)))
        ((hapart.sublist (List.sublist_cons_self ..)).of_sameDirectories herase.directories)
      -- what is taken away first is gone, and the others are still there
      have hdiscard : discard ((output :: more).map (stagedAs directory)) tree =
          discard (more.map (stagedAs directory)) (tree.erase place) := by
        rw [List.map_cons, discard, List.foldl_cons]
        rw [show tree.remove (stagedAs directory output).temporary = tree.erase place from
          FileTree.remove_of_locate hplace hentry]
        rfl
      rw [hdiscard]
      refine (herase.after hmore (by simp) ?_).of_mem_iff (by simp [removals, or_comm])
      simp only [removals, List.map_cons, List.map_nil, List.mem_singleton, List.mem_map]
      rintro _ rfl _ ⟨o, ho, rfl⟩
      exact hfirst _ (List.mem_map_of_mem ho)

end Discard

/-! ## Moving -/

section Move

variable {directory : Path}

theorem move_cons_of_hasRoom {tree : FileTree} {output : String × String}
    {place target : EntryName} {content : Text.Bytes}
    (hplace : tree.locate (temporaryFor (directory.join output.1)) = .ok place)
    (hentry : tree.entryAt? place = some (.file content))
    (htarget : tree.locate (directory.join output.1) = .ok target)
    (hroom : tree.entryAt? target ≠ some .directory) (done : List Path) (rest : List Staged) :
    move done tree (stagedAs directory output :: rest) =
      move (done ++ [directory.join output.1])
        ((tree.erase place).set target (.file content)) rest := by
  rw [move]
  rw [show tree.replace (stagedAs directory output).temporary (stagedAs directory output).target =
    .ok ((tree.erase place).set target (.file content)) from
      FileTree.replace_of_locate hplace hentry htarget hroom]
  rfl

/-- Moving stops where there is no room. -/
theorem move_cons_of_not_hasRoom {tree : FileTree} {output : String × String}
    {content : Text.Bytes}
    (hholds : tree.Holds (temporaryFor (directory.join output.1)) content)
    (hroom : ¬ tree.HasRoom (directory.join output.1)) (done : List Path) (rest : List Staged) :
    ∃ fault, move done tree (stagedAs directory output :: rest) = (.error fault, tree) := by
  obtain ⟨fault, hfault⟩ := FileTree.replace_of_not_hasRoom hholds hroom
  refine ⟨.file fault, ?_⟩
  rw [move]
  rw [show tree.replace (stagedAs directory output).temporary (stagedAs directory output).target =
    .error fault from hfault]

/-- **Moving gets over all outputs that are staged and have room,** and puts them there. -/
theorem move_prefix {tree : FileTree} {before : List (String × String)}
    (hholds : ∀ o ∈ before, tree.Holds (temporaryFor (directory.join o.1)) (Text.encode o.2))
    (hroom : ∀ o ∈ before, tree.HasRoom (directory.join o.1))
    (hapart : PlacesApart directory tree (before.map (·.1))) :
    ∃ tree', tree.Changed tree' (movings directory before) ∧
      ∀ done rest, move done tree (before.map (stagedAs directory) ++ rest) =
        move (done ++ before.map fun o => directory.join o.1) tree' rest := by
  induction before generalizing tree with
  | nil => exact ⟨tree, .refl tree, fun done rest => by simp⟩
  | cons output more ih =>
      obtain ⟨place, hplace, hentry⟩ := FileTree.holds_iff.mp (hholds _ List.mem_cons_self)
      obtain ⟨target, htarget, htargetRoom⟩ := hroom _ List.mem_cons_self
      have hself : tree.Apart (temporaryFor (directory.join output.1)) (directory.join output.1) :=
        hapart.across List.mem_cons_self List.mem_cons_self
      have hmove : tree.Changed _ ([] ++ movings directory [output]) :=
        FileTree.changed_move hplace (by simp [hentry]) htarget htargetRoom hself
          (Text.encode output.2)
      -- what is moved is apart from all that is moved later
      have hlater : ∀ change ∈ movings directory [output], ∀ o ∈ more,
          tree.Apart change.1 (directory.join o.1) ∧
            tree.Apart change.1 (temporaryFor (directory.join o.1)) := by
        intro change hchange o ho
        have ho' : o.1 ∈ more.map (·.1) := List.mem_map_of_mem ho
        have hhead : output.1 ∈ (output :: more).map (·.1) := List.mem_cons_self
        have htail : o.1 ∈ (output :: more).map (·.1) := List.mem_cons_of_mem _ ho'
        simp only [movings, List.flatMap_cons, List.flatMap_nil, List.append_nil,
          List.mem_cons, List.not_mem_nil, or_false] at hchange
        rcases hchange with rfl | rfl
        · exact ⟨(List.pairwise_cons.mp hapart.targets).1 _ ho',
            (hapart.across htail hhead).symm⟩
        · exact ⟨hapart.across hhead htail, (List.pairwise_cons.mp hapart.temporaries).1 _ ho'⟩
      obtain ⟨tree', hchanged, hrun⟩ := ih
        (fun o ho => hmove.holds (hholds o (List.mem_cons_of_mem _ ho)) fun change hchange =>
          (hlater change hchange o ho).2)
        (fun o ho => hmove.directories.hasRoom_iff.mpr (hroom o (List.mem_cons_of_mem _ ho)))
        ((hapart.sublist (List.sublist_cons_self ..)).of_sameDirectories hmove.directories)
      refine ⟨tree', ?_, fun done rest => ?_⟩
      · refine (hmove.after hchanged (by simp) ?_).of_mem_iff
          (by simp [movings, or_comm, or_assoc, or_left_comm])
        intro change hchange change' hchange'
        obtain ⟨o, ho, hchange'⟩ := List.mem_flatMap.mp hchange'
        simp only [List.mem_cons, List.not_mem_nil, or_false] at hchange'
        rcases hchange' with rfl | rfl
        · exact (hlater change hchange o ho).1
        · exact (hlater change hchange o ho).2
      · rw [List.map_cons, List.cons_append,
          move_cons_of_hasRoom hplace hentry htarget htargetRoom, hrun, List.map_cons,
          List.append_assoc, List.singleton_append]

end Move

end SummaryWriter

end OscalValidation

import OscalValidation.Proofs.Attempts
import OscalValidation.Proofs.Files.Entries

set_option autoImplicit false

/-! # When operations on files succeed

A file can be put at a path if the path leads somewhere and no directory is there (`HasRoom`);
writing and moving succeed exactly then, and change the entries of the places concerned. Making
directories adds directories and changes nothing else (`makeDirectories_adds`).
-/

namespace OscalValidation

namespace FileTree

open Text (Bytes)

variable {tree tree' : FileTree} {path target : Path} {place : EntryName} {content : Bytes}

/-- **A file is at the path or can be put there.** -/
def HasRoom (tree : FileTree) (path : Path) : Prop :=
  ∃ place, tree.locate path = .ok place ∧ tree.entryAt? place ≠ some .directory

instance (tree : FileTree) (path : Path) : Decidable (tree.HasRoom path) :=
  match h : tree.locate path with
  | .error _ => .isFalse fun ⟨_, hplace, _⟩ => by
      rw [h] at hplace
      cases hplace
  | .ok place => decidable_of_iff (tree.entryAt? place ≠ some .directory)
      ⟨fun hroom => ⟨place, h, hroom⟩, fun ⟨_, hplace, hroom⟩ => by
        rw [h] at hplace
        cases hplace
        exact hroom⟩

/-- **A file with the content is at the path.** -/
def Holds (tree : FileTree) (path : Path) (content : Bytes) : Prop :=
  tree.find path = .ok (.file content)

/-- **No file is at the path.** -/
def HasNoFile (tree : FileTree) (path : Path) : Prop :=
  ∀ content, ¬ tree.Holds path content

theorem holds_iff : tree.Holds path content ↔
    ∃ place, tree.locate path = .ok place ∧ tree.entryAt? place = some (.file content) := by
  unfold Holds find
  cases h : tree.locate path with
  | error kind => simp
  | ok place => cases he : tree.entryAt? place <;> simp [he]

/-- A place with room and no file is empty. -/
theorem HasNoFile.entryAt? (h : tree.HasNoFile path) (hplace : tree.locate path = .ok place)
    (hroom : tree.entryAt? place ≠ some .directory) : tree.entryAt? place = none := by
  cases he : tree.entryAt? place with
  | none => rfl
  | some entry =>
      cases entry with
      | directory => exact absurd he hroom
      | file content => exact absurd (holds_iff.mpr ⟨place, hplace, he⟩) (h content)

/-! ## Files leave directories alone -/

theorem sameDirectories_set (h : tree.entryAt? place ≠ some .directory) (content : Bytes) :
    tree.SameDirectories (tree.set place (.file content)) := by
  intro name
  rw [entryAt?_set (isTop_of_entryAt? h)]
  split
  · next heq =>
    subst heq
    simp [h]
  · rfl

theorem sameDirectories_erase (h : tree.entryAt? place ≠ some .directory) :
    tree.SameDirectories (tree.erase place) := by
  intro name
  rw [entryAt?_erase (isTop_of_entryAt? h)]
  split
  · next heq =>
    subst heq
    simp [h]
  · rfl

/-- Where directories are the same, there is room for a file or there is none. -/
theorem SameDirectories.hasRoom_iff (h : tree.SameDirectories tree') :
    tree'.HasRoom path ↔ tree.HasRoom path := by
  constructor
  · rintro ⟨place, hplace, hroom⟩
    exact ⟨place, h.locate_iff.mp hplace, fun hdir => hroom ((h place).mpr hdir)⟩
  · rintro ⟨place, hplace, hroom⟩
    exact ⟨place, h.locate_iff.mpr hplace, fun hdir => hroom ((h place).mp hdir)⟩

/-! ## Writing, removing, moving -/

/-- A name leads into the directory that the names before it lead to. -/
theorem walk_concat {name : EntryName} {parts : List String} {part : String}
    (hpart : part ≠ "..") (h : tree.walk name (parts ++ [part]) = .ok place) :
    ∃ directory, tree.walk name parts = .ok directory ∧
      tree.entryAt? directory = some .directory ∧ place = directory ++ [part] := by
  induction parts generalizing name with
  | nil =>
      rw [List.nil_append, walk] at h
      split at h
      · cases h
      · cases h
      · next hname =>
        rw [if_neg hpart] at h
        split at h
        · cases h
        · rw [walk] at h
          cases h
          exact ⟨name, rfl, hname, rfl⟩
  | cons head rest ih =>
      rw [List.cons_append, walk] at h
      rw [walk]
      -- the first part leads to the same place on both ways, or ends both
      split at h
      · cases h
      · cases h
      · split at h
        · next hhead =>
          rw [if_pos hhead]
          split at h
          · cases h
          · next hne =>
            rw [if_neg hne]
            split at h
            · next htop =>
              rw [if_pos htop]
              exact ih h
            · next htop =>
              rw [if_neg htop]
              exact ih h
        · next hhead =>
          rw [if_neg hhead]
          split at h
          · cases h
          · next hshort =>
            rw [if_neg hshort]
            exact ih h

/-- A file is written where there is room. -/
theorem write_of_locate {parts : List String} {part : String}
    (hparts : path.parts = parts ++ [part]) (hpart : part ≠ "..")
    (hplace : tree.locate path = .ok place) (hroom : tree.entryAt? place ≠ some .directory) :
    tree.write path content = .ok (tree.set place (.file content)) := by
  -- a path that leads somewhere leads through the directory of its last part
  obtain ⟨-, hwalk⟩ := locate_eq_ok_iff.mp hplace
  rw [hparts] at hwalk
  obtain ⟨directory, -, hdirectory, rfl⟩ := walk_concat hpart hwalk
  rw [write, hplace]
  dsimp only
  rw [List.dropLast_concat, hdirectory]
  cases he : tree.entryAt? (directory ++ [part]) with
  | none => rfl
  | some entry =>
      cases entry with
      | directory => exact absurd he hroom
      | file old => rfl

/-- No file is written where there is no room. -/
theorem write_of_not_hasRoom (h : ¬ tree.HasRoom path) :
    ∃ fault, tree.write path content = .error fault := by
  unfold write
  cases hplace : tree.locate path with
  | error kind => exact ⟨_, rfl⟩
  | ok place =>
      cases he : tree.entryAt? place with
      | none => exact absurd ⟨place, hplace, by simp [he]⟩ h
      | some entry =>
          cases entry with
          | directory => exact ⟨_, by simp [he]; rfl⟩
          | file old => exact absurd ⟨place, hplace, by simp [he]⟩ h

theorem remove_of_locate (hplace : tree.locate path = .ok place)
    (hentry : tree.entryAt? place = some (.file content)) :
    tree.remove path = tree.erase place := by
  rw [remove, hplace]
  dsimp only
  rw [hentry]

/-- A file is moved where there is room. -/
theorem replace_of_locate {targetPlace : EntryName} (hplace : tree.locate path = .ok place)
    (hentry : tree.entryAt? place = some (.file content))
    (htarget : tree.locate target = .ok targetPlace)
    (hroom : tree.entryAt? targetPlace ≠ some .directory) :
    tree.replace path target = .ok ((tree.erase place).set targetPlace (.file content)) := by
  rw [replace, hplace, htarget]
  dsimp only
  rw [hentry]
  cases he : tree.entryAt? targetPlace with
  | none => rfl
  | some entry =>
      cases entry with
      | directory => exact absurd he hroom
      | file old => rfl

/-- No file is moved where there is no room. -/
theorem replace_of_not_hasRoom (h : tree.Holds path content) (hroom : ¬ tree.HasRoom target) :
    ∃ fault, tree.replace path target = .error fault := by
  obtain ⟨place, hplace, hentry⟩ := holds_iff.mp h
  rw [replace, hplace]
  cases htarget : tree.locate target with
  | error kind => exact ⟨_, rfl⟩
  | ok targetPlace =>
      dsimp only
      rw [hentry]
      cases he : tree.entryAt? targetPlace with
      | none => exact absurd ⟨targetPlace, htarget, by simp [he]⟩ hroom
      | some entry =>
          cases entry with
          | directory => exact ⟨_, rfl⟩
          | file old => exact absurd ⟨targetPlace, htarget, by simp [he]⟩ hroom

/-! ## Making directories -/

/-- **The second tree has the entries of the first, and directories besides.** -/
structure Adds (tree tree' : FileTree) : Prop where
  /-- No entry is lost or changed. -/
  kept {name : EntryName} {entry : Entry} (h : tree.entryAt? name = some entry) :
    tree'.entryAt? name = some entry
  /-- A new entry is a directory. -/
  added {name : EntryName} {content : Bytes} (h : tree'.entryAt? name = some (.file content)) :
    tree.entryAt? name = some (.file content)

theorem Adds.refl (tree : FileTree) : tree.Adds tree := ⟨id, id⟩

theorem Adds.trans {tree'' : FileTree} (h : tree.Adds tree') (h' : tree'.Adds tree'') :
    tree.Adds tree'' :=
  ⟨fun he => h'.kept (h.kept he), fun he => h.added (h'.added he)⟩

theorem makeDirectory_adds (h : tree.makeDirectory path = .ok tree') : tree.Adds tree' := by
  unfold makeDirectory at h
  split at h
  · cases h
  · next name _ =>
    split at h
    · cases h
    · next hnone _ =>
      cases h
      have hroom : tree.entryAt? name ≠ some .directory := by simp [hnone]
      have htop := isTop_of_entryAt? hroom
      refine ⟨fun {other entry} he => ?_, fun {other content} he => ?_⟩
      · rw [entryAt?_set htop]
        split
        · next heq =>
          subst heq
          rw [hnone] at he
          cases he
        · exact he
      · rw [entryAt?_set htop] at he
        split at he
        · cases he
        · exact he
    · cases h
    · cases h

theorem makeDirectoriesWithin_adds {bound : Nat}
    (h : tree.makeDirectoriesWithin path bound = .ok tree') : tree.Adds tree' := by
  induction bound generalizing path tree' with
  | zero =>
      rw [makeDirectoriesWithin] at h
      cases h
      exact .refl tree
  | succ bound ih =>
      rw [makeDirectoriesWithin] at h
      split at h
      · cases h
        exact .refl tree
      · obtain ⟨around, haround, h⟩ := bind_eq_ok_iff.mp h
        split at h
        · cases h
          exact ih haround
        · exact (ih haround).trans (makeDirectory_adds h)
      · exact makeDirectory_adds h

/-- **Making directories adds directories** and changes nothing else. -/
theorem makeDirectories_adds (h : tree.makeDirectories path = .ok tree') : tree.Adds tree' :=
  makeDirectoriesWithin_adds h

theorem find_eq_directory_iff : tree.find path = .ok .directory ↔
    ∃ place, tree.locate path = .ok place ∧ tree.entryAt? place = some .directory := by
  unfold find
  cases tree.locate path with
  | error kind => simp
  | ok place => cases hentry : tree.entryAt? place <;> simp [hentry]

/-- A directory that is there is not made again. -/
theorem makeDirectories_of_find (h : tree.find path = .ok .directory) :
    tree.makeDirectories path = .ok tree := by
  rw [makeDirectories, makeDirectoriesWithin, h]

/-- Trees with the same directories have them at the same paths. -/
theorem SameDirectories.find_iff (h : tree.SameDirectories tree') :
    tree'.find path = .ok .directory ↔ tree.find path = .ok .directory := by
  rw [find_eq_directory_iff, find_eq_directory_iff]
  constructor
  · rintro ⟨place, hplace, hdir⟩
    exact ⟨place, h.locate_iff.mp hplace, (h place).mp hdir⟩
  · rintro ⟨place, hplace, hdir⟩
    exact ⟨place, h.locate_iff.mpr hplace, (h place).mpr hdir⟩

end FileTree

end OscalValidation

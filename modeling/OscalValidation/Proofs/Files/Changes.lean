import OscalValidation.Proofs.Files.Operations

set_option autoImplicit false

/-! # Changes of files

`Changed` says which files a tree has gained, lost or exchanged since another one. Operations on
files that follow one another change together what each of them changes (`Changed.after`).
-/

namespace OscalValidation

namespace FileTree

open Text (Bytes)

variable {tree tree' tree'' : FileTree}

/-! ## Paths to different places -/

/-- **The paths do not lead to one place.** -/
def Apart (tree : FileTree) (path other : Path) : Prop :=
  ∀ place, tree.locate path = .ok place → tree.locate other ≠ .ok place

theorem Apart.symm {path other : Path} (h : tree.Apart path other) : tree.Apart other path :=
  fun place ho hp => h place hp ho

theorem SameDirectories.apart (h : tree.SameDirectories tree') {path other : Path}
    (ha : tree.Apart path other) : tree'.Apart path other :=
  fun place hp ho => ha place (h.locate_iff.mp hp) (h.locate_iff.mp ho)

/-! ## Changes -/

/-- A file that is at a path after a change; `none` if there is none. -/
abbrev FileChange := Path × Option Bytes

/-- **The second tree differs from the first by the changes.** -/
structure Changed (tree tree' : FileTree) (changes : List FileChange) : Prop where
  /-- What is changed is as the change says. -/
  here {change : FileChange} {place : EntryName} (h : change ∈ changes)
    (hplace : tree.locate change.1 = .ok place) : tree'.entryAt? place = change.2.map .file
  /-- All else is as it was. -/
  others {place : EntryName} (h : ∀ change ∈ changes, tree.locate change.1 ≠ .ok place) :
    tree'.entryAt? place = tree.entryAt? place
  directories : tree.SameDirectories tree'

theorem Changed.refl (tree : FileTree) : tree.Changed tree [] :=
  ⟨fun h => absurd h List.not_mem_nil, fun _ => rfl, .refl tree⟩

theorem Changed.of_mem_iff {changes changes' : List FileChange} (h : tree.Changed tree' changes)
    (hmem : ∀ change, change ∈ changes' ↔ change ∈ changes) : tree.Changed tree' changes' :=
  ⟨fun hc => h.here ((hmem _).mp hc),
    fun hc => h.others fun change hchange => hc change ((hmem change).mpr hchange),
    h.directories⟩

/-- **Changes one after another.** Of the earlier changes, the first ones are at paths that the
later changes concern too, and the others are apart from these. -/
theorem Changed.after {changed kept later : List FileChange}
    (h : tree.Changed tree' (changed ++ kept)) (h' : tree'.Changed tree'' later)
    (hchanged : ∀ change ∈ changed, ∃ change' ∈ later, change'.1 = change.1)
    (hkept : ∀ change ∈ kept, ∀ change' ∈ later, tree.Apart change.1 change'.1) :
    tree.Changed tree'' (later ++ kept) where
  here {change place} hc hplace := by
    rcases List.mem_append.mp hc with hc | hc
    · exact h'.here hc (h.directories.locate_iff.mpr hplace)
    · rw [h'.others fun change' hchange' hlocate =>
        hkept change hc change' hchange' place hplace (h.directories.locate_iff.mp hlocate)]
      exact h.here (List.mem_append_right _ hc) hplace
  others {place} hc := by
    have hlater : ∀ change ∈ later, tree.locate change.1 ≠ .ok place :=
      fun change hchange => hc change (List.mem_append_left _ hchange)
    rw [h'.others fun change hchange hlocate =>
      hlater change hchange (h.directories.locate_iff.mp hlocate)]
    refine h.others fun change hchange => ?_
    rcases List.mem_append.mp hchange with hchange | hchange
    · obtain ⟨change', hchange', heq⟩ := hchanged change hchange
      rw [← heq]
      exact hlater change' hchange'
    · exact hc change (List.mem_append_right _ hchange)
  directories := h.directories.trans h'.directories

/-- A file that is written is there. -/
theorem Changed.holds_of_mem {changes : List FileChange} (h : tree.Changed tree' changes)
    {path : Path} {content : Bytes} (hmem : (path, some content) ∈ changes)
    (hroom : tree.HasRoom path) : tree'.Holds path content := by
  obtain ⟨place, hplace, -⟩ := hroom
  exact holds_iff.mpr ⟨place, h.directories.locate_iff.mpr hplace, h.here hmem hplace⟩

/-- A file apart from all changes stays as it is. -/
theorem Changed.holds {changes : List FileChange} (h : tree.Changed tree' changes) {path : Path}
    {content : Bytes} (hholds : tree.Holds path content)
    (hapart : ∀ change ∈ changes, tree.Apart change.1 path) : tree'.Holds path content := by
  obtain ⟨place, hplace, hentry⟩ := holds_iff.mp hholds
  refine holds_iff.mpr ⟨place, h.directories.locate_iff.mpr hplace, ?_⟩
  rw [h.others fun change hchange hlocate => hapart change hchange place hlocate hplace]
  exact hentry

/-! ## Single changes -/

theorem changed_set {path : Path} {place : EntryName} (hplace : tree.locate path = .ok place)
    (hroom : tree.entryAt? place ≠ some .directory) (content : Bytes) :
    tree.Changed (tree.set place (.file content)) [(path, some content)] where
  here {change place'} hc hplace' := by
    rw [List.mem_singleton] at hc
    subst hc
    rw [hplace] at hplace'
    cases hplace'
    rw [entryAt?_set (isTop_of_entryAt? hroom), if_pos rfl]
    rfl
  others {place'} hc := by
    rw [entryAt?_set (isTop_of_entryAt? hroom), if_neg]
    rintro rfl
    exact hc _ (List.mem_singleton_self _) hplace
  directories := sameDirectories_set hroom content

theorem changed_erase {path : Path} {place : EntryName} (hplace : tree.locate path = .ok place)
    (hroom : tree.entryAt? place ≠ some .directory) :
    tree.Changed (tree.erase place) [(path, none)] where
  here {change place'} hc hplace' := by
    rw [List.mem_singleton] at hc
    subst hc
    rw [hplace] at hplace'
    cases hplace'
    rw [entryAt?_erase (isTop_of_entryAt? hroom), if_pos rfl]
    rfl
  others {place'} hc := by
    rw [entryAt?_erase (isTop_of_entryAt? hroom), if_neg]
    rintro rfl
    exact hc _ (List.mem_singleton_self _) hplace
  directories := sameDirectories_erase hroom

/-- Moving a file changes what is at both paths. -/
theorem changed_move {path target : Path} {place targetPlace : EntryName}
    (hplace : tree.locate path = .ok place) (hroom : tree.entryAt? place ≠ some .directory)
    (htarget : tree.locate target = .ok targetPlace)
    (htargetRoom : tree.entryAt? targetPlace ≠ some .directory) (hapart : tree.Apart path target)
    (content : Bytes) :
    tree.Changed ((tree.erase place).set targetPlace (.file content))
      [(target, some content), (path, none)] := by
  have herase : tree.Changed (tree.erase place) ([] ++ [(path, none)]) :=
    changed_erase hplace hroom
  have hroom' : (tree.erase place).entryAt? targetPlace ≠ some .directory :=
    fun hdir => htargetRoom ((herase.directories targetPlace).mp hdir)
  have hset := changed_set (herase.directories.locate_iff.mpr htarget) hroom' content
  refine herase.after hset (by simp) ?_
  intro change hchange change' hchange'
  rw [List.mem_singleton] at hchange hchange'
  subst hchange hchange'
  exact hapart

/-! ## Changes that change nothing -/

/-- **What was there is there, and no file is there that was not.** -/
structure Untouched (before after : FileTree) : Prop where
  /-- Every entry is as it was. -/
  kept {name : EntryName} {entry : Entry} (h : before.entryAt? name = some entry) :
    after.entryAt? name = some entry
  added {name : EntryName} {content : Bytes} (h : after.entryAt? name = some (.file content)) :
    before.entryAt? name = some (.file content)

/-- The change leaves things as they are. -/
def FileChange.IsVoid (tree : FileTree) (change : FileChange) : Prop :=
  match change.2 with
  | some content => tree.Holds change.1 content
  | none => tree.HasNoFile change.1

/-- **Changes of files leave a tree untouched exactly if each one leaves things as they are.** -/
theorem untouched_iff {before made after : FileTree} {changes : List FileChange}
    (hadds : before.Adds made) (h : made.Changed after changes)
    (hroom : ∀ change ∈ changes, made.HasRoom change.1) :
    Untouched before after ↔ ∀ change ∈ changes, FileChange.IsVoid made change := by
  constructor
  · intro huntouched change hchange
    -- the place of the change has an entry before and after that shows what it did
    obtain ⟨place, hplace, -⟩ := hroom change hchange
    have hhere := h.here hchange hplace
    obtain ⟨path, content?⟩ := change
    cases content? with
    | some content =>
        have hfile : after.entryAt? place = some (.file content) := hhere
        exact holds_iff.mpr ⟨place, hplace, hadds.kept (huntouched.added hfile)⟩
    | none =>
        intro content hholds
        obtain ⟨place', hplace', hfile⟩ := holds_iff.mp hholds
        rw [hplace] at hplace'
        cases hplace'
        have hkept := huntouched.kept (hadds.added hfile)
        rw [hhere] at hkept
        cases hkept
  · intro hvoid
    -- then the trees have the same entries
    have hsame : ∀ place, after.entryAt? place = made.entryAt? place := by
      intro place
      by_cases hc : ∃ change ∈ changes, made.locate change.1 = .ok place
      · obtain ⟨⟨path, content?⟩, hchange, hplace⟩ := hc
        rw [h.here hchange hplace]
        have hv := hvoid _ hchange
        cases content? with
        | some content =>
            obtain ⟨place', hplace', hfile⟩ := holds_iff.mp hv
            rw [hplace] at hplace'
            cases hplace'
            rw [hfile]
            rfl
        | none =>
            obtain ⟨place', hplace', hdir⟩ := hroom _ hchange
            rw [hplace] at hplace'
            cases hplace'
            exact (HasNoFile.entryAt? hv hplace hdir).symm
      · exact h.others fun change hchange hplace => hc ⟨change, hchange, hplace⟩
    exact ⟨fun he => by rw [hsame]; exact hadds.kept he,
      fun he => hadds.added (by rw [← hsame]; exact he)⟩

end FileTree

end OscalValidation

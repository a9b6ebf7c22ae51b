import OscalValidation.Files.Tree

set_option autoImplicit false

/-! # What operations on files change

Every operation changes the entries under one or two names and leaves all others as they are. The
name that a path leads to depends on directories alone, so writing, moving and removing files never
changes where a path leads (`locate_iff`).
-/

namespace OscalValidation

/-! ## Values under keys -/

section Lookup

variable {κ ν : Type} [BEq κ] [LawfulBEq κ] [DecidableEq κ] {pairs : List (κ × ν)}
  {key other : κ} {value : ν}

theorem lookup_cons_eq_ite : ((key, value) :: pairs).lookup other =
    if other = key then some value else pairs.lookup other := by
  rw [List.lookup_cons]
  by_cases h : other = key
  · subst h
    simp
  · rw [if_neg h, beq_eq_false_iff_ne.mpr h]

/-- Replacing the values under a key changes what is found under it, if there is anything. -/
theorem lookup_replace :
    (pairs.map fun old => if old.1 == key then (key, value) else old).lookup other =
      if other = key then (pairs.lookup key).map fun _ => value else pairs.lookup other := by
  induction pairs with
  | nil => simp
  | cons head rest ih =>
      obtain ⟨first, old⟩ := head
      rw [List.map_cons]
      by_cases hkey : first = key
      · subst hkey
        rw [if_pos (beq_self_eq_true first), lookup_cons_eq_ite, ih, lookup_cons_eq_ite,
          lookup_cons_eq_ite, if_pos rfl]
        by_cases heq : other = first <;> simp [heq]
      · rw [if_neg (by simpa using hkey), lookup_cons_eq_ite, ih, lookup_cons_eq_ite,
          lookup_cons_eq_ite, if_neg (Ne.symm hkey)]
        by_cases heq : other = key
        · subst heq
          simp [Ne.symm hkey]
        · simp [heq]

/-- **Setting the value under a key changes no other.** -/
theorem lookup_set :
    (if pairs.any (·.1 == key) then
        pairs.map fun old => if old.1 == key then (key, value) else old
      else pairs ++ [(key, value)]).lookup other =
      if other = key then some value else pairs.lookup other := by
  -- whether values are replaced or one is added depends on what is found under the key
  have hany : pairs.any (·.1 == key) = (pairs.lookup key).isSome := by
    rw [Bool.eq_iff_iff, List.any_eq_true, List.lookup_isSome_iff]
    exact exists_congr fun old => and_congr_right fun _ => by rw [BEq.comm]
  rw [hany]
  cases hfound : pairs.lookup key with
  | some old => rw [Option.isSome_some, if_pos rfl, lookup_replace, hfound, Option.map_some]
  | none =>
      rw [Option.isSome_none, if_neg Bool.false_ne_true, List.lookup_append, lookup_cons_eq_ite]
      by_cases heq : other = key
      · subst heq
        simp [hfound]
      · simp [heq]

end Lookup

namespace FileTree

open Text (Bytes)

/-! ## Entries -/

/-- What is no directory is under no top. -/
theorem isTop_of_entryAt? {tree : FileTree} {name : EntryName}
    (h : tree.entryAt? name ≠ some .directory) : isTop name = false := by
  cases ht : isTop name with
  | false => rfl
  | true => exact absurd (by rw [entryAt?, ht, if_pos rfl]) h

theorem entryAt?_of_not_top {tree : FileTree} {name : EntryName} (h : isTop name = false) :
    tree.entryAt? name = tree.entries.lookup name := by
  rw [entryAt?, h, if_neg Bool.false_ne_true]

/-- **Setting an entry changes no other.** -/
theorem entryAt?_set {tree : FileTree} {name : EntryName} (h : isTop name = false) (entry : Entry)
    (other : EntryName) : (tree.set name entry).entryAt? other =
      if other = name then some entry else tree.entryAt? other := by
  by_cases ht : isTop other = true
  · have hne : other ≠ name := by
      rintro rfl
      rw [h] at ht
      cases ht
    rw [entryAt?, ht, if_pos rfl, if_neg hne, entryAt?, ht, if_pos rfl]
  rw [Bool.not_eq_true] at ht
  rw [entryAt?_of_not_top ht, entryAt?_of_not_top ht, set]
  refine Eq.trans ?_ lookup_set
  split <;> rfl

/-- **Erasing an entry changes no other.** -/
theorem entryAt?_erase {tree : FileTree} {name : EntryName} (h : isTop name = false)
    (other : EntryName) : (tree.erase name).entryAt? other =
      if other = name then none else tree.entryAt? other := by
  by_cases ht : isTop other = true
  · have hne : other ≠ name := by
      rintro rfl
      rw [h] at ht
      cases ht
    rw [entryAt?, ht, if_pos rfl, if_neg hne, entryAt?, ht, if_pos rfl]
  rw [Bool.not_eq_true] at ht
  rw [entryAt?_of_not_top ht, entryAt?_of_not_top ht, erase]
  induction tree.entries with
  | nil => simp
  | cons head rest ih =>
      obtain ⟨key, value⟩ := head
      rw [List.filter_cons, lookup_cons_eq_ite]
      by_cases hkey : key = name
      · subst hkey
        rw [if_neg (by simp), ih]
        by_cases heq : other = key <;> simp [heq]
      · rw [if_pos (by simpa using hkey), lookup_cons_eq_ite, ih]
        by_cases heq : other = name
        · subst heq
          simp [Ne.symm hkey]
        · simp [heq]

/-! ## Where paths lead -/

/-- **The trees have the same directories.** -/
def SameDirectories (tree tree' : FileTree) : Prop :=
  ∀ name, tree'.entryAt? name = some .directory ↔ tree.entryAt? name = some .directory

theorem SameDirectories.refl (tree : FileTree) : tree.SameDirectories tree :=
  fun _ => Iff.rfl

theorem SameDirectories.trans {tree tree' tree'' : FileTree} (h : tree.SameDirectories tree')
    (h' : tree'.SameDirectories tree'') : tree.SameDirectories tree'' :=
  fun name => (h' name).trans (h name)

/-- A path that leads somewhere leads there as long as all directories stay. -/
theorem walk_mono {tree tree' : FileTree}
    (h : ∀ name, tree.entryAt? name = some .directory → tree'.entryAt? name = some .directory)
    {name place : EntryName} {parts : List String} (hw : tree.walk name parts = .ok place) :
    tree'.walk name parts = .ok place := by
  induction parts generalizing name with
  | nil => exact hw
  | cons part rest ih =>
      rw [walk] at hw ⊢
      split at hw
      · cases hw
      · cases hw
      · next hname =>
        rw [h name hname]
        dsimp only
        split
        · next hpart =>
          rw [if_pos hpart] at hw
          split at hw
          · cases hw
          · next hne =>
            rw [if_neg hne]
            split at hw
            · next htop =>
              rw [if_pos htop]
              exact ih hw
            · next htop =>
              rw [if_neg htop]
              exact ih hw
        · next hpart =>
          rw [if_neg hpart] at hw
          split at hw
          · cases hw
          · next hshort =>
            rw [if_neg hshort]
            exact ih hw

/-- A path leads where its parts do, unless it is too long. -/
theorem locate_eq_ok_iff {tree : FileTree} {path : Path} {place : EntryName} :
    tree.locate path = .ok place ↔ path.text.utf8ByteSize ≤ maxPathBytes ∧
      tree.walk (if path.root.isEmpty then [] else [path.root]) path.parts = .ok place := by
  unfold locate
  split
  · next hlong => simp [Nat.not_le.mpr hlong]
  · next hshort => simp [Nat.le_of_not_lt hshort]

theorem locate_mono {tree tree' : FileTree}
    (h : ∀ name, tree.entryAt? name = some .directory → tree'.entryAt? name = some .directory)
    {path : Path} {place : EntryName} (hplace : tree.locate path = .ok place) :
    tree'.locate path = .ok place := by
  obtain ⟨hshort, hw⟩ := locate_eq_ok_iff.mp hplace
  exact locate_eq_ok_iff.mpr ⟨hshort, walk_mono h hw⟩

/-- **Where a path leads depends on directories alone.** -/
theorem SameDirectories.locate_iff {tree tree' : FileTree} (h : tree.SameDirectories tree')
    {path : Path} {place : EntryName} :
    tree'.locate path = .ok place ↔ tree.locate path = .ok place :=
  ⟨locate_mono fun name => (h name).mp, locate_mono fun name => (h name).mpr⟩

end FileTree

end OscalValidation

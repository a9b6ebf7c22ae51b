import Mathlib.Data.Set.Basic
import OscalValidation.Proofs.Conversion.Merging
import OscalValidation.Proofs.Conversion.Tables
import OscalValidation.Proofs.Json.RoundTrip

set_option autoImplicit false

/-! # Tables with what they include

A file of a table comes before the files that it includes, and of these the first one before the
others. Main statement: if files include each other without circles and no path leads to values of
different kinds in them, merging their tables is associative and idempotent, and whichever file is
loaded, what is loaded is its table over those of all files that it includes, from which the rules
lose nothing (`includes_spec`).
-/

namespace OscalValidation

open Json (Compatible Overlaid mergeAll valuesAt)

variable {tree : FileTree} {directory : Path} {names : Set String} {rank : String → Nat}

/-! ## Tables of files -/

def ownMembers (members : List (String × Json)) : List (String × Json) :=
  members.filter fun member => member.1 != "include"

/-- **The file of a name holds an object.** -/
def HoldsTable (tree : FileTree) (directory : Path) (name : String)
    (members : List (String × Json)) : Prop :=
  '\x00' ∉ (directory.join name).text.toList ∧
    HoldsValue tree (directory.join name) (.obj members)

def Includes (members : List (String × Json)) (files : List String) : Prop :=
  listedItems (entryOr members "include" (.arr [])) = .ok (files.map .str)

/-- **The tables of a file and of all files that it includes,** directly or through others, with
inclusions below a depth: that of the file itself, and then those of the files that it includes in
turn. -/
def TablesWithin (tree : FileTree) (directory : Path) :
    Nat → String → List (List (String × Json)) → Prop
  | 0, _, _ => False
  | depth + 1, name, tables => ∃ members files included, HoldsTable tree directory name members ∧
      Includes members files ∧ List.Forall₂ (TablesWithin tree directory depth) files included ∧
      tables = ownMembers members :: included.flatten

/-- **Files that include each other without circles** and agree in the kinds of their values. -/
structure ArtifactSet (tree : FileTree) (directory : Path) (names : Set String)
    (rank : String → Nat) : Prop where
  /-- Each of the files holds an object, and the files that it includes are of lower rank. -/
  file : ∀ name ∈ names, ∃ members files, HoldsTable tree directory name members ∧
    Includes members files ∧ ∀ file ∈ files, file ∈ names ∧ rank file < rank name
  /-- No path leads to values of different kinds in two of the files. -/
  alike : ∀ name ∈ names, ∀ other ∈ names, ∀ members members',
    HoldsTable tree directory name members → HoldsTable tree directory other members' →
      Json.Alike (.obj (ownMembers members)) (.obj (ownMembers members'))

theorem HoldsTable.readJsonFile {name : String} {members : List (String × Json)}
    (h : HoldsTable tree directory name members) :
    readJsonFile tree (directory.join name) .unreadable = .ok (.obj members) :=
  readJsonFile_eq_ok_iff.mpr h

/-- A table that is read has distinct names and numbers in standard form. -/
theorem HoldsTable.isProper {name : String} {members : List (String × Json)}
    (h : HoldsTable tree directory name members) : (Json.obj (ownMembers members)).IsProper := by
  obtain ⟨-, bytes, -, hread⟩ := h
  obtain ⟨hnames, hvalues⟩ :=
    Json.isProper_obj_iff.mp (Json.keptByReading_isProper.of_readFile hread)
  refine .obj (hnames.sublist (List.filter_sublist.map _)) fun m hm => ?_
  exact hvalues m (List.mem_of_mem_filter hm)

theorem HoldsTable.unique {name : String} {members members' : List (String × Json)}
    (h : HoldsTable tree directory name members) (h' : HoldsTable tree directory name members') :
    members = members' := by
  obtain ⟨-, bytes, hbytes, hread⟩ := h
  obtain ⟨-, bytes', hbytes', hread'⟩ := h'
  cases hbytes.symm.trans hbytes'
  cases hread.symm.trans hread'
  rfl

theorem Includes.unique {members : List (String × Json)} {files files' : List String}
    (h : Includes members files) (h' : Includes members files') : files = files' := by
  have hitems := Except.ok.inj (h.symm.trans h')
  exact List.map_injective_iff.mpr (fun _ _ => Json.str.inj) hitems

/-- **There is one list of tables of a file.** -/
theorem TablesWithin.unique {depth depth' : Nat} {name : String}
    {tables tables' : List (List (String × Json))}
    (h : TablesWithin tree directory depth name tables)
    (h' : TablesWithin tree directory depth' name tables') : tables = tables' := by
  induction depth generalizing depth' name tables tables' with
  | zero => exact h.elim
  | succ depth ih =>
      cases depth' with
      | zero => exact h'.elim
      | succ depth' =>
          obtain ⟨members, files, included, holds, includes, hfiles, rfl⟩ := h
          obtain ⟨members', files', included', holds', includes', hfiles', rfl⟩ := h'
          cases holds.unique holds'
          cases includes.unique includes'
          have hsame : included = included' := by
            clear includes includes'
            induction hfiles generalizing included' with
            | nil =>
                cases hfiles'
                rfl
            | cons first _ ihfiles =>
                cases hfiles' with
                | cons first' rest' => rw [ih first first', ihfiles _ rest']
          rw [hsame]

/-! ## Loading -/

/-- The included files of a list, one after the other: each comes below all that is there, unless
one goes too deep. -/
theorem foldlM_includeItem {bound depth : Nat} {files : List String}
    {included : List (List (List (String × Json)))} {above : List (List (String × Json))}
    (hfiles : List.Forall₂ (fun file tables => Compatible tables →
      loadMembers tree directory bound file = .ok (mergeAll tables) ∨
        bound < depth ∧ ∃ path, loadMembers tree directory bound file = .error (.tooDeep path))
      files included)
    (h : Compatible (above ++ included.flatten)) :
    (files.map Json.str).foldlM (includeItem tree directory bound) (mergeAll above) =
        .ok (mergeAll (above ++ included.flatten)) ∨
      bound < depth ∧ ∃ path, (files.map Json.str).foldlM (includeItem tree directory bound)
        (mergeAll above) = .error (.tooDeep path) := by
  induction hfiles generalizing above with
  | nil =>
      left
      rw [List.flatten_nil, List.append_nil]
      rfl
  | @cons file tables files included first _ ih =>
      rw [List.flatten_cons, ← List.append_assoc] at h ⊢
      rw [List.map_cons, List.foldlM_cons]
      have hfirst : Compatible (above ++ tables) := h.of_subset (List.subset_append_left _ _)
      rcases first (hfirst.of_subset (List.subset_append_right _ _)) with
        hload | ⟨hdeep, path, hload⟩
      · have hitem : includeItem tree directory bound (mergeAll above) (.str file) =
            .ok (mergeAll (above ++ tables)) := by
          rw [← Json.merge_mergeAll hfirst]
          exact bind_eq_ok_iff.mpr ⟨_, hload, rfl⟩
        rw [hitem]
        exact ih h
      · right
        refine ⟨hdeep, path, ?_⟩
        have hitem : includeItem tree directory bound (mergeAll above) (.str file) =
            .error (.tooDeep path) := by
          rw [includeItem, hload]
          rfl
        rw [hitem]
        rfl

/-- **What is loaded is the table of a file over those of all files that it includes,** unless these
go too deep. -/
theorem loadMembers_eq {bound depth : Nat} {name : String} {tables : List (List (String × Json))}
    (hname : TablesWithin tree directory depth name tables) (h : Compatible tables) :
    loadMembers tree directory bound name = .ok (mergeAll tables) ∨
      bound < depth ∧ ∃ path, loadMembers tree directory bound name = .error (.tooDeep path) := by
  induction bound generalizing depth name tables with
  | zero =>
      cases depth with
      | zero => exact hname.elim
      | succ depth => exact Or.inr ⟨Nat.succ_pos _, _, rfl⟩
  | succ bound ih =>
      cases depth with
      | zero => exact hname.elim
      | succ depth =>
          obtain ⟨members, files, included, holds, includes, hfiles, rfl⟩ := hname
          have hown : mergeAll [ownMembers members] = ownMembers members :=
            Json.merge_nil_left (Json.isProper_obj_iff.mp holds.isProper).1
          have hload : loadMembers tree directory (bound + 1) name =
              (files.map Json.str).foldlM (includeItem tree directory bound)
                (mergeAll [ownMembers members]) := by
            rw [loadMembers_succ, holds.readJsonFile, hown]
            show (listedItems _ >>= _) = _
            rw [includes]
            rfl
          rw [hload, Nat.add_lt_add_iff_right]
          exact foldlM_includeItem (hfiles.imp fun _ _ htables => ih htables) h

/-! ## Files without circles -/

/-- Entries of a list that each have a counterpart have a list of counterparts. -/
theorem exists_forall₂_of_forall {α β : Type} {r : α → β → Prop} {xs : List α}
    (h : ∀ x ∈ xs, ∃ y, r x y) : ∃ ys, List.Forall₂ r xs ys := by
  induction xs with
  | nil => exact ⟨[], .nil⟩
  | cons x rest ih =>
      obtain ⟨⟨y, hy⟩, hrest⟩ := List.forall_mem_cons.mp h
      obtain ⟨ys, hys⟩ := ih hrest
      exact ⟨y :: ys, .cons hy hys⟩

def IsTableOf (tree : FileTree) (directory : Path) (names : Set String)
    (table : List (String × Json)) : Prop :=
  ∃ name ∈ names, ∃ members, HoldsTable tree directory name members ∧ table = ownMembers members

theorem ArtifactSet.exists_tablesWithin (h : ArtifactSet tree directory names rank) {depth : Nat}
    {name : String} (hname : name ∈ names) (hdepth : rank name < depth) :
    ∃ tables, TablesWithin tree directory depth name tables ∧
      ∀ table ∈ tables, IsTableOf tree directory names table := by
  induction depth generalizing name with
  | zero => exact absurd hdepth (Nat.not_lt_zero _)
  | succ depth ih =>
      obtain ⟨members, files, holds, includes, hfiles⟩ := h.file name hname
      obtain ⟨included, hincluded⟩ := exists_forall₂_of_forall fun file hfile =>
        ih (hfiles file hfile).1 (Nat.lt_of_lt_of_le (hfiles file hfile).2 (Nat.le_of_lt_succ hdepth))
      refine ⟨ownMembers members :: included.flatten, ⟨members, files, included, holds, includes,
        hincluded.imp fun _ _ htables => htables.1, rfl⟩, fun table htable => ?_⟩
      rcases List.mem_cons.mp htable with rfl | htable
      · exact ⟨name, hname, members, holds, rfl⟩
      · obtain ⟨tables, htables, htable⟩ := List.mem_flatten.mp htable
        obtain ⟨_, -, -, hof⟩ := exists_of_mem_forall₂ hincluded.flip htables
        exact hof table htable

theorem IsTableOf.isProper {table : List (String × Json)}
    (h : IsTableOf tree directory names table) : (Json.obj table).IsProper := by
  obtain ⟨_, _, _, holds, rfl⟩ := h
  exact holds.isProper

theorem IsTableOf.alike (set : ArtifactSet tree directory names rank)
    {table other : List (String × Json)} (h : IsTableOf tree directory names table)
    (h' : IsTableOf tree directory names other) : Json.Alike (.obj table) (.obj other) := by
  obtain ⟨name, hname, members, holds, rfl⟩ := h
  obtain ⟨name', hname', members', holds', rfl⟩ := h'
  exact set.alike name hname name' hname' members members' holds holds'

/-! ## Whatever is merged -/

/-- **What tables of the files can be merged to,** in any order and nesting. -/
inductive Merged (tree : FileTree) (directory : Path) (names : Set String) :
    List (String × Json) → Prop
  /-- A table of one of the files. -/
  | table {table : List (String × Json)} (h : IsTableOf tree directory names table) :
      Merged tree directory names table
  | merge {base top : List (String × Json)} (below : Merged tree directory names base)
      (above : Merged tree directory names top) : Merged tree directory names (Json.merge base top)

section Merged

variable {a b c : List (String × Json)}

theorem Merged.isProper (h : Merged tree directory names a) : (Json.obj a).IsProper := by
  induction h with
  | table h => exact h.isProper
  | merge _ _ hbase htop => exact Json.isProper_merge hbase htop

/-- **A path that leads somewhere leads to the same kind of value in one of the files.** -/
theorem Merged.exists_table (set : ArtifactSet tree directory names rank)
    (h : Merged tree directory names a) : ∀ path value, (Json.obj a).at? path = some value →
      ∃ table, IsTableOf tree directory names table ∧ ∃ own, (Json.obj table).at? path = some own ∧
        own.kind = value.kind := by
  induction h with
  | table h => exact fun path value hvalue => ⟨_, h, value, hvalue, rfl⟩
  | @merge base top _ above hbase htop =>
      have halike : Json.Alike (.obj base) (.obj top) := by
        intro path u v hu hv
        obtain ⟨table, ht, own, hown, hkind⟩ := hbase path u hu
        obtain ⟨other, ho, own', hown', hkind'⟩ := htop path v hv
        rw [← hkind, ← hkind']
        exact ht.alike set ho hown hown'
      intro path value hvalue
      rw [← Json.mergeOver_obj, Json.at?_mergeOver above.isProper halike] at hvalue
      cases hv : (Json.obj top).at? path with
      | none =>
          rw [hv] at hvalue
          exact hbase path value hvalue
      | some v =>
          rw [hv] at hvalue
          obtain ⟨table, ht, own, hown, hkind⟩ := htop path v hv
          refine ⟨table, ht, own, hown, ?_⟩
          rw [← Option.some.inj hvalue, Json.kind_mergeOver, hkind]

/-- No path leads to values of different kinds in what is merged. -/
theorem Merged.alike (set : ArtifactSet tree directory names rank)
    (ha : Merged tree directory names a) (hb : Merged tree directory names b) :
    Json.Alike (.obj a) (.obj b) := by
  intro path u v hu hv
  obtain ⟨table, ht, own, hown, hkind⟩ := ha.exists_table set path u hu
  obtain ⟨other, ho, own', hown', hkind'⟩ := hb.exists_table set path v hv
  rw [← hkind, ← hkind']
  exact ht.alike set ho hown hown'

end Merged

/-! ## Rules -/

/-- **The rules lose nothing of the tables.** -/
structure KeepsAll (tables : List (List (String × Json))) (rules : ConversionRules) : Prop where
  /-- The root is that of the first table that has one. -/
  root {value : Json} (h : (valuesAt tables ["root"]).head? = some value)
    (other : value.kind = .other) : rules.root = value
  /-- A name that a table lists as that of a flag is one. -/
  flag {items : List Json} {name : String}
    (h : .arr items ∈ valuesAt tables ["flags"]) (listed : .str name ∈ items) :
    name ∈ rules.flags
  /-- A name that a table lists as that of a flag of an element is one. -/
  elementFlag {element : String} {items : List Json} {name : String}
    (h : .arr items ∈ valuesAt tables ["element-flags", element]) (listed : .str name ∈ items) :
    ∃ flags, rules.elementFlags.lookup element = some flags ∧ name ∈ flags
  /-- The items of an array are called what the first table that calls them anything calls them. -/
  group {element : String} {value : Json}
    (h : (valuesAt tables ["groups", element]).head? = some value) (other : value.kind = .other) :
    rules.groups.member? element = some value
  /-- The text of an element is what the first table says that has it. -/
  value {element : String} {value : Json}
    (h : (valuesAt tables ["values", element]).head? = some value) (other : value.kind = .other) :
    rules.values.member? element = some value
  /-- A name that a table lists as that of prose is one. -/
  prose {items : List Json} {name : String}
    (h : .arr items ∈ valuesAt tables ["markup-multiline"]) (listed : .str name ∈ items) :
    .str name ∈ rules.prose

/-- The rules are read from the entries of a table one by one. -/
structure Describes (members : List (String × Json)) (rules : ConversionRules) : Prop where
  root : members.lookup "root" = some rules.root
  flags : listedNames (entryOr members "flags" (.arr [])) = .ok rules.flags
  elementFlags : ∃ byElement, entryOr members "element-flags" (.obj []) = .obj byElement ∧
    byElement.mapM elementFlagsOf = .ok rules.elementFlags
  groups : rules.groups = entryOr members "groups" (.obj [])
  values : rules.values = entryOr members "values" (.obj [])
  prose : listedValues (entryOr members "markup-multiline" (.arr [])) = .ok rules.prose

theorem Describes.of_ofMembers {members : List (String × Json)} {rules : ConversionRules}
    (h : ConversionRules.ofMembers members = .ok rules) : Describes members rules := by
  unfold ConversionRules.ofMembers at h
  cases hroot : members.lookup "root" with
  | none =>
      rw [hroot] at h
      cases h
  | some root =>
      rw [hroot] at h
      obtain ⟨flags, hflags, h⟩ := bind_eq_ok_iff.mp h
      obtain ⟨byElement, hentries, h⟩ := bind_eq_ok_iff.mp h
      obtain ⟨elementFlags, helements, h⟩ := bind_eq_ok_iff.mp h
      obtain ⟨prose, hprose, h⟩ := bind_eq_ok_iff.mp h
      cases h
      refine ⟨hroot, hflags, ⟨byElement, ?_, helements⟩, rfl, rfl, hprose⟩
      change entriesOf (entryOr members "element-flags" (.obj [])) = .ok byElement at hentries
      unfold entriesOf at hentries
      split at hentries
      · next heq =>
        cases hentries
        exact heq
      · cases hentries

/-- A text in a list is one of the values that it lists. -/
theorem mem_of_listedValues {items values : List Json} (h : listedValues (.arr items) = .ok values)
    {name : String} (hmem : .str name ∈ items) : .str name ∈ values := by
  rw [listedValues_eq] at h
  obtain ⟨listed, hlisted, h⟩ := bind_eq_ok_iff.mp h
  cases hlisted
  have hname : nameOfItem (.str name) ∈ values.map Except.ok := by
    rw [← mapM_eq_ok_iff.mp h]
    exact List.mem_map_of_mem hmem
  obtain ⟨value, hvalue, heq⟩ := List.mem_map.mp hname
  cases heq
  exact hvalue

/-- A text in a list is one of the names that it lists. -/
theorem mem_of_listedNames {items : List Json} {names : List String}
    (h : listedNames (.arr items) = .ok names) {name : String} (hmem : .str name ∈ items) :
    name ∈ names := by
  obtain ⟨values, hvalues, h⟩ := bind_eq_ok_iff.mp h
  cases h
  exact List.mem_eraseDups.mpr
    (List.mem_filterMap.mpr ⟨_, mem_of_listedValues hvalues hmem, rfl⟩)

/-- The flags of an element are those that its entry lists. -/
theorem lookup_elementFlags {byElement : List (String × Json)} {flags : List (String × List String)}
    (h : byElement.mapM elementFlagsOf = .ok flags) {element : String} {value : Json}
    (hvalue : byElement.lookup element = some value) :
    ∃ names, flags.lookup element = some names ∧ listedNames value = .ok names := by
  induction byElement generalizing flags with
  | nil => cases hvalue
  | cons entry rest ih =>
      obtain ⟨other, own⟩ := entry
      rw [List.mapM_cons] at h
      obtain ⟨flag, hflag, h⟩ := bind_eq_ok_iff.mp h
      obtain ⟨others, hothers, h⟩ := bind_eq_ok_iff.mp h
      cases h
      obtain ⟨names, hnames, hflag⟩ := bind_eq_ok_iff.mp hflag
      cases hflag
      rw [lookup_cons_eq_ite] at hvalue ⊢
      by_cases hname : element = other
      · rw [if_pos hname] at hvalue ⊢
        cases hvalue
        exact ⟨names, rfl, hnames⟩
      · rw [if_neg hname] at hvalue ⊢
        exact ih hothers hvalue

section Rules

variable {tables : List (List (String × Json))} {merged : List (String × Json)}
  {rules : ConversionRules}

/-- A text in a list of one table is in the list at the end of the same path. -/
theorem exists_mem_of_mem_valuesAt (h : Overlaid tables merged)
    (hproper : (Json.obj merged).IsProper) {path : List String} {items : List Json} {name : String}
    (hvalue : .arr items ∈ valuesAt tables path) (listed : .str name ∈ items) :
    ∃ all, (Json.obj merged).at? path = some (.arr all) ∧ .str name ∈ all := by
  obtain ⟨table, ht, hown⟩ := Json.mem_valuesAt.mp hvalue
  obtain ⟨value, hat⟩ := Option.isSome_iff_exists.mp
    ((h.present path).mpr ⟨table, ht, by rw [hown]; rfl⟩)
  obtain ⟨all, rfl⟩ := Json.kind_eq_list_iff.mp (h.kind hat table ht _ hown).symm
  have hlists : (Json.arr items).lists (.str name) = true :=
    List.any_eq_true.mpr ⟨_, listed, Json.same_refl (Json.isProper_str name)⟩
  have hfound := (h.lists hat (Json.isProper_str name)).mpr ⟨table, ht, _, hown, hlists⟩
  obtain ⟨item, hitem, hsame⟩ := List.any_eq_true.mp hfound
  have hitems := Json.isProper_arr_iff.mp (Json.isProper_at? hproper hat)
  rw [Json.eq_of_same_str (hitems item hitem) hsame] at hitem
  exact ⟨all, hat, hitem⟩

theorem at?_singleton {value : Json} {name : String} :
    value.at? [name] = value.member? name := by
  rw [Json.at?]
  cases value.member? name <;> rfl

theorem at?_pair_eq_some_iff {name inner : String} {value : Json} :
    (Json.obj merged).at? [name, inner] = some value ↔
      ∃ members, merged.lookup name = some (.obj members) ∧ members.lookup inner = some value := by
  rw [Json.at?, Json.member?, Option.bind_eq_some_iff]
  simp only [at?_singleton]
  constructor
  · rintro ⟨under, hunder, hvalue⟩
    cases under with
    | obj members => exact ⟨members, hunder, hvalue⟩
    | _ => cases hvalue
  · rintro ⟨members, hmembers, hvalue⟩
    exact ⟨.obj members, hmembers, hvalue⟩

theorem entryOr_of_lookup {name : String} {absent value : Json}
    (h : merged.lookup name = some value) : entryOr merged name absent = value := by
  rw [entryOr, h]
  rfl

/-- **Rules that are read from tables one over the other lose nothing of them.** -/
theorem KeepsAll.of_overlaid (h : Overlaid tables merged) (hproper : (Json.obj merged).IsProper)
    (hrules : Describes merged rules) : KeepsAll tables rules := by
  -- a list with all names that the tables list, and the value that is kept under a name
  have hlist {entry : String} {items : List Json} {name : String}
      (hvalue : .arr items ∈ valuesAt tables [entry]) (listed : .str name ∈ items) :
      ∃ all, entryOr merged entry (.arr []) = .arr all ∧ .str name ∈ all := by
    obtain ⟨all, hat, hmem⟩ := exists_mem_of_mem_valuesAt h hproper hvalue listed
    rw [at?_singleton] at hat
    exact ⟨all, entryOr_of_lookup hat, hmem⟩
  have hkept {entry element : String} {value : Json}
      (hvalue : (valuesAt tables [entry, element]).head? = some value)
      (other : value.kind = .other) :
      (entryOr merged entry (.obj [])).member? element = some value := by
    obtain ⟨members, hmembers, hname⟩ := at?_pair_eq_some_iff.mp (h.first hvalue other)
    rw [entryOr_of_lookup hmembers]
    exact hname
  constructor
  case root =>
    intro value hvalue other
    have hat := h.first hvalue other
    rw [at?_singleton] at hat
    exact Option.some.inj (hrules.root.symm.trans hat)
  case flag =>
    intro items name hvalue listed
    obtain ⟨all, hentry, hmem⟩ := hlist hvalue listed
    exact mem_of_listedNames (hentry ▸ hrules.flags) hmem
  case elementFlag =>
    intro element items name hvalue listed
    obtain ⟨all, hat, hmem⟩ := exists_mem_of_mem_valuesAt h hproper hvalue listed
    obtain ⟨byElement, hentry, hitems⟩ := at?_pair_eq_some_iff.mp hat
    obtain ⟨byElement', hread, hflags⟩ := hrules.elementFlags
    rw [entryOr_of_lookup hentry] at hread
    cases hread
    obtain ⟨flags, hfound, hlisted⟩ := lookup_elementFlags hflags hitems
    exact ⟨flags, hfound, mem_of_listedNames hlisted hmem⟩
  case group =>
    intro element value hvalue other
    rw [hrules.groups]
    exact hkept hvalue other
  case value =>
    intro element value hvalue other
    rw [hrules.values]
    exact hkept hvalue other
  case prose =>
    intro items name hvalue listed
    obtain ⟨all, hentry, hmem⟩ := hlist hvalue listed
    exact mem_of_listedValues (hentry ▸ hrules.prose) hmem

end Rules

/-! ## All files -/

/-- **Loading files that include each other without circles.** On their tables, and on whatever is
merged of them, merging is associative and changes nothing where a table is merged with itself.
Whichever of the files is loaded, within any bound on the depth of inclusions that its rank stays
below, what is loaded is its table over those of all files that it includes, and the rules that it
describes lose nothing of them. Within a smaller bound this is so too, or the load ends because
inclusions go too deep. -/
theorem includes_spec (set : ArtifactSet tree directory names rank) :
    (∀ a b c, Merged tree directory names a → Merged tree directory names b →
      Merged tree directory names c →
        Json.merge a (Json.merge b c) = Json.merge (Json.merge a b) c) ∧
    (∀ a, Merged tree directory names a → Json.merge a a = a) ∧
    ∀ name ∈ names, ∃ tables, TablesWithin tree directory (rank name + 1) name tables ∧
      ∀ bound,
        (∃ table, loadMembers tree directory bound name = .ok table ∧ Overlaid tables table ∧
          ∀ rules, ConversionRules.ofMembers table = .ok rules → KeepsAll tables rules) ∨
        bound ≤ rank name ∧
          ∃ path, loadMembers tree directory bound name = .error (.tooDeep path) := by
  refine ⟨fun a b c ha hb hc => ?_, fun a ha => Json.merge_self ha.isProper, fun name hname => ?_⟩
  · exact Json.merge_assoc ha.isProper hb.isProper hc.isProper (ha.alike set hb)
      (ha.alike set hc) (hb.alike set hc)
  · obtain ⟨tables, htables, hof⟩ := set.exists_tablesWithin hname (Nat.lt_succ_self _)
    have hcompatible : Compatible tables :=
      ⟨fun t ht => (hof t ht).isProper, fun t ht t' ht' => (hof t ht).alike set (hof t' ht')⟩
    refine ⟨tables, htables, fun bound => ?_⟩
    rcases @loadMembers_eq tree directory bound _ _ _ htables hcompatible with hload | ⟨hbound, hdeep⟩
    · left
      have hoverlaid : Overlaid tables (mergeAll tables) := Json.overlaid_mergeAll hcompatible (by
        obtain ⟨_, _, _, -, -, -, rfl⟩ := htables
        nofun)
      exact ⟨mergeAll tables, hload, hoverlaid, fun rules hrules => .of_overlaid hoverlaid
        (Json.isProper_mergeAll hcompatible.proper) (.of_ofMembers hrules)⟩
    · exact Or.inr ⟨Nat.le_of_lt_succ hbound, hdeep⟩

/-! ## A plan and two files that it includes -/

theorem uniformLines_eq_self {cs : List Char} (h : '\r' ∉ cs) : Text.uniformLines cs = cs := by
  induction cs with
  | nil => rfl
  | cons c rest ih =>
      rw [List.mem_cons, not_or] at h
      have hc : c ≠ '\r' := fun heq => h.1 heq.symm
      unfold Text.uniformLines
      split
      · next heq => exact absurd (List.cons_eq_cons.mp heq).1 hc
      · next heq => exact absurd (List.cons_eq_cons.mp heq).1 hc
      · next heq =>
        obtain ⟨rfl, rfl⟩ := List.cons_eq_cons.mp heq
        rw [ih h.2]
      · next heq => cases heq

/-- A file that an object was written to holds it. -/
theorem HoldsTable.of_written {name : String} {members : List (String × Json)}
    (named : '\x00' ∉ (directory.join name).text.toList)
    (read : tree.read (directory.join name) = .ok (Text.encode (Json.obj members).indented))
    (textual : (Json.obj members).isTextual = true) (distinct : (Json.obj members).isDistinct = true)
    (shallow : (Json.obj members).nesting ≤ Json.nestingLimit)
    (lines : '\r' ∉ (Json.obj members).writeIndented 0) :
    HoldsTable tree directory name members := by
  refine ⟨named, _, read, ?_⟩
  have hchars : (Json.obj members).indented.toList = (Json.obj members).writeIndented 0 := by
    rw [Json.indented, String.toList_ofList]
  have hread : Json.readDocument ((Json.obj members).writeIndented 0 ++ []) = .ok (.obj members) :=
    Json.readDocument_writeIndented textual distinct shallow rfl
  obtain ⟨c, d, cs, heq, hascii, -⟩ := Json.writeIndented_eq_cons_cons textual 0
  rw [Json.readFile, Text.decode_encode]
  dsimp only
  rw [hchars, uniformLines_eq_self lines, Json.read, String.toList_ofList]
  split
  · next hmark =>
    rw [heq] at hmark
    obtain ⟨rfl, -⟩ := List.cons_eq_cons.mp hmark
    exact absurd hascii (by decide)
  · rw [Json.readDecoded, String.toList_ofList, ← List.append_nil ((Json.obj members).writeIndented 0),
      hread]
    rfl

/-- The files of a plan: what each of them holds. -/
def planFiles : List (String × List (String × Json)) :=
  [("plan.json", [("include", .arr [.str "common.json", .str "local.json"]),
      ("root", .str "plan"), ("flags", .arr [.str "id"])]),
    ("common.json", [("flags", .arr [.str "uuid", .str "id"]),
      ("groups", .obj [("roles", .str "role")])]),
    ("local.json", [("groups", .obj [("roles", .str "part"), ("tasks", .str "task")]),
      ("flags", .arr [.str "href"])])]

def planTree : FileTree :=
  ⟨(["a"], .directory) :: planFiles.map fun entry =>
    (["a", entry.1], .file (Text.encode (Json.obj entry.2).indented))⟩

theorem holdsTable_planTree : ∀ entry ∈ planFiles,
    HoldsTable planTree (.ofString "a") entry.1 entry.2 := by
  intro entry hentry
  have hread : ∀ entry ∈ planFiles, (planTree.read ((Path.ofString "a").join entry.1)).toOption =
      some (Text.encode (Json.obj entry.2).indented) := by decide +kernel
  have hnamed : ∀ entry ∈ planFiles, '\x00' ∉ ((Path.ofString "a").join entry.1).text.toList := by
    decide +kernel
  have htextual : ∀ entry ∈ planFiles, (Json.obj entry.2).isTextual = true := by decide +kernel
  have hdistinct : ∀ entry ∈ planFiles, (Json.obj entry.2).isDistinct = true := by decide +kernel
  have hshallow : ∀ entry ∈ planFiles, (Json.obj entry.2).nesting ≤ Json.nestingLimit := by
    decide +kernel
  have hlines : ∀ entry ∈ planFiles, '\r' ∉ (Json.obj entry.2).writeIndented 0 := by
    decide +kernel
  exact .of_written (hnamed entry hentry) (eq_ok_of_toOption (hread entry hentry))
    (htextual entry hentry) (hdistinct entry hentry) (hshallow entry hentry) (hlines entry hentry)

def planNames : Set String := {name | name ∈ planFiles.map (·.1)}

/-- The file that includes the others comes above them. -/
def planRank (name : String) : Nat := if name = "plan.json" then 1 else 0

theorem alike_planFiles : ∀ entry ∈ planFiles, ∀ other ∈ planFiles,
    Json.Alike (.obj (ownMembers entry.2)) (.obj (ownMembers other.2)) := by
  have hall : ∀ entry ∈ planFiles, ∀ other ∈ planFiles,
      Json.isAlike (.obj (ownMembers entry.2)) (.obj (ownMembers other.2)) = true := by
    decide +kernel
  exact fun entry hentry other hother => Json.alike_of_isAlike (hall entry hentry other hother)

theorem artifactSet_planTree : ArtifactSet planTree (.ofString "a") planNames planRank where
  file name hname := by
    obtain ⟨entry, hentry, rfl⟩ := List.mem_map.mp hname
    have holds := holdsTable_planTree entry hentry
    simp only [planFiles, List.mem_cons, List.not_mem_nil, or_false] at hentry
    rcases hentry with rfl | rfl | rfl
    · refine ⟨_, ["common.json", "local.json"], holds, rfl, ?_⟩
      simp [planNames, planFiles, planRank]
    · exact ⟨_, [], holds, rfl, nofun⟩
    · exact ⟨_, [], holds, rfl, nofun⟩
  alike name hname other hother members members' holds holds' := by
    obtain ⟨entry, hentry, rfl⟩ := List.mem_map.mp hname
    obtain ⟨entry', hentry', rfl⟩ := List.mem_map.mp hother
    cases holds.unique (holdsTable_planTree entry hentry)
    cases holds'.unique (holdsTable_planTree entry' hentry')
    exact alike_planFiles entry hentry entry' hentry'

/-- **The plan is loaded with what both files add to it,** and where these differ the first one
counts. -/
theorem includes_spec_plan : ∃ table,
    loadMembers planTree (.ofString "a") inclusionDepth "plan.json" = .ok table ∧
      ∀ rules, ConversionRules.ofMembers table = .ok rules →
        rules.root = .str "plan" ∧ "uuid" ∈ rules.flags ∧ "href" ∈ rules.flags ∧
          rules.groups.member? "roles" = some (.str "role") ∧
          rules.groups.member? "tasks" = some (.str "task") := by
  have hname : "plan.json" ∈ planNames := by simp [planNames, planFiles]
  obtain ⟨-, -, hload⟩ := includes_spec artifactSet_planTree
  obtain ⟨tables, htables, hbound⟩ := hload "plan.json" hname
  obtain ⟨table, hload, -, hkeeps⟩ := (hbound inclusionDepth).resolve_right
    fun hdeep => absurd hdeep.1 (by decide)
  -- the tables are those of the three files, in their order
  have hplan : TablesWithin planTree (.ofString "a") 2 "plan.json"
      (planFiles.map fun entry => ownMembers entry.2) :=
    have holds := List.forall_mem_cons.mp holdsTable_planTree
    have holds' := List.forall_mem_cons.mp holds.2
    have holds'' := List.forall_mem_cons.mp holds'.2
    ⟨_, ["common.json", "local.json"], [[_], [_]], holds.1, rfl,
      .cons ⟨_, [], [], holds'.1, rfl, .nil, rfl⟩
        (.cons ⟨_, [], [], holds''.1, rfl, .nil, rfl⟩ .nil), rfl⟩
  cases htables.unique hplan
  refine ⟨table, hload, fun rules hrules => ?_⟩
  have hkept := hkeeps rules hrules
  have hflags : valuesAt (planFiles.map fun entry => ownMembers entry.2) ["flags"] =
      [.arr [.str "id"], .arr [.str "uuid", .str "id"], .arr [.str "href"]] := rfl
  have hflag (items : List Json) {name : String}
      (hitems : .arr items ∈ [Json.arr [.str "id"], .arr [.str "uuid", .str "id"],
        .arr [.str "href"]]) (listed : .str name ∈ items) : name ∈ rules.flags :=
    hkept.flag (hflags ▸ hitems) listed
  refine ⟨hkept.root rfl rfl, hflag [.str "uuid", .str "id"] (by simp) (by simp),
    hflag [.str "href"] (by simp) (by simp), hkept.group rfl rfl, hkept.group rfl rfl⟩

end OscalValidation

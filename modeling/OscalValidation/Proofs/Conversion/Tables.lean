import OscalValidation.Proofs.Attempts
import OscalValidation.Session.Basic

set_option autoImplicit false

/-! # Loading converters from files

The files of a converter can be missing, be no documents, or hold a schema that is none: such a
fault is told as that of a conversion, and whoever starts a session reports it. Any other defect is
not told so. `Converter.Fit` says what the files must be like for a converter to be loaded or
refused in this way, file by file and in the order in which they are looked at. Main statement:
nothing less will do, neither for one converter nor for the registry of all four nor for a session
(`Registry.loads_report_iff`).
-/

namespace OscalValidation

/-! ## Attempts that report -/

section Reports

variable {α β : Type}

/-- **The attempt succeeds, or its fault is told** as that of a conversion. -/
def Reports (attempt : Except ArtifactFault α) : Prop :=
  (∃ a, attempt = .ok a) ∨ ∃ fault message, attempt = .error fault ∧ fault.message? = some message

theorem reports_ok (a : α) : Reports (.ok a) := Or.inl ⟨a, rfl⟩

theorem reports_pure (a : α) : Reports (pure a) := reports_ok a

theorem reports_error_iff {fault : ArtifactFault} :
    Reports (.error fault : Except ArtifactFault α) ↔ fault.message?.isSome = true := by
  rw [Option.isSome_iff_exists]
  constructor
  · rintro (⟨a, h⟩ | ⟨fault, message, h, hmessage⟩)
    · cases h
    · cases h
      exact ⟨message, hmessage⟩
  · rintro ⟨message, hmessage⟩
    exact Or.inr ⟨fault, message, rfl, hmessage⟩

/-- Two attempts in a row report exactly if the first does, and the second where it is made. -/
theorem reports_bind_iff {x : Except ArtifactFault α} {f : α → Except ArtifactFault β} :
    Reports (x >>= f) ↔ Reports x ∧ ∀ a, x = .ok a → Reports (f a) := by
  cases x with
  | error fault =>
      have hbind : ((.error fault : Except ArtifactFault α) >>= f) = .error fault := rfl
      rw [hbind, reports_error_iff, reports_error_iff]
      exact ⟨fun h => ⟨h, fun a ha => by cases ha⟩, And.left⟩
  | ok a =>
      have hbind : ((.ok a : Except ArtifactFault α) >>= f) = f a := rfl
      rw [hbind]
      constructor
      · intro h
        refine ⟨reports_ok a, fun b hb => ?_⟩
        cases hb
        exact h
      · exact fun h => h.2 a rfl

/-- What is made of a result does not count. -/
theorem reports_bind_pure_iff {x : Except ArtifactFault α} {f : α → β} :
    Reports (x >>= fun a => pure (f a)) ↔ Reports x :=
  reports_bind_iff.trans (and_iff_left fun a _ => reports_pure (f a))

/-- No fault of the attempt is told. -/
def Untold (attempt : Except ArtifactFault α) : Prop :=
  ∀ fault, attempt = .error fault → fault.message? = none

theorem Untold.bind {x : Except ArtifactFault α} {f : α → Except ArtifactFault β}
    (hx : Untold x) (hf : ∀ a, Untold (f a)) : Untold (x >>= f) := by
  cases x with
  | error fault =>
      intro fault' h
      cases h
      exact hx fault rfl
  | ok a => exact hf a

theorem Untold.mapM {f : α → Except ArtifactFault β} (h : ∀ x, Untold (f x)) (xs : List α) :
    Untold (xs.mapM f) := by
  intro fault hfault
  obtain ⟨x, -, hx⟩ := exists_of_mapM_error hfault
  exact h x fault hx

/-- An attempt without told faults reports exactly if it succeeds. -/
theorem Untold.reports_iff {x : Except ArtifactFault α} (h : Untold x) :
    Reports x ↔ ∃ a, x = .ok a := by
  refine ⟨fun hreports => ?_, Or.inl⟩
  rcases hreports with hok | ⟨fault, message, hfault, hmessage⟩
  · exact hok
  · rw [h fault hfault] at hmessage
    cases hmessage

/-- After an attempt without told faults, a second one whose result does not matter. -/
theorem Untold.reports_bind_iff {x : Except ArtifactFault α} {f : α → Except ArtifactFault β}
    (hx : Untold x) {reports : Prop} (hf : ∀ a, Reports (f a) ↔ reports) :
    Reports (x >>= f) ↔ Reports x ∧ reports := by
  rw [OscalValidation.reports_bind_iff]
  refine and_congr_right fun hreports => ?_
  obtain ⟨a, ha⟩ := hx.reports_iff.mp hreports
  exact ⟨fun h => (hf a).mp (h a ha), fun h a' _ => (hf a').mpr h⟩

/-- Attempts without told faults, one for each entry of a list, report exactly if each does. -/
theorem reports_mapM_iff {f : α → Except ArtifactFault β} (h : ∀ x, Untold (f x)) (xs : List α) :
    Reports (xs.mapM f) ↔ ∀ x ∈ xs, Reports (f x) := by
  induction xs with
  | nil => exact iff_of_true (reports_pure []) nofun
  | cons x rest ih =>
      rw [List.mapM_cons, List.forall_mem_cons, ← ih]
      exact (h x).reports_bind_iff fun y => reports_bind_pure_iff

/-- **The entries of a list are fit in order,** up to the first that does not succeed: what comes
after it does not count. -/
def FitInOrder (succeeds fit : α → Prop) : List α → Prop
  | [] => True
  | x :: rest => fit x ∧ (succeeds x → FitInOrder succeeds fit rest)

/-- **Attempts in a row that carry a result along,** where it does not depend on that result
whether one succeeds or reports, report exactly if each does up to the first that fails. -/
theorem reports_foldlM_iff {f : β → α → Except ArtifactFault β} {succeeds fit : α → Prop}
    (hsucceeds : ∀ b a, (∃ b', f b a = .ok b') ↔ succeeds a)
    (hfit : ∀ b a, Reports (f b a) ↔ fit a) (xs : List α) (b : β) :
    Reports (xs.foldlM f b) ↔ FitInOrder succeeds fit xs := by
  induction xs generalizing b with
  | nil => exact iff_of_true (reports_pure b) trivial
  | cons x rest ih =>
      rw [List.foldlM_cons, reports_bind_iff, hfit, FitInOrder, ← hsucceeds b x]
      refine and_congr_right fun _ => ?_
      constructor
      · rintro h ⟨b', hb'⟩
        exact (ih b').mp (h b' hb')
      · exact fun h b' hb' => (ih b').mpr (h ⟨b', hb'⟩)

end Reports

/-! ## Files -/

/-- **A file holds a value.** -/
def HoldsValue (tree : FileTree) (path : Path) (value : Json) : Prop :=
  ∃ bytes, tree.read path = .ok bytes ∧ Json.readFile bytes = .ok value

/-- **The file can be looked into:** its name can be one, and if it is there it is text in UTF-8,
in which no integer is too long and nothing is nested too deep. -/
structure FileFit (tree : FileTree) (path : Path) : Prop where
  /-- No null character is in its name. -/
  named : '\x00' ∉ path.text.toList
  decoded {bytes : Text.Bytes} (read : tree.read path = .ok bytes) :
    ∃ text, Text.decode .utf8 false bytes = .ok text
  /-- It does not go beyond what can be read. -/
  bounded {bytes : Text.Bytes} (read : tree.read path = .ok bytes) {e : Json.ReadError}
    (failed : Json.readFile bytes = .error (.read e)) : e.isExcess = false

/-- Bytes fail to be decoded exactly if they are no text in UTF-8. -/
theorem Json.exists_readFile_eq_decode_iff {bytes : Text.Bytes} :
    (∃ e, Json.readFile bytes = .error (.decode e)) ↔
      ¬ ∃ text, Text.decode .utf8 false bytes = .ok text := by
  unfold Json.readFile
  cases Text.decode .utf8 false bytes with
  | error e => simp
  | ok text =>
      dsimp only
      cases Json.read (String.ofList (Text.uniformLines text.toList)) <;> simp [Except.mapError]

section File

variable {tree : FileTree} {path : Path} {fault : Path → String → ArtifactFault}

/-- A file that is not there need only have a name. -/
theorem FileFit.of_missing {e : FileFault} (hread : tree.read path = .error e)
    (named : '\x00' ∉ path.text.toList) : FileFit tree path := by
  refine ⟨named, fun read => ?_, fun read => ?_⟩
  · rw [hread] at read
    cases read
  · rw [hread] at read
    cases read

/-- Whether a file that is there can be looked into is seen from how it is read. -/
theorem fileFit_iff_of_read {bytes : Text.Bytes} (hread : tree.read path = .ok bytes)
    (named : '\x00' ∉ path.text.toList) :
    FileFit tree path ↔ (∀ e, Json.readFile bytes ≠ .error (.decode e)) ∧
      ∀ e, Json.readFile bytes = .error (.read e) → e.isExcess = false := by
  have hdecoded : (∃ text, Text.decode .utf8 false bytes = .ok text) ↔
      ∀ e, Json.readFile bytes ≠ .error (.decode e) := by
    rw [← not_iff_not, ← Json.exists_readFile_eq_decode_iff]
    simp
  rw [← hdecoded]
  constructor
  · exact fun fit => ⟨fit.decoded hread, fun _ => fit.bounded hread⟩
  · rintro ⟨decoded, bounded⟩
    refine ⟨named, fun read => ?_, fun read _ => ?_⟩
    · rw [hread] at read
      cases read
      exact decoded
    · rw [hread] at read
      cases read
      exact bounded _

theorem readJsonFile_eq_ok_iff {value : Json} :
    readJsonFile tree path fault = .ok value ↔
      '\x00' ∉ path.text.toList ∧ HoldsValue tree path value := by
  unfold readJsonFile HoldsValue
  split
  · next h => simp_all
  · next h =>
    cases tree.read path with
    | error e => simp
    | ok bytes =>
        simp only [Except.ok.injEq, exists_eq_left']
        split <;> simp_all

/-- **Looking into a file reports exactly if the file can be looked into,** whatever a file that is
missing or holds no value is told as. -/
theorem reports_readJsonFile_iff
    (told : ∀ path reason, (fault path reason).message?.isSome = true) :
    Reports (readJsonFile tree path fault) ↔ FileFit tree path := by
  unfold readJsonFile
  split
  · next h =>
    rw [reports_error_iff]
    exact iff_of_false (by simp [ArtifactFault.message?, ArtifactFault.heading?])
      fun fit => fit.named (by simpa using h)
  · next h =>
    have named : '\x00' ∉ path.text.toList := by simpa using h
    cases hread : tree.read path with
    | error e => exact iff_of_true (reports_error_iff.mpr (told _ _)) (.of_missing hread named)
    | ok bytes =>
        rw [fileFit_iff_of_read hread named]
        dsimp only
        split
        · next hvalue => simp [hvalue, reports_ok]
        · next hdecode =>
          simp [hdecode, reports_error_iff, ArtifactFault.message?, ArtifactFault.heading?]
        · next e hfailed =>
          cases hexcess : e.isExcess with
          | true =>
              simp [hfailed, hexcess, reports_error_iff, ArtifactFault.message?,
                ArtifactFault.heading?]
          | false => simp [hfailed, hexcess, reports_error_iff, told]

end File

/-! ## The entries of a table -/

/-- **The entry lists names:** an array of scalars does, and so do an object and a text. -/
inductive ListsNames : Json → Prop
  /-- The items of an array can be names. -/
  | array {items : List Json} (noArray : ∀ item ∈ items, ∀ inner, item ≠ .arr inner)
      (noObject : ∀ item ∈ items, ∀ members, item ≠ .obj members) : ListsNames (.arr items)
  | object (members : List (String × Json)) : ListsNames (.obj members)
  /-- The characters of a text are listed. -/
  | text (content : String) : ListsNames (.str content)

theorem untold_listedItems (value : Json) : Untold (listedItems value) := by
  intro fault h
  unfold listedItems at h
  split at h <;> cases h
  rfl

/-- An item of a list, which must be one that can be a name. -/
def nameOfItem (item : Json) : Except ArtifactFault Json :=
  match item with
  | .arr _ | .obj _ => throw (.notAName item)
  | item => pure item

theorem untold_nameOfItem (item : Json) : Untold (nameOfItem item) := by
  intro fault h
  unfold nameOfItem at h
  split at h <;> cases h <;> rfl

theorem reports_nameOfItem_iff {item : Json} :
    Reports (nameOfItem item) ↔
      (∀ inner, item ≠ .arr inner) ∧ ∀ members, item ≠ .obj members := by
  rw [(untold_nameOfItem item).reports_iff]
  unfold nameOfItem
  cases item <;> simp [throw, throwThe, MonadExceptOf.throw, pure, Except.pure]

theorem listedValues_eq (value : Json) :
    listedValues value = listedItems value >>= fun items => items.mapM nameOfItem :=
  rfl

theorem untold_listedValues (value : Json) : Untold (listedValues value) := by
  rw [listedValues_eq]
  exact (untold_listedItems value).bind fun items => Untold.mapM untold_nameOfItem items

theorem untold_listedNames (value : Json) : Untold (listedNames value) := by
  refine (untold_listedValues value).bind ?_
  intro names fault h
  cases h

theorem reports_listedValues_iff {value : Json} :
    Reports (listedValues value) ↔ ListsNames value := by
  have hitems (items : List Json) :
      Reports (items.mapM nameOfItem) ↔ ∀ item ∈ items, Reports (nameOfItem item) :=
    reports_mapM_iff untold_nameOfItem items
  simp only [listedValues_eq, reports_bind_iff, hitems, reports_nameOfItem_iff]
  -- names of members and characters are texts, so nothing can be wrong with them
  have htexts {items : List Json} (h : ∀ item ∈ items, ∃ text, item = .str text) :
      ∀ item ∈ items, (∀ inner, item ≠ .arr inner) ∧ ∀ members, item ≠ .obj members := by
    intro item hitem
    obtain ⟨text, rfl⟩ := h item hitem
    exact ⟨nofun, nofun⟩
  cases value with
  | arr items =>
      constructor
      · rintro ⟨-, h⟩
        exact .array (fun item hitem => (h items rfl item hitem).1)
          fun item hitem => (h items rfl item hitem).2
      · rintro (⟨noArray, noObject⟩)
        refine ⟨reports_ok items, fun listed h => ?_⟩
        cases h
        exact fun item hitem => ⟨noArray item hitem, noObject item hitem⟩
  | obj members =>
      refine iff_of_true ⟨reports_ok _, fun listed h => ?_⟩ (.object members)
      cases h
      refine htexts fun item hitem => ?_
      obtain ⟨member, -, rfl⟩ := List.mem_map.mp hitem
      exact ⟨member.1, rfl⟩
  | str content =>
      refine iff_of_true ⟨reports_ok _, fun listed h => ?_⟩ (.text content)
      cases h
      refine htexts fun item hitem => ?_
      obtain ⟨c, -, rfl⟩ := List.mem_map.mp hitem
      exact ⟨String.singleton c, rfl⟩
  | _ =>
      refine iff_of_false (fun h => ?_) nofun
      cases reports_error_iff.mp h.1

theorem reports_listedNames_iff {value : Json} :
    Reports (listedNames value) ↔ ListsNames value :=
  reports_bind_pure_iff.trans reports_listedValues_iff

/-- The entry of a table, or what counts where it is absent. -/
def entryOr (members : List (String × Json)) (name : String) (absent : Json) : Json :=
  (members.lookup name).getD absent

/-- **The entries of a table have the forms that are asked of them.** The root and the entries for
groups and values may be of any form. -/
structure HasForm (members : List (String × Json)) : Prop where
  root : ∃ root, members.lookup "root" = some root
  flags : ListsNames (entryOr members "flags" (.arr []))
  /-- Further flags are listed for each element. -/
  elementFlags : ∃ byElement, entryOr members "element-flags" (.obj []) = .obj byElement ∧
    ∀ entry ∈ byElement, ListsNames entry.2
  /-- The fields of prose are listed. -/
  prose : ListsNames (entryOr members "markup-multiline" (.arr []))

theorem untold_entriesOf (value : Json) : Untold (entriesOf value) := by
  intro fault h
  unfold entriesOf at h
  split at h <;> cases h
  rfl

def elementFlagsOf (entry : String × Json) : Except ArtifactFault (String × List String) :=
  listedNames entry.2 >>= fun names => pure (entry.1, names)

theorem untold_elementFlagsOf (entry : String × Json) : Untold (elementFlagsOf entry) := by
  refine (untold_listedNames entry.2).bind fun names fault h => ?_
  cases h

theorem reports_elementFlagsOf_iff {entry : String × Json} :
    Reports (elementFlagsOf entry) ↔ ListsNames entry.2 :=
  reports_bind_pure_iff.trans reports_listedNames_iff

/-- The flags of all elements are read if an object lists them. -/
theorem reports_elementFlags_iff (value : Json) {reports : Prop} {β : Type}
    {f : List (String × List String) → Except ArtifactFault β}
    (hf : ∀ elementFlags, Reports (f elementFlags) ↔ reports) :
    Reports (entriesOf value >>= fun byElement => byElement.mapM elementFlagsOf >>= f) ↔
      (∃ byElement, value = .obj byElement ∧ ∀ entry ∈ byElement, ListsNames entry.2) ∧
        reports := by
  have hentries (byElement : List (String × Json)) :
      Reports (byElement.mapM elementFlagsOf >>= f) ↔
        (∀ entry ∈ byElement, ListsNames entry.2) ∧ reports := by
    rw [(Untold.mapM untold_elementFlagsOf byElement).reports_bind_iff hf,
      reports_mapM_iff untold_elementFlagsOf]
    simp only [reports_elementFlagsOf_iff]
  rw [reports_bind_iff]
  simp only [hentries]
  cases value with
  | obj byElement => simp [entriesOf, reports_ok]
  | _ =>
      refine iff_of_false (fun h => ?_) (by simp)
      cases reports_error_iff.mp h.1

/-- **The table that members describe is read exactly if they have the form of one.** -/
theorem reports_ofMembers_iff {members : List (String × Json)} :
    Reports (ConversionRules.ofMembers members) ↔ HasForm members := by
  unfold ConversionRules.ofMembers
  cases hroot : members.lookup "root" with
  | none =>
      refine iff_of_false (fun h => ?_) fun form => ?_
      · cases reports_error_iff.mp h
      · obtain ⟨root, h⟩ := form.root
        rw [hroot] at h
        cases h
  | some root =>
      have hprose {β : Type} (f : List Json → β) (value : Json) :
          Reports (listedValues value >>= fun prose => pure (f prose)) ↔ ListsNames value :=
        reports_bind_pure_iff.trans reports_listedValues_iff
      have hrest := (untold_listedNames (entryOr members "flags" (.arr []))).reports_bind_iff
        fun flags => reports_elementFlags_iff (entryOr members "element-flags" (.obj []))
          fun elementFlags => hprose (ConversionRules.mk root flags elementFlags
            (entryOr members "groups" (.obj [])) (entryOr members "values" (.obj [])))
            (entryOr members "markup-multiline" (.arr []))
      rw [reports_listedNames_iff] at hrest
      refine hrest.trans ?_
      exact ⟨fun ⟨flags, elementFlags, prose⟩ => ⟨⟨root, hroot⟩, flags, elementFlags, prose⟩,
        fun form => ⟨form.flags, form.elementFlags, form.prose⟩⟩

/-! ## Tables with what they include -/

section Load

variable (tree : FileTree) (directory : Path)

/-- The item names a file of a table that can be loaded. -/
def LoadsItem (bound : Nat) (item : Json) : Prop :=
  ∃ file members, item = .str file ∧ loadMembers tree directory bound file = .ok members

/-- **The table in a file can be loaded, or is refused as it should be,** with inclusions no deeper
than the bound. What it includes need only be fit as far as it is loaded. -/
def TableFit : Nat → String → Prop
  | 0, _ => False
  | bound + 1, name =>
      FileFit tree (directory.join name) ∧
        ∀ value, HoldsValue tree (directory.join name) value →
          ∃ members items, value = .obj members ∧
            listedItems (entryOr members "include" (.arr [])) = .ok items ∧
            FitInOrder (LoadsItem tree directory bound)
              (fun item => ∃ file, item = .str file ∧ TableFit bound file) items

/-- A table over that of a file that it includes. -/
def includeItem (bound : Nat) (table : List (String × Json)) (item : Json) :
    Except ArtifactFault (List (String × Json)) :=
  match item with
  | .str file => do return Json.merge (← loadMembers tree directory bound file) table
  | item => throw (.notAFileName item)

variable {tree directory}

theorem exists_includeItem_iff {bound : Nat} {table : List (String × Json)} {item : Json} :
    (∃ table', includeItem tree directory bound table item = .ok table') ↔
      LoadsItem tree directory bound item := by
  unfold LoadsItem
  cases item with
  | str file =>
      constructor
      · rintro ⟨table', h⟩
        obtain ⟨members, hmembers, -⟩ := bind_eq_ok_iff.mp h
        exact ⟨file, members, rfl, hmembers⟩
      · rintro ⟨_, members, ⟨⟩, hmembers⟩
        exact ⟨_, bind_eq_ok_iff.mpr ⟨members, hmembers, rfl⟩⟩
  | _ =>
      constructor
      · rintro ⟨table', h⟩
        cases h
      · rintro ⟨_, _, h, -⟩
        cases h

theorem reports_includeItem_iff {bound : Nat} {table : List (String × Json)} {item : Json} :
    Reports (includeItem tree directory bound table item) ↔
      ∃ file, item = .str file ∧ Reports (loadMembers tree directory bound file) := by
  cases item with
  | str file =>
      have hload : Reports (includeItem tree directory bound table (.str file)) ↔
          Reports (loadMembers tree directory bound file) := reports_bind_pure_iff
      simpa using hload
  | _ =>
      refine iff_of_false (fun h => ?_) (by simp)
      cases reports_error_iff.mp h

/-- A file of a table that holds members is loaded together with what they include. -/
theorem loadMembers_succ (bound : Nat) (name : String) :
    loadMembers tree directory (bound + 1) name =
      readJsonFile tree (directory.join name) .unreadable >>= fun value =>
        match value with
        | .obj members => listedItems (entryOr members "include" (.arr [])) >>= fun items =>
            items.foldlM (includeItem tree directory bound)
              (members.filter fun member => member.1 != "include")
        | value => throw (.notAnObject value) :=
  rfl

/-- **A table is loaded or refused as it should be exactly if its files are fit,** by induction on
how deep inclusions may go. -/
theorem reports_loadMembers_iff {bound : Nat} {name : String} :
    Reports (loadMembers tree directory bound name) ↔ TableFit tree directory bound name := by
  induction bound generalizing name with
  | zero =>
      refine iff_of_false (fun h => ?_) id
      cases reports_error_iff.mp h
  | succ bound ih =>
      rw [loadMembers_succ, reports_bind_iff, reports_readJsonFile_iff fun _ _ => rfl, TableFit]
      refine and_congr_right fun fit => forall_congr' fun value => ?_
      rw [readJsonFile_eq_ok_iff, and_iff_right fit.named]
      refine imp_congr_right fun _ => ?_
      cases value with
      | obj members =>
          dsimp only
          have hfit (table : List (String × Json)) (item : Json) :
              Reports (includeItem tree directory bound table item) ↔
                ∃ file, item = .str file ∧ TableFit tree directory bound file := by
            simp only [reports_includeItem_iff, ih]
          have hsucceeds (table : List (String × Json)) (item : Json) :
              (∃ table', includeItem tree directory bound table item = .ok table') ↔
                LoadsItem tree directory bound item := exists_includeItem_iff
          have hfold (items : List Json) := reports_foldlM_iff hsucceeds hfit items
            (members.filter fun member => member.1 != "include")
          rw [reports_bind_iff, (untold_listedItems _).reports_iff]
          constructor
          · rintro ⟨⟨items, hitems⟩, h⟩
            exact ⟨members, items, rfl, hitems, (hfold items).mp (h items hitems)⟩
          · rintro ⟨_, items, ⟨⟩, hitems, h⟩
            refine ⟨⟨items, hitems⟩, fun items' hitems' => ?_⟩
            rw [hitems] at hitems'
            cases hitems'
            exact (hfold items).mpr h
      | _ =>
          refine iff_of_false (fun h => ?_) (by simp)
          cases reports_error_iff.mp h

end Load

/-! ## Converters -/

/-- **The file of a schema can be looked into,** and checking the schema in it raises nothing. -/
structure SchemaFit (library : SchemaLibrary) (tree : FileTree) (path : Path) : Prop where
  file : FileFit tree path
  checked {value : Json} (holds : HoldsValue tree path value) : library.raises value = none

/-- **The files of a converter are fit:** whatever is missing or malformed in them, the converter
is loaded or refused as it should be. -/
structure Converter.Fit (library : SchemaLibrary) (tree : FileTree) (directory : Path)
    (type : DocumentType) : Prop where
  /-- The files of its table are. -/
  table : TableFit tree directory inclusionDepth type.conversionArtifact
  /-- The table has the form of one. -/
  form {members : List (String × Json)}
    (loaded : loadMembers tree directory inclusionDepth type.conversionArtifact = .ok members) :
    HasForm members
  /-- It names a file for the schema. -/
  schema {members : List (String × Json)}
    (loaded : loadMembers tree directory inclusionDepth type.conversionArtifact = .ok members) :
    ∃ name, members.lookup "schema" = some (.str name) ∧
      SchemaFit library tree (directory.join name)

section Converter

variable {library : SchemaLibrary} {tree : FileTree} {directory : Path}

theorem reports_loadSchema_iff {path : Path} :
    Reports (loadSchema library tree path) ↔ SchemaFit library tree path := by
  unfold loadSchema
  rw [reports_bind_iff, reports_readJsonFile_iff fun _ _ => rfl]
  simp only [readJsonFile_eq_ok_iff]
  constructor
  · rintro ⟨file, h⟩
    refine ⟨file, fun {value} holds => ?_⟩
    have hreports := h value ⟨file.named, holds⟩
    cases hraises : library.raises value with
    | none => rfl
    | some name =>
        rw [hraises] at hreports
        cases reports_error_iff.mp hreports
  · intro fit
    refine ⟨fit.file, fun value h => ?_⟩
    rw [fit.checked h.2]
    cases SchemaDocument.ofJson? library value with
    | some schema => exact reports_pure schema
    | none => exact reports_error_iff.mpr rfl

/-- The schema that a table names. -/
def schemaOf (library : SchemaLibrary) (tree : FileTree) (directory : Path)
    (rules : ConversionRules) (members : List (String × Json)) : Except ArtifactFault Converter :=
  match members.lookup "schema" with
  | none => throw (.missing "schema")
  | some (.str name) => do
      let path := directory.join name
      return ⟨rules, path.name, ← loadSchema library tree path⟩
  | some value => throw (.notAFileName value)

theorem Converter.load_eq (type : DocumentType) :
    Converter.load library tree directory type =
      loadMembers tree directory inclusionDepth type.conversionArtifact >>= fun members =>
        ConversionRules.ofMembers members >>= fun rules => schemaOf library tree directory rules members :=
  rfl

theorem untold_ofMembers (members : List (String × Json)) :
    Untold (ConversionRules.ofMembers members) := by
  have hpure {α : Type} (a : α) : Untold (pure a) := fun fault h => by cases h
  unfold ConversionRules.ofMembers
  cases members.lookup "root" with
  | none =>
      intro fault h
      cases h
      rfl
  | some root =>
      exact (untold_listedNames _).bind fun flags => (untold_entriesOf _).bind fun byElement =>
        (Untold.mapM untold_elementFlagsOf byElement).bind fun elementFlags =>
          (untold_listedValues _).bind fun prose => hpure _

theorem reports_schemaOf_iff {rules : ConversionRules} {members : List (String × Json)} :
    Reports (schemaOf library tree directory rules members) ↔
      ∃ name, members.lookup "schema" = some (.str name) ∧
        SchemaFit library tree (directory.join name) := by
  unfold schemaOf
  split
  · next h =>
    refine iff_of_false (fun hreports => ?_) (by simp [h])
    cases reports_error_iff.mp hreports
  · next name h =>
    have hload : Reports (loadSchema library tree (directory.join name) >>= fun schema =>
        pure (Converter.mk rules (directory.join name).name schema)) ↔
          SchemaFit library tree (directory.join name) :=
      reports_bind_pure_iff.trans reports_loadSchema_iff
    simpa [h] using hload
  · next value hvalue h =>
    refine iff_of_false (fun hreports => ?_) fun ⟨name, hname, _⟩ => ?_
    · cases reports_error_iff.mp hreports
    · rw [h] at hname
      exact hvalue name (Option.some.inj hname)

/-- **A converter is loaded or refused as it should be exactly if its files are fit.** -/
theorem Converter.reports_load_iff {type : DocumentType} :
    Reports (Converter.load library tree directory type) ↔ Converter.Fit library tree directory type := by
  rw [Converter.load_eq, reports_bind_iff, reports_loadMembers_iff]
  have hrest (members : List (String × Json)) :
      Reports (ConversionRules.ofMembers members >>= fun rules =>
        schemaOf library tree directory rules members) ↔ HasForm members ∧
          ∃ name, members.lookup "schema" = some (.str name) ∧
            SchemaFit library tree (directory.join name) := by
    rw [(untold_ofMembers members).reports_bind_iff fun _ => reports_schemaOf_iff,
      reports_ofMembers_iff]
  simp only [hrest]
  exact ⟨fun ⟨table, h⟩ => ⟨table, fun loaded => (h _ loaded).1, fun loaded => (h _ loaded).2⟩,
    fun fit => ⟨fit.table, fun _ loaded => ⟨fit.form loaded, fit.schema loaded⟩⟩⟩

end Converter

/-! ## Registries and sessions -/

/-- **The files of a registry are fit:** those of the converters are, in the order of their types
up to the first that is refused. -/
def Registry.Fit (library : SchemaLibrary) (tree : FileTree) (directory : Path) : Prop :=
  FitInOrder (fun type => ∃ converter, Converter.load library tree directory type = .ok converter)
    (Converter.Fit library tree directory) DocumentType.all

/-- The first converter, and the others where it is loaded. -/
theorem reports_load_bind_iff {library : SchemaLibrary} {tree : FileTree} {directory : Path} {type : DocumentType}
    {β : Type} {f : Converter → Except ArtifactFault β} {types : List DocumentType}
    (hf : ∀ converter, Reports (f converter) ↔
      FitInOrder (fun type => ∃ converter, Converter.load library tree directory type = .ok converter)
        (Converter.Fit library tree directory) types) :
    Reports (Converter.load library tree directory type >>= f) ↔
      FitInOrder (fun type => ∃ converter, Converter.load library tree directory type = .ok converter)
        (Converter.Fit library tree directory) (type :: types) := by
  rw [reports_bind_iff, Converter.reports_load_iff, FitInOrder]
  refine and_congr_right fun _ => ?_
  simp only [hf, forall_exists_index]

theorem Registry.reports_load_iff {library : SchemaLibrary} {tree : FileTree} {directory : Path} :
    Reports (Registry.load library tree directory) ↔ Registry.Fit library tree directory :=
  reports_load_bind_iff fun _ => reports_load_bind_iff fun _ => reports_load_bind_iff fun _ =>
    reports_load_bind_iff fun _ => iff_of_true (reports_pure _) trivial

end OscalValidation

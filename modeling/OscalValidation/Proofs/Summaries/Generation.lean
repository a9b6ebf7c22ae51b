import Mathlib.Tactic.Choose
import OscalValidation.Proofs.Attempts
import OscalValidation.Proofs.Summaries.Outputs
import OscalValidation.Proofs.Text.Decoding

set_option autoImplicit false

/-! # Generating summaries from sources that may be unusable

The sources of a command are read side by side. `Gathering` tells the course of the reads one by
one: whatever the order in which they end, the outcome is the first fault, or the results in the
order of the types (`Gathering.outcome?_ended`). So the catalogs and the assertion views are
written only if the rules of all types can be used, each from the rules of its own type, and
otherwise rules that cannot be used are named and nothing is written (`generateAll_generated`).
-/

namespace OscalValidation

open Text (Bytes)

/-! ## Sources -/

section Source

variable {source : ArtifactSource} {storage : Storage} {name uri localName wanted : String}

/-- **The source under a name holds an element of the name wanted.** -/
inductive Usable (source : ArtifactSource) (storage : Storage) (name uri localName : String) :
    Xml.Element → Prop
  /-- It can be read, it is a document, and its root has the name. -/
  | intro {content : Bytes} {document : Xml.Document}
      (fetched : source.fetch storage name = .ok content)
      (parsed : Xml.readBytes? content = some document)
      (named : document.root.denotes uri localName = true) :
      Usable source storage name uri localName document.root

/-- **The source under a name cannot be used,** for a reason. -/
inductive Unusable (source : ArtifactSource) (storage : Storage)
    (name uri localName wanted : String) : SourceFault → Prop
  | unreadable {fault : FetchFault} (missed : source.fetch storage name = .error fault) :
      Unusable source storage name uri localName wanted (.unreadable fault)
  | malformed {content : Bytes} (fetched : source.fetch storage name = .ok content)
      (broken : Xml.readBytes? content = none) :
      Unusable source storage name uri localName wanted .malformed
  | otherRoot {content : Bytes} {document : Xml.Document}
      (fetched : source.fetch storage name = .ok content)
      (parsed : Xml.readBytes? content = some document)
      (other : document.root.denotes uri localName = false) :
      Unusable source storage name uri localName wanted
        (.otherRoot document.root.tag.name.expanded wanted)

theorem readSource_eq_ok_iff {root : Xml.Element} :
    readSource source storage name uri localName wanted = .ok root ↔
      Usable source storage name uri localName root := by
  constructor
  · intro h
    unfold readSource at h
    dsimp only at h
    split at h
    · cases h
    · next content hfetch =>
      split at h
      · cases h
      · next document hparse =>
        split at h
        · next hroot =>
          cases h
          exact .intro hfetch hparse hroot
        · cases h
  · rintro ⟨hfetch, hparse, hroot⟩
    unfold readSource
    simp only [hfetch, hparse, hroot, if_true]

theorem readSource_eq_error_iff {fault : SummaryFault} :
    readSource source storage name uri localName wanted = .error fault ↔
      ∃ why, Unusable source storage name uri localName wanted why ∧
        fault = .source (source.resolve name) why := by
  constructor
  · intro h
    unfold readSource at h
    dsimp only at h
    split at h
    · next hfetch =>
      cases h
      exact ⟨_, .unreadable hfetch, rfl⟩
    · next content hfetch =>
      split at h
      · next hparse =>
        cases h
        exact ⟨_, .malformed hfetch hparse, rfl⟩
      · next document hparse =>
        split at h
        · cases h
        · next hroot =>
          cases h
          exact ⟨_, .otherRoot hfetch hparse (Bool.eq_false_iff.mpr hroot), rfl⟩
  · rintro ⟨why, hwhy, rfl⟩
    unfold readSource
    cases hwhy with
    | unreadable hfetch => simp only [hfetch]
    | malformed hfetch hparse => simp only [hfetch, hparse]
    | otherRoot hfetch hparse hroot =>
        simp only [hfetch, hparse, hroot, Bool.false_eq_true, if_false]

end Source

/-- The rules of a type can be used. -/
def HasRules (source : ArtifactSource) (storage : Storage) (type : DocumentType)
    (schema : Xml.Element) : Prop :=
  Usable source storage s!"{type.tag}.sch" Schematron.uri "schema" schema

/-- The rules of a type cannot be used, for a reason. -/
def LacksRules (source : ArtifactSource) (storage : Storage) (type : DocumentType)
    (why : SourceFault) : Prop :=
  Unusable source storage s!"{type.tag}.sch" Schematron.uri "schema" "sch:schema" why

/-- The tests of a type can be used. -/
def HasTests (source : ArtifactSource) (storage : Storage) (type : DocumentType)
    (suite : Xml.Element) : Prop :=
  Usable source storage s!"{type.tag}.xspec" Scenario.uri "description" suite

/-- The tests of a type cannot be used, for a reason. -/
def LacksTests (source : ArtifactSource) (storage : Storage) (type : DocumentType)
    (why : SourceFault) : Prop :=
  Unusable source storage s!"{type.tag}.xspec" Scenario.uri "description" "x:description" why

theorem readRules_eq_ok_iff {source : ArtifactSource} {storage : Storage} {type : DocumentType}
    {schema : Xml.Element} :
    readRules source storage type = .ok schema ↔ HasRules source storage type schema :=
  readSource_eq_ok_iff

theorem readRules_eq_error_iff {source : ArtifactSource} {storage : Storage}
    {type : DocumentType} {fault : SummaryFault} :
    readRules source storage type = .error fault ↔
      ∃ why, LacksRules source storage type why ∧
        fault = .source (source.resolve s!"{type.tag}.sch") why :=
  readSource_eq_error_iff

/-! ## Gathering -/

section Gather

variable {κ ε α : Type} {compute : κ → Except ε α} {arrival keys : List κ}

theorem firstFault?_cons {key : κ} :
    firstFault? compute (key :: keys) = match compute key with
      | .error e => some e
      | .ok _ => firstFault? compute keys := by
  unfold firstFault?
  rw [List.findSome?_cons]
  cases compute key <;> rfl

/-- What is made of results does not count. -/
theorem firstFault?_map {β : Type} (f : κ → α → β) (keys : List κ) :
    firstFault? (fun key => (compute key).map (f key)) keys = firstFault? compute keys := by
  induction keys with
  | nil => rfl
  | cons key rest ih =>
      rw [firstFault?_cons, firstFault?_cons, ih]
      cases compute key <;> rfl

theorem firstFault?_eq_none_iff :
    firstFault? compute keys = none ↔ ∀ key ∈ keys, ∃ a, compute key = .ok a := by
  rw [firstFault?, List.findSome?_eq_none_iff]
  refine forall₂_congr fun key _ => ?_
  cases compute key <;> simp

/-- A first fault is that of a key. -/
theorem exists_of_firstFault? {e : ε} (h : firstFault? compute keys = some e) :
    ∃ key ∈ keys, compute key = .error e := by
  obtain ⟨key, hkey, he⟩ := List.exists_of_findSome?_eq_some h
  refine ⟨key, hkey, ?_⟩
  split at he
  · next hfault =>
    cases he
    exact hfault
  · cases he

/-- **Gathering fails with the fault of a key,** if any key has one. -/
theorem gather_eq_error (harrival : ∀ key ∈ arrival, key ∈ keys) {key : κ} (hkey : key ∈ keys)
    {e : ε} (he : compute key = .error e) :
    ∃ other ∈ keys, ∃ e', compute other = .error e' ∧ gather compute arrival keys = .error e' := by
  unfold gather
  cases hfirst : firstFault? compute arrival with
  | some e' =>
      obtain ⟨other, hother, he'⟩ := exists_of_firstFault? hfirst
      exact ⟨other, harrival other hother, e', he', rfl⟩
  | none =>
      cases hall : keys.mapM compute with
      | error e' =>
          obtain ⟨other, hother, he'⟩ := exists_of_mapM_error hall
          exact ⟨other, hother, e', he', rfl⟩
      | ok values =>
          -- the key with a fault has no value
          have hmap := mapM_eq_ok_iff.mp hall
          have hmem : compute key ∈ values.map .ok := hmap ▸ List.mem_map_of_mem hkey
          obtain ⟨a, -, ha⟩ := List.mem_map.mp hmem
          rw [he] at ha
          cases ha

/-- **Gathering gives the values of the keys in their order,** if all keys have one. -/
theorem gather_eq_ok (harrival : ∀ key ∈ arrival, ∃ a, compute key = .ok a) {value : κ → α}
    (hvalue : ∀ key ∈ keys, compute key = .ok (value key)) :
    gather compute arrival keys = .ok (keys.map value) := by
  rw [gather, firstFault?_eq_none_iff.mpr harrival, mapM_eq_ok_iff, List.map_map]
  exact List.map_congr_left hvalue

end Gather

/-! ## The course of the reads -/

/-- **Reads side by side:** the results so far, each at the position of its key, and the fault
that was met first. -/
structure Gathering (ε α : Type) where
  results : List (Option α)
  fault : Option ε

namespace Gathering

variable {κ ε α : Type}

def start (keys : List κ) : Gathering ε α := ⟨keys.map fun _ => none, none⟩

/-- The read for the key at a position ends. -/
def complete (compute : κ → Except ε α) (keys : List κ) (reads : Gathering ε α)
    (position : Nat) : Gathering ε α :=
  match keys[position]?.map compute with
  | some (.ok a) => { reads with results := reads.results.set position (some a) }
  | some (.error e) => { reads with fault := reads.fault.or (some e) }
  | none => reads

/-- All reads have ended in an order. -/
def ended (compute : κ → Except ε α) (keys : List κ) (order : List Nat) : Gathering ε α :=
  order.foldl (complete compute keys) (start keys)

/-- What the reads come to, as soon as it is settled: a fault settles it while others are still
under way, and the results do when all of them are there. -/
def outcome? (reads : Gathering ε α) : Option (Except ε (List α)) :=
  match reads.fault with
  | some e => some (.error e)
  | none => (reads.results.mapM id).map .ok

variable {compute : κ → Except ε α} {keys : List κ} {reads : Gathering ε α} {order : List Nat}

/-- The fault that is met first stays. -/
theorem fault_foldl_complete :
    (order.foldl (complete compute keys) reads).fault =
      reads.fault.or (firstFault? compute (order.filterMap (keys[·]?))) := by
  induction order generalizing reads with
  | nil => simp [firstFault?]
  | cons position rest ih =>
      rw [List.foldl_cons, ih, complete, List.filterMap_cons]
      cases hkey : keys[position]? with
      | none => rfl
      | some key =>
          cases hvalue : compute key with
          | ok a => simp [hvalue, firstFault?]
          | error e => simp [hvalue, firstFault?]

/-- A read that has ended with a result has left it at the position of its key. -/
theorem getElem?_foldl_complete (hlength : reads.results.length = keys.length) (position : Nat) :
    (order.foldl (complete compute keys) reads).results[position]? =
      if position ∈ order then
        (match keys[position]?.map compute with
          | some (.ok a) => some (some a)
          | _ => reads.results[position]?)
      else reads.results[position]? := by
  induction order generalizing reads with
  | nil => simp
  | cons first rest ih =>
      have hnext : (complete compute keys reads first).results.length = keys.length := by
        unfold complete
        split <;> simp [hlength]
      have hstep : (complete compute keys reads first).results[position]? =
          if position = first then
            (match keys[position]?.map compute with
              | some (.ok a) => some (some a)
              | _ => reads.results[position]?)
          else reads.results[position]? := by
        unfold complete
        by_cases heq : position = first
        · subst heq
          rw [if_pos rfl]
          cases hkey : keys[position]? with
          | none => rfl
          | some key =>
              have hin : position < reads.results.length := by
                rw [hlength]
                exact (List.getElem?_eq_some_iff.mp hkey).1
              cases hvalue : compute key with
              | ok a => simp [hvalue, List.getElem?_set_self hin]
              | error e => simp [hvalue]
        · rw [if_neg heq]
          split
          · exact List.getElem?_set_ne (Ne.symm heq)
          · rfl
          · rfl
      rw [List.foldl_cons, ih hnext, hstep]
      -- a position that comes again gets the same result again
      by_cases hrest : position ∈ rest
      · rw [if_pos hrest, if_pos (List.mem_cons_of_mem _ hrest)]
        cases keys[position]?.map compute with
        | none => simp
        | some value => cases value <;> simp
      · rw [if_neg hrest]
        simp [hrest]

/-- **When all reads have ended, they come to what gathering gives,** whatever their order. -/
theorem outcome?_ended (h : order.Perm (List.range keys.length)) :
    (ended compute keys order).outcome? =
      some (gather compute (order.filterMap (keys[·]?)) keys) := by
  rw [ended, outcome?, fault_foldl_complete, gather]
  cases hfirst : firstFault? compute (order.filterMap (keys[·]?)) with
  | some e => rfl
  | none =>
      -- no key has a fault, since the read of every key has ended
      have hall : ∀ key ∈ keys, ∃ a, compute key = .ok a := by
        intro key hkey
        obtain ⟨position, hposition⟩ := List.mem_iff_getElem?.mp hkey
        have hlt := (List.getElem?_eq_some_iff.mp hposition).1
        exact firstFault?_eq_none_iff.mp hfirst key
          (List.mem_filterMap.mpr ⟨position, h.mem_iff.mpr (List.mem_range.mpr hlt), hposition⟩)
      obtain ⟨values, hvalues⟩ : ∃ values, keys.mapM compute = .ok values := by
        cases hrun : keys.mapM compute with
        | ok values => exact ⟨values, rfl⟩
        | error e =>
            obtain ⟨key, hkey, he⟩ := exists_of_mapM_error hrun
            obtain ⟨a, ha⟩ := hall key hkey
            rw [he] at ha
            cases ha
      have hmap := mapM_eq_ok_iff.mp hvalues
      have hresults : (order.foldl (complete compute keys) (start keys)).results =
          values.map some := by
        refine List.ext_getElem? fun position => ?_
        have hvalue : keys[position]?.map compute = values[position]?.map .ok := by
          rw [← List.getElem?_map, ← List.getElem?_map, hmap]
        have hlength : keys.length = values.length := by
          simpa using congrArg List.length hmap
        have hended : position ∈ order ↔ position < keys.length := by
          rw [h.mem_iff, List.mem_range]
        rw [getElem?_foldl_complete (by simp [start]), hvalue]
        by_cases hlt : position < keys.length
        · rw [if_pos (hended.mpr hlt), List.getElem?_map, List.getElem?_eq_getElem (hlength ▸ hlt)]
          rfl
        · rw [if_neg (mt hended.mp hlt), List.getElem?_eq_none (by simpa [start] using hlt),
            List.getElem?_eq_none (by simpa [hlength] using hlt)]
      rw [hresults, hvalues]
      have hcollect : (values.map some).mapM id = some values := by
        rw [List.mapM_map]
        have hpure : values.mapM (pure : α → Option α) = pure (values.map id) :=
          List.mapM_pure
        rwa [List.map_id] at hpure
      simp [start, hcollect]

/-- A fault that the reads come to is the first one in their order. -/
theorem firstFault?_of_outcome? {e : ε}
    (h : (ended compute keys order).outcome? = some (.error e)) :
    firstFault? compute (order.filterMap (keys[·]?)) = some e := by
  unfold outcome? at h
  split at h
  · next e' hsome =>
    cases h
    rw [ended, fault_foldl_complete] at hsome
    exact hsome
  · obtain ⟨values, -, hvalues⟩ := Option.map_eq_some_iff.mp h
    cases hvalues

end Gathering

/-! ## Files -/

section Files

variable {α : Type} {compute : DocumentType → Except SummaryFault α} {kind : SummaryKind}
  {toJson : α → Json} {directory : Path} {arrival types : List DocumentType} {files : FileTree}

/-- Where a type has a fault, nothing is written. -/
theorem generateFiles_of_error {fault : SummaryFault}
    (h : gather compute arrival types = .error fault) :
    generateFiles compute kind.fileName toJson directory arrival types files =
      (.error fault, files) := by
  rw [generateFiles, h]

/-- Where no type has a fault, the summaries of the types are written, each to its own file. -/
theorem generateFiles_of_ok (harrival : ∀ type ∈ arrival, ∃ a, compute type = .ok a)
    {value : DocumentType → α} (hvalue : ∀ type ∈ types, compute type = .ok (value type))
    {result : Except SummaryFault (List Path)} {after : FileTree}
    (h : generateFiles compute kind.fileName toJson directory arrival types files =
      (result, after)) :
    ∃ written, SummaryWriter.writeAll directory
        (kind.outputs (fun type => toJson (value type)) types) files = (written, after) ∧
      result = written.mapError .write := by
  have houtputs : ((types.zip (types.map value)).map fun made =>
      (kind.fileName made.1, toJson made.2)) =
      kind.outputs (fun type => toJson (value type)) types := by
    rw [List.zip_map_right, List.map_map, SummaryKind.outputs, ← List.map_id types,
      List.zip_eq_zipWith, List.zipWith_map, List.zipWith_self, List.map_map, List.map_map]
    rfl
  rw [generateFiles, gather_eq_ok harrival hvalue] at h
  obtain ⟨rfl, rfl⟩ := Prod.mk.inj h
  rw [← houtputs]
  exact ⟨_, rfl, rfl⟩

/-- Where no type has a fault and there is room for the files, they are written. -/
theorem exists_generateFiles (kind : SummaryKind) {made : FileTree} {value : DocumentType → α}
    (hvalue : ∀ type, compute type = .ok (value type))
    (hmade : files.makeDirectories directory = .ok made)
    (hroom : ∀ type ∈ types, SummaryWriter.CanStage directory made (kind.fileName type) ∧
      made.HasRoom (directory.join (kind.fileName type))) :
    ∃ places after, generateFiles compute kind.fileName toJson directory arrival types files =
      (.ok places, after) ∧ made.SameDirectories after := by
  obtain ⟨places, after, hwrites, hsame⟩ : ∃ places after, SummaryWriter.writeAll directory
      (kind.outputs (fun type => toJson (value type)) types) files = (.ok places, after) ∧
        made.SameDirectories after := SummaryKind.exists_writeAll_outputs hmade hroom
  rcases hrun : generateFiles compute kind.fileName toJson directory arrival types files with
    ⟨result, after'⟩
  obtain ⟨written, hwritten, hresult⟩ := generateFiles_of_ok
    (fun type _ => ⟨_, hvalue type⟩) (fun type _ => hvalue type) hrun
  rw [hwrites] at hwritten
  cases hwritten
  exact ⟨places, after, by rw [hresult]; rfl, hsame⟩

end Files

/-- **What writing summaries of rules comes to,** for some types and with the summaries that
`summary` makes of the rules of a type. -/
structure Generated (source : ArtifactSource) (storage : Storage) (directory : Path)
    (types : List DocumentType) (kind : SummaryKind)
    (summary : DocumentType → Xml.Element → Json)
    (result : Except SummaryFault (List Path) × FileTree) : Prop where
  /-- If the rules of a type cannot be used, such rules are named and no file has changed. -/
  refused {type : DocumentType} (htype : type ∈ types) {why : SourceFault}
    (hlacks : LacksRules source storage type why) :
    ∃ other ∈ types, ∃ why, LacksRules source storage other why ∧
      result = (.error (.source (source.resolve s!"{other.tag}.sch") why), storage.files)
  /-- If all rules can be used and writing succeeds, the places of all files are returned, and
  at each one is the summary of the rules of its own type. -/
  written (husable : ∀ type ∈ types, ∃ schema, HasRules source storage type schema)
    {places : List Path} {after : FileTree} (hresult : result = (.ok places, after)) :
    (∀ path, path ∈ places ↔ ∃ type ∈ types, path = directory.join (kind.fileName type)) ∧
      ∀ type ∈ types, ∀ schema, HasRules source storage type schema →
        after.Holds (directory.join (kind.fileName type))
          (Text.encode (summaryText (summary type schema)))
  /-- If all rules can be used, only writing can fail. -/
  unwritten (husable : ∀ type ∈ types, ∃ schema, HasRules source storage type schema)
    {fault : SummaryFault} {after : FileTree} (hresult : result = (.error fault, after)) :
    ∃ why, fault = .write why

/-- **Summaries computed from the rules of each type** are written for all types or refused. -/
theorem generateFiles_generated {α : Type} {compute : DocumentType → Except SummaryFault α}
    {summarize : DocumentType → Xml.Element → α} (kind : SummaryKind) {toJson : α → Json}
    {source : ArtifactSource} {storage : Storage} {directory : Path}
    {arrival types : List DocumentType}
    (hcompute : ∀ type, compute type = (readRules source storage type).map (summarize type))
    (harrival : ∀ type ∈ arrival, type ∈ types) :
    Generated source storage directory types kind
      (fun type schema => toJson (summarize type schema))
      (generateFiles compute kind.fileName toJson directory arrival types storage.files) := by
  have hvalue {type : DocumentType} {schema : Xml.Element}
      (h : HasRules source storage type schema) : compute type = .ok (summarize type schema) := by
    rw [hcompute, readRules_eq_ok_iff.mpr h]
    rfl
  have hwrites (husable : ∀ type ∈ types, ∃ schema, HasRules source storage type schema)
      {result : Except SummaryFault (List Path)} {after : FileTree}
      (hresult : generateFiles compute kind.fileName toJson directory arrival types
        storage.files = (result, after)) :
      ∃ schema : DocumentType → Xml.Element,
        (∀ type ∈ types, HasRules source storage type (schema type)) ∧
        ∃ written, SummaryWriter.writeAll directory
            (kind.outputs (fun type => toJson (summarize type (schema type))) types)
            storage.files = (written, after) ∧
          result = written.mapError .write := by
    choose! schema hschema using husable
    exact ⟨schema, hschema, generateFiles_of_ok
      (fun type htype => ⟨_, hvalue (hschema type (harrival type htype))⟩)
      (fun type htype => hvalue (hschema type htype)) hresult⟩
  refine ⟨fun {type} htype {why} hlacks => ?_, fun husable {places after} hresult => ?_,
    fun husable {fault after} hresult => ?_⟩
  · have hfault : compute type = .error (.source (source.resolve s!"{type.tag}.sch") why) := by
      rw [hcompute, readRules_eq_error_iff.mpr ⟨why, hlacks, rfl⟩]
      rfl
    obtain ⟨other, hother, fault, hfails, hgather⟩ := gather_eq_error harrival htype hfault
    -- the fault is that of the rules of a type
    have hread : readRules source storage other = .error fault := by
      rw [hcompute] at hfails
      cases hrules : readRules source storage other with
      | error e =>
          rw [hrules] at hfails
          cases hfails
          rfl
      | ok schema =>
          rw [hrules] at hfails
          cases hfails
    obtain ⟨why', hlacks', rfl⟩ := readRules_eq_error_iff.mp hread
    exact ⟨other, hother, why', hlacks', generateFiles_of_error hgather⟩
  · obtain ⟨schema, hschema, written, hrun, hplaces⟩ := hwrites husable hresult
    rw [mapError_eq_ok_iff.mp hplaces.symm] at hrun
    obtain ⟨hmem, hwritten⟩ := SummaryKind.written_of_writeAll_outputs hrun
    refine ⟨hmem, fun type htype schema' hschema' => ?_⟩
    have hsame : schema' = schema type := by
      have hread := (readRules_eq_ok_iff.mpr hschema').symm.trans
        (readRules_eq_ok_iff.mpr (hschema type htype))
      exact Except.ok.inj hread
    rw [hsame]
    exact SummaryKind.holds_of_written hwritten htype
  · obtain ⟨-, -, written, -, hfault⟩ := hwrites husable hresult
    obtain ⟨why, -, hwhy⟩ := mapError_eq_error_iff.mp hfault.symm
    exact ⟨why, hwhy.symm⟩

/-- **Summaries end with the fault that the reads of the rules come to,** and change no file. -/
theorem generateFiles_of_outcome? {α : Type} {compute : DocumentType → Except SummaryFault α}
    {summarize : DocumentType → Xml.Element → α} {fileName : DocumentType → String}
    {toJson : α → Json} {source : ArtifactSource} {storage : Storage} {directory : Path}
    {arrival types : List DocumentType} {order : List Nat} {fault : SummaryFault}
    (hcompute : ∀ type, compute type = (readRules source storage type).map (summarize type))
    (harrival : arrival = order.filterMap (types[·]?))
    (h : (Gathering.ended (readRules source storage) types order).outcome? = some (.error fault)) :
    generateFiles compute fileName toJson directory arrival types storage.files =
      (.error fault, storage.files) := by
  have hfirst : firstFault? compute arrival = some fault := by
    rw [funext hcompute, firstFault?_map, harrival]
    exact Gathering.firstFault?_of_outcome? h
  have hgather : gather compute arrival types = .error fault := by rw [gather, hfirst]
  rw [generateFiles, hgather]

theorem Catalog.generate_eq {source : ArtifactSource} {storage : Storage} (type : DocumentType) :
    Catalog.generate source storage type =
      (readRules source storage type).map fun schema => Catalog.ofSchema schema := by
  rw [Catalog.generate]
  cases readRules source storage type <;> rfl

theorem AssertionView.generate_eq {source : ArtifactSource} {storage : Storage}
    (type : DocumentType) : AssertionView.generate source storage type =
      (readRules source storage type).map fun schema =>
        AssertionView.ofSchema schema type.title := by
  rw [AssertionView.generate]
  cases readRules source storage type <;> rfl

/-- **Catalogs and assertion views are written for all types or refused,** whatever the rules of
the types are and in whatever order they are read. Reads side by side that have ended in an order
come to the fault that both end with, or to the rules of all types. -/
theorem generateAll_generated (source : ArtifactSource) (directory : Path) (storage : Storage)
    {arrival types : List DocumentType}
    (harrival : ∀ type ∈ chosenTypes arrival, type ∈ chosenTypes types) :
    Generated source storage directory (chosenTypes types) .catalog
        (fun _ schema => (Catalog.ofSchema schema).toJson)
        (Catalog.generateAll source directory storage arrival types) ∧
      Generated source storage directory (chosenTypes types) .view
        (fun type schema => (AssertionView.ofSchema schema type.title).toJson)
        (AssertionView.generateAll source directory storage arrival types) ∧
      ∀ order, order.Perm (List.range (chosenTypes types).length) →
        chosenTypes arrival = order.filterMap ((chosenTypes types)[·]?) →
        ∃ outcome, (Gathering.ended (readRules source storage) (chosenTypes types) order).outcome? =
            some outcome ∧
          (∀ fault, outcome = .error fault →
            Catalog.generateAll source directory storage arrival types =
              (.error fault, storage.files) ∧
            AssertionView.generateAll source directory storage arrival types =
              (.error fault, storage.files)) ∧
          ∀ schemas, outcome = .ok schemas →
            List.Forall₂ (HasRules source storage) (chosenTypes types) schemas := by
  refine ⟨generateFiles_generated .catalog Catalog.generate_eq harrival,
    generateFiles_generated .view AssertionView.generate_eq harrival, fun order hperm horder => ?_⟩
  have hended : (Gathering.ended (readRules source storage) (chosenTypes types) order).outcome? = _ :=
    Gathering.outcome?_ended hperm
  refine ⟨_, hended, fun fault hfault => ?_, fun schemas hschemas => ?_⟩
  · rw [hfault] at hended
    exact ⟨generateFiles_of_outcome? Catalog.generate_eq horder hended,
      generateFiles_of_outcome? AssertionView.generate_eq horder hended⟩
  · unfold gather at hschemas
    split at hschemas
    · cases hschemas
    · rw [mapM_eq_ok_iff] at hschemas
      have hread : List.Forall₂ (fun type schema => readRules source storage type = .ok schema)
          (chosenTypes types) schemas := by
        have hsame : List.Forall₂ (· = ·) ((chosenTypes types).map (readRules source storage))
            (schemas.map Except.ok) := List.forall₂_eq_eq_eq ▸ hschemas
        rwa [List.forall₂_map_left_iff, List.forall₂_map_right_iff] at hsame
      exact hread.imp fun _ _ => readRules_eq_ok_iff.mp

/-! ## Rules of all types -/

/-- Rules for a type with one assertion, which has the name of the type. -/
def plainRules (type : DocumentType) : Bytes :=
  ("<schema xmlns='http://purl.oclc.org/dsdl/schematron'><pattern><rule><assert id='" ++ type.tag ++
    "'/></rule></pattern></schema>").toList.map Text.byteOf

/-- A server that has such rules for each type. -/
def rulesStorage : Storage where
  files := .empty
  respond address := (DocumentType.all.find? fun type =>
    address == s!"http://r/{type.tag}.sch").map fun type => ⟨200, plainRules type⟩

theorem hasRules_rulesStorage (type : DocumentType) : ∃ schema,
    HasRules (.ofBase "http://r") rulesStorage type schema ∧
      (Catalog.ofSchema schema).entries.map (·.1) = [type.tag] := by
  have hparse : (Xml.readBytes? (plainRules type)).any (fun document =>
      document.root.denotes Schematron.uri "schema" &&
        (Catalog.ofSchema document.root).entries.map (·.1) == [type.tag]) = true := by
    cases type <;> decide +kernel
  obtain ⟨document, hdocument, hroot⟩ := (Option.any_eq_true _ _).mp hparse
  rw [Bool.and_eq_true, beq_iff_eq] at hroot
  have hfetch : (ArtifactSource.ofBase "http://r").fetch rulesStorage s!"{type.tag}.sch" =
      .ok (plainRules type) := by
    cases type <;> decide +kernel
  exact ⟨_, .intro hfetch hdocument hroot.1, hroot.2⟩

/-- A new directory has room for the files of all types. -/
theorem hasRoom_out (kind : SummaryKind) (type : DocumentType) :
    SummaryWriter.CanStage (Path.ofString "out") ⟨[(["out"], .directory)]⟩ (kind.fileName type) ∧
      FileTree.HasRoom ⟨[(["out"], .directory)]⟩
        ((Path.ofString "out").join (kind.fileName type)) := by
  cases kind <;> cases type <;> decide +kernel

/-- Such rules are summed up in a directory that is not there yet. -/
theorem exists_generateFiles_rulesStorage {α : Type}
    {compute : DocumentType → Except SummaryFault α} {summarize : DocumentType → Xml.Element → α}
    (kind : SummaryKind) {toJson : α → Json} {arrival : List DocumentType}
    (hcompute : ∀ type, compute type =
      (readRules (.ofBase "http://r") rulesStorage type).map (summarize type)) :
    ∃ places after, generateFiles compute kind.fileName toJson (Path.ofString "out") arrival
      DocumentType.all rulesStorage.files = (.ok places, after) := by
  choose schema hschema _ using hasRules_rulesStorage
  have hvalue (type : DocumentType) : compute type = .ok (summarize type (schema type)) := by
    rw [hcompute, readRules_eq_ok_iff.mpr (hschema type)]
    rfl
  have hmade : rulesStorage.files.makeDirectories (Path.ofString "out") =
      .ok ⟨[(["out"], .directory)]⟩ := by with_unfolding_all rfl
  obtain ⟨places, after, hrun, -⟩ := exists_generateFiles kind hvalue hmade
    fun type (_ : type ∈ DocumentType.all) => hasRoom_out kind type
  exact ⟨places, after, hrun⟩

/-- **Rules that cannot be used and rules of all types:** where there are no rules nothing is
written, and where each type has rules of its own, its catalog and its view tell of these. -/
theorem generateAll_of_no_rules_or_all :
    let out := Path.ofString "out"
    let arrival : List DocumentType := [.sar, .poam, .ssp, .sap]
    (let source := ArtifactSource.ofBase "rules"
      let storage : Storage := ⟨.empty, fun _ => none⟩
      ∃ type ∈ DocumentType.all, ∃ why, LacksRules source storage type why ∧
        Catalog.generateAll source out storage arrival [] =
          (.error (.source (source.resolve s!"{type.tag}.sch") why), .empty)) ∧
    ∃ schema : DocumentType → Xml.Element,
      (∀ type, (Catalog.ofSchema (schema type)).entries.map (·.1) = [type.tag]) ∧
      (∃ places after, Catalog.generateAll (.ofBase "http://r") out rulesStorage arrival [] =
          (.ok places, after) ∧
        ∀ type, after.Holds (out.join (Catalog.fileName type))
          (Text.encode (summaryText (Catalog.ofSchema (schema type)).toJson))) ∧
      ∃ places after, AssertionView.generateAll (.ofBase "http://r") out rulesStorage arrival [] =
          (.ok places, after) ∧
        ∀ type, after.Holds (out.join (AssertionView.fileName type))
          (Text.encode (summaryText (AssertionView.ofSchema (schema type) type.title).toJson)) := by
  have harrival : ∀ type ∈ chosenTypes [.sar, .poam, .ssp, .sap], type ∈ chosenTypes [] :=
    fun type _ => DocumentType.mem_all type
  constructor
  · have hlacks : LacksRules (.ofBase "rules") ⟨.empty, fun _ => none⟩ .ssp (.unreadable (.file
        ⟨.notFound, (ArtifactSource.ofBase "rules").path "ssp.sch", none⟩)) :=
      .unreadable (by decide +kernel)
    obtain ⟨hcatalogs, -⟩ := generateAll_generated (.ofBase "rules") (Path.ofString "out")
      ⟨.empty, fun _ => none⟩ harrival
    exact hcatalogs.refused (DocumentType.mem_all .ssp) hlacks
  · obtain ⟨hcatalogs, hviews, -⟩ := generateAll_generated (.ofBase "http://r")
      (Path.ofString "out") rulesStorage harrival
    choose schema hschema hentries using hasRules_rulesStorage
    have husable : ∀ type ∈ chosenTypes [], ∃ schema,
        HasRules (.ofBase "http://r") rulesStorage type schema :=
      fun type _ => ⟨_, hschema type⟩
    refine ⟨schema, hentries, ?_, ?_⟩
    · obtain ⟨places, after, hrun⟩ : ∃ places after, Catalog.generateAll (.ofBase "http://r")
          (Path.ofString "out") rulesStorage [.sar, .poam, .ssp, .sap] [] = (.ok places, after) :=
        exists_generateFiles_rulesStorage .catalog Catalog.generate_eq
      exact ⟨places, after, hrun, fun type => (hcatalogs.written husable hrun).2 type
        (DocumentType.mem_all type) _ (hschema type)⟩
    · obtain ⟨places, after, hrun⟩ : ∃ places after, AssertionView.generateAll
          (.ofBase "http://r") (Path.ofString "out") rulesStorage [.sar, .poam, .ssp, .sap] [] =
            (.ok places, after) :=
        exists_generateFiles_rulesStorage .view AssertionView.generate_eq
      exact ⟨places, after, hrun, fun type => (hviews.written husable hrun).2 type
        (DocumentType.mem_all type) _ (hschema type)⟩

end OscalValidation

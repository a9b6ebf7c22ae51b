import Mathlib.Data.List.SplitBy
import OscalValidation.Proofs.Attempts
import OscalValidation.Proofs.Conversion.Spots
import OscalValidation.Xml.Reader

set_option autoImplicit false

/-! # What is read from markup

A scanner yields values of which something holds wherever it starts (`Scanner.Yields`). In a
document that was read every tag has a line, a name and a namespace that can be written, and
attributes with names (`Tag.AsRead`); declarations before the root may give attributes to an
element, so these are followed too. The bound on the steps of the reader bounds what an element can
hold. Every tag is made of a name and attributes in the scope around it (`Tag.MadeFrom`). Main
statement: `made_of_read?`.
-/

namespace OscalValidation.Xml

open Conversion (IsName IsWritable)

namespace Scanner

variable {α β : Type} {P : α → Prop} {Q : β → Prop}

/-! ## What a scanner yields -/

/-- **What a scanner yields:** wherever it starts, a value that it gives has the property. -/
def Yields (scanner : Scanner α) (P : α → Prop) : Prop :=
  ∀ ⦃cursor : Cursor⦄ ⦃value : α⦄ ⦃after : Cursor⦄, scanner cursor = some (value, after) → P value

theorem yields_pure {a : α} (h : P a) : Yields (pure a) P := by
  intro cursor value after heq
  cases heq
  exact h

theorem yields_fail : Yields (fail : Scanner α) P := nofun

/-- Of a value of which nothing is asked nothing needs to be known. -/
theorem yields_true (scanner : Scanner α) : Yields scanner fun _ => True :=
  fun _ _ _ _ => trivial

/-- What the first of two scanners yields is known to the second. -/
theorem Yields.bind {x : Scanner α} {f : α → Scanner β} (hx : Yields x P)
    (hf : ∀ a, P a → Yields (f a) Q) : Yields (x >>= f) Q := by
  intro cursor value after heq
  obtain ⟨⟨a, cursor'⟩, hfirst, hsecond⟩ := Option.bind_eq_some_iff.mp heq
  exact hf a (hx hfirst) hsecond

/-- The value of the first of two scanners need not matter. -/
theorem yields_then {x : Scanner α} {f : α → Scanner β} (hf : ∀ a, Yields (f a) Q) :
    Yields (x >>= f) Q :=
  (yields_true x).bind fun a _ => hf a

/-- Scanning another text yields the same. -/
theorem Yields.whole {scanner : Scanner α} (h : Yields scanner P) (text : List Char) :
    Yields (whole text scanner) P := by
  intro cursor value after heq
  unfold Scanner.whole at heq
  split at heq
  · next hinner =>
    cases heq
    exact h hinner
  · cases heq

/-! ## Names -/

theorem yields_takeWhile (p : Char → Bool) :
    Yields (Scanner.takeWhile p) fun taken => ∀ c ∈ taken, p c = true := by
  intro cursor taken after heq
  cases heq
  exact List.all_eq_true.mp List.all_takeWhile

theorem yields_localName : Yields localName IsName := by
  unfold localName
  refine (yields_takeWhile isNameChar).bind fun taken htaken => ?_
  split
  · exact yields_fail
  · next c cs =>
    split
    · next hstart =>
      apply yields_pure
      have hrest : cs.all isNameChar = true :=
        List.all_eq_true.mpr fun d hd => htaken d (List.mem_cons_of_mem c hd)
      rw [IsName, String.toList_ofList, isLocalName, hstart, hrest, Bool.and_self]
    · exact yields_fail

theorem yields_name : Yields Scanner.name fun name => IsName name.2 := by
  unfold Scanner.name
  refine yields_localName.bind fun first hfirst => yields_then fun prefixed => ?_
  split
  · exact yields_localName.bind fun second hsecond => yields_pure hsecond
  · exact yields_pure hfirst

end Scanner

open Scanner

/-! ## Values -/

theorem isChar_of_charOfNumber? {hexadecimal : Bool} {digits : List Char} {c : Char}
    (h : charOfNumber? hexadecimal digits = some c) : isChar c = true := by
  unfold charOfNumber? at h
  split at h
  · cases h
  · obtain ⟨code, -, h⟩ := Option.bind_eq_some_iff.mp h
    dsimp only at h
    split at h
    · next hok =>
      cases h
      exact hok.2.1
    · cases h

/-- A reference stands only for a character that may stand in a document. -/
theorem isChar_of_readReference? {cs rest : List Char} {c : Char}
    (h : readReference? cs = some (.char c, rest)) : isChar c = true := by
  have hpredefined : ∀ name c, predefined.lookup name = some c → isChar c = true := by
    intro name c hlookup
    have hall : ∀ entry ∈ predefined, isChar entry.2 = true := by decide
    exact hall _ (mem_of_lookup hlookup)
  unfold readReference? at h
  split at h
  · cases h
  · dsimp only at h
    split at h
    · obtain ⟨c', hc, heq⟩ := Option.map_eq_some_iff.mp h
      cases heq
      exact isChar_of_charOfNumber? hc
    · obtain ⟨c', hc, heq⟩ := Option.map_eq_some_iff.mp h
      cases heq
      exact isChar_of_charOfNumber? hc
    · split at h
      · next hlookup =>
        cases h
        exact hpredefined _ _ hlookup
      · split at h
        · cases h
        · cases h

/-- **The value of an attribute can be written,** whatever its entities stand for. -/
theorem isChar_of_expandValue {entities : Entities} {bound : Nat} {source value : List Char}
    {used : Bool} (h : expandValue entities bound source = some (value, used)) :
    ∀ c ∈ value, isChar c = true := by
  induction bound generalizing source value used with
  | zero => simp [expandValue] at h
  | succ bound ih =>
      unfold expandValue at h
      split at h
      · cases h
      · cases h
        exact nofun
      · -- a reference
        next heq =>
        cases heq
        obtain ⟨⟨reference, rest⟩, hreference, h⟩ := Option.bind_eq_some_iff.mp h
        obtain ⟨⟨after, used'⟩, hafter, h⟩ := Option.bind_eq_some_iff.mp h
        cases reference with
        | char c =>
            cases h
            exact List.forall_mem_cons.mpr ⟨isChar_of_readReference? hreference, ih hafter⟩
        | entity name =>
            dsimp only at h
            split at h
            · obtain ⟨⟨inner, used''⟩, hinner, h⟩ := Option.bind_eq_some_iff.mp h
              cases h
              exact List.forall_mem_append.mpr ⟨ih hinner, ih hafter⟩
            · cases h
            · split at h
              · cases h
                exact ih hafter
              · cases h
      · -- a line end of two characters
        next heq =>
        cases heq
        obtain ⟨⟨after, used'⟩, hafter, h⟩ := Option.bind_eq_some_iff.mp h
        cases h
        exact List.forall_mem_cons.mpr ⟨by decide, ih hafter⟩
      · next heq =>
        cases heq
        split at h
        · cases h
        · next hok =>
          obtain ⟨⟨after, used'⟩, hafter, h⟩ := Option.bind_eq_some_iff.mp h
          cases h
          refine List.forall_mem_cons.mpr ⟨?_, ih hafter⟩
          split
          · decide
          · rw [Bool.or_eq_true, not_or, Bool.not_eq_true', Bool.not_eq_false] at hok
            exact hok.2

/-- Joining names brings in at most spaces. -/
theorem mem_joinNames {cs : List Char} {c : Char} (h : c ∈ joinNames cs) : c = ' ' ∨ c ∈ cs := by
  have hparts : ∀ parts : List (List Char), c ∈ [' '].intercalate parts →
      c = ' ' ∨ ∃ part ∈ parts, c ∈ part := by
    intro parts
    induction parts with
    | nil => simp [List.intercalate]
    | cons part rest ih =>
        intro hc
        cases rest with
        | nil =>
            refine Or.inr ⟨part, List.mem_cons_self, ?_⟩
            simpa [List.intercalate] using hc
        | cons next rest =>
            rw [List.intercalate_cons_cons, List.append_assoc, List.mem_append, List.mem_append,
              List.mem_singleton] at hc
            rcases hc with hc | hc | hc
            · exact Or.inr ⟨part, List.mem_cons_self, hc⟩
            · exact Or.inl hc
            · refine (ih hc).imp_right ?_
              rintro ⟨found, hfound, hc⟩
              exact ⟨found, List.mem_cons_of_mem part hfound, hc⟩
  refine (hparts _ h).imp_right ?_
  rintro ⟨part, hpart, hc⟩
  rw [← List.flatten_splitBy (fun a b => (a == ' ') == (b == ' ')) cs]
  exact List.mem_flatten.mpr ⟨part, List.mem_of_mem_filter hpart, hc⟩

/-! ## Attributes -/

/-- An attribute as it is read: it has a name, and its value can be written. -/
def WrittenAttribute.AsRead (a : WrittenAttribute) : Prop := IsName a.name.2 ∧ IsWritable a.value

theorem yields_attributes (entities : Entities) (bound : Nat) :
    Yields (attributes entities bound) fun written => ∀ a ∈ written, a.AsRead := by
  induction bound with
  | zero => exact yields_fail
  | succ bound ih =>
      unfold attributes
      refine yields_then fun blank => yields_then fun ends => yields_then fun closes => ?_
      split
      · exact yields_pure nofun
      · refine yields_then fun _ => yields_name.bind fun name hname => ?_
        refine yields_then fun _ => yields_then fun _ => yields_then fun _ => ?_
        refine yields_then fun source => ?_
        split
        · next value used hvalue =>
          refine ih.bind fun more hmore => yields_pure ?_
          refine List.forall_mem_cons.mpr ⟨⟨hname, ?_⟩, hmore⟩
          rw [IsWritable, String.toList_ofList]
          exact isChar_of_expandValue hvalue
        · exact yields_fail

/-- The declarations of attributes as they are read: each has a name, and its value can be
written. -/
def Prolog.AsRead (prolog : Prolog) : Prop :=
  ∀ d ∈ prolog.attributes, IsName d.name.2 ∧ ∀ value ∈ d.value, IsWritable value.1

theorem Prolog.asRead_declare {prolog : Prolog} {d : AttributeDeclaration} (h : prolog.AsRead)
    (hd : IsName d.name.2 ∧ ∀ value ∈ d.value, IsWritable value.1) :
    (prolog.declare d).AsRead := by
  unfold Prolog.declare
  split
  · exact h
  · exact List.forall_mem_append.mpr ⟨h, List.forall_mem_singleton.mpr hd⟩

theorem isWritable_joinNames {value : List Char} (h : ∀ c ∈ value, isChar c = true) :
    IsWritable (String.ofList (joinNames value)) := by
  rw [IsWritable, String.toList_ofList]
  intro c hc
  rcases mem_joinNames hc with rfl | hc
  · decide
  · exact h c hc

theorem yields_attributeValue (entities : Entities) (ofNames : Bool) :
    Yields (attributeValue entities ofNames) fun found => ∀ value ∈ found, IsWritable value.1 := by
  unfold attributeValue
  refine yields_then fun implied => ?_
  split
  · exact yields_pure nofun
  · refine yields_then fun isFixed => ?_
    -- the value is read in the same way whether the keyword stands before it or not
    extract_lets value
    have hvalue (before : Unit) : Yields (value before) fun found =>
        ∀ value ∈ found, IsWritable value.1 := by
      refine yields_then fun source => ?_
      split
      · next chars used hchars =>
        refine yields_pure fun found hfound => ?_
        cases hfound
        dsimp only
        split
        · exact isWritable_joinNames (isChar_of_expandValue hchars)
        · rw [IsWritable, String.toList_ofList]
          exact isChar_of_expandValue hchars
      · exact yields_fail
    split
    · exact yields_then hvalue
    · exact hvalue ()

theorem yields_attributeDeclarations (element : Option String × String) (bound : Nat)
    {prolog : Prolog} (h : prolog.AsRead) :
    Yields (attributeDeclarations element bound prolog) Prolog.AsRead := by
  induction bound generalizing prolog with
  | zero => exact yields_fail
  | succ bound ih =>
      unfold attributeDeclarations
      refine yields_then fun blank => yields_then fun ends => ?_
      split
      · exact yields_pure h
      · refine yields_then fun _ => yields_name.bind fun name hname => ?_
        refine yields_then fun _ => yields_then fun ofNames => yields_then fun _ => ?_
        refine (yields_attributeValue _ ofNames).bind fun value hvalue => ?_
        exact ih (Prolog.asRead_declare h ⟨hname, hvalue⟩)

theorem yields_declarations (bound : Nat) {prolog : Prolog} (h : prolog.AsRead) :
    Yields (declarations bound prolog) Prolog.AsRead := by
  induction bound generalizing prolog with
  | zero => exact yields_fail
  | succ bound ih =>
      unfold declarations
      refine yields_then fun _ => yields_then fun entity => ?_
      split
      · exact yields_then fun entities => ih h
      refine yields_then fun element => ?_
      split
      · exact yields_then fun _ => ih h
      refine yields_then fun attlist => ?_
      split
      · refine yields_then fun _ => yields_then fun element => ?_
        exact (yields_attributeDeclarations element bound h).bind fun prolog hprolog => ih hprolog
      refine yields_then fun aNotation => ?_
      split
      · exact yields_then fun _ => ih h
      refine yields_then fun aComment => ?_
      split
      · exact yields_then fun _ => ih h
      refine yields_then fun anInstruction => ?_
      split
      · exact yields_then fun _ => ih h
      refine yields_then fun aReference => ?_
      split
      · refine yields_then fun name => yields_then fun _ => ?_
        dsimp only
        split
        · refine Yields.bind ((ih ?_).whole _) fun prolog hprolog => ih hprolog
          exact h
        · exact ih h
      · exact yields_pure h

theorem yields_documentType (bound : Nat) (standalone : Bool) :
    Yields (documentType bound standalone) Prolog.AsRead := by
  unfold documentType
  refine yields_then fun declared => ?_
  split
  · refine yields_then fun _ => yields_then fun _ => yields_then fun blank => ?_
    have hempty (outside : Bool) :
        Prolog.AsRead ⟨{ Entities.none with incomplete := outside }, []⟩ := nofun
    dsimp only
    -- an identifier of what is outside may come first or not
    split
    all_goals
      refine yields_then fun outside => yields_then fun _ => yields_then fun opens => ?_
      split
      · refine (yields_declarations bound (hempty outside)).bind fun prolog hprolog => ?_
        refine yields_then fun _ => yields_then fun _ => ?_
        refine (yields_pure hprolog).bind fun prolog hprolog => yields_then fun _ => ?_
        exact yields_pure hprolog
      · refine (yields_pure (hempty outside)).bind fun prolog hprolog => yields_then fun _ => ?_
        exact yields_pure hprolog
  · exact yields_pure nofun

theorem Prolog.AsRead.complete {prolog : Prolog} (h : prolog.AsRead)
    {written : List WrittenAttribute} (hwritten : ∀ a ∈ written, a.AsRead)
    (element : Option String × String) : ∀ a ∈ prolog.complete element written, a.AsRead := by
  intro a ha
  rcases List.mem_append.mp ha with ha | ha
  · obtain ⟨source, hsource, rfl⟩ := List.mem_map.mp ha
    have hread : source.AsRead := hwritten source hsource
    split
    · exact ⟨hread.1, isWritable_joinNames hread.2⟩
    · exact hread
  · obtain ⟨d, hd, ha⟩ := List.mem_filterMap.mp ha
    obtain ⟨hname, hvalue⟩ := h d hd
    split at ha
    · obtain ⟨value, hdefault, rfl⟩ := Option.map_eq_some_iff.mp ha
      exact ⟨hname, hvalue value hdefault⟩
    · cases ha

/-! ## Tags -/

/-- **A tag as it is read:** it has a line, a name, a namespace that can be written if any, and
its attributes have names. -/
structure Tag.AsRead (tag : Tag) : Prop where
  line : ∃ line, tag.line = some line
  name : IsName tag.name.localName
  /-- The namespace consists of characters that may stand in markup. -/
  uri : ∀ uri ∈ tag.name.uri, IsWritable uri
  attributes : ∀ a ∈ tag.attributes, IsName a.name.localName

/-- The namespaces in scope can be written. -/
def Scope.AsRead (scope : Scope) : Prop := ∀ entry ∈ scope, IsWritable entry.2

theorem isWritable_of_elementNamespace? {scope : Scope} (h : scope.AsRead)
    {nsPrefix uri : Option String} (huri : elementNamespace? scope nsPrefix = some uri) :
    ∀ found ∈ uri, IsWritable found := by
  intro found hfound
  cases hfound
  unfold elementNamespace? at huri
  split at huri
  · cases huri
    exact List.all_eq_true.mp (by decide)
  · obtain ⟨found', hlookup, heq⟩ := Option.map_eq_some_iff.mp huri
    cases heq
    exact h _ (mem_of_lookup hlookup)
  · split at huri
    · cases huri
    · cases huri
    · next hlookup =>
      cases huri
      exact h _ (mem_of_lookup hlookup)

theorem uri_of_declarationOf? {a : WrittenAttribute} {d : Declaration}
    (h : declarationOf? a = some d) : d.uri = a.value := by
  unfold declarationOf? at h
  split at h
  · cases h
    rfl
  · cases h
    rfl
  · cases h

/-- **The namespaces in scope inside an element,** its own declarations in front. -/
def Tag.scope (outer : Scope) (tag : Tag) : Scope :=
  tag.declarations.map (fun d => (d.nsPrefix, d.uri)) ++ outer

/-- **A tag as it is made** of a name and attributes in the scope around it. -/
structure Tag.MadeFrom (outer : Scope) (name : Option String × String)
    (written : List WrittenAttribute) (tag : Tag) : Prop where
  names : distinct (written.map (·.name)) = true
  /-- The declarations are those that attributes make, but for the prefix that is declared
  everywhere. -/
  declarations : tag.declarations =
    (written.filterMap declarationOf?).filter fun d => d.nsPrefix != some "xml"
  /-- The name is the one written, in the namespace of its prefix. -/
  name : tag.name.localName = name.2 ∧
    elementNamespace? (tag.scope outer) tag.name.nsPrefix = some tag.name.uri
  /-- Every other attribute has the name that is written, in the namespace of its prefix. -/
  attributes : List.Forall₂ (fun a made => made.name.nsPrefix = a.name.1 ∧
      made.name.localName = a.name.2 ∧
      attributeNamespace? (tag.scope outer) a.name.1 = some made.name.uri)
    (written.filter fun a => (declarationOf? a).isNone) tag.attributes
  /-- No two attributes have one name in one namespace. -/
  qualified : distinct (tag.attributes.filterMap fun a =>
    a.name.uri.map fun uri => (uri, a.name.localName)) = true
  line : ∃ line, tag.line = some line

theorem madeFrom_of_makeTag? {outer inner : Scope} {name : Option String × String}
    {written : List WrittenAttribute} {line : Nat} {tag : Tag}
    (h : makeTag? outer name written line = some (tag, inner)) :
    tag.MadeFrom outer name written ∧ inner = tag.scope outer := by
  unfold makeTag? at h
  dsimp only at h
  split at h
  · cases h
  next hok =>
    obtain ⟨uri, huri, h⟩ := Option.bind_eq_some_iff.mp h
    obtain ⟨attributes, hattributes, h⟩ := Option.bind_eq_some_iff.mp h
    split at h
    · next hqualified =>
      cases h
      have hnames : distinct (written.map (·.name)) = true := by
        rw [Bool.or_eq_true, not_or, Bool.not_eq_true', Bool.not_eq_false] at hok
        exact hok.1
      refine ⟨⟨hnames, rfl, ⟨rfl, huri⟩, ?_, hqualified, line, rfl⟩, rfl⟩
      refine (mapM_eq_some_iff.mp hattributes).imp fun a made hmade => ?_
      obtain ⟨uri', huri', hmade⟩ := Option.bind_eq_some_iff.mp hmade
      cases hmade
      exact ⟨rfl, rfl, huri'⟩
    · cases h

/-- Of names and values that were read a tag is made as it is read, and so is the scope in it. -/
theorem Tag.MadeFrom.asRead {outer : Scope} {name : Option String × String}
    {written : List WrittenAttribute} {tag : Tag} (h : tag.MadeFrom outer name written)
    (houter : outer.AsRead) (hname : IsName name.2) (hwritten : ∀ a ∈ written, a.AsRead) :
    tag.AsRead ∧ (tag.scope outer).AsRead := by
  -- the namespaces that are declared here are values of attributes
  have hscope : (tag.scope outer).AsRead := by
    refine List.forall_mem_append.mpr ⟨fun entry hentry => ?_, houter⟩
    obtain ⟨d, hd, rfl⟩ := List.mem_map.mp hentry
    rw [h.declarations] at hd
    obtain ⟨a, ha, hdeclares⟩ := List.mem_filterMap.mp (List.mem_of_mem_filter hd)
    rw [uri_of_declarationOf? hdeclares]
    exact (hwritten a ha).2
  refine ⟨⟨h.line, h.name.1 ▸ hname, isWritable_of_elementNamespace? hscope h.name.2, ?_⟩, hscope⟩
  intro made hmade
  obtain ⟨a, ha, -, hlocal, -⟩ := exists_of_mem_forall₂ h.attributes.flip hmade
  rw [hlocal]
  exact (hwritten a (List.mem_of_mem_filter ha)).1

/-! ## Elements -/

mutual

/-- Of every element that a node is or holds the predicate holds. -/
def Node.EachElement (P : Tag → List Node → Prop) : Node → Prop
  | .element tag children => P tag children ∧ EachElementIn P children
  | _ => True

/-- The same for nodes in a row. -/
def EachElementIn (P : Tag → List Node → Prop) : List Node → Prop
  | [] => True
  | node :: rest => node.EachElement P ∧ EachElementIn P rest

end

theorem eachElementIn_iff {P : Tag → List Node → Prop} {nodes : List Node} :
    EachElementIn P nodes ↔ ∀ node ∈ nodes, node.EachElement P := by
  induction nodes with
  | nil => simp [EachElementIn]
  | cons node rest ih => rw [EachElementIn, List.forall_mem_cons, ih]

mutual

/-- Of every element that a node is or holds the predicate holds in the scope around it. -/
def Node.EachInScope (P : Scope → Tag → List Node → Prop) (scope : Scope) : Node → Prop
  | .element tag children => P scope tag children ∧ EachInScopeIn P (tag.scope scope) children
  | _ => True

/-- The same for nodes in a row. -/
def EachInScopeIn (P : Scope → Tag → List Node → Prop) (scope : Scope) : List Node → Prop
  | [] => True
  | node :: rest => node.EachInScope P scope ∧ EachInScopeIn P scope rest

end

theorem eachInScopeIn_iff {P : Scope → Tag → List Node → Prop} {scope : Scope}
    {nodes : List Node} :
    EachInScopeIn P scope nodes ↔ ∀ node ∈ nodes, node.EachInScope P scope := by
  induction nodes with
  | nil => simp [EachInScopeIn]
  | cons node rest ih => rw [EachInScopeIn, List.forall_mem_cons, ih]

section Scoped

variable {P : Scope → Tag → List Node → Prop} {Q : Tag → List Node → Prop} {S : Scope → Prop}

mutual

/-- What holds in scopes holds without them, if the scopes are such as they should be. -/
theorem Node.EachInScope.eachElement
    (hstep : ∀ scope tag children, P scope tag children → S scope →
      Q tag children ∧ S (tag.scope scope)) {scope : Scope} (hscope : S scope) :
    (node : Node) → node.EachInScope P scope → node.EachElement Q
  | .element tag children, h => by
      obtain ⟨htag, hinner⟩ := hstep scope tag children h.1 hscope
      exact ⟨htag, EachInScopeIn.eachElementIn hstep hinner children h.2⟩
  | .text _, _ | .comment _ _, _ | .instruction _ _ _, _ | .entity _, _ => trivial

theorem EachInScopeIn.eachElementIn
    (hstep : ∀ scope tag children, P scope tag children → S scope →
      Q tag children ∧ S (tag.scope scope)) {scope : Scope} (hscope : S scope) :
    (nodes : List Node) → EachInScopeIn P scope nodes → EachElementIn Q nodes
  | [], _ => trivial
  | node :: rest, h =>
      ⟨Node.EachInScope.eachElement hstep hscope node h.1,
        EachInScopeIn.eachElementIn hstep hscope rest h.2⟩

end

end Scoped

theorem eachInScopeIn_consText {P : Scope → Tag → List Node → Prop} {scope : Scope}
    {nodes : List Node} (h : EachInScopeIn P scope nodes) (text : List Char) :
    EachInScopeIn P scope (consText text nodes) := by
  unfold consText
  split
  · exact h
  · split
    · exact ⟨trivial, h.2⟩
    · exact ⟨trivial, h⟩

theorem length_consText_le (text : List Char) (nodes : List Node) :
    (consText text nodes).length ≤ nodes.length + 1 := by
  unfold consText
  split
  · exact Nat.le_succ _
  · split
    · exact Nat.le_succ _
    · exact Nat.le_refl _

/-- **An element as it is read:** its tag is, and it does not hold more nodes than the bound. -/
def ElementAsRead (limit : Nat) (tag : Tag) (children : List Node) : Prop :=
  tag.AsRead ∧ children.length ≤ limit

/-- **An element as it is made** in the scope around it: of a name and attributes that were read,
and it does not hold more nodes than the bound. -/
def ElementMade (limit : Nat) (outer : Scope) (tag : Tag) (children : List Node) : Prop :=
  (∃ name written, IsName name.2 ∧ (∀ a ∈ written, a.AsRead) ∧ tag.MadeFrom outer name written) ∧
    children.length ≤ limit

/-- Elements that are made in scopes are as they are read. -/
theorem eachElement_of_made {limit : Nat} {scope : Scope} (hscope : scope.AsRead) {node : Node}
    (h : node.EachInScope (ElementMade limit) scope) :
    node.EachElement (ElementAsRead limit) := by
  refine h.eachElement (fun outer tag children hmade houter => ?_) hscope
  obtain ⟨⟨name, written, hname, hwritten, hmade⟩, hlength⟩ := hmade
  obtain ⟨hread, hinner⟩ := hmade.asRead houter hname hwritten
  exact ⟨⟨hread, hlength⟩, hinner⟩

theorem yields_comment : Yields comment fun node => node.element? = none := by
  unfold comment
  refine yields_then fun _ => yields_then fun _ => yields_then fun _ => yields_then fun _ => ?_
  exact yields_pure rfl

theorem yields_instruction : Yields instruction fun node => node.element? = none := by
  unfold instruction
  refine yields_then fun target => yields_then fun _ => yields_then fun ends => ?_
  split
  · exact yields_then fun _ => yields_pure rfl
  · refine yields_then fun _ => yields_then fun _ => yields_then fun _ => yields_then fun _ => ?_
    exact yields_pure rfl

/-- Nothing is asked of a node that is no element. -/
theorem Node.eachInScope_of_element?_eq_none {P : Scope → Tag → List Node → Prop} {scope : Scope}
    {node : Node} (h : node.element? = none) : node.EachInScope P scope := by
  cases node with
  | element tag children => cases h
  | _ => trivial

theorem Node.eachElement_of_element?_eq_none {P : Tag → List Node → Prop} {node : Node}
    (h : node.element? = none) : node.EachElement P := by
  cases node with
  | element tag children => cases h
  | _ => trivial

section Step

variable {prolog : Prolog} {limit bound : Nat}
  (hcontent : ∀ scope : Scope, Yields (content prolog bound scope) fun nodes =>
    EachInScopeIn (ElementMade limit) scope nodes ∧ nodes.length ≤ bound)

include hcontent

/-- An element is read with what it holds if its content is. -/
theorem yields_element_succ (hprolog : prolog.AsRead) (hbound : bound ≤ limit) (scope : Scope) :
    Yields (element prolog (bound + 1) scope) fun node =>
      node.EachInScope (ElementMade limit) scope := by
  unfold element
  refine yields_name.bind fun name hname => ?_
  refine (yields_attributes _ bound).bind fun written hwritten => yields_then fun line => ?_
  split
  · exact yields_fail
  · next tag inner htag =>
    obtain ⟨hmade, rfl⟩ := madeFrom_of_makeTag? htag
    have hmade : ∃ name written, IsName name.2 ∧ (∀ a ∈ written, a.AsRead) ∧
        tag.MadeFrom scope name written :=
      ⟨name, _, hname, hprolog.complete hwritten name, hmade⟩
    refine yields_then fun isEmpty => ?_
    split
    · exact yields_pure ⟨⟨hmade, Nat.zero_le _⟩, trivial⟩
    · -- the content stands in the scope of the tag, and its closing tag adds nothing
      refine yields_then fun _ => (hcontent _).bind fun children hchildren => ?_
      refine yields_then fun _ => yields_then fun closing => yields_then fun _ => ?_
      refine yields_then fun _ => yields_then fun _ => yields_pure ?_
      exact ⟨⟨hmade, by omega⟩, hchildren.1⟩

/-- One more node in front of the content. -/
theorem yields_node_succ {scope : Scope} {node : Node}
    (hnode : node.EachInScope (ElementMade limit) scope) :
    Yields (do return node :: (← content prolog bound scope)) fun nodes =>
      EachInScopeIn (ElementMade limit) scope nodes ∧ nodes.length ≤ bound + 1 := by
  refine (hcontent scope).bind fun nodes hnodes => yields_pure ?_
  exact ⟨⟨hnode, hnodes.1⟩, Nat.succ_le_succ hnodes.2⟩

/-- Text in front of the content may become part of the text that stands there. -/
theorem yields_text_succ (scope : Scope) (text : List Char) :
    Yields (do return consText text (← content prolog bound scope)) fun nodes =>
      EachInScopeIn (ElementMade limit) scope nodes ∧ nodes.length ≤ bound + 1 := by
  refine (hcontent scope).bind fun nodes hnodes => yields_pure ?_
  refine ⟨eachInScopeIn_consText hnodes.1 text, ?_⟩
  have hlength := length_consText_le text nodes
  omega

/-- Content is read if what it starts with and what follows are. -/
theorem yields_content_succ
    (helement : ∀ scope : Scope, Yields (element prolog bound scope) fun node =>
      node.EachInScope (ElementMade limit) scope) (scope : Scope) :
    Yields (content prolog (bound + 1) scope) fun nodes =>
      EachInScopeIn (ElementMade limit) scope nodes ∧ nodes.length ≤ bound + 1 := by
  have hcons : ∀ node : Node, node.EachInScope (ElementMade limit) scope → _ :=
    fun _ => yields_node_succ hcontent
  have htext := yields_text_succ hcontent scope
  unfold content
  refine yields_then fun rest => ?_
  split
  · exact yields_pure ⟨trivial, Nat.zero_le _⟩
  · exact yields_pure ⟨trivial, Nat.zero_le _⟩
  · -- markup: a comment, a literal section, an instruction or an element
    refine yields_then fun isComment => ?_
    split
    · exact yields_comment.bind fun node hnode =>
        hcons node (Node.eachInScope_of_element?_eq_none hnode)
    refine yields_then fun isLiteral => ?_
    split
    · exact yields_then fun _ => yields_then htext
    refine yields_then fun isInstruction => ?_
    split
    · exact yields_instruction.bind fun node hnode =>
        hcons node (Node.eachInScope_of_element?_eq_none hnode)
    · exact yields_then fun _ => (helement scope).bind hcons
  · -- a reference: a character, or an entity that stays as it is
    split
    · exact yields_fail
    · refine yields_then fun _ => ?_
      split
      · exact htext _
      · exact yields_then fun _ => hcons _ trivial
  · exact yields_then fun _ => yields_then fun _ => yields_then htext

end Step

/-- **Elements are read with what they hold,** one step of the bound for each node. -/
theorem yields_elements {prolog : Prolog} (hprolog : prolog.AsRead) (limit bound : Nat)
    (hbound : bound ≤ limit) :
    (∀ scope : Scope,
      Yields (element prolog bound scope) fun node => node.EachInScope (ElementMade limit) scope) ∧
    ∀ scope : Scope, Yields (content prolog bound scope) fun nodes =>
      EachInScopeIn (ElementMade limit) scope nodes ∧ nodes.length ≤ bound := by
  induction bound with
  | zero => exact ⟨fun _ => yields_fail, fun _ => yields_fail⟩
  | succ bound ih =>
      have hlower := Nat.le_of_succ_le hbound
      obtain ⟨helement, hcontent⟩ := ih hlower
      exact ⟨yields_element_succ hcontent hprolog hlower, yields_content_succ hcontent helement⟩

/-! ## Documents -/

theorem yields_miscellany (P : Tag → List Node → Prop) (bound : Nat) :
    Yields (miscellany bound) fun nodes => EachElementIn P nodes ∧ nodes.length ≤ bound := by
  induction bound with
  | zero => exact yields_pure ⟨trivial, Nat.le_refl _⟩
  | succ bound ih =>
      have hcons : ∀ node : Node, node.EachElement P →
          Yields (do return node :: (← miscellany bound)) fun nodes =>
            EachElementIn P nodes ∧ nodes.length ≤ bound + 1 := by
        intro node hnode
        refine ih.bind fun nodes hnodes => yields_pure ?_
        exact ⟨⟨hnode, hnodes.1⟩, Nat.succ_le_succ hnodes.2⟩
      unfold miscellany
      refine yields_then fun _ => yields_then fun isComment => ?_
      split
      · exact yields_comment.bind fun node hnode =>
          hcons node (Node.eachElement_of_element?_eq_none hnode)
      refine yields_then fun isInstruction => ?_
      split
      · exact yields_instruction.bind fun node hnode =>
          hcons node (Node.eachElement_of_element?_eq_none hnode)
      · exact yields_pure ⟨trivial, Nat.zero_le _⟩

/-- Of every element of a document the predicate holds. -/
def Document.EachElement (P : Tag → List Node → Prop) (document : Document) : Prop :=
  EachElementIn P (document.before ++ document.root.node :: document.after)

/-- **A document as it is read.** -/
structure Document.AsRead (limit : Nat) (document : Document) : Prop where
  elements : document.EachElement (ElementAsRead limit)
  /-- It does not hold more nodes than the bound. -/
  length : (document.before ++ document.root.node :: document.after).length ≤ limit

theorem yields_document (bound : Nat) : Yields (document bound) fun document =>
    document.AsRead (3 * bound + 1) ∧
      document.root.node.EachInScope (ElementMade (3 * bound + 1)) [] := by
  unfold document
  refine yields_then fun standalone => ?_
  refine (yields_miscellany (ElementAsRead (3 * bound + 1)) bound).bind fun first hfirst => ?_
  refine (yields_documentType bound standalone).bind fun prolog hprolog => ?_
  refine (yields_miscellany (ElementAsRead (3 * bound + 1)) bound).bind fun second hsecond => ?_
  refine yields_then fun _ => ?_
  have hroot := (yields_elements hprolog (3 * bound + 1) bound (by omega)).1 []
  refine hroot.bind fun root hroot => ?_
  refine (yields_miscellany (ElementAsRead (3 * bound + 1)) bound).bind fun after hafter => ?_
  refine yields_then fun rest => ?_
  split
  · refine yields_pure ⟨⟨?_, ?_⟩, hroot⟩
    · rw [eachElementIn_iff] at hfirst hsecond hafter
      rw [Document.EachElement, eachElementIn_iff]
      have hbefore := List.forall_mem_append.mpr ⟨hfirst.1, hsecond.1⟩
      have hempty : Scope.AsRead [] := nofun
      have hread := eachElement_of_made hempty hroot
      exact List.forall_mem_append.mpr ⟨hbefore, List.forall_mem_cons.mpr ⟨hread, hafter.1⟩⟩
    · simp only [List.length_append, List.length_cons]
      omega
  · exact yields_fail

/-- **A document of a text is as it is read,** and its elements are made in their scopes. -/
theorem made_of_read? {text : String} {document : Document} (h : read? text = some document) :
    document.AsRead (30 * text.length + 301) ∧
      document.root.node.EachInScope (ElementMade (30 * text.length + 301)) [] := by
  obtain ⟨⟨found, cursor⟩, hread, rfl⟩ := Option.map_eq_some_iff.mp h
  have hdocument := yields_document _ hread
  rwa [show 3 * (10 * text.length + 100) + 1 = 30 * text.length + 301 by omega] at hdocument

/-- **A document of a text is as it is read.** -/
theorem asRead_of_read? {text : String} {document : Document} (h : read? text = some document) :
    document.AsRead (30 * text.length + 301) :=
  (made_of_read? h).1

/-! ## Comparing documents -/

mutual

def Node.same : Node → Node → Bool
  | .element tag children, .element tag' children' => tag == tag' && sameNodes children children'
  | .text content, .text content' => content == content'
  | .comment content line, .comment content' line' => content == content' && line == line'
  | .instruction target content line, .instruction target' content' line' =>
      target == target' && content == content' && line == line'
  | .entity name, .entity name' => name == name'
  | _, _ => false

/-- The nodes in a row are the same. -/
def sameNodes : List Node → List Node → Bool
  | [], [] => true
  | node :: rest, node' :: rest' => node.same node' && sameNodes rest rest'
  | _, _ => false

end

mutual

theorem Node.same_iff : ∀ a b : Node, a.same b = true ↔ a = b
  | .element tag children, b => by cases b <;> simp [Node.same, sameNodes_iff children]
  | .text content, b => by cases b <;> simp [Node.same]
  | .comment content line, b => by cases b <;> simp [Node.same]
  | .instruction target content line, b => by cases b <;> simp [Node.same, and_assoc]
  | .entity name, b => by cases b <;> simp [Node.same]

theorem sameNodes_iff : ∀ a b : List Node, sameNodes a b = true ↔ a = b
  | [], b => by cases b <;> simp [sameNodes]
  | node :: rest, b => by cases b <;> simp [sameNodes, node.same_iff, sameNodes_iff rest]

end

instance : DecidableEq Node := fun a b => decidable_of_iff _ (a.same_iff b)

deriving instance DecidableEq for Element, Document

end OscalValidation.Xml

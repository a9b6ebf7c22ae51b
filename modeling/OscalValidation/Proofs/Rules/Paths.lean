import OscalValidation.Proofs.Rules.Location
import OscalValidation.Proofs.XPath.Naming
import OscalValidation.Proofs.Xml.Reading

set_option autoImplicit false

/-! # Lines of the elements of a document

An element of a document has two paths: one whose steps give namespaces in braces and a number each
(`bracedPath`), and one whose steps have conditions on names and a number only where it is needed
(`conditionPath`). Both mean named steps, which lead to the element alone. Main statement: in a
document that was read the line of either path is that of the element, also with a step to an
attribute after it (`line_of_path`).
-/

namespace OscalValidation

open Conversion (IsName IsWritable)
open XPath (Focus Expr Value NamePart NamedStep)

namespace Location

/-! ## Paths of elements -/

/-- A step that gives the namespace in braces and the number among the siblings of the name. -/
def bracedStep (name : Xml.Name) (n : Nat) : String :=
  "/Q\x7b" ++ NamePart.namespaceUri.of name ++ "\x7d" ++ name.localName ++ "[" ++ n.repr ++ "]"

/-- **The path of an element whose steps give namespaces in braces** and a number each. -/
def bracedPath : Focus → String
  | .childAt parent index (.element tag children) =>
      let self := Focus.childAt parent index (.element tag children)
      bracedPath parent ++ bracedStep tag.name (self.numberAmong tag.name)
  | _ => ""

/-- A step with conditions on the name, and a number if one is given. -/
def conditionStep (name : Xml.Name) (position : Option Nat) : String :=
  "/*[local-name()='" ++ name.localName ++ "' and namespace-uri()='" ++
    NamePart.namespaceUri.of name ++ "']" ++
    match position with
    | none => ""
    | some n => "[" ++ n.repr ++ "]"

/-- **The path of an element whose steps have conditions on names,** and a number only where there
are several siblings of the name. -/
def conditionPath : Focus → String
  | .childAt parent index (.element tag children) =>
      let self := Focus.childAt parent index (.element tag children)
      conditionPath parent ++ conditionStep tag.name (self.position false tag.name)
  | _ => ""

/-- **The path is one of those of the element.** -/
inductive IsPathOf (node : Focus) : String → Prop
  | braced : IsPathOf node (bracedPath node)
  | conditions : IsPathOf node (conditionPath node)

/-- The named steps from the document to an element; a number is given always, or where there are
several siblings of the name. -/
def stepsTo (first : NamePart) (always : Bool) : Focus → List NamedStep
  | .childAt parent index (.element tag children) =>
      let self := Focus.childAt parent index (.element tag children)
      stepsTo first always parent ++ [⟨first, tag.name, self.position always tag.name⟩]
  | _ => []

/-! ## What the steps lead to -/

/-- The node can have elements in it. -/
def isBranch : Focus → Bool
  | .document _ => true
  | .childAt _ _ (.element ..) => true
  | _ => false

theorem isBranch_of_mem_children {node parent : Focus} (h : node ∈ parent.children) :
    isBranch parent = true := by
  cases parent with
  | document content => rfl
  | childAt outer index inner =>
      cases inner with
      | element tag children => rfl
      | _ => cases h
  | attributeAt outer index content => cases h

variable {document : Xml.Document}

/-- **The steps to an element lead to it alone,** by induction on the way to it. -/
theorem eval?_stepsTo (first : NamePart) (always : Bool)
    (hcount : ∀ node : Focus, node.IsOf document → node.contents.length < 2 ^ 53) :
    ∀ node : Focus, node.IsOf document → isBranch node = true →
      ((stepsTo first always node).foldl NamedStep.expr .root).eval? {} ⟨start document, 1, 1⟩ =
        some (.nodes [node]) := by
  intro node
  induction node with
  | document content =>
      intro hof _
      cases hof
      show some (Value.nodes [_]) = _
      rw [(selectable_start document).1.outermost]
  | childAt parent index inner ih =>
      intro hof hbranch
      cases inner with
      | element tag children =>
          obtain ⟨hparent, hchild⟩ := hof
          have hsource := ih hparent (isBranch_of_mem_children hchild)
          have hchildren : parent.children.length < 2 ^ 53 := by
            rw [Focus.children, List.length_map, List.length_zipIdx]
            exact hcount parent hparent
          rw [stepsTo, List.foldl_append, List.foldl_cons, List.foldl_nil,
            NamedStep.eval?_expr hsource ?_ hchildren, Focus.found_of_position first always hchild,
            Focus.inOrder_singleton]
          -- a number that a step gives is one that doubles hold exactly
          intro n hn
          unfold Focus.position at hn
          split at hn
          · cases hn
            exact ⟨Nat.succ_pos _,
              Nat.lt_of_le_of_lt (Focus.numberAmong_le hchild tag.name) hchildren⟩
          · cases hn
      | _ => cases hbranch
  | attributeAt parent index content =>
      intro _ hbranch
      cases hbranch

/-! ## What the paths mean -/

/-- With enough steps the characters become others when steps with a namespace in braces are
written as conditions. -/
def Expands (cs expanded : List Char) : Prop :=
  ∀ bound, cs.length ≤ bound → expandWithin bound cs = expanded

theorem expands_nil : Expands [] [] := by
  intro bound _
  cases bound <;> rfl

/-- A character at which no such step begins stands as it is. -/
theorem Expands.cons_of_none {c : Char} {cs expanded : List Char} (h : Expands cs expanded)
    (hstep : bracedStep? (c :: cs) = none) : Expands (c :: cs) (c :: expanded) := by
  intro bound hbound
  obtain ⟨bound, rfl⟩ : ∃ b, bound = b + 1 := ⟨bound - 1, by simp at hbound; omega⟩
  rw [expandWithin, hstep]
  dsimp only
  rw [h bound (by simpa using hbound)]

theorem Expands.cons {c : Char} {cs expanded : List Char} (h : Expands cs expanded) (hc : c ≠ 'Q') :
    Expands (c :: cs) (c :: expanded) := by
  apply h.cons_of_none
  cases hfound : bracedStep? (c :: cs) with
  | none => rfl
  | some found => exact absurd (List.cons_eq_cons.mp (eq_of_bracedStep? hfound)).1 hc

theorem Expands.append {before cs expanded : List Char} (h : Expands cs expanded)
    (hbefore : 'Q' ∉ before) : Expands (before ++ cs) (before ++ expanded) := by
  induction before with
  | nil => exact h
  | cons c more ih =>
      rw [List.mem_cons, not_or] at hbefore
      exact (ih hbefore.2).cons (Ne.symm hbefore.1)

/-- Without a closing brace nothing is a step with a namespace in braces. -/
theorem expands_self {cs : List Char} (h : '\x7d' ∉ cs) : Expands cs cs := by
  induction cs with
  | nil => exact expands_nil
  | cons c more ih =>
      have hmore := ih fun hmem => h (List.mem_cons_of_mem c hmem)
      have hstep : bracedStep? (c :: more) = none := by
        cases hfound : bracedStep? (c :: more) with
        | none => rfl
        | some found =>
            rw [eq_of_bracedStep? hfound] at h
            simp at h
      exact hmore.cons_of_none hstep

/-- Such a step becomes a condition on both parts of the name. -/
theorem Expands.braced {uri name cs expanded : List Char} (h : Expands cs expanded)
    (huri : '\x7d' ∉ uri) (hname : ∀ c ∈ name, isStepNameChar c = true) (hne : name ≠ [])
    (hcs : ∀ c ∈ cs.head?, isStepNameChar c = false) :
    Expands ('Q' :: '\x7b' :: (uri ++ '\x7d' :: (name ++ cs)))
      ("*[namespace-uri()='".toList ++ uri ++ "' and local-name()='".toList ++ name ++
        "']".toList ++ expanded) := by
  intro bound hbound
  obtain ⟨bound, rfl⟩ : ∃ b, bound = b + 1 := ⟨bound - 1, by simp at hbound; omega⟩
  have hstep : bracedStep? ('Q' :: '\x7b' :: (uri ++ '\x7d' :: (name ++ cs))) =
      some (uri, name, cs) := by
    have hkeep : ∀ c ∈ uri, (c != '\x7d') = true := by
      intro c hc
      rw [bne_iff_ne]
      rintro rfl
      exact huri hc
    have hstop : ∀ c ∈ ('\x7d' :: (name ++ cs)).head?, (c != '\x7d') = false := by
      rintro c ⟨⟩
      rfl
    obtain ⟨htake, hdrop⟩ := XPath.takeWhile_dropWhile_append hkeep hstop
    obtain ⟨htake', hdrop'⟩ := XPath.takeWhile_dropWhile_append hname hcs
    have hname' : name.isEmpty = false := by simpa using hne
    rw [bracedStep?, hdrop]
    dsimp only
    rw [htake, htake', hdrop', hname']
    rfl
  rw [expandWithin, hstep]
  dsimp only
  rw [h bound (by simp at hbound; omega)]

/-- **The name can stand in a path:** its local part is made of the characters of such steps, and
its namespace holds no mark at which a literal or a brace would end. -/
def isPlainName (name : Xml.Name) : Bool :=
  name.localName.toList.all isStepNameChar &&
    (NamePart.namespaceUri.of name).toList.all fun c => c != '\'' && c != '\x7d'

/-- **The node is an element of the document,** with this tag. -/
inductive IsElementOf (document : Xml.Document) (tag : Xml.Tag) : Focus → Prop
  /-- It is a child of a node, and holds what it holds. -/
  | intro {parent : Focus} {index : Nat} {children : List Xml.Node}
      (h : (Focus.childAt parent index (.element tag children)).IsOf document) :
      IsElementOf document tag (.childAt parent index (.element tag children))

/-- What is needed of a document for its paths. -/
structure Addressable (document : Xml.Document) : Prop where
  tags : ∀ {tag : Xml.Tag} {e : Focus}, IsElementOf document tag e → tag.AsRead
  /-- Their names can stand in paths. -/
  names : ∀ {tag : Xml.Tag} {e : Focus}, IsElementOf document tag e →
    isPlainName tag.name = true
  /-- What a node holds can be counted. -/
  counts : ∀ node : Focus, node.IsOf document → node.contents.length < 2 ^ 53

theorem toList_bracedStep (name : Xml.Name) (n : Nat) (cs : List Char) :
    (bracedStep name n).toList ++ cs = '/' :: 'Q' :: '\x7b' ::
      ((NamePart.namespaceUri.of name).toList ++ '\x7d' ::
        (name.localName.toList ++ '[' :: (n.repr.toList ++ ']' :: cs))) := by
  have hopen : "/Q\x7b".toList = ['/', 'Q', '\x7b'] := by decide
  have hclose : "\x7d".toList = ['\x7d'] := by decide
  have hleft : "[".toList = ['['] := by decide
  have hright : "]".toList = [']'] := by decide
  simp only [bracedStep, String.toList_append, List.append_assoc, hopen, hclose, hleft, hright,
    List.cons_append, List.nil_append]

theorem toList_conditionStep (name : Xml.Name) (position : Option Nat) (cs : List Char) :
    (conditionStep name position).toList ++ cs =
      NamedStep.text ⟨.localName, name, position⟩ cs := by
  have hopen : "/*[local-name()='".toList =
      '/' :: '*' :: '[' :: ("local-name".toList ++ ['(', ')', '=', '\'']) := by decide
  have hand : "' and namespace-uri()='".toList = '\'' :: ' ' :: 'a' :: 'n' :: 'd' :: ' ' ::
      ("namespace-uri".toList ++ ['(', ')', '=', '\'']) := by decide
  have hclose : "']".toList = ['\'', ']'] := by decide
  have hleft : "[".toList = ['['] := by decide
  have hright : "]".toList = [']'] := by decide
  unfold conditionStep
  cases position with
  | none =>
      dsimp only
      simp only [String.toList_append, String.toList_empty, hopen, hand, hclose, List.append_assoc,
        List.cons_append, List.nil_append]
      rfl
  | some n =>
      dsimp only
      simp only [String.toList_append, hopen, hand, hclose, hleft, hright, List.append_assoc,
        List.cons_append, List.nil_append]
      rfl

theorem conditionText_braced (name : Xml.Name) (n : Nat) (cs : List Char) :
    '/' :: ("*[namespace-uri()='".toList ++ (NamePart.namespaceUri.of name).toList ++
        "' and local-name()='".toList ++ name.localName.toList ++ "']".toList ++
        '[' :: (n.repr.toList ++ ']' :: cs)) =
      NamedStep.text ⟨.namespaceUri, name, some n⟩ cs := by
  have hopen : "*[namespace-uri()='".toList =
      '*' :: '[' :: ("namespace-uri".toList ++ ['(', ')', '=', '\'']) := by decide
  have hand : "' and local-name()='".toList = '\'' :: ' ' :: 'a' :: 'n' :: 'd' :: ' ' ::
      ("local-name".toList ++ ['(', ')', '=', '\'']) := by decide
  have hclose : "']".toList = ['\'', ']'] := by decide
  simp only [hopen, hand, hclose, List.append_assoc, List.cons_append, List.nil_append]
  rfl

theorem expands_bracedPath (h : Addressable document) :
    ∀ node : Focus, node.IsOf document → ∀ {cs expanded : List Char}, Expands cs expanded →
      Expands ((bracedPath node).toList ++ cs)
        ((stepsTo .namespaceUri true node).foldr NamedStep.text expanded) := by
  intro node
  induction node with
  | document content => exact fun _ _ _ hcs => hcs
  | attributeAt parent index content => exact fun _ _ _ hcs => hcs
  | childAt parent index inner ih =>
      intro hof cs expanded hcs
      cases inner with
      | element tag children =>
          have hplain := h.names (.intro hof)
          rw [isPlainName, Bool.and_eq_true, List.all_eq_true, List.all_eq_true] at hplain
          have huri : '\x7d' ∉ (NamePart.namespaceUri.of tag.name).toList := by
            intro hmem
            simpa using hplain.2 _ hmem
          have hdigits (n : Nat) : 'Q' ∉ n.repr.toList := fun hmem => by
            cases XPath.isDigit_of_mem_repr hmem
          have hne : tag.name.localName.toList ≠ [] := by
            intro hnil
            have hname := (h.tags (.intro hof)).name
            rw [IsName, hnil] at hname
            cases hname
          rw [stepsTo, List.foldr_append, bracedPath, String.toList_append, List.append_assoc,
            toList_bracedStep]
          -- what follows the steps before is this step and the rest, both written anew
          apply ih hof.1
          rw [Focus.position_always, List.foldr_cons, List.foldr_nil, ← conditionText_braced]
          refine Expands.cons (Expands.braced ?_ huri hplain.1 hne ?_) (by decide)
          · exact ((hcs.cons (by decide)).append (hdigits _)).cons (by decide)
          · rintro c ⟨⟩
            decide
      | _ => exact hcs

theorem conditionPath_append :
    ∀ (node : Focus) (cs : List Char), (conditionPath node).toList ++ cs =
      (stepsTo .localName false node).foldr NamedStep.text cs := by
  intro node
  induction node with
  | document content => exact fun _ => rfl
  | attributeAt parent index content => exact fun _ => rfl
  | childAt parent index inner ih =>
      intro cs
      cases inner with
      | element tag children =>
          rw [stepsTo, List.foldr_append, conditionPath, String.toList_append, List.append_assoc,
            toList_conditionStep, ih]
          rfl
      | _ => rfl

/-! ## Characters of paths -/

/-- The characters of steps besides those of names and numbers. -/
def stepMarks : List Char := "/*[local-name()='' and namespace-uri()='']".toList

theorem forall_mem_text {p : Char → Bool} (hmarks : stepMarks.all p = true)
    (hdigits : ∀ c : Char, c.isDigit = true → p c = true) {s : NamedStep}
    (hname : ∀ part : NamePart, ∀ c ∈ (part.of s.name).toList, p c = true) {rest : List Char}
    (hrest : ∀ c ∈ rest, p c = true) : ∀ c ∈ s.text rest, p c = true := by
  have hmark {c : Char} (hc : c ∈ stepMarks) : p c = true := List.all_eq_true.mp hmarks c hc
  have hfunction : ∀ part : NamePart, ∀ c ∈ part.function.toList, p c = true := by
    intro part c hc
    have hall : part.function.toList ⊆ stepMarks := by cases part <;> decide
    exact hmark (hall hc)
  have hcondition : ∀ (part : NamePart) {more : List Char}, (∀ c ∈ more, p c = true) →
      ∀ c ∈ part.conditionText (part.of s.name) more, p c = true := by
    intro part more hmore
    unfold NamePart.conditionText
    simp only [List.forall_mem_append, List.forall_mem_cons]
    exact ⟨hfunction part, hmark (by decide), hmark (by decide), hmark (by decide),
      hmark (by decide), hname part, hmark (by decide), hmore⟩
  have hposition : ∀ c ∈ NamedStep.positionText s.position rest, p c = true := by
    cases s.position with
    | none => exact hrest
    | some n =>
        unfold NamedStep.positionText
        simp only [List.forall_mem_append, List.forall_mem_cons]
        exact ⟨hmark (by decide), fun c hc => hdigits c (XPath.isDigit_of_mem_repr hc), hmark (by decide), hrest⟩
  unfold NamedStep.text NamedStep.nameText
  simp only [List.forall_mem_cons]
  refine ⟨hmark (by decide), hmark (by decide), hmark (by decide), hcondition _ ?_⟩
  simp only [List.forall_mem_cons]
  refine ⟨hmark (by decide), hmark (by decide), hmark (by decide), hmark (by decide),
    hmark (by decide), hcondition _ ?_⟩
  exact List.forall_mem_cons.mpr ⟨hmark (by decide), hposition⟩

theorem forall_mem_foldr_text {p : Char → Bool} (hmarks : stepMarks.all p = true)
    (hdigits : ∀ c : Char, c.isDigit = true → p c = true) {steps : List NamedStep}
    (hnames : ∀ s ∈ steps, ∀ part : NamePart, ∀ c ∈ (part.of s.name).toList, p c = true)
    {after : List Char} (hafter : ∀ c ∈ after, p c = true) :
    ∀ c ∈ steps.foldr NamedStep.text after, p c = true := by
  induction steps with
  | nil => exact hafter
  | cons s more ih =>
      obtain ⟨hs, hmore⟩ := List.forall_mem_cons.mp hnames
      exact forall_mem_text hmarks hdigits hs (ih hmore)

/-- The characters of a plain name end no literal and no brace, and can be written. -/
theorem char_of_part {tag : Xml.Tag} (hplain : isPlainName tag.name = true) (htag : tag.AsRead)
    (part : NamePart) {c : Char} (hc : c ∈ (part.of tag.name).toList) :
    c ≠ '\'' ∧ c ≠ '\x7d' ∧ Xml.isChar c = true := by
  rw [isPlainName, Bool.and_eq_true, List.all_eq_true, List.all_eq_true] at hplain
  cases part with
  | localName =>
      have hchar := hplain.1 c hc
      refine ⟨?_, ?_, htag.name.writable c hc⟩
      · rintro rfl
        revert hchar
        decide
      · rintro rfl
        revert hchar
        decide
  | namespaceUri =>
      have hchar := hplain.2 c hc
      rw [Bool.and_eq_true, bne_iff_ne, bne_iff_ne] at hchar
      refine ⟨hchar.1, hchar.2, ?_⟩
      cases hname : tag.name.uri with
      | none => simp [NamePart.of, hname] at hc
      | some uri =>
          refine htag.uri uri hname c ?_
          simpa [NamePart.of, hname] using hc

/-- **What is needed of the steps to an element:** their names hold nothing at which a literal or a
brace would end, and can be written. -/
theorem names_of_stepsTo (h : Addressable document) (first : NamePart) (always : Bool) :
    ∀ node : Focus, node.IsOf document → ∀ s ∈ stepsTo first always node, ∀ part : NamePart,
      ∀ c ∈ (part.of s.name).toList, c ≠ '\'' ∧ c ≠ '\x7d' ∧ Xml.isChar c = true := by
  intro node
  induction node with
  | document content => exact fun _ _ hs => nomatch hs
  | attributeAt parent index content => exact fun _ _ hs => nomatch hs
  | childAt parent index inner ih =>
      intro hof s hs
      cases inner with
      | element tag children =>
          rcases List.mem_append.mp hs with hs | hs
          · exact ih hof.1 s hs
          · rw [List.mem_singleton.mp hs]
            exact fun part c hc => char_of_part (h.names (.intro hof)) (h.tags (.intro hof)) part hc
      | _ => cases hs

/-! ## Lines of paths -/

/-- Both are read as named steps, also with a step after them. -/
theorem exists_stepsTo (h : Addressable document) {node : Focus} (hnode : node.IsOf document)
    {path : String} (hpath : IsPathOf node path) (suffix : String)
    (hsuffix : '\x7d' ∉ suffix.toList) :
    ∃ first always, expand (path ++ suffix) =
      String.ofList ((stepsTo first always node).foldr NamedStep.text suffix.toList) := by
  cases hpath with
  | braced =>
      refine ⟨.namespaceUri, true, ?_⟩
      have hexpands := expands_bracedPath h node hnode (expands_self hsuffix)
      rw [expand, String.toList_append, hexpands _ (Nat.le_refl _)]
  | conditions =>
      refine ⟨.localName, false, ?_⟩
      -- no brace is closed in such a path, so that it stays as it is
      have hnone : '\x7d' ∉ (stepsTo .localName false node).foldr NamedStep.text suffix.toList := by
        intro hmem
        refine bne_iff_ne.mp
          (forall_mem_foldr_text (p := fun c => c != '\x7d') (by decide) ?_ ?_ ?_ _ hmem) rfl
        · intro c hc
          rw [bne_iff_ne]
          rintro rfl
          cases hc
        · intro s hs part c hc
          exact bne_iff_ne.mpr (names_of_stepsTo h _ _ node hnode s hs part c hc).2.1
        · intro c hc
          rw [bne_iff_ne]
          rintro rfl
          exact hsuffix hc
      rw [expand, String.toList_append, conditionPath_append]
      rw [expands_self hnone _ (by rw [← conditionPath_append])]

/-- The line of a path that has nodes as its value. -/
theorem line_of_value {path : String} {cs : List Char} (hexpand : expand path = String.ofList cs)
    (hne : cs ≠ []) (hchars : ∀ c ∈ cs, Xml.isChar c = true) {nodes : List Focus}
    (hselect : select document (String.ofList cs) = nodes) :
    Location.line document (some path) = .ok (nodes.head?.bind lineOf) := by
  unfold line
  split
  · next heq => cases heq
  · next heq =>
    cases heq
    have hempty : String.ofList cs = "" := hexpand.symm
    have hnil := congrArg String.toList hempty
    rw [String.toList_ofList] at hnil
    exact absurd hnil hne
  · next path' _ heq =>
    cases heq
    have hwritable : IsWritable (String.ofList cs) := by
      rw [IsWritable, String.toList_ofList]
      exact hchars
    dsimp only
    rw [hexpand, Conversion.checkText_of_writable hwritable, hselect]
    rfl

theorem select_of_value {path : String} {e : Expr} {nodes : List Focus}
    (hread : Expr.read? path = some e)
    (hvalue : e.eval? {} ⟨start document, 1, 1⟩ = some (.nodes nodes)) :
    select document path = nodes.filter isInner := by
  have hvalue' : e.eval? {} ⟨.childAt (.document document) document.before.length
      document.root.node, 1, 1⟩ = some (.nodes nodes) := hvalue
  unfold select
  simp only [hread, hvalue']

/-- An attribute has the line of its element. -/
theorem lineOf_attribute {parent : Focus} {index : Nat} {tag : Xml.Tag} {children : List Xml.Node}
    {node : Focus} (h : node ∈ (Focus.childAt parent index (.element tag children)).attributes) :
    isInner node = true ∧ lineOf node = tag.line := by
  obtain ⟨⟨content, i⟩, -, rfl⟩ := List.mem_map.mp h
  refine ⟨rfl, ?_⟩
  rw [lineOf_of_no_own rfl]
  show (some tag.line).join = _
  exact Option.join_some

variable {tag : Xml.Tag} {e : Focus}

/-- The steps to an element are not missing, can be read and are written with characters that
markup can hold. -/
theorem stepsTo_element (h : Addressable document) (he : IsElementOf document tag e)
    (first : NamePart) (always : Bool) :
    stepsTo first always e ≠ [] ∧ (∀ s ∈ stepsTo first always e, s.IsPlain) ∧
      ∀ after : List Char, (∀ c ∈ after, Xml.isChar c = true) →
        ∀ c ∈ (stepsTo first always e).foldr NamedStep.text after, Xml.isChar c = true := by
  cases he with
  | intro hof =>
      have hnames := names_of_stepsTo h first always _ hof
      refine ⟨?_, ?_, ?_⟩
      · rw [stepsTo]
        exact List.append_ne_nil_of_right_ne_nil _ (List.cons_ne_nil _ _)
      · exact fun s hs part hmem => (hnames s hs part _ hmem).1 rfl
      · intro after hafter
        refine forall_mem_foldr_text (by decide) ?_ ?_ hafter
        · intro c hc
          rw [Char.isDigit, Bool.and_eq_true, decide_eq_true_eq, decide_eq_true_eq] at hc
          have hlow : 48 ≤ c.toNat := hc.1
          have hhigh : c.toNat ≤ 57 := hc.2
          simp only [Xml.isChar, Bool.or_eq_true, Bool.and_eq_true, decide_eq_true_eq, bne_iff_ne]
          right
          omega
        · exact fun s hs part c hc => (hnames s hs part c hc).2.2

/-- The steps to an element have it alone as their value. -/
theorem eval?_element (h : Addressable document) (he : IsElementOf document tag e)
    (first : NamePart) (always : Bool) :
    ((stepsTo first always e).foldl NamedStep.expr .root).eval? {} ⟨start document, 1, 1⟩ =
      some (.nodes [e]) := by
  cases he with
  | intro hof => exact eval?_stepsTo first always h.counts _ hof rfl

/-- **The path of an element leads to it alone.** -/
theorem select_element (h : Addressable document) (he : IsElementOf document tag e)
    (first : NamePart) (always : Bool) :
    select document (String.ofList ((stepsTo first always e).foldr NamedStep.text [])) = [e] := by
  obtain ⟨hne, hplain, -⟩ := stepsTo_element h he first always
  have hread := XPath.read?_steps hne hplain [] (fun c hc => nomatch hc)
    ((XPath.reads_end _).mono (by decide))
  rw [select_of_value hread (eval?_element h he first always)]
  cases he with
  | intro hof => rfl

/-- **With a step to one of its attributes after it,** it leads to attributes of the element. -/
theorem select_attribute (h : Addressable document) (he : IsElementOf document tag e)
    (first : NamePart) (always : Bool) {a : Xml.Attribute} (ha : a ∈ tag.attributes)
    (huri : a.name.uri = none) :
    ∃ node more, select document (String.ofList ((stepsTo first always e).foldr NamedStep.text
      ('/' :: '@' :: a.name.localName.toList))) = node :: more ∧ lineOf node = tag.line := by
  obtain ⟨hne, hplain, -⟩ := stepsTo_element h he first always
  have hread := XPath.read?_steps hne hplain ('/' :: '@' :: a.name.localName.toList)
    (fun c hc => by cases hc; rfl)
    ((XPath.reads_attribute _ ((h.tags he).attributes a ha)).mono (by decide))
  have hvalue := XPath.eval?_attribute (eval?_element h he first always) a.name.localName
  cases he with
  | @intro parent index children hof =>
      let self := Focus.childAt parent index (.element tag children)
      obtain ⟨i, hi⟩ := List.mem_iff_getElem?.mp ha
      have hmem : Focus.attributeAt self i a ∈ self.attributes :=
        List.mem_map.mpr ⟨(a, i), List.mem_zipIdx_iff_getElem?.mpr hi, rfl⟩
      have hnamed : XPath.isAttributeNamed a.name.localName (.attributeAt self i a) = true := by
        simp [XPath.isAttributeNamed, huri]
      obtain ⟨node, more, hinOrder, hnode⟩ :=
        Focus.exists_inOrder_eq_cons (List.ne_nil_of_mem (List.mem_filter.mpr ⟨hmem, hnamed⟩))
      obtain ⟨hinner, hline⟩ := lineOf_attribute (List.mem_filter.mp hnode).1
      rw [select_of_value hread hvalue, hinOrder, List.filter_cons_of_pos hinner]
      exact ⟨node, _, rfl, hline⟩

/-! ## Documents that are read -/

/-- What holds of each element of a document holds of those in each of its nodes. -/
theorem eachElementIn_contents {P : Xml.Tag → List Xml.Node → Prop}
    (h : document.EachElement P) :
    ∀ node : Focus, node.IsOf document → Xml.EachElementIn P node.contents := by
  intro node
  induction node with
  | document content =>
      intro hof
      cases hof
      exact h
  | attributeAt parent index content => exact fun _ => trivial
  | childAt parent index inner ih =>
      intro hof
      have hinner : inner ∈ parent.contents :=
        List.mem_of_getElem? (Focus.mem_children_iff.mp hof.2)
      have heach := Xml.eachElementIn_iff.mp (ih hof.1) inner hinner
      cases inner with
      | element tag children => exact heach.2
      | _ => trivial

theorem eachElement_element {P : Xml.Tag → List Xml.Node → Prop} (h : document.EachElement P)
    (he : IsElementOf document tag e) : P tag e.contents := by
  cases he with
  | @intro parent index children hof =>
      exact (Xml.eachElementIn_iff.mp (eachElementIn_contents h parent hof.1) _
        (List.mem_of_getElem? (Focus.mem_children_iff.mp hof.2))).1

/-- A document that is read from a text that fits into memory has paths. -/
theorem addressable_of_read? {text : String} (hread : Xml.read? text = some document)
    (hsize : text.length ≤ 2 ^ 48)
    (hplain : document.EachElement fun tag _ => isPlainName tag.name = true) :
    Addressable document := by
  have hdocument := Xml.asRead_of_read? hread
  refine ⟨fun he => (eachElement_element hdocument.elements he).1,
    fun he => eachElement_element hplain he, fun node hof => ?_⟩
  have hlimit : 30 * text.length + 301 < 2 ^ 53 := by omega
  refine Nat.lt_of_le_of_lt ?_ hlimit
  cases node with
  | document content =>
      cases hof
      exact hdocument.length
  | childAt outer i inner =>
      cases inner with
      | element tag' children' => exact (eachElement_element hdocument.elements (.intro hof)).2
      | _ => exact Nat.zero_le _
  | attributeAt outer i content => exact Nat.zero_le _

/-- **The line of an element is found by its paths.** A path leads to the element alone, so that its
namesakes do not get this line for theirs; with a step to one of its attributes it has the same
line. Paths count in doubles, which are exact up to `2 ^ 53`; no text that markup is read from comes
near the bound. -/
theorem line_of_path {text : String} (hread : Xml.read? text = some document)
    (hsize : text.length ≤ 2 ^ 48)
    (hplain : document.EachElement fun tag _ => isPlainName tag.name = true)
    (he : IsElementOf document tag e) {path : String} (hpath : IsPathOf e path) :
    (∀ node, Selects document path node ↔ node = e) ∧
    ∃ line, tag.line = some line ∧ Location.line document (some path) = .ok (some line) ∧
      ∀ a ∈ tag.attributes, a.name.uri = none →
        Location.line document (some (path ++ "/@" ++ a.name.localName)) = .ok (some line) := by
  have h := addressable_of_read? hread hsize hplain
  have hnode : lineOf e = tag.line := by
    cases he with
    | intro hof => rfl
  have hinner : e.IsOf document := by
    cases he with
    | intro hof => exact hof
  obtain ⟨line, hline⟩ := (h.tags he).line
  obtain ⟨first, always, hexpand⟩ := exists_stepsTo h hinner hpath "" (by decide)
  rw [String.append_empty, String.toList_empty] at hexpand
  obtain ⟨hne, -, hchars⟩ := stepsTo_element h he first always
  have hselect := select_element h he first always
  refine ⟨fun node => ?_, line, hline, ?_, fun a ha huri => ?_⟩
  · rw [selects_iff, hexpand, hselect, List.mem_singleton]
  · rw [line_of_value hexpand (XPath.foldr_text_ne_nil hne []) (hchars [] nofun) hselect]
    show Except.ok (lineOf e) = _
    rw [hnode, hline]
  · -- the step to the attribute is part of the value that the path is read with
    have hname := (h.tags he).attributes a ha
    have hbrace : '\x7d' ∉ ("/@" ++ a.name.localName).toList := by
      rw [String.toList_append, List.mem_append, not_or]
      exact ⟨by decide, hname.not_mem (by decide)⟩
    obtain ⟨first, always, hexpand⟩ := exists_stepsTo h hinner hpath _ hbrace
    obtain ⟨hne, -, hchars⟩ := stepsTo_element h he first always
    obtain ⟨node, more, hselect, hnode⟩ := select_attribute h he first always ha huri
    have hsuffix : ("/@" ++ a.name.localName).toList = '/' :: '@' :: a.name.localName.toList := by
      rw [String.toList_append]
      rfl
    rw [hsuffix, ← String.append_assoc] at hexpand
    rw [line_of_value hexpand (XPath.foldr_text_ne_nil hne _) (hchars _ ?_) hselect]
    · show Except.ok (lineOf node) = _
      rw [hnode, hline]
    · exact List.forall_mem_cons.mpr ⟨by decide,
        List.forall_mem_cons.mpr ⟨by decide, hname.writable⟩⟩

/-- A tag without attributes, of a name in one namespace. -/
def plainTag (localName : String) (line : Nat) : Xml.Tag :=
  ⟨⟨none, some "u", localName⟩, [], [], some line⟩

/-- A document with two siblings of one name. -/
def twins : Xml.Document :=
  ⟨[], ⟨{ plainTag "a" 1 with declarations := [⟨none, "u"⟩] },
    [.text "\n", .element (plainTag "b" 2) [], .text "\n",
      .element { plainTag "b" 3 with attributes := [⟨⟨none, none, "k"⟩, "", false⟩] } []]⟩, []⟩

def secondTwin : Focus :=
  .childAt (.childAt (.document twins) 0 twins.root.node) 3
    (.element { plainTag "b" 3 with attributes := [⟨⟨none, none, "k"⟩, "", false⟩] } [])

/-- The conditions on the names of the way to it. -/
def twinPath : String :=
  "/*[local-name()='a' and namespace-uri()='u']/*[local-name()='b' and namespace-uri()='u'][2]"

theorem line_of_path_twins :
    Location.line twins (some "/Q\x7bu\x7da[1]/Q\x7bu\x7db[2]") = .ok (some 3) ∧
      Location.line twins (some (twinPath ++ "/@" ++ "k")) = .ok (some 3) := by
  have hread : Xml.read? "<a xmlns='u'>\n<b/>\n<b k=''/></a>" = some twins := by
    decide +kernel
  have hplain : twins.EachElement fun tag _ => isPlainName tag.name = true :=
    ⟨⟨by decide, trivial, ⟨by decide, trivial⟩, trivial, ⟨by decide, trivial⟩, trivial⟩, trivial⟩
  have htwin : IsElementOf twins _ secondTwin :=
    .intro ⟨⟨rfl, Focus.mem_children_iff.mpr rfl⟩, Focus.mem_children_iff.mpr rfl⟩
  have hbraced : bracedPath secondTwin = "/Q\x7bu\x7da[1]/Q\x7bu\x7db[2]" := by decide +kernel
  have hconditions : conditionPath secondTwin = twinPath := by decide +kernel
  obtain ⟨-, line, hline, hfound, -⟩ :=
    line_of_path hread (by decide +kernel) hplain htwin .braced
  obtain ⟨-, line', hline', -, hattribute⟩ :=
    line_of_path hread (by decide +kernel) hplain htwin .conditions
  cases hline
  cases hline'
  rw [hbraced] at hfound
  rw [hconditions] at hattribute
  exact ⟨hfound, hattribute ⟨⟨none, none, "k"⟩, "", false⟩ List.mem_cons_self rfl⟩

end Location

end OscalValidation

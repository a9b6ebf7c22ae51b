import OscalValidation.XPath.Eval

set_option autoImplicit false

/-! # What path expressions select

What an expression selects from a node of a document are nodes of that document (`Focus.IsOf`), in
document order (`Focus.Ordered`), which tells them apart (`Focus.IsOf.eq_of_place`). Main statement:
`Expr.eval?_nodes`.
-/

namespace OscalValidation.XPath

namespace Focus

/-! ## Document order -/

/-- The first step in which two places differ decides. -/
theorem placeLe_cons_iff (a b : Nat × Nat) (p q : List (Nat × Nat)) :
    placeLe (a :: p) (b :: q) = true ↔
      a.1 < b.1 ∨ (a.1 = b.1 ∧ (a.2 < b.2 ∨ (a.2 = b.2 ∧ placeLe p q = true))) := by
  obtain ⟨kind, index⟩ := a
  obtain ⟨kind', index'⟩ := b
  rw [placeLe]
  by_cases hkind : kind = kind'
  · by_cases hindex : index = index'
    · simp [hkind, hindex]
    · simp [hkind, hindex]
  · simp [hkind]

theorem placeLe_total (p q : List (Nat × Nat)) : placeLe p q = true ∨ placeLe q p = true := by
  induction p generalizing q with
  | nil => exact Or.inl rfl
  | cons a rest ih =>
      cases q with
      | nil => exact Or.inr rfl
      | cons b rest' =>
          rw [placeLe_cons_iff, placeLe_cons_iff]
          rcases ih rest' with h | h
          · simp only [h, and_true]
            omega
          · simp only [h, and_true]
            omega

theorem placeLe_trans {p q r : List (Nat × Nat)} (hpq : placeLe p q = true)
    (hqr : placeLe q r = true) : placeLe p r = true := by
  induction p generalizing q r with
  | nil => rfl
  | cons a rest ih =>
      cases q with
      | nil => cases hpq
      | cons b rest' =>
          cases r with
          | nil => cases hqr
          | cons c rest'' =>
              rw [placeLe_cons_iff] at hpq hqr ⊢
              have hrest : placeLe rest rest' = true → placeLe rest' rest'' = true →
                  placeLe rest rest'' = true := fun h h' => ih h h'
              rcases hpq with h | ⟨h, h1 | ⟨h1, h2⟩⟩
              · omega
              · omega
              · rcases hqr with h' | ⟨h', h1' | ⟨h1', h2'⟩⟩
                · omega
                · omega
                · exact Or.inr ⟨h.trans h', Or.inr ⟨h1.trans h1', hrest h2 h2'⟩⟩

theorem placeLe_antisymm {p q : List (Nat × Nat)} (hpq : placeLe p q = true)
    (hqp : placeLe q p = true) : p = q := by
  induction p generalizing q with
  | nil =>
      cases q with
      | nil => rfl
      | cons b rest' => cases hqp
  | cons a rest ih =>
      cases q with
      | nil => cases hpq
      | cons b rest' =>
          rw [placeLe_cons_iff] at hpq hqp
          have hkind : a.1 = b.1 := by omega
          have hindex : a.2 = b.2 := by omega
          have hrest : rest = rest' := by
            refine ih ?_ ?_
            · rcases hpq with h | ⟨-, h | ⟨-, h⟩⟩ <;> omega
            · rcases hqp with h | ⟨-, h | ⟨-, h⟩⟩ <;> omega
          rw [Prod.ext hkind hindex, hrest]

/-- **Nodes in document order.** -/
def Ordered (nodes : List Focus) : Prop :=
  nodes.Pairwise fun a b => placeLe a.place b.place = true

/-- Dropping what is repeated keeps the order. -/
theorem dropRepeated_sublist (entries : List (List (Nat × Nat) × Focus)) :
    (dropRepeated entries).Sublist (entries.map (·.2)) := by
  induction entries with
  | nil => exact List.Sublist.refl _
  | cons entry rest ih =>
      cases rest with
      | nil => exact List.Sublist.refl _
      | cons next rest =>
          rw [dropRepeated]
          split
          · exact ih.cons _
          · exact ih.cons_cons _

theorem ordered_inOrder (nodes : List Focus) : Ordered (inOrder nodes) := by
  have hsorted : ((nodes.map fun node => (node.place, node)).mergeSort
      fun a b => placeLe a.1 b.1).Pairwise fun a b => placeLe a.1 b.1 = true := by
    apply List.pairwise_mergeSort
    · exact fun _ _ _ => placeLe_trans
    · intro a b
      rw [Bool.or_eq_true]
      exact placeLe_total a.1 b.1
  -- an entry that is sorted by its place holds the node of that place
  have hplace : ∀ entry ∈ (nodes.map fun node => (node.place, node)).mergeSort
      fun a b => placeLe a.1 b.1, entry.1 = entry.2.place := by
    intro entry hentry
    obtain ⟨node, -, rfl⟩ := List.mem_map.mp (List.mem_mergeSort.mp hentry)
    rfl
  have hnodes : Ordered (((nodes.map fun node => (node.place, node)).mergeSort
      fun a b => placeLe a.1 b.1).map (·.2)) := by
    refine List.pairwise_map.mpr (hsorted.imp_of_mem fun ha hb hle => ?_)
    rwa [hplace _ ha, hplace _ hb] at hle
  exact hnodes.sublist (dropRepeated_sublist _)

/-- Bringing nodes into order brings in no others. -/
theorem mem_of_mem_inOrder {nodes : List Focus} {node : Focus} (h : node ∈ inOrder nodes) :
    node ∈ nodes := by
  obtain ⟨entry, hentry, rfl⟩ := List.mem_map.mp ((dropRepeated_sublist _).subset h)
  obtain ⟨node, hnode, rfl⟩ := List.mem_map.mp (List.mem_mergeSort.mp hentry)
  exact hnode

/-! ## Nodes of a document -/

/-- **A node of the document:** at each level it is the child or the attribute with its index. -/
def IsOf (document : Xml.Document) : Focus → Prop
  | .document content => content = document
  | childAt parent index node =>
      parent.IsOf document ∧ childAt parent index node ∈ parent.children
  | attributeAt parent index content =>
      parent.IsOf document ∧ attributeAt parent index content ∈ parent.attributes

variable {document : Xml.Document} {node : Focus}

theorem mem_children_iff {parent : Focus} {index : Nat} {inner : Xml.Node} :
    childAt parent index inner ∈ parent.children ↔ parent.contents[index]? = some inner := by
  rw [children, List.mem_map]
  constructor
  · rintro ⟨⟨inner', index'⟩, hmem, heq⟩
    cases heq
    exact List.mem_zipIdx_iff_getElem?.mp hmem
  · intro h
    exact ⟨(inner, index), List.mem_zipIdx_iff_getElem?.mpr h, rfl⟩

/-- The attributes of an element are told apart by their indices. -/
theorem attribute_unique {parent : Focus} {index : Nat} {a b : Xml.Attribute}
    (ha : attributeAt parent index a ∈ parent.attributes)
    (hb : attributeAt parent index b ∈ parent.attributes) : a = b := by
  unfold attributes at ha hb
  split at ha
  · obtain ⟨⟨a', index⟩, hmem, heq⟩ := List.mem_map.mp ha
    obtain ⟨⟨b', index'⟩, hmem', heq'⟩ := List.mem_map.mp hb
    cases heq
    cases heq'
    have ha' := List.mem_zipIdx_iff_getElem?.mp hmem
    exact Option.some.inj (ha'.symm.trans (List.mem_zipIdx_iff_getElem?.mp hmem'))
  · cases ha

/-- **Nodes of one document are told apart by their places.** -/
theorem IsOf.eq_of_place {node' : Focus} (h : node.IsOf document) (h' : node'.IsOf document)
    (hplace : node.place = node'.place) : node = node' := by
  induction node generalizing node' with
  | document content =>
      cases node' with
      | document content' => rw [show content = content' from h.trans h'.symm]
      | _ => simp [place] at hplace
  | childAt parent index inner ih =>
      cases node' with
      | childAt parent' index' inner' =>
          obtain ⟨hparent, hlast⟩ := List.append_inj' hplace rfl
          cases hlast
          cases ih h.1 h'.1 hparent
          have hinner := mem_children_iff.mp h.2
          rw [Option.some.inj (hinner.symm.trans (mem_children_iff.mp h'.2))]
      | attributeAt parent' index' content' =>
          have hlast := (List.append_inj' hplace rfl).2
          cases hlast
      | document content' => simp [place] at hplace
  | attributeAt parent index content ih =>
      cases node' with
      | attributeAt parent' index' content' =>
          obtain ⟨hparent, hlast⟩ := List.append_inj' hplace rfl
          cases hlast
          cases ih h.1 h'.1 hparent
          rw [attribute_unique h.2 h'.2]
      | childAt parent' index' inner' =>
          have hlast := (List.append_inj' hplace rfl).2
          cases hlast
      | document content' => simp [place] at hplace

/-! ## Steps inside a document -/

theorem IsOf.children (h : node.IsOf document) : ∀ n ∈ node.children, n.IsOf document := by
  intro n hn
  obtain ⟨⟨inner, index⟩, -, rfl⟩ := List.mem_map.mp hn
  exact ⟨h, hn⟩

theorem IsOf.attributes (h : node.IsOf document) : ∀ n ∈ node.attributes, n.IsOf document := by
  intro n hn
  have hmem := hn
  unfold Focus.attributes at hmem
  split at hmem
  · obtain ⟨⟨inner, index⟩, -, rfl⟩ := List.mem_map.mp hmem
    exact ⟨h, hn⟩
  · cases hmem

mutual

/-- What is inside a node of the document is of the document, by the nesting of its content. -/
theorem IsOf.insideNode {parent : Focus} {index : Nat} :
    ∀ inner : Xml.Node, (childAt parent index inner).IsOf document →
      ∀ n ∈ insideNode (childAt parent index inner) inner, n.IsOf document
  | .element tag children, h, n, hn => by
      rw [Focus.insideNode] at hn
      refine IsOf.insideNodes h 0 children (fun i inner hi => ?_) n hn
      rw [Nat.zero_add]
      exact mem_children_iff.mpr hi
  | .text _, _, _, hn | .comment _ _, _, _, hn | .instruction _ _ _, _, _, hn
  | .entity _, _, _, hn => by simp [Focus.insideNode] at hn

theorem IsOf.insideNodes {parent : Focus} (h : parent.IsOf document) (index : Nat) :
    ∀ nodes : List Xml.Node, (∀ (i : Nat) (inner : Xml.Node), nodes[i]? = some inner →
        childAt parent (index + i) inner ∈ parent.children) →
      ∀ n ∈ insideNodes parent index nodes, n.IsOf document
  | [], _, n, hn => by cases hn
  | inner :: rest, hnodes, n, hn => by
      have hhere : (childAt parent index inner).IsOf document := ⟨h, hnodes 0 inner rfl⟩
      rw [Focus.insideNodes, List.cons_append, List.mem_cons, List.mem_append] at hn
      rcases hn with rfl | hn | hn
      · exact hhere
      · exact IsOf.insideNode inner hhere n hn
      · refine IsOf.insideNodes h (index + 1) rest (fun i inner' hi => ?_) n hn
        rw [Nat.add_assoc, Nat.add_comm 1 i]
        exact hnodes (i + 1) inner' hi

end

theorem IsOf.andBelow (h : node.IsOf document) : ∀ n ∈ node.andBelow, n.IsOf document := by
  intro n hn
  rcases List.mem_cons.mp hn with rfl | hn
  · exact h
  · refine h.insideNodes 0 node.contents (fun i inner hi => ?_) n hn
    rw [Nat.zero_add]
    exact mem_children_iff.mpr hi

theorem IsOf.parent? {parent : Focus} (h : node.IsOf document)
    (hparent : node.parent? = some parent) : parent.IsOf document := by
  cases node with
  | document content => cases hparent
  | childAt outer index inner =>
      cases hparent
      exact h.1
  | attributeAt outer index content =>
      cases hparent
      exact h.1

theorem IsOf.ancestors (h : node.IsOf document) : ∀ n ∈ node.ancestors, n.IsOf document := by
  induction node with
  | document content =>
      intro n hn
      cases hn
  | childAt parent index inner ih | attributeAt parent index inner ih =>
      intro n hn
      rcases List.mem_cons.mp hn with rfl | hn
      · exact h.1
      · exact ih h.1 n hn

theorem IsOf.ancestorsOrSelf (h : node.IsOf document) :
    ∀ n ∈ node :: node.ancestors, n.IsOf document := by
  intro n hn
  rcases List.mem_cons.mp hn with rfl | hn
  · exact h
  · exact h.ancestors n hn

theorem IsOf.followingSiblings (h : node.IsOf document) :
    ∀ n ∈ node.followingSiblings, n.IsOf document := by
  intro n hn
  cases node with
  | childAt parent index inner => exact h.1.children n (List.mem_of_mem_drop hn)
  | _ => cases hn

theorem IsOf.precedingSiblings (h : node.IsOf document) :
    ∀ n ∈ node.precedingSiblings, n.IsOf document := by
  intro n hn
  cases node with
  | childAt parent index inner =>
      exact h.1.children n (List.mem_of_mem_take (List.mem_reverse.mp hn))
  | _ => cases hn

/-- **Every step leads to nodes of the same document.** -/
theorem IsOf.along (h : node.IsOf document) (axis : Axis) :
    ∀ n ∈ node.along axis, n.IsOf document := by
  intro n hn
  cases axis with
  | child => exact h.children n hn
  | descendant => exact h.andBelow n (List.mem_cons_of_mem _ hn)
  | descendantOrSelf => exact h.andBelow n hn
  | parent => exact h.parent? (Option.mem_toList.mp hn)
  | ancestor => exact h.ancestors n hn
  | ancestorOrSelf => exact h.ancestorsOrSelf n hn
  | following =>
      obtain ⟨outer, houter, hn⟩ := List.mem_flatMap.mp hn
      obtain ⟨sibling, hsibling, hn⟩ := List.mem_flatMap.mp hn
      exact ((h.ancestorsOrSelf outer houter).followingSiblings sibling hsibling).andBelow n hn
  | followingSibling => exact h.followingSiblings n hn
  | preceding =>
      obtain ⟨outer, houter, hn⟩ := List.mem_flatMap.mp hn
      obtain ⟨sibling, hsibling, hn⟩ := List.mem_flatMap.mp hn
      exact ((h.ancestorsOrSelf outer houter).precedingSiblings sibling hsibling).andBelow n
        (List.mem_reverse.mp hn)
  | precedingSibling => exact h.precedingSiblings n hn
  | attributes => exact h.attributes n hn
  | namespaces => cases hn
  | self =>
      rw [List.mem_singleton.mp hn]
      exact h

/-- The outermost of the nodes around a node is the document. -/
theorem IsOf.outermost (h : node.IsOf document) (default : Focus) :
    (node :: node.ancestors).getLastD default = .document document := by
  induction node generalizing default with
  | document content =>
      cases h
      rfl
  | childAt parent index inner ih | attributeAt parent index inner ih =>
      rw [List.getLastD_cons]
      exact ih h.1 _

/-- **A node that can be selected** is one of the document, and no reference to an entity. -/
def Selectable (document : Xml.Document) (node : Focus) : Prop :=
  node.IsOf document ∧ ∀ parent index name, node ≠ childAt parent index (.entity name)

end Focus

open Focus (Ordered)

/-- No test accepts a reference to an entity. -/
theorem NodeTest.not_entity {env : Environment} {axis : Axis} {test : NodeTest}
    {accepts : Focus → Bool} (h : test.accepts? env axis = some accepts) {node : Focus}
    (hnode : accepts node = true) (parent : Focus) (index : Nat) (name : String) :
    node ≠ .childAt parent index (.entity name) := by
  rintro rfl
  have hprincipal : Focus.isPrincipal axis (.childAt parent index (.entity name)) = false := by
    cases axis <;> rfl
  cases test with
  | anyName nsPrefix =>
      cases nsPrefix with
      | none =>
          cases h
          rw [hprincipal] at hnode
          cases hnode
      | some p =>
          obtain ⟨uri, -, h⟩ := Option.bind_eq_some_iff.mp h
          cases h
          simp [hprincipal] at hnode
  | name nsPrefix localName =>
      cases nsPrefix with
      | none =>
          cases h
          simp [hprincipal] at hnode
      | some p =>
          obtain ⟨uri, -, h⟩ := Option.bind_eq_some_iff.mp h
          cases h
          simp [hprincipal] at hnode
  | instruction target =>
      cases target with
      | none =>
          cases h
          cases hnode
      | some target =>
          cases h
          cases hnode
  | _ =>
      cases h
      cases hnode

/-- What meets a condition is among the nodes, in their order. -/
theorem sublist_of_condition {env : Environment} {condition : Expr} {size start : Nat}
    {items : List Focus} {kept : List (List Focus)}
    (h : (items.zipIdx start).mapM (fun (node, index) => do
      let v ← condition.eval? env ⟨node, index + 1, size⟩
      return if meets (index + 1) v then [node] else []) = some kept) :
    kept.flatten.Sublist items := by
  induction items generalizing start kept with
  | nil =>
      rw [List.zipIdx_nil, List.mapM_nil] at h
      cases h
      exact List.Sublist.refl _
  | cons node rest ih =>
      rw [List.zipIdx_cons, List.mapM_cons] at h
      obtain ⟨found, hfound, h⟩ := Option.bind_eq_some_iff.mp h
      obtain ⟨more, hmore, h⟩ := Option.bind_eq_some_iff.mp h
      obtain ⟨v, -, hv⟩ := Option.bind_eq_some_iff.mp hfound
      cases h
      cases hv
      rw [List.flatten_cons]
      split
      · exact (ih hmore).cons_cons node
      · exact (ih hmore).cons node

/-- What meets conditions is among the nodes, in their order. -/
theorem restrict?_sublist {env : Environment} {conditions : List Expr} {items kept : List Focus}
    (h : restrict? env conditions items = some kept) : kept.Sublist items := by
  induction conditions generalizing items with
  | nil =>
      rw [restrict?] at h
      cases h
      exact List.Sublist.refl _
  | cons condition rest ih =>
      rw [restrict?] at h
      obtain ⟨met, hmet, h⟩ := Option.bind_eq_some_iff.mp h
      exact (ih h).trans (sublist_of_condition hmet)

/-- A function gives no nodes but the node that an instruction works on. -/
theorem nodes_of_applyFunction? {ctx : Context} {name : String} {values : List Value}
    {items : List Focus} (h : applyFunction? {} ctx name values = some (.nodes items)) :
    items = [] := by
  unfold applyFunction? at h
  split at h <;>
    first
    | (cases h; rfl)
    | cases h
    | simp at h

/-- An operator gives nodes in document order, and only those of its operands. -/
theorem Operator.nodes_of_apply? {operator : Operator} {v w : Value} {items : List Focus}
    (h : operator.apply? v w = some (.nodes items)) :
    Ordered items ∧ ∀ n ∈ items, (∃ left, v = .nodes left ∧ n ∈ left) ∨
      ∃ right, w = .nodes right ∧ n ∈ right := by
  cases operator with
  | union =>
      obtain ⟨left, hleft, h⟩ := Option.bind_eq_some_iff.mp h
      obtain ⟨right, hright, h⟩ := Option.bind_eq_some_iff.mp h
      cases h
      refine ⟨Focus.ordered_inOrder _, fun n hn => ?_⟩
      cases v <;> cases hleft
      cases w <;> cases hright
      exact (List.mem_append.mp (Focus.mem_of_mem_inOrder hn)).imp
        (fun hn => ⟨_, rfl, hn⟩) (fun hn => ⟨_, rfl, hn⟩)
  | _ => cases h

/-- What a step leads to can be selected. -/
theorem selectable_of_step {document : Xml.Document} {env : Environment} {axis : Axis} {test : NodeTest}
    {accepts : Focus → Bool} (haccepts : test.accepts? env axis = some accepts)
    {conditions : List Expr} {source : List Focus} (hsource : ∀ n ∈ source, n.Selectable document)
    {found : List (List Focus)}
    (h : source.mapM (fun node =>
      restrict? env conditions ((node.along axis).filter accepts)) = some found) :
    ∀ n ∈ found.flatten, n.Selectable document := by
  induction source generalizing found with
  | nil =>
      rw [List.mapM_nil] at h
      cases h
      exact fun _ hn => nomatch hn
  | cons node rest ih =>
      rw [List.mapM_cons] at h
      obtain ⟨here, hhere, h⟩ := Option.bind_eq_some_iff.mp h
      obtain ⟨more, hmore, h⟩ := Option.bind_eq_some_iff.mp h
      cases h
      intro n hn
      rcases List.mem_append.mp hn with hn | hn
      · have halong := List.mem_filter.mp ((restrict?_sublist hhere).subset hn)
        exact ⟨(hsource node List.mem_cons_self).1.along axis n halong.1,
          NodeTest.not_entity haccepts halong.2⟩
      · exact ih (fun n hn => hsource n (List.mem_cons_of_mem _ hn)) hmore n hn

/-- **What an expression selects** from a node that can be selected: nodes that can be selected,
in document order. -/
theorem Expr.eval?_nodes {document : Xml.Document} {ctx : Context}
    (hctx : ctx.node.Selectable document) :
    ∀ (e : Expr) {items : List Focus}, e.eval? {} ctx = some (.nodes items) →
      Ordered items ∧ ∀ n ∈ items, n.Selectable document
  | .literal _, _, h | .number _, _, h | .variable none _, _, h | .variable (some _) _, _, h
  | .call (some _) _ _, _, h => by
      rw [Expr.eval?] at h
      cases h
  | .call none name arguments, items, h => by
      -- `id` finds nothing, and `current` has no value outside of an instruction
      rw [Expr.eval?] at h
      obtain ⟨values, -, h⟩ := Option.bind_eq_some_iff.mp h
      rw [nodes_of_applyFunction? h]
      exact ⟨List.Pairwise.nil, fun _ hn => nomatch hn⟩
  | .negate operand, _, h | .positive operand, _, h => by
      rw [Expr.eval?] at h
      obtain ⟨v, -, h⟩ := Option.bind_eq_some_iff.mp h
      cases h
  | .binary operator left right, items, h => by
      rw [Expr.eval?] at h
      obtain ⟨v, hv, h⟩ := Option.bind_eq_some_iff.mp h
      split at h
      · cases h
      · cases h
      · obtain ⟨w, hw, h⟩ := Option.bind_eq_some_iff.mp h
        -- only a union gives nodes, and all of them come from its sides
        obtain ⟨hordered, hfrom⟩ := Operator.nodes_of_apply? h
        refine ⟨hordered, fun n hn => ?_⟩
        rcases hfrom n hn with ⟨nodes, rfl, hn⟩ | ⟨nodes, rfl, hn⟩
        · exact (Expr.eval?_nodes hctx left hv).2 n hn
        · exact (Expr.eval?_nodes hctx right hw).2 n hn
  | .root, items, h => by
      rw [Expr.eval?] at h
      cases h
      refine ⟨List.pairwise_singleton _ _, fun n hn => ?_⟩
      rw [List.mem_singleton.mp hn, hctx.1.outermost]
      exact ⟨rfl, nofun⟩
  | .context, items, h => by
      rw [Expr.eval?] at h
      cases h
      refine ⟨List.pairwise_singleton _ _, fun n hn => ?_⟩
      rw [List.mem_singleton.mp hn]
      exact hctx
  | .filter source condition, items, h => by
      rw [Expr.eval?] at h
      obtain ⟨v, hv, h⟩ := Option.bind_eq_some_iff.mp h
      obtain ⟨nodes, hnodes, h⟩ := Option.bind_eq_some_iff.mp h
      obtain ⟨kept, hkept, h⟩ := Option.bind_eq_some_iff.mp h
      cases h
      cases v <;> cases hnodes
      obtain ⟨hordered, hselectable⟩ := Expr.eval?_nodes hctx source hv
      have hsub : kept.flatten.Sublist nodes := sublist_of_condition hkept
      exact ⟨hordered.sublist hsub, fun n hn => hselectable n (hsub.subset hn)⟩
  | .step source axis test conditions, items, h => by
      rw [Expr.eval?] at h
      obtain ⟨v, hv, h⟩ := Option.bind_eq_some_iff.mp h
      obtain ⟨nodes, hnodes, h⟩ := Option.bind_eq_some_iff.mp h
      obtain ⟨accepts, haccepts, h⟩ := Option.bind_eq_some_iff.mp h
      obtain ⟨found, hfound, h⟩ := Option.bind_eq_some_iff.mp h
      cases h
      cases v <;> cases hnodes
      refine ⟨Focus.ordered_inOrder _, fun n hn => ?_⟩
      exact selectable_of_step haccepts (Expr.eval?_nodes hctx source hv).2 hfound n
        (Focus.mem_of_mem_inOrder hn)


end OscalValidation.XPath

import Mathlib.Algebra.Ring.Nat
import OscalValidation.Proofs.XPath.Paths
import OscalValidation.Proofs.XPath.Selection

set_option autoImplicit false

/-! # Where named steps lead

The numbers of path expressions tell whole numbers below `2 ^ 53` apart (`sameValue_ofInt`), so up
to there a number among conditions keeps the node at its position. A named step therefore leads to
the children of its name, or to the one with its number (`NamedStep.eval?_expr`). The number of an
element among the siblings of its name tells it from them (`Focus.found_of_number`), and where it
has none its name does (`Focus.found_of_alone`).
-/

namespace OscalValidation

namespace Binary64

/-! ## Whole numbers -/

/-- A positive whole number below `2 ^ 53` is held exactly. -/
theorem ofInt_eq_finite {n : Nat} (hpos : 0 < n) (hlt : n < 2 ^ 53) :
    ofInt n = .finite false (n * 2 ^ (52 - n.log2)) ((n.log2 : Int) - 52) := by
  have hne : n ≠ 0 := Nat.pos_iff_ne_zero.mp hpos
  have hlog : n.log2 ≤ 52 := Nat.le_of_lt_succ ((Nat.log2_lt hne).mpr hlt)
  have hfloor : floorLog2 n 1 = n.log2 := by
    have hle : 2 ^ n.log2 ≤ n := Nat.log2_self_le hne
    simp [floorLog2, settleLog, Nat.log2_def 1, hle]
  have hexponent : max (floorLog2 n 1 - 52) minExponent = (n.log2 : Int) - 52 := by
    rw [hfloor, minExponent]
    omega
  have hmantissa : divideToEven (n * twoTo (-((n.log2 : Int) - 52)).toNat)
      (1 * twoTo ((n.log2 : Int) - 52).toNat) = n * 2 ^ (52 - n.log2) := by
    have hup : (-((n.log2 : Int) - 52)).toNat = 52 - n.log2 := by omega
    have hdown : ((n.log2 : Int) - 52).toNat = 0 := by omega
    rw [hup, hdown]
    simp [divideToEven, twoTo, Nat.mod_one]
  have hbelow : n * 2 ^ (52 - n.log2) < twoTo 53 := by
    calc n * 2 ^ (52 - n.log2)
        < 2 ^ (n.log2 + 1) * 2 ^ (52 - n.log2) :=
          Nat.mul_lt_mul_of_pos_right Nat.lt_log2_self (Nat.two_pow_pos _)
      _ = 2 ^ 53 := by
          rw [← Nat.pow_add]
          congr 1
          omega
  have hsign : decide ((n : Int) < 0) = false := by simp
  rw [ofInt, hsign, Int.natAbs_natCast, ofRatio, if_neg hne]
  dsimp only
  rw [hexponent, hmantissa, if_neg (Nat.ne_of_lt hbelow)]
  dsimp only
  rw [if_neg (by rw [maxExponent]; omega)]

/-- Such numbers are told apart. -/
theorem sameValue_ofInt {a b : Nat} (ha : 0 < a) (hb : 0 < b) (ha' : a < 2 ^ 53)
    (hb' : b < 2 ^ 53) : (ofInt a).sameValue (ofInt b) = (a == b) := by
  rw [ofInt_eq_finite ha ha', ofInt_eq_finite hb hb']
  have hmantissa : a * 2 ^ (52 - a.log2) ≠ 0 :=
    Nat.pos_iff_ne_zero.mp (Nat.mul_pos ha (Nat.two_pow_pos _))
  have hsame : ∀ {m : Nat} {e : Int} {y : Binary64}, m ≠ 0 →
      (finite false m e).sameValue y = (finite false m e == y) := by
    intro m e y hm
    unfold sameValue
    split
    · next heq => cases heq
    · rfl
    · next heq =>
      cases heq
      exact absurd rfl hm
    · rfl
  rw [hsame hmantissa, Bool.eq_iff_iff, beq_iff_eq, beq_iff_eq]
  constructor
  · intro heq
    have hlog : a.log2 = b.log2 := by
      have hexponent := (finite.inj heq).2.2
      omega
    have hproduct := (finite.inj heq).2.1
    rw [hlog] at hproduct
    exact Nat.eq_of_mul_eq_mul_right (Nat.two_pow_pos _) hproduct
  · rintro rfl
    rfl

end Binary64

namespace XPath

open Focus (childAt)

variable {env : Environment} {rest : List Expr} {items : List Focus}

/-! ## Conditions -/

/-- Attempts that keep or drop what they are made at keep what a filter keeps. -/
theorem exists_flatten_eq_filter {α : Type} {entries : List (α × Nat)} {p : α × Nat → Bool}
    {attempt : α × Nat → Option (List α)}
    (h : ∀ entry ∈ entries, attempt entry = some (if p entry then [entry.1] else [])) :
    ∃ found, entries.mapM attempt = some found ∧
      found.flatten = (entries.filter p).map (·.1) := by
  induction entries with
  | nil => exact ⟨[], rfl, rfl⟩
  | cons entry more ih =>
      obtain ⟨hentry, hmore⟩ := List.forall_mem_cons.mp h
      obtain ⟨found, hfound, hflat⟩ := ih hmore
      refine ⟨(if p entry then [entry.1] else []) :: found, ?_, ?_⟩
      · rw [List.mapM_cons, hfound, hentry]
        rfl
      · rw [List.flatten_cons, hflat, List.filter_cons]
        split
        · rfl
        · rfl

/-- **What a condition keeps** is told by which node it is met at which position. -/
theorem restrict?_cons {condition : Expr} (kept : Focus → Nat → Bool)
    (h : ∀ node ∈ items, ∀ position, ∃ v,
      condition.eval? env ⟨node, position, items.length⟩ = some v ∧
        meets position v = kept node position) :
    restrict? env (condition :: rest) items =
      restrict? env rest
        ((items.zipIdx.filter fun entry => kept entry.1 (entry.2 + 1)).map (·.1)) := by
  have hattempt : ∀ entry ∈ items.zipIdx, (do
      let v ← condition.eval? env ⟨entry.1, entry.2 + 1, items.length⟩
      return if meets (entry.2 + 1) v then [entry.1] else []) =
        some (if kept entry.1 (entry.2 + 1) then [entry.1] else []) := by
    intro entry hentry
    obtain ⟨v, hv, hkept⟩ := h entry.1 (List.fst_mem_of_mem_zipIdx hentry) (entry.2 + 1)
    rw [hv, ← hkept]
    rfl
  obtain ⟨found, hfound, hflat⟩ := exists_flatten_eq_filter hattempt
  calc restrict? env (condition :: rest) items
      = (items.zipIdx.mapM fun entry => do
          let v ← condition.eval? env ⟨entry.1, entry.2 + 1, items.length⟩
          return if meets (entry.2 + 1) v then [entry.1] else []) >>=
            fun found => restrict? env rest found.flatten := by
        rw [restrict?]
    _ = restrict? env rest found.flatten := by rw [hfound]; rfl
    _ = _ := congrArg (restrict? env rest) hflat

/-- A condition on nodes alone keeps those that meet it. -/
theorem restrict?_truth {condition : Expr} {p : Focus → Bool}
    (h : ∀ node ∈ items, ∀ position size,
      condition.eval? env ⟨node, position, size⟩ = some (.truth (p node))) :
    restrict? env (condition :: rest) items = restrict? env rest (items.filter p) := by
  rw [restrict?_cons fun node _ => p node]
  · have hmap : (items.zipIdx.map (·.1)).filter p =
        (items.zipIdx.filter fun entry => p entry.1).map (·.1) := List.filter_map
    rw [← hmap, List.zipIdx_map_fst]
  · intro node hnode position
    exact ⟨_, h node hnode position _, rfl⟩

/-- One entry has a given index. -/
theorem filter_zipIdx_beq {α : Type} (xs : List α) (start k : Nat) :
    ((xs.zipIdx start).filter fun entry => entry.2 == start + k).map (·.1) = xs[k]?.toList := by
  induction xs generalizing start k with
  | nil => rfl
  | cons x more ih =>
      rw [List.zipIdx_cons, List.filter_cons]
      cases k with
      | zero =>
          have hlater :
              ((more.zipIdx (start + 1)).filter fun entry => entry.2 == start + 0) = [] := by
            rw [List.filter_eq_nil_iff]
            intro entry hentry
            have hle := List.le_snd_of_mem_zipIdx hentry
            simp only [Nat.add_zero, beq_iff_eq]
            omega
          rw [hlater]
          simp
      | succ k =>
          have hnext := ih (start + 1) k
          rw [show start + 1 + k = start + (k + 1) by omega] at hnext
          simp [hnext]

/-- A number keeps the node at its position. -/
theorem restrict?_number {n : Nat} (hpos : 0 < n) (hn : n < 2 ^ 53)
    (hitems : items.length < 2 ^ 53) :
    restrict? env (.number (.ofInt n) :: rest) items = restrict? env rest items[n - 1]?.toList := by
  rw [restrict?_cons fun _ position => (Binary64.ofInt n).sameValue (numberOfNat position)]
  · have hfilter : (items.zipIdx.filter fun entry =>
        (Binary64.ofInt n).sameValue (numberOfNat (entry.2 + 1))) =
        items.zipIdx.filter fun entry => entry.2 == 0 + (n - 1) := by
      refine List.filter_congr fun entry hentry => ?_
      have hlt := List.snd_lt_of_mem_zipIdx hentry
      rw [numberOfNat, Binary64.sameValue_ofInt hpos (Nat.succ_pos _) hn (by omega),
        Bool.eq_iff_iff, beq_iff_eq, beq_iff_eq]
      omega
    rw [hfilter, filter_zipIdx_beq]
  · exact fun node _ position => ⟨_, rfl, rfl⟩

/-! ## Names -/

/-- The node is an element of the name. -/
def isNamed (name : Xml.Name) : Focus → Bool
  | .childAt _ _ (.element tag _) =>
      NamePart.localName.of tag.name == NamePart.localName.of name &&
        NamePart.namespaceUri.of tag.name == NamePart.namespaceUri.of name
  | _ => false

/-- What lies in the direction of children and can have a name is an element. -/
theorem exists_element {node : Focus} (h : node.isPrincipal .child = true) :
    ∃ parent index tag children, node = childAt parent index (.element tag children) := by
  cases node with
  | childAt parent index inner =>
      cases inner with
      | element tag children => exact ⟨parent, index, tag, children, rfl⟩
      | _ => cases h
  | _ => cases h

theorem isPrincipal_of_isNamed {name : Xml.Name} {node : Focus} (h : isNamed name node = true) :
    node.isPrincipal .child = true := by
  unfold isNamed at h
  split at h
  · rfl
  · cases h

/-- A part of the name of an element has the value of the function that gives it. -/
theorem NamePart.eval?_call (part : NamePart) (parent : Focus) (index : Nat) (tag : Xml.Tag)
    (children : List Xml.Node) (position size : Nat) :
    (Expr.call none part.function []).eval? env
      ⟨childAt parent index (.element tag children), position, size⟩ =
      some (.text (part.of tag.name)) := by
  rw [Expr.eval?, evalAll?]
  cases part with
  | localName => rfl
  | namespaceUri => rfl

/-- The condition on a part of a name asks for this part. -/
theorem NamePart.eval?_condition (part : NamePart) (value : String) (parent : Focus) (index : Nat)
    (tag : Xml.Tag) (children : List Xml.Node) (position size : Nat) :
    (part.condition value).eval? env
      ⟨childAt parent index (.element tag children), position, size⟩ =
      some (.truth (part.of tag.name == value)) := by
  rw [NamePart.condition, Expr.eval?, NamePart.eval?_call, Expr.eval?]
  rfl

theorem eval?_nameCondition (s : NamedStep) {node : Focus} (hnode : node.isPrincipal .child = true)
    (position size : Nat) :
    s.nameCondition.eval? env ⟨node, position, size⟩ = some (.truth (isNamed s.name node)) := by
  obtain ⟨parent, index, tag, children, rfl⟩ := exists_element hnode
  rw [NamedStep.nameCondition, Expr.eval?, NamePart.eval?_condition, NamePart.eval?_condition]
  have hboth : isNamed s.name (childAt parent index (.element tag children)) =
      (s.first.of tag.name == s.first.of s.name &&
        s.first.other.of tag.name == s.first.other.of s.name) := by
    cases s.first with
    | localName => rfl
    | namespaceUri => exact Bool.and_comm _ _
  rw [hboth]
  cases s.first.of tag.name == s.first.of s.name <;> rfl

/-! ## Steps -/

namespace NamedStep

/-- The children of a node that a step leads to. -/
def found (s : NamedStep) (parent : Focus) : List Focus :=
  let named := parent.children.filter (isNamed s.name)
  match s.position with
  | none => named
  | some n => named[n - 1]?.toList

/-- **A step leads to the children of its name,** or to the one that has its number among them. -/
theorem eval?_expr {s : NamedStep} {source : Expr} {ctx : Context} {parent : Focus}
    (hsource : source.eval? env ctx = some (.nodes [parent]))
    (hposition : ∀ n ∈ s.position, 0 < n ∧ n < 2 ^ 53)
    (hchildren : parent.children.length < 2 ^ 53) :
    (s.expr source).eval? env ctx = some (.nodes (Focus.inOrder (s.found parent))) := by
  have hnamed : (parent.children.filter (Focus.isPrincipal .child)).filter (isNamed s.name) =
      parent.children.filter (isNamed s.name) := by
    rw [List.filter_filter]
    refine List.filter_congr fun node _ => ?_
    cases hnode : isNamed s.name node with
    | false => rfl
    | true => rw [isPrincipal_of_isNamed hnode, Bool.and_self]
  have hfound : restrict? env s.conditions (parent.children.filter (Focus.isPrincipal .child)) =
      some (s.found parent) := by
    rw [conditions, restrict?_truth (p := isNamed s.name), hnamed, found]
    · cases hs : s.position with
      | none => rfl
      | some n =>
          obtain ⟨hpos, hlt⟩ := hposition n hs
          have hlength : (parent.children.filter (isNamed s.name)).length < 2 ^ 53 :=
            Nat.lt_of_le_of_lt (List.length_filter_le _ _) hchildren
          exact restrict?_number hpos hlt hlength
    · intro node hnode position size
      exact eval?_nameCondition s (List.mem_filter.mp hnode).2 position size
  rw [expr, Expr.eval?, hsource]
  simp only [Option.bind_eq_bind, Option.bind_some, Value.nodes?, NodeTest.accepts?,
    List.mapM_cons, List.mapM_nil, Focus.along, hfound]
  simp

end NamedStep

/-- The node is an attribute of the name, without a namespace. -/
def isAttributeNamed (name : String) : Focus → Bool
  | .attributeAt _ _ content => content.name.uri.isNone && content.name.localName == name
  | _ => false

/-- A step to an attribute leads to those of the name. -/
theorem eval?_attribute {source : Expr} {ctx : Context} {node : Focus}
    (hsource : source.eval? env ctx = some (.nodes [node])) (name : String) :
    (Expr.step source .attributes (.name none name) []).eval? env ctx =
      some (.nodes (Focus.inOrder (node.attributes.filter (isAttributeNamed name)))) := by
  have haccepts : (fun found : Focus => found.isPrincipal .attributes &&
      ((found.name?.map fun n => n.uri.isNone && n.localName == name).getD false)) =
      isAttributeNamed name := by
    funext found
    cases found with
    | attributeAt parent index content => rfl
    | _ => rfl
  rw [Expr.eval?, hsource]
  simp only [Option.bind_eq_bind, Option.bind_some, Value.nodes?, NodeTest.accepts?,
    List.mapM_cons, List.mapM_nil, Focus.along, haccepts, restrict?]
  simp

/-! ## Numbers among namesakes -/

namespace Focus

/-- The number of a node among the children of a name around it, from one on. -/
def numberAmong (node : Focus) (name : Xml.Name) : Nat :=
  node.precedingSiblings.countP (isNamed name) + 1

/-- Around the node there is another child of the name. -/
def hasNamesake (node : Focus) (name : Xml.Name) : Bool :=
  (node.precedingSiblings ++ node.followingSiblings).any (isNamed name)

/-- The number that a step to the node needs among the children of the name, or gets always. -/
def position (node : Focus) (always : Bool) (name : Xml.Name) : Option Nat :=
  if always || node.hasNamesake name then some (node.numberAmong name) else none

theorem position_always (node : Focus) (name : Xml.Name) :
    node.position true name = some (node.numberAmong name) := rfl

theorem inOrder_singleton (node : Focus) : inOrder [node] = [node] := by
  simp [inOrder, dropRepeated]

/-- Of some nodes in order there is a first. -/
theorem exists_inOrder_eq_cons {nodes : List Focus} (h : nodes ≠ []) :
    ∃ node more, inOrder nodes = node :: more ∧ node ∈ nodes := by
  have hkept : ∀ entries : List (List (Nat × Nat) × Focus), entries ≠ [] →
      dropRepeated entries ≠ [] := by
    intro entries
    induction entries with
    | nil => exact fun hne => absurd rfl hne
    | cons entry rest ih =>
        intro _
        cases rest with
        | nil => simp [dropRepeated]
        | cons next rest =>
            rw [dropRepeated]
            split
            · exact ih (List.cons_ne_nil _ _)
            · exact List.cons_ne_nil _ _
  cases hinOrder : inOrder nodes with
  | nil =>
      refine absurd hinOrder (hkept _ ?_)
      rw [← List.length_pos_iff, List.length_mergeSort, List.length_map, List.length_pos_iff]
      exact h
  | cons node more =>
      exact ⟨node, more, rfl, mem_of_mem_inOrder (by rw [hinOrder]; exact List.mem_cons_self)⟩

/-- What is kept of a list has as its index the number of what is kept before it. -/
theorem getElem?_filter_countP {α : Type} {p : α → Bool} {xs : List α} {i : Nat} {x : α}
    (h : xs[i]? = some x) (hx : p x = true) : (xs.filter p)[(xs.take i).countP p]? = some x := by
  induction xs generalizing i with
  | nil => cases h
  | cons y more ih =>
      cases i with
      | zero =>
          cases h
          simp [hx]
      | succ i =>
          have hmore := ih (i := i) h
          cases hy : p y with
          | true => simp [hy, hmore]
          | false => simp [hy, hmore]

variable {parent : Focus} {index : Nat} {tag : Xml.Tag} {inner : List Xml.Node}

theorem getElem?_children (h : childAt parent index (.element tag inner) ∈ parent.children) :
    parent.children[index]? = some (childAt parent index (.element tag inner)) := by
  rw [children, List.getElem?_map, List.getElem?_zipIdx, mem_children_iff.mp h]
  simp

theorem isNamed_self : isNamed tag.name (childAt parent index (.element tag inner)) = true := by
  simp [isNamed]

/-- **Its number among its namesakes tells an element from them.** -/
theorem found_of_number (first : NamePart)
    (h : childAt parent index (.element tag inner) ∈ parent.children) :
    NamedStep.found ⟨first, tag.name,
      some (numberAmong (childAt parent index (.element tag inner)) tag.name)⟩ parent =
      [childAt parent index (.element tag inner)] := by
  have hnumber : numberAmong (childAt parent index (.element tag inner)) tag.name - 1 =
      (parent.children.take index).countP (isNamed tag.name) := by
    rw [numberAmong, precedingSiblings, List.countP_reverse, Nat.add_sub_cancel]
  rw [NamedStep.found]
  dsimp only
  rw [hnumber, getElem?_filter_countP (getElem?_children h) isNamed_self]
  rfl

/-- The children of a node are those before one of them, this one and those after it. -/
theorem children_eq_append (h : childAt parent index (.element tag inner) ∈ parent.children) :
    parent.children = parent.children.take index ++
      childAt parent index (.element tag inner) :: parent.children.drop (index + 1) := by
  obtain ⟨hlt, hget⟩ := List.getElem?_eq_some_iff.mp (getElem?_children h)
  calc parent.children
      = parent.children.take index ++ parent.children.drop index :=
        (List.take_append_drop index parent.children).symm
    _ = _ := by rw [List.drop_eq_getElem_cons hlt, hget]

/-- **Without namesakes its name tells an element from its siblings.** -/
theorem found_of_alone (first : NamePart)
    (h : childAt parent index (.element tag inner) ∈ parent.children)
    (halone : hasNamesake (childAt parent index (.element tag inner)) tag.name = false) :
    NamedStep.found ⟨first, tag.name, none⟩ parent =
      [childAt parent index (.element tag inner)] := by
  rw [hasNamesake, List.any_append, Bool.or_eq_false_iff, precedingSiblings, List.any_reverse,
    List.any_eq_false, followingSiblings, List.any_eq_false] at halone
  calc parent.children.filter (isNamed tag.name)
      = (parent.children.take index ++ childAt parent index (.element tag inner) ::
          parent.children.drop (index + 1)).filter (isNamed tag.name) :=
        congrArg (List.filter _) (children_eq_append h)
    _ = [childAt parent index (.element tag inner)] := by
        rw [List.filter_append, List.filter_eq_nil_iff.mpr halone.1,
          List.filter_cons_of_pos isNamed_self, List.filter_eq_nil_iff.mpr halone.2]
        rfl

/-- **A step with the number it needs leads to the element alone.** -/
theorem found_of_position (first : NamePart) (always : Bool)
    (h : childAt parent index (.element tag inner) ∈ parent.children) :
    NamedStep.found ⟨first, tag.name,
      position (childAt parent index (.element tag inner)) always tag.name⟩ parent =
      [childAt parent index (.element tag inner)] := by
  unfold position
  split
  · exact found_of_number first h
  · next hneeded =>
    rw [Bool.or_eq_true, not_or, Bool.not_eq_true, Bool.not_eq_true] at hneeded
    exact found_of_alone first h hneeded.2

/-- The number of an element is at most the number of the children around it. -/
theorem numberAmong_le (h : childAt parent index (.element tag inner) ∈ parent.children)
    (name : Xml.Name) :
    numberAmong (childAt parent index (.element tag inner)) name ≤ parent.children.length := by
  obtain ⟨hlt, -⟩ := List.getElem?_eq_some_iff.mp (getElem?_children h)
  calc numberAmong (childAt parent index (.element tag inner)) name
      = (parent.children.take index).countP (isNamed name) + 1 := by
        rw [numberAmong, precedingSiblings, List.countP_reverse]
    _ ≤ (parent.children.take index).length + 1 := Nat.succ_le_succ List.countP_le_length
    _ ≤ parent.children.length := by
        rw [List.length_take]
        omega

end Focus

end XPath

end OscalValidation

import OscalValidation.Proofs.Attempts
import OscalValidation.Xml.Writable

set_option autoImplicit false

/-! # Names and texts that can be written

What a text must be like to stand in markup, to name an element, and to give the name of an
attribute: a name, or a name with its namespace in braces ahead of it. Main statement: an attribute
has a name exactly if its text spells one (`attributeName_eq_ok_iff`).
-/

namespace OscalValidation

namespace Conversion

open Xml (Name MarkupFault isChar isLocalName isNameStart isNameChar checkText checkElementName
  splitBraces)

/-! ## What markup can hold -/

/-- **The text consists of characters that may stand in markup.** -/
def IsWritable (text : String) : Prop := ∀ c ∈ text.toList, isChar c = true

/-- **The text is a name,** without a colon. -/
def IsName (name : String) : Prop := isLocalName name.toList = true

instance (name : String) : Decidable (IsName name) :=
  inferInstanceAs (Decidable (isLocalName name.toList = true))

theorem checkText_of_writable {text : String} (h : IsWritable text) : checkText text = .ok () := by
  rw [checkText, if_pos (List.all_eq_true.mpr h)]

theorem checkText_of_not_writable {text : String} (h : ¬ IsWritable text) :
    checkText text = .error .characters := by
  rw [checkText, if_neg fun hall => h (List.all_eq_true.mp hall)]

theorem isChar_of_isNameStart {c : Char} (h : isNameStart c = true) : isChar c = true := by
  simp only [isNameStart, Text.inRanges, Xml.nameStartRanges, List.any_cons, List.any_nil,
    Bool.or_eq_true, Bool.and_eq_true, decide_eq_true_eq, Bool.or_false] at h
  simp only [isChar, Bool.or_eq_true, Bool.and_eq_true, decide_eq_true_eq, bne_iff_ne, ne_eq]
  right
  omega

theorem isChar_of_isNameChar {c : Char} (h : isNameChar c = true) : isChar c = true := by
  rcases Bool.or_eq_true_iff.mp h with h | h
  · exact isChar_of_isNameStart h
  · simp only [Text.inRanges, Xml.nameInnerRanges, List.any_cons, List.any_nil,
      Bool.or_eq_true, Bool.and_eq_true, decide_eq_true_eq, Bool.or_false] at h
    simp only [isChar, Bool.or_eq_true, Bool.and_eq_true, decide_eq_true_eq, bne_iff_ne, ne_eq]
    right
    omega

/-- What is a name can be written. -/
theorem IsName.writable {name : String} (h : IsName name) : IsWritable name := by
  unfold IsName at h
  unfold IsWritable
  cases hcs : name.toList with
  | nil => simp
  | cons first rest =>
      rw [hcs, isLocalName, Bool.and_eq_true, List.all_eq_true] at h
      intro c hc
      rcases List.mem_cons.mp hc with rfl | hc
      · exact isChar_of_isNameStart h.1
      · exact isChar_of_isNameChar (h.2 c hc)

/-- A name holds no mark. -/
theorem IsName.not_mem {name : String} (h : IsName name) {c : Char}
    (hc : isNameStart c = false ∧ isNameChar c = false) : c ∉ name.toList := by
  intro hmem
  unfold IsName at h
  cases hcs : name.toList with
  | nil => simp [hcs] at hmem
  | cons first rest =>
      rw [hcs, isLocalName, Bool.and_eq_true, List.all_eq_true] at h
      rw [hcs] at hmem
      rcases List.mem_cons.mp hmem with rfl | hmem
      · rw [hc.1] at h
        cases h.1
      · have hrest := h.2 c hmem
        rw [hc.2] at hrest
        cases hrest

theorem IsName.not_isEmpty {name : String} (h : IsName name) : name.isEmpty = false := by
  cases hempty : name.isEmpty with
  | false => rfl
  | true =>
      rw [String.isEmpty_iff] at hempty
      subst hempty
      cases h

/-- An element has a name exactly if it is one. -/
theorem checkElementName_cases (name : String) :
    (IsName name ∧ checkElementName name = .ok ()) ∨
      (¬ IsName name ∧ ∃ fault, checkElementName name = .error fault) := by
  by_cases hn : IsName name
  · have hlocal : isLocalName name.toList = true := hn
    refine Or.inl ⟨hn, ?_⟩
    simp [checkElementName, checkText_of_writable hn.writable, bind, Except.bind, hn.not_isEmpty,
      hlocal, pure, Except.pure]
  · refine Or.inr ⟨hn, ?_⟩
    have hlocal : isLocalName name.toList = false := Bool.eq_false_iff.mpr hn
    by_cases hw : IsWritable name
    · cases hempty : name.isEmpty with
      | true =>
          refine ⟨.emptyName, ?_⟩
          simp [checkElementName, checkText_of_writable hw, bind, Except.bind, hempty, throw,
            throwThe, MonadExceptOf.throw]
      | false =>
          refine ⟨.elementName name, ?_⟩
          simp [checkElementName, checkText_of_writable hw, bind, Except.bind, hempty, hlocal,
            throw, throwThe, MonadExceptOf.throw]
    · refine ⟨.characters, ?_⟩
      simp [checkElementName, checkText_of_not_writable hw, bind, Except.bind]

/-! ## Names of attributes -/

/-- **The text gives the name of an attribute.** -/
inductive Spells : String → Name → Prop
  | plain {name : String} (isName : IsName name) : Spells name ⟨none, none, name⟩
  /-- The same, with empty braces ahead of it. -/
  | bare {name : String} (isName : IsName name) : Spells ("\x7b\x7d" ++ name) ⟨none, none, name⟩
  /-- A name in the namespace in braces. -/
  | qualified {uri name : String} (writable : IsWritable uri) (given : uri ≠ "")
      (closed : '\x7d' ∉ uri.toList) (isName : IsName name) :
      Spells ("\x7b" ++ uri ++ "\x7d" ++ name) ⟨none, some uri, name⟩

theorem Spells.writable {text : String} {name : Name} (h : Spells text name) : IsWritable text := by
  have hbraces : isChar '\x7b' = true ∧ isChar '\x7d' = true := by decide
  cases h with
  | plain isName => exact isName.writable
  | bare isName =>
      intro c hc
      simp only [String.toList_append, List.mem_append] at hc
      rcases hc with hc | hc
      · obtain rfl | rfl : c = '\x7b' ∨ c = '\x7d' := by simpa using hc
        · exact hbraces.1
        · exact hbraces.2
      · exact isName.writable c hc
  | qualified writable _ _ isName =>
      intro c hc
      simp only [String.toList_append, List.mem_append] at hc
      rcases hc with ((hc | hc) | hc) | hc
      · obtain rfl : c = '\x7b' := by simpa using hc
        exact hbraces.1
      · exact writable c hc
      · obtain rfl : c = '\x7d' := by simpa using hc
        exact hbraces.2
      · exact isName.writable c hc

theorem dropWhile_ne_eq_cons_iff {c d : Char} {cs name : List Char} :
    cs.dropWhile (· != c) = d :: name ↔
      d = c ∧ cs = cs.takeWhile (· != c) ++ c :: name := by
  constructor
  · intro h
    have hd : d = c := by
      have hnot := List.head?_dropWhile_not (· != c) cs
      rw [h] at hnot
      simpa using hnot
    subst hd
    refine ⟨rfl, ?_⟩
    rw [← h, List.takeWhile_append_dropWhile]
  · rintro ⟨rfl, h⟩
    rw [← List.takeWhile_append_dropWhile (p := (· != d)) (l := cs)] at h
    exact List.append_cancel_left (h.trans (by rw [List.takeWhile_append_dropWhile]))

/-- What stands ahead of a name, and the name. -/
theorem splitBraces_eq_ok_iff {cs uri name : List Char} :
    splitBraces cs = .ok (uri, name) ↔ name ≠ [] ∧
      ((uri = [] ∧ cs = name ∧ cs.head? ≠ some '\x7b') ∨
        ('\x7d' ∉ uri ∧ cs = '\x7b' :: uri ++ '\x7d' :: name)) := by
  constructor
  · intro h
    unfold splitBraces at h
    split at h
    · cases h
    · next c rest =>
      split at h
      · next hopen =>
        split at h
        · cases h
        · cases h
        · next first name' hname hrest =>
          cases h
          -- what stands up to the first closing brace holds none
          obtain ⟨-, heq⟩ := dropWhile_ne_eq_cons_iff.mp hrest
          refine ⟨hname, Or.inr ⟨fun hmem => ?_, ?_⟩⟩
          · have hall := List.all_eq_true.mp (List.all_takeWhile (p := (· != '\x7d')) (l := rest))
            simpa using hall _ hmem
          · rw [hopen, List.cons_append, ← heq]
      · next hopen =>
        cases h
        exact ⟨List.cons_ne_nil _ _, Or.inl ⟨rfl, rfl, by simpa using hopen⟩⟩
  · rintro ⟨hname, ⟨rfl, rfl, hopen⟩ | ⟨hclosed, rfl⟩⟩
    · cases cs with
      | nil => exact absurd rfl hname
      | cons c rest =>
          have hc : c ≠ '\x7b' := by simpa using hopen
          rw [splitBraces, if_neg hc]
    · have hall : ∀ c ∈ uri, (c != '\x7d') = true := by
        intro c hc
        rw [bne_iff_ne]
        rintro rfl
        exact hclosed hc
      rw [List.cons_append, splitBraces, if_pos rfl, List.takeWhile_append_of_pos hall,
        List.dropWhile_append_of_pos hall]
      cases name with
      | nil => exact absurd rfl hname
      | cons first rest => simp

theorem IsName.head?_ne {name : String} (h : IsName name) : name.toList.head? ≠ some '\x7b' := by
  intro hhead
  exact h.not_mem (c := '\x7b') (by decide) (List.mem_of_mem_head? hhead)

theorem IsName.toList_ne_nil {name : String} (h : IsName name) : name.toList ≠ [] := by
  intro hnil
  unfold IsName at h
  rw [hnil] at h
  cases h

theorem attributeName_of_split {text : String} {uri name : List Char} (hw : IsWritable text)
    (hsplit : splitBraces text.toList = .ok (uri, name)) (hlocal : isLocalName name = true) :
    Xml.attributeName text =
      .ok ⟨none, if uri.isEmpty then none else some (.ofList uri), .ofList name⟩ := by
  rw [Xml.attributeName, checkText_of_writable hw]
  simp only [bind, Except.bind, hsplit, hlocal, if_true]
  rfl

/-- **An attribute has a name exactly if its text spells one.** -/
theorem attributeName_eq_ok_iff {text : String} {name : Name} :
    Xml.attributeName text = .ok name ↔ Spells text name := by
  constructor
  · intro h
    obtain ⟨done, hchars, h⟩ := bind_eq_ok_iff.mp h
    obtain ⟨⟨uri, rest⟩, hsplit, h⟩ := bind_eq_ok_iff.mp h
    have hw : IsWritable text := by
      by_contra hw
      rw [checkText_of_not_writable hw] at hchars
      cases hchars
    dsimp only at h
    split at h
    · next hlocal =>
      rw [pure_eq_ok_iff] at h
      subst h
      have hname : IsName (String.ofList rest) := by
        rw [IsName, String.toList_ofList]
        exact hlocal
      -- no braces, empty braces, or braces around a namespace
      obtain ⟨-, ⟨rfl, hrest, -⟩ | ⟨hclosed, htext⟩⟩ := splitBraces_eq_ok_iff.mp hsplit
      · obtain rfl : text = String.ofList rest := by rw [← hrest, String.ofList_toList]
        exact .plain hname
      · obtain rfl : text = "\x7b" ++ String.ofList uri ++ "\x7d" ++ String.ofList rest := by
          rw [← String.toList_inj]
          simpa using htext
        cases uri with
        | nil => exact .bare hname
        | cons c uri =>
            refine .qualified (fun d hd => hw d ?_) ?_ ?_ hname
            · simp only [String.toList_append, List.mem_append]
              exact Or.inl (Or.inl (Or.inr hd))
            · intro hempty
              simpa using congrArg String.toList hempty
            · rw [String.toList_ofList]
              exact hclosed
    · cases h
  · intro h
    have hw := h.writable
    cases h with
    | plain isName =>
        rw [attributeName_of_split hw (splitBraces_eq_ok_iff.mpr
          ⟨isName.toList_ne_nil, Or.inl ⟨rfl, rfl, isName.head?_ne⟩⟩) isName]
        simp
    | @bare name isName =>
        have hsplit : splitBraces ("\x7b\x7d" ++ name).toList = .ok ([], name.toList) :=
          splitBraces_eq_ok_iff.mpr ⟨isName.toList_ne_nil, Or.inr ⟨by simp, by simp⟩⟩
        rw [attributeName_of_split hw hsplit isName]
        simp
    | @qualified uri name writable given closed isName =>
        have hsplit : splitBraces ("\x7b" ++ uri ++ "\x7d" ++ name).toList =
            .ok (uri.toList, name.toList) :=
          splitBraces_eq_ok_iff.mpr ⟨isName.toList_ne_nil, Or.inr ⟨closed, by simp⟩⟩
        rw [attributeName_of_split hw hsplit isName]
        simp [given]

theorem Spells.unique {text : String} {name name' : Name} (h : Spells text name)
    (h' : Spells text name') : name = name' := by
  rw [← attributeName_eq_ok_iff] at h h'
  exact Except.ok.inj (h.symm.trans h')

/-- Of a name no other name is spelled. -/
theorem IsName.spells_iff {text : String} (h : IsName text) {name : Name} :
    Spells text name ↔ name = ⟨none, none, text⟩ :=
  ⟨fun hspells => hspells.unique (.plain h), fun heq => heq ▸ .plain h⟩

end Conversion

end OscalValidation

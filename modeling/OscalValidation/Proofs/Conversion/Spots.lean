import OscalValidation.Proofs.Conversion.Faithful

set_option autoImplicit false

/-! # Where a conversion can fail

A conversion passes the spots of a document in the order of its members: the attributes, the texts
and the elements that are to come about, each at its place. `Spot.Fits` says, without regard to how
a document is converted, what a spot must be like. Main statement: the conversion of a value
succeeds exactly if all spots fit, and else it fails with a fault about the first that does not
(`passes_partsOf`).
-/

namespace OscalValidation

namespace Conversion

open Xml (Node Attribute MarkupFault checkElementName)

/-! ## Spots -/

/-- What a value becomes. -/
inductive Role
  | flag (name : String)
  | content
  | element (label : Label)

/-- **A spot of a document:** a place, the value there, and what the value becomes. -/
structure Spot where
  place : Place
  value : Json
  role : Role

/-- The value is a text that can be written. -/
def FitsText (value : Json) : Prop := ∃ text, value.scalarText? = some text ∧ IsWritable text

/-- The value can be what an element holds, apart from the members of an object: it is an object,
or a scalar whose text can be written, paragraph by paragraph where prose is expected. -/
def FitsElement (rules : ConversionRules) (label : Label) : Json → Prop
  | .obj _ => True
  | value => ∃ text, value.scalarText? = some text ∧
      if rules.isProse label then ∀ p ∈ Text.paragraphs text, IsWritable p
      else IsWritable text

/-- **What stands at the spot can be converted.** -/
def Spot.Fits (rules : ConversionRules) (spot : Spot) : Prop :=
  match spot.role with
  | .flag name => (∃ spelled, Spells name spelled) ∧ FitsText spot.value
  | .content => FitsText spot.value
  | .element label => IsName label.written ∧ FitsElement rules label spot.value

section Spots

variable (rules : ConversionRules)

mutual

/-- The spots of a value that becomes an element, in the order of the members. -/
def valueSpots (label : Label) (place : Place) : Json → List Spot
  | .obj members => ⟨place, .obj members, .element label⟩ :: memberSpots label place members
  | value => [⟨place, value, .element label⟩]

/-- The spots of members of an object. -/
def memberSpots (label : Label) (place : Place) : List (String × Json) → List Spot
  | [] => []
  | (key, value) :: rest =>
      (if rules.isValue label key then [⟨place.below (.member key), value, .content⟩]
        else if rules.isFlag label key then [⟨place.below (.member key), value, .flag key⟩]
        else match value with
          | .arr items => itemSpots (itemLabel rules key) (place.below (.member key)) 0 items
          | value => valueSpots key (place.below (.member key)) value) ++
        memberSpots label place rest

/-- The spots of items that become elements; the first of them has the given position. -/
def itemSpots (label : Label) (place : Place) (position : Nat) : List Json → List Spot
  | [] => []
  | item :: rest =>
      valueSpots label (place.below (.item position)) item ++
        itemSpots label place (position + 1) rest

end

end Spots

/-! ## Faults -/

/-- **The fault is about the spot.** -/
inductive Blames : ConversionFault → Spot → Prop
  | notText {value : Json} {place : Place} {role : Role} (none : value.scalarText? = none) :
      Blames (.notText value place) ⟨place, value, role⟩
  /-- The value is an integer with too many digits. -/
  | integerTooLong {value : Int} {place : Place} {role : Role} (long : Json.isLong value = true) :
      Blames .integerTooLong ⟨place, .int value, role⟩
  /-- The value is an array without a name for its items. -/
  | unnamedItems {items : List Json} {place : Place} {label : Label} :
      Blames (.unnamedItems place) ⟨place, .arr items, .element label⟩
  /-- The element would have no proper name. -/
  | elementName {fault : MarkupFault} {value : Json} {place : Place} {label : Label}
      (noName : ¬ IsName label.written) :
      Blames (.elementName label.written fault place) ⟨place, value, .element label⟩
  /-- An attribute or a text cannot be written. -/
  | unwritable {fault : MarkupFault} {value : Json} {place : Place} {role : Role} :
      Blames (.unwritable fault place) ⟨place, value, role⟩

/-- A fault that is told names the place that it is about in its only diagnostic. The other is that
of an integer with too many digits. -/
theorem Blames.diagnostics {fault : ConversionFault} {spot : Spot} (h : Blames fault spot) :
    (fault.isReported = true ∧
        ∃ before after, fault.diagnostics = [before ++ " at " ++ spot.place.text ++ after]) ∨
      (fault = .integerTooLong ∧ ∃ value, spot.value = .int value ∧ Json.isLong value = true) := by
  cases h with
  | integerTooLong long => exact Or.inr ⟨rfl, _, rfl, long⟩
  | notText none => exact Or.inl ⟨rfl, "expected a string, number or boolean", _, by
      simp [ConversionFault.diagnostics, String.append_assoc]; rfl⟩
  | unnamedItems => exact Or.inl ⟨rfl, "array", " has no element name to group under", rfl⟩
  | elementName noName => exact Or.inl ⟨rfl, _, "", by simp [ConversionFault.diagnostics]; rfl⟩
  | unwritable => exact Or.inl ⟨rfl, _, "", by simp [ConversionFault.diagnostics]; rfl⟩

/-! ## Passing the spots -/

/-- **The attempt passes the spots in their order:** it succeeds if all of them fit, and else it
fails with a fault about the first that does not. -/
inductive Passes (rules : ConversionRules) {β : Type} :
    Except ConversionFault β → List Spot → Prop
  | ok {b : β} {spots : List Spot} (fit : ∀ s ∈ spots, s.Fits rules) : Passes rules (.ok b) spots
  /-- A spot does not fit, and all before it do. -/
  | error {before after : List Spot} {spot : Spot} {fault : ConversionFault}
      (fit : ∀ s ∈ before, s.Fits rules) (unfit : ¬ spot.Fits rules) (blames : Blames fault spot) :
      Passes rules (.error fault) (before ++ spot :: after)

section Passes

variable {rules : ConversionRules} {β γ : Type} {spots more : List Spot} {spot : Spot}

/-- An attempt that succeeds passed only spots that fit. -/
theorem Passes.fit_of_ok {b : β} (h : Passes rules (.ok b) spots) : ∀ s ∈ spots, s.Fits rules := by
  cases h with
  | ok fit => exact fit

/-- An attempt that fails does so for the first spot that does not fit. -/
theorem Passes.first_of_error {fault : ConversionFault}
    (h : Passes rules (.error fault : Except ConversionFault β) spots) :
    ∃ before spot after, spots = before ++ spot :: after ∧ (∀ s ∈ before, s.Fits rules) ∧
      ¬ spot.Fits rules ∧ Blames fault spot := by
  cases h with
  | error fit unfit blames => exact ⟨_, _, _, rfl, fit, unfit, blames⟩

/-- An attempt whose spots all fit succeeds. -/
theorem Passes.ok_of_fit {x : Except ConversionFault β} (h : Passes rules x spots)
    (hfit : ∀ s ∈ spots, s.Fits rules) : ∃ b, x = .ok b := by
  cases h with
  | ok => exact ⟨_, rfl⟩
  | error _ unfit _ => exact absurd (hfit _ (by simp)) unfit

/-- A spot that fits may come before. -/
theorem Passes.cons {x : Except ConversionFault β} (h : Passes rules x spots)
    (hfit : spot.Fits rules) : Passes rules x (spot :: spots) := by
  cases h with
  | ok fit =>
      refine .ok fun s hs => ?_
      rcases List.mem_cons.mp hs with rfl | hs
      · exact hfit
      · exact fit s hs
  | @error before after _ _ fit unfit blames =>
      have hbefore : ∀ s ∈ spot :: before, s.Fits rules := by
        intro s hs
        rcases List.mem_cons.mp hs with rfl | hs
        · exact hfit
        · exact fit s hs
      exact .error hbefore unfit blames

/-- The first spot does not fit. -/
theorem Passes.unfit {fault : ConversionFault} (hunfit : ¬ spot.Fits rules)
    (h : Blames fault spot) : Passes rules (.error fault : Except ConversionFault β)
      (spot :: spots) :=
  have hnone : ∀ s ∈ ([] : List Spot), s.Fits rules := by simp
  .error hnone hunfit h

/-- One attempt after another passes the spots of the one and then those of the other. -/
theorem Passes.bind {x : Except ConversionFault β} {f : β → Except ConversionFault γ}
    (h : Passes rules x spots) (hf : ∀ b, Passes rules (f b) more) :
    Passes rules (x >>= f) (spots ++ more) := by
  cases h with
  | @ok b _ fit =>
      induction spots with
      | nil => exact hf b
      | cons s rest ih =>
          have hrest := ih fun s' hs' => fit s' (List.mem_cons_of_mem _ hs')
          exact hrest.cons (fit s List.mem_cons_self)
  | @error before after _ _ fit unfit blames =>
      rw [List.append_assoc, List.cons_append]
      exact .error fit unfit blames

/-- What is made of a result passes no more spots. -/
theorem Passes.map {x : Except ConversionFault β} (h : Passes rules x spots) (f : β → γ) :
    Passes rules (x >>= fun b => pure (f b)) spots := by
  have hmore := h.bind fun b => (.ok (by simp) : Passes rules (.ok (f b)) [])
  rwa [List.append_nil] at hmore

/-! ## Texts -/

variable {place : Place} {value : Json} {label : Label}

/-- A value without a text is to blame for it. -/
theorem exists_textAt_error (place : Place) {value : Json} (h : value.scalarText? = none) :
    ∃ fault, textAt place value = .error fault ∧ ∀ role, Blames fault ⟨place, value, role⟩ := by
  have hnot : (∀ n, value ≠ .int n) → textAt place value = .error (.notText value place) := by
    intro hint
    unfold textAt
    rw [h]
    cases value with
    | int n => exact absurd rfl (hint n)
    | _ => rfl
  cases value with
  | int n =>
      have hlong : Json.isLong n = true := by
        by_contra hshort
        rw [Json.scalarText?, if_neg hshort] at h
        cases h
      refine ⟨.integerTooLong, ?_, fun role => .integerTooLong hlong⟩
      unfold textAt
      rw [h]
  | _ => exact ⟨_, hnot (fun _ => Json.noConfusion), fun role => .notText h⟩

theorem not_fitsText (h : value.scalarText? = none) : ¬ FitsText value := by
  rintro ⟨text, htext, -⟩
  rw [h] at htext
  cases htext

/-- A text in an element, and what comes after it. -/
theorem passes_content {k : Part → Except ConversionFault γ}
    (hk : ∀ part, Passes rules (k part) more) :
    Passes rules (textAt place value >>= fun text => textPart place text >>= k)
      (⟨place, value, .content⟩ :: more) := by
  cases ht : value.scalarText? with
  | none =>
      obtain ⟨fault, hfault, hblames⟩ := exists_textAt_error place ht
      rw [hfault]
      exact .unfit (not_fitsText ht) (hblames _)
  | some text =>
      rw [textAt_eq_ok_iff.mpr ht]
      by_cases hw : IsWritable text
      · have hpart : textPart place text = .ok (.text text) := by
          rw [textPart, checkText_of_writable hw]
        show Passes rules (textPart place text >>= k) _
        rw [hpart]
        exact (hk _).cons ⟨text, ht, hw⟩
      · have hpart : textPart place text = .error (.unwritable .characters place) := by
          rw [textPart, checkText_of_not_writable hw]
        show Passes rules (textPart place text >>= k) _
        rw [hpart]
        refine .unfit ?_ .unwritable
        rintro ⟨text', htext, hw'⟩
        rw [ht] at htext
        cases htext
        exact hw hw'

/-- An attribute, and what comes after it. -/
theorem passes_attribute {name : String} {k : Part → Except ConversionFault γ}
    (hk : ∀ part, Passes rules (k part) more) :
    Passes rules (textAt place value >>= fun text => attributePart place name text >>= k)
      (⟨place, value, .flag name⟩ :: more) := by
  cases ht : value.scalarText? with
  | none =>
      obtain ⟨fault, hfault, hblames⟩ := exists_textAt_error place ht
      rw [hfault]
      exact .unfit (fun hfit => not_fitsText ht hfit.2) (hblames _)
  | some text =>
      rw [textAt_eq_ok_iff.mpr ht]
      show Passes rules (attributePart place name text >>= k) _
      cases hname : Xml.attributeName name with
      | ok spelled =>
          have hspells := attributeName_eq_ok_iff.mp hname
          by_cases hw : IsWritable text
          · have hpart : attributePart place name text = .ok (.flag ⟨spelled, text, false⟩) := by
              rw [attributePart, hname, checkText_of_writable hw]
            rw [hpart]
            exact (hk _).cons ⟨⟨spelled, hspells⟩, text, ht, hw⟩
          · have hpart : attributePart place name text =
                .error (.unwritable .characters place) := by
              rw [attributePart, hname, checkText_of_not_writable hw]
            rw [hpart]
            refine .unfit ?_ .unwritable
            rintro ⟨-, text', htext, hw'⟩
            rw [ht] at htext
            cases htext
            exact hw hw'
      | error fault =>
          -- the name is refused before the text is looked at
          have hpart : attributePart place name text = .error (.unwritable fault place) := by
            rw [attributePart, hname]
          rw [hpart]
          refine .unfit ?_ .unwritable
          rintro ⟨⟨spelled, hspells⟩, -⟩
          rw [attributeName_eq_ok_iff.mpr hspells] at hname
          cases hname

/-- The paragraphs of prose. -/
theorem mapM_paragraphAt (place : Place) (contents : List String) :
    ((∀ p ∈ contents, IsWritable p) ∧ ∃ nodes, contents.mapM (paragraphAt place) = .ok nodes) ∨
      ((¬ ∀ p ∈ contents, IsWritable p) ∧
        ∃ fault, contents.mapM (paragraphAt place) = .error (.unwritable fault place)) := by
  induction contents with
  | nil => exact Or.inl ⟨by simp, [], rfl⟩
  | cons p rest ih =>
      rw [List.mapM_cons]
      by_cases hw : IsWritable p
      · have hp : paragraphAt place p = .ok (assemble "p" [] [.text p]).node := by
          rw [paragraphAt, textPart, checkText_of_writable hw]
          rfl
        rw [hp]
        rcases ih with ⟨hall, nodes, hnodes⟩ | ⟨hall, fault, hfault⟩
        · refine Or.inl ⟨fun q hq => ?_, (assemble "p" [] [.text p]).node :: nodes, ?_⟩
          · exact (List.mem_cons.mp hq).elim (fun h => h ▸ hw) (hall q)
          · rw [hnodes]
            rfl
        · refine Or.inr ⟨fun h => hall fun q hq => h q (List.mem_cons_of_mem _ hq), fault, ?_⟩
          rw [hfault]
          rfl
      · have hp : paragraphAt place p = .error (.unwritable .characters place) := by
          rw [paragraphAt, textPart, checkText_of_not_writable hw]
          rfl
        exact Or.inr ⟨fun h => hw (h p List.mem_cons_self), .characters, by rw [hp]; rfl⟩

/-- A scalar that becomes an element. -/
theorem passes_scalarParts (hn : IsName label.written) (hobj : ∀ members, value ≠ .obj members) :
    Passes rules (scalarParts rules label place value) [⟨place, value, .element label⟩] := by
  have hfit : Spot.Fits rules ⟨place, value, .element label⟩ ↔ ∃ text,
      value.scalarText? = some text ∧ if rules.isProse label then
        ∀ p ∈ Text.paragraphs text, IsWritable p else IsWritable text := by
    simp only [Spot.Fits, hn, true_and]
    cases value with
    | obj members => exact absurd rfl (hobj members)
    | _ => rfl
  unfold scalarParts
  cases ht : value.scalarText? with
  | none =>
      obtain ⟨fault, hfault, hblames⟩ := exists_textAt_error place ht
      rw [hfault]
      refine .unfit (fun h => ?_) (hblames _)
      obtain ⟨text, htext, -⟩ := hfit.mp h
      rw [ht] at htext
      cases htext
  | some text =>
      rw [textAt_eq_ok_iff.mpr ht]
      have hfit' : Spot.Fits rules ⟨place, value, .element label⟩ ↔
          if rules.isProse label then ∀ p ∈ Text.paragraphs text, IsWritable p
          else IsWritable text := by
        simp [hfit, ht]
      show Passes rules (if rules.isProse label then do
          let nodes ← (Text.paragraphs text).mapM (paragraphAt place)
          return [.children nodes]
        else do
          let part ← textPart place text
          return [part]) _
      split
      · next hprose =>
        rw [if_pos hprose] at hfit'
        rcases mapM_paragraphAt place (Text.paragraphs text) with
          ⟨hall, nodes, hnodes⟩ | ⟨hall, fault, hfault⟩
        · rw [hnodes]
          exact .ok fun s hs => by rw [List.mem_singleton.mp hs]; exact hfit'.mpr hall
        · rw [hfault]
          exact .unfit (fun h => hall (hfit'.mp h)) .unwritable
      · next hplain =>
        rw [if_neg hplain] at hfit'
        by_cases hw : IsWritable text
        · rw [textPart, checkText_of_writable hw]
          exact .ok fun s hs => by rw [List.mem_singleton.mp hs]; exact hfit'.mpr hw
        · rw [textPart, checkText_of_not_writable hw]
          exact .unfit (fun h => hw (hfit'.mp h)) .unwritable

/-! ## Values -/

/-- An element must have a name before anything is made of it. -/
theorem passes_nameAt {x : Except ConversionFault γ}
    (hx : IsName label.written → Passes rules x (⟨place, value, .element label⟩ :: spots)) :
    Passes rules (nameAt place label >>= fun _ => x) (⟨place, value, .element label⟩ :: spots) := by
  rcases checkElementName_cases label.written with ⟨hn, hcheck⟩ | ⟨hn, fault, hcheck⟩
  · rw [nameAt, hcheck]
    exact hx hn
  · rw [nameAt, hcheck]
    exact .unfit (fun hfit => hn hfit.1) (.elementName hn)

/-- The first spot of a value is that of its element. -/
theorem valueSpots_eq_cons (rules : ConversionRules) (label : Label) (place : Place)
    (value : Json) :
    ∃ rest, valueSpots rules label place value = ⟨place, value, .element label⟩ :: rest := by
  cases value with
  | obj members => exact ⟨_, by rw [valueSpots]⟩
  | _ => exact ⟨[], by rw [valueSpots]; simp⟩

/-- **Entries are looked up in objects.** -/
structure IsTabled (rules : ConversionRules) : Prop where
  values : tableAt rules.values = .ok ()
  groups : tableAt rules.groups = .ok ()

mutual

/-- **The conversion of a value passes its spots.** -/
theorem passes_partsOf (tabled : IsTabled rules) (label : Label) (place : Place)
    (hn : IsName label.written) :
    (value : Json) →
      Passes rules (partsOf rules label place value) (valueSpots rules label place value)
  | .obj members => by
      rw [partsOf, valueSpots, tabled.values]
      exact (passes_memberParts tabled label place members).cons ⟨hn, trivial⟩
  | .arr items => by
      rw [partsOf, valueSpots]
      · exact .unfit (fun hfit => by obtain ⟨-, text, htext, -⟩ := hfit; cases htext) .unnamedItems
      · simp
  | .null | .bool _ | .int _ | .real _ | .str _ => by
      rw [partsOf, valueSpots] <;> first | exact passes_scalarParts hn (by simp) | simp

theorem passes_memberParts (tabled : IsTabled rules) (label : Label) (place : Place) :
    (members : List (String × Json)) →
      Passes rules (memberParts rules label place members) (memberSpots rules label place members)
  | [] => by
      rw [memberParts, memberSpots]
      exact .ok (by simp)
  | (key, value) :: rest => by
      have hrest : ∀ part, Passes rules (do
          let parts ← memberParts rules label place rest
          pure (part :: parts)) (memberSpots rules label place rest) := by
        intro part
        exact (passes_memberParts tabled label place rest).map (part :: ·)
      by_cases hv : rules.isValue label key = true
      · unfold memberParts memberSpots
        rw [if_pos hv, if_pos hv]
        exact passes_content hrest
      by_cases hf : rules.isFlag label key = true
      · unfold memberParts memberSpots
        rw [if_neg hv, if_pos hf, if_neg hv, if_pos hf]
        exact passes_attribute hrest
      -- anything but an array becomes one element under the member's own name
      have helement : (∀ items, value ≠ .arr items) → Passes rules
          (memberParts rules label place ((key, value) :: rest))
          (memberSpots rules label place ((key, value) :: rest)) := by
        intro ha
        rw [memberParts, memberSpots, if_neg hv, if_neg hf, if_neg hv, if_neg hf]
        · obtain ⟨inner, hinner⟩ :=
            valueSpots_eq_cons rules key (place.below (.member key)) value
          rw [hinner, List.cons_append]
          refine passes_nameAt fun hn => ?_
          rw [← List.cons_append, ← hinner]
          exact (passes_partsOf tabled key _ hn value).bind fun parts => hrest _
        · exact ha
        · exact ha
      cases value with
      | arr items =>
          rw [memberParts, memberSpots, if_neg hv, if_neg hf, if_neg hv, if_neg hf, tabled.groups]
          exact (passes_itemNodes tabled _ _ 0 items).bind fun nodes => hrest _
      | _ => exact helement fun _ => Json.noConfusion

theorem passes_itemNodes (tabled : IsTabled rules) (label : Label) (place : Place) (position : Nat) :
    (items : List Json) →
      Passes rules (itemNodes rules label place position items)
        (itemSpots rules label place position items)
  | [] => by
      rw [itemNodes, itemSpots]
      exact .ok (by simp)
  | item :: rest => by
      rw [itemNodes, itemSpots]
      have hrest : ∀ parts, Passes rules (do
          let nodes ← itemNodes rules label place (position + 1) rest
          return (assemble label [] parts).node :: nodes)
          (itemSpots rules label place (position + 1) rest) := by
        intro parts
        exact (passes_itemNodes tabled label place (position + 1) rest).map
          ((assemble label [] parts).node :: ·)
      obtain ⟨inner, hinner⟩ := valueSpots_eq_cons rules label (place.below (.item position)) item
      rw [hinner, List.cons_append]
      refine passes_nameAt fun hn => ?_
      rw [← List.cons_append, ← hinner]
      exact (passes_partsOf tabled label _ hn item).bind hrest

end

end Passes

end Conversion

end OscalValidation

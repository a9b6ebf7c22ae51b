import Mathlib.Data.List.Forall2
import OscalValidation.Site.Pattern

set_option autoImplicit false

/-! # What a pattern of addresses matches

`Matches` says how the characters of an address are shared out among the parts of a pattern. A
pattern that is found to match gives the values of some way to do so (`matches_of_matchParts`), and
one is found wherever there is one (`Matches.exists_matchParts`). Where every parameter ends at a
slash there is only one way (`matchParts_eq_some_iff`).
-/

namespace OscalValidation

/-! ## Letters of fixed texts -/

namespace Text

/-- The characters of fixed texts: the small letters of ASCII, and the marks between words. -/
def plainAlphabet : List Char := "abcdefghijklmnopqrstuvwxyz#/-".toList

/-- The character of fixed texts that `c` stands for, if it stands for any. -/
def plainLetter (c : Char) : Char :=
  if lowerChar c = 'ı' then 'i' else if lowerChar c = 'ſ' then 's' else lowerChar c

theorem toNat_ofNat_eq (n : Nat) : (Char.ofNat n).toNat = n ∨ (Char.ofNat n).toNat = 0 := by
  unfold Char.ofNat
  by_cases h : n.isValidChar
  · rw [dif_pos h]
    exact Or.inl rfl
  · rw [dif_neg h]
    exact Or.inr rfl

/-- **A mark below the letters of ASCII is the lower case of itself alone.** -/
theorem eq_of_lowerChar {mark c : Char} (h : lowerChar c = mark) (hlow : mark.toNat < 65)
    (hzero : mark.toNat ≠ 0) : c = mark := by
  unfold lowerChar at h
  split at h
  · unfold Char.toLower at h
    split at h
    · next hupper =>
      -- a capital goes to a small letter, which is no mark
      obtain ⟨hfrom, hto⟩ := hupper
      have hcode : mark.toNat = (c.val + ('a'.val - 'A'.val)).toNat := by
        rw [← h]
        rfl
      rw [ge_iff_le, UInt32.le_iff_toNat_le] at hfrom
      rw [UInt32.le_iff_toNat_le] at hto
      rw [UInt32.toNat_add] at hcode
      have hA : 'A'.val.toNat = 65 := rfl
      have hZ : 'Z'.val.toNat = 90 := rfl
      have hshift : ('a'.val - 'A'.val).toNat = 32 := rfl
      omega
    · exact h
  · split at h
    · subst h
      exact absurd hlow (by decide)
    · split at h
      · next run hrun =>
        -- no run of the table leads below the small letters
        have hruns : ∀ run ∈ lowerCaseRuns, 97 ≤ (run.first : Int) + run.shift := by
          decide +kernel
        have hrange := hruns run (List.mem_of_find?_eq_some hrun)
        have hfirst := List.find?_some hrun
        unfold CaseRun.contains at hfirst
        simp only [Bool.and_eq_true, decide_eq_true_eq] at hfirst
        rcases toNat_ofNat_eq ((c.toNat : Int) + run.shift).toNat with hcode | hcode
        · rw [h] at hcode
          omega
        · rw [h] at hcode
          exact absurd hcode hzero
      · exact h

/-- **A plain character is spelled by those that stand for it.** -/
theorem sameCaseless_iff {p c : Char} (hp : p ∈ plainAlphabet) :
    sameCaseless p c = true ↔ plainLetter c = p := by
  have hlower : ∀ q ∈ plainAlphabet, lowerChar q = q ∧ q ≠ 'ı' ∧ q ≠ 'ſ' :=
    List.forall_iff_forall_mem.mp (by decide)
  have hvariants : ∀ q ∈ plainAlphabet,
      caselessVariants.lookup q.toNat =
        if q = 'i' then some ['ı'.toNat] else if q = 's' then some ['ſ'.toNat] else none :=
    List.forall_iff_forall_mem.mp (by decide)
  obtain ⟨hp', hi, hs⟩ := hlower p hp
  unfold sameCaseless plainLetter
  dsimp only
  rw [hp', hvariants p hp]
  generalize lowerChar c = found
  have hone : ∀ variant : Char, [variant.toNat].contains found.toNat = true ↔ found = variant := by
    intro variant
    rw [List.contains_iff_mem, List.mem_singleton, Char.toNat_inj]
  rw [Bool.or_eq_true, beq_iff_eq]
  by_cases hpi : p = 'i'
  · rw [if_pos hpi]
    dsimp only
    rw [hone, hpi]
    by_cases hdotless : found = 'ı' <;> by_cases hlong : found = 'ſ' <;> simp [hdotless, hlong]
  · by_cases hps : p = 's'
    · rw [if_neg hpi, if_pos hps]
      dsimp only
      rw [hone, hps]
      by_cases hdotless : found = 'ı' <;> by_cases hlong : found = 'ſ' <;> simp [hdotless, hlong]
    · rw [if_neg hpi, if_neg hps]
      by_cases hdotless : found = 'ı'
      · simp [hdotless, hi.symm, Ne.symm hpi]
      · by_cases hlong : found = 'ſ'
        · simp [hlong, hs.symm, Ne.symm hps]
        · simp [hdotless, hlong]

/-- **Nothing but a mark spells it.** -/
theorem eq_of_sameCaseless {mark c : Char} (h : sameCaseless mark c = true)
    (hplain : mark ∈ plainAlphabet) (hlow : mark.toNat < 65) : c = mark := by
  have hletter : plainLetter c = mark := (sameCaseless_iff hplain).mp h
  have hmarks : ∀ p ∈ plainAlphabet, p.toNat ≠ 0 :=
    List.forall_iff_forall_mem.mp (by decide)
  unfold plainLetter at hletter
  split at hletter
  · exact absurd (hletter ▸ hlow) (by decide)
  · split at hletter
    · exact absurd (hletter ▸ hlow) (by decide)
    · exact eq_of_lowerChar hletter hlow (hmarks mark hplain)

theorem sameCaseless_self (c : Char) : sameCaseless c c = true := by simp [sameCaseless]

end Text

namespace Site

open Text (sameCaseless plainLetter)

/-! ## Ways to match -/

/-- **The characters match the parts,** with values for the parameters. -/
inductive Matches (mayEndInSlash : Bool) :
    List PatternPart → List Char → List (String × String) → Prop
  | finished : Matches mayEndInSlash [] [] []
  /-- A slash is left where one may follow. -/
  | slash (allowed : mayEndInSlash = true) : Matches mayEndInSlash [] ['/'] []
  /-- A fixed character is spelled, whatever its case. -/
  | fixed {p c : Char} {parts : List PatternPart} {rest : List Char}
      {values : List (String × String)} (same : sameCaseless p c = true)
      (others : Matches mayEndInSlash parts rest values) :
      Matches mayEndInSlash (.fixed p :: parts) (c :: rest) values
  /-- A parameter stands for characters without a slash, of which there is at least one. -/
  | parameter {name : String} {segment : List Char} {parts : List PatternPart} {rest : List Char}
      {values : List (String × String)} (nonempty : segment ≠ []) (whole : '/' ∉ segment)
      (others : Matches mayEndInSlash parts rest values) :
      Matches mayEndInSlash (.parameter name :: parts) (segment ++ rest)
        ((name, String.ofList segment) :: values)

section Matching

variable {mayEndInSlash : Bool} {parts : List PatternPart} {cs : List Char}
  {values : List (String × String)}

open AddressPattern (matchParts)

/-- What comes before the first slash goes on behind characters without one. -/
theorem takeWhile_append {segment rest : List Char} (whole : '/' ∉ segment) :
    (segment ++ rest).takeWhile (· != '/') = segment ++ rest.takeWhile (· != '/') := by
  refine List.takeWhile_append_of_pos fun c hc => ?_
  rw [bne_iff_ne]
  rintro rfl
  exact whole hc

/-- **What is found is a way to match.** -/
theorem matches_of_matchParts (h : matchParts mayEndInSlash parts cs = some values) :
    Matches mayEndInSlash parts cs values := by
  induction parts generalizing cs values with
  | nil =>
      cases cs with
      | nil =>
          cases h
          exact .finished
      | cons c rest =>
          rw [matchParts] at h
          · split at h
            · next hslash =>
              cases h
              rw [Bool.and_eq_true, beq_iff_eq] at hslash
              rw [hslash.2]
              exact .slash hslash.1
            · cases h
          · simp
  | cons part parts ih =>
      cases part with
      | fixed p =>
          cases cs with
          | nil => cases h
          | cons c rest =>
              rw [matchParts] at h
              split at h
              · next hsame => exact .fixed hsame (ih h)
              · cases h
      | parameter name =>
          rw [matchParts] at h
          obtain ⟨shorter, hmem, hfound⟩ := List.exists_of_findSome?_eq_some h
          obtain ⟨others, hothers, rfl⟩ := Option.map_eq_some_iff.mp hfound
          rw [List.mem_reverse, List.mem_range] at hmem
          -- the value ends no later than the first slash
          have hfront : cs.take (shorter + 1) <+: cs.takeWhile (· != '/') := by
            refine List.prefix_of_prefix_length_le (List.take_prefix _ _)
              (List.takeWhile_prefix _) ?_
            exact Nat.le_trans (List.length_take_le _ _) hmem
          have hlength : (cs.takeWhile (· != '/')).length ≤ cs.length :=
            (List.takeWhile_sublist _).length_le
          have nonempty : cs.take (shorter + 1) ≠ [] := by
            rw [Ne, List.take_eq_nil_iff, not_or]
            refine ⟨Nat.succ_ne_zero _, ?_⟩
            rintro rfl
            exact absurd hmem (Nat.not_lt_zero _)
          have whole : '/' ∉ cs.take (shorter + 1) := fun hslash => by
            simpa using List.all_eq_true.mp List.all_takeWhile _ (hfront.subset hslash)
          have hway : Matches mayEndInSlash (.parameter name :: parts)
              (cs.take (shorter + 1) ++ cs.drop (shorter + 1))
              ((name, String.ofList (cs.take (shorter + 1))) :: others) :=
            .parameter nonempty whole (ih hothers)
          rwa [List.take_append_drop] at hway

/-- **Where there is a way to match, one is found.** -/
theorem Matches.exists_matchParts (h : Matches mayEndInSlash parts cs values) :
    ∃ found, matchParts mayEndInSlash parts cs = some found := by
  induction h with
  | finished => exact ⟨[], rfl⟩
  | slash allowed => exact ⟨[], by simp [matchParts, allowed]⟩
  | fixed same others ih =>
      obtain ⟨found, hfound⟩ := ih
      exact ⟨found, by rw [matchParts, if_pos same, hfound]⟩
  | @parameter name segment parts rest values nonempty whole others ih =>
      obtain ⟨found, hfound⟩ := ih
      have hlength : segment.length ≠ 0 := fun h => nonempty (List.length_eq_zero_iff.mp h)
      -- the value of this way is among those that are tried
      have hmem : segment.length - 1 ∈
          (List.range ((segment ++ rest).takeWhile (· != '/')).length).reverse := by
        rw [List.mem_reverse, List.mem_range, takeWhile_append whole, List.length_append]
        omega
      have htry : (matchParts mayEndInSlash parts
          ((segment ++ rest).drop (segment.length - 1 + 1))).isSome = true := by
        rw [Nat.sub_add_cancel (Nat.pos_of_ne_zero hlength), List.drop_left, hfound]
        rfl
      rw [matchParts]
      rw [← Option.isSome_iff_exists, List.findSome?_isSome_iff]
      exact ⟨_, hmem, by rw [Option.isSome_map]; exact htry⟩

/-! ## Taking a way to match apart -/

theorem matches_nil_iff :
    Matches mayEndInSlash [] cs values ↔
      values = [] ∧ (cs = [] ∨ mayEndInSlash = true ∧ cs = ['/']) := by
  constructor
  · intro h
    cases h with
    | finished => exact ⟨rfl, Or.inl rfl⟩
    | slash allowed => exact ⟨rfl, Or.inr ⟨allowed, rfl⟩⟩
  · rintro ⟨rfl, rfl | ⟨allowed, rfl⟩⟩
    · exact .finished
    · exact .slash allowed

theorem matches_parameter_iff {name : String} :
    Matches mayEndInSlash (.parameter name :: parts) cs values ↔
      ∃ segment rest others, cs = segment ++ rest ∧ segment ≠ [] ∧ '/' ∉ segment ∧
        values = (name, String.ofList segment) :: others ∧
        Matches mayEndInSlash parts rest others := by
  constructor
  · intro h
    cases h with
    | parameter nonempty whole others => exact ⟨_, _, _, rfl, nonempty, whole, rfl, others⟩
  · rintro ⟨segment, rest, others, rfl, nonempty, whole, rfl, h⟩
    exact .parameter nonempty whole h

/-- **The characters spell the text,** whatever the case of either. -/
def Spells (text cs : List Char) : Prop := List.Forall₂ (fun p c => sameCaseless p c = true) text cs

theorem spells_self (text : List Char) : Spells text text :=
  List.forall₂_same.mpr fun c _ => Text.sameCaseless_self c

/-- **What spells a text has its plain letters.** -/
theorem Spells.map_plainLetter {text : List Char} (h : Spells text cs)
    (hplain : ∀ p ∈ text, p ∈ Text.plainAlphabet) : cs.map plainLetter = text := by
  induction h with
  | nil => rfl
  | cons same _ ih =>
      rw [List.forall_mem_cons] at hplain
      rw [List.map_cons, (Text.sameCaseless_iff hplain.1).mp same, ih hplain.2]

theorem matches_text_iff {text : List Char} :
    Matches mayEndInSlash (text.map .fixed ++ parts) cs values ↔
      ∃ stem rest, cs = stem ++ rest ∧ Spells text stem ∧
        Matches mayEndInSlash parts rest values := by
  induction text generalizing cs with
  | nil =>
      constructor
      · exact fun h => ⟨[], cs, rfl, .nil, h⟩
      · rintro ⟨_, rest, rfl, ⟨⟩, h⟩
        exact h
  | cons p text ih =>
      rw [List.map_cons, List.cons_append]
      constructor
      · intro h
        cases h with
        | fixed same others =>
            obtain ⟨stem, rest, rfl, hstem, hrest⟩ := ih.mp others
            exact ⟨_ :: stem, rest, rfl, .cons same hstem, hrest⟩
      · rintro ⟨_, rest, rfl, hstem, hrest⟩
        cases hstem with
        | cons same hstem => exact .fixed same (ih.mpr ⟨_, rest, rfl, hstem, hrest⟩)

/-! ## One way to match -/

/-- Every parameter ends at a slash or with the pattern. -/
def IsSeparated : List PatternPart → Prop
  | [] => True
  | .fixed _ :: parts => IsSeparated parts
  | .parameter _ :: parts => (parts = [] ∨ parts.head? = some (.fixed '/')) ∧ IsSeparated parts

/-- After a parameter comes a slash, or nothing. -/
theorem Matches.starts_with_slash (h : Matches mayEndInSlash parts cs values)
    (ends : parts = [] ∨ parts.head? = some (.fixed '/')) : cs = [] ∨ cs.head? = some '/' := by
  cases h with
  | finished => exact Or.inl rfl
  | slash => exact Or.inr rfl
  | fixed same =>
      rcases ends with ends | ends
      · cases ends
      · cases ends
        exact Or.inr (congrArg some (Text.eq_of_sameCaseless same (by decide) (by decide)))
  | parameter => rcases ends with ends | ends <;> cases ends

/-- A segment is what comes before the first slash. -/
theorem takeWhile_segment {segment rest : List Char} (whole : '/' ∉ segment)
    (hrest : rest = [] ∨ rest.head? = some '/') :
    (segment ++ rest).takeWhile (· != '/') = segment := by
  rw [takeWhile_append whole]
  rcases hrest with rfl | hslash
  · simp
  · obtain ⟨more, rfl⟩ := List.head?_eq_some_iff.mp hslash
    simp

/-- **The values are determined** where every parameter ends at a slash. -/
theorem Matches.unique {other : List (String × String)} (separated : IsSeparated parts)
    (h : Matches mayEndInSlash parts cs values) (h' : Matches mayEndInSlash parts cs other) :
    values = other := by
  induction parts generalizing cs values other with
  | nil => rw [(matches_nil_iff.mp h).1, (matches_nil_iff.mp h').1]
  | cons part parts ih =>
      cases part with
      | fixed p =>
          cases h with
          | fixed _ others =>
              cases h' with
              | fixed _ others' => exact ih separated others others'
      | parameter name =>
          obtain ⟨ends, separated⟩ := separated
          obtain ⟨segment, rest, others, rfl, -, whole, rfl, hrest⟩ := matches_parameter_iff.mp h
          obtain ⟨segment', rest', others', hcs, -, whole', rfl, hrest'⟩ :=
            matches_parameter_iff.mp h'
          have hsegment : segment = segment' := by
            rw [← takeWhile_segment whole (hrest.starts_with_slash ends), hcs,
              takeWhile_segment whole' (hrest'.starts_with_slash ends)]
          subst hsegment
          rw [List.append_cancel_left hcs] at hrest
          rw [ih separated hrest hrest']

/-- **What is found is the way to match,** where every parameter ends at a slash. -/
theorem matchParts_eq_some_iff (separated : IsSeparated parts) :
    matchParts mayEndInSlash parts cs = some values ↔
      Matches mayEndInSlash parts cs values := by
  refine ⟨matches_of_matchParts, fun h => ?_⟩
  obtain ⟨found, hfound⟩ := h.exists_matchParts
  rw [hfound, (matches_of_matchParts hfound).unique separated h]

end Matching

end Site

end OscalValidation

import Mathlib.Data.List.TakeWhile
import OscalValidation.Json.Bytes
import OscalValidation.Json.Printer
import OscalValidation.Proofs.Json.Distinct
import OscalValidation.Proofs.Text.RoundTrip

set_option autoImplicit false

/-! # Reading what was written

A value that is made of texts, without numbers, whose objects have distinct names and that is not
nested too deep is read back from the document that is written for it, member by member and character
by character (`readValue_writeIndented`), also when the document is kept as bytes (`readBytes_indented`).
-/

namespace OscalValidation

namespace Json

/-! ## Values without numbers -/

mutual

/-- **The value is made of texts:** there is no number in it. -/
def isTextual : Json → Bool
  | .int _ | .real _ => false
  | .arr items => areTextual items
  | .obj members => haveTextual members
  | _ => true

/-- The items are made of texts. -/
def areTextual : List Json → Bool
  | [] => true
  | item :: rest => item.isTextual && areTextual rest

/-- The values of the members are made of texts. -/
def haveTextual : List (String × Json) → Bool
  | [] => true
  | (_, value) :: rest => value.isTextual && haveTextual rest

end

theorem areTextual_cons_iff {item : Json} {rest : List Json} :
    areTextual (item :: rest) = true ↔ item.isTextual = true ∧ areTextual rest = true := by
  rw [areTextual, Bool.and_eq_true]

theorem haveTextual_cons_iff {name : String} {value : Json} {rest : List (String × Json)} :
    haveTextual ((name, value) :: rest) = true ↔
      value.isTextual = true ∧ haveTextual rest = true := by
  rw [haveTextual, Bool.and_eq_true]

theorem areTextual_iff {items : List Json} :
    areTextual items = true ↔ ∀ item ∈ items, item.isTextual = true := by
  induction items with
  | nil => simp [areTextual]
  | cons item rest ih => rw [areTextual_cons_iff, ih, List.forall_mem_cons]

theorem haveTextual_iff {members : List (String × Json)} :
    haveTextual members = true ↔ ∀ m ∈ members, m.2.isTextual = true := by
  induction members with
  | nil => simp [haveTextual]
  | cons m rest ih => rw [haveTextual_cons_iff, ih, List.forall_mem_cons]

/-! ## Nesting -/

mutual

/-- How deep arrays and objects are nested in the value. -/
def nesting : Json → Nat
  | .arr items => itemsNesting items + 1
  | .obj members => membersNesting members + 1
  | _ => 0

/-- How deep they are nested in the items. -/
def itemsNesting : List Json → Nat
  | [] => 0
  | item :: rest => max item.nesting (itemsNesting rest)

/-- How deep they are nested in the members. -/
def membersNesting : List (String × Json) → Nat
  | [] => 0
  | (_, value) :: rest => max value.nesting (membersNesting rest)

end

theorem itemsNesting_le_iff {items : List Json} {n : Nat} :
    itemsNesting items ≤ n ↔ ∀ item ∈ items, item.nesting ≤ n := by
  induction items with
  | nil => simp [itemsNesting]
  | cons item rest ih => rw [itemsNesting, Nat.max_le, ih, List.forall_mem_cons]

theorem membersNesting_le_iff {members : List (String × Json)} {n : Nat} :
    membersNesting members ≤ n ↔ ∀ m ∈ members, m.2.nesting ≤ n := by
  induction members with
  | nil => simp [membersNesting]
  | cons m rest ih => rw [membersNesting, Nat.max_le, ih, List.forall_mem_cons]

/-! ## Texts -/

/-- The code of a character is no half of a surrogate pair. -/
theorem not_surrogate (c : Char) :
    isHighSurrogate c.toNat = false ∧ isLowSurrogate c.toNat = false := by
  have hvalid : c.toNat.isValidChar := c.valid
  unfold Nat.isValidChar at hvalid
  constructor
  · rw [isHighSurrogate, Bool.and_eq_false_iff, decide_eq_false_iff_not, decide_eq_false_iff_not]
    omega
  · rw [isLowSurrogate, Bool.and_eq_false_iff, decide_eq_false_iff_not, decide_eq_false_iff_not]
    omega

/-- The codes of characters are theirs. -/
theorem charsOfUnits_map (cs : List Char) : charsOfUnits (cs.map Char.toNat) = cs := by
  have hchar : ∀ c : Char, charOfUnit c.toNat = c := by
    intro c
    obtain ⟨hhigh, hlow⟩ := not_surrogate c
    rw [charOfUnit, hhigh, hlow]
    exact Char.ofNat_toNat c
  induction cs with
  | nil => rfl
  | cons c cs ih =>
      cases cs with
      | nil => simp [charsOfUnits, hchar]
      | cons c' cs =>
          rw [List.map_cons, List.map_cons, charsOfUnits, (not_surrogate c).1, hchar,
            ← List.map_cons, ih]
          simp

theorem escapedChar?_of_shortEscape? {c letter : Char} (h : shortEscape? c = some letter) :
    letter ≠ 'u' ∧ escapedChar? letter = some c := by
  unfold shortEscape? at h
  split at h <;> cases h <;> decide

/-- The four hexadecimal digits of a code are read as the code. -/
theorem hexCode?_hexDigits {n : Nat} (h : n < 65536) :
    ∃ a b c d, Text.hexDigits 4 n = [a, b, c, d] ∧ hexCode? a b c d = some n := by
  have hdigit : ∀ d < 16, hexDigit? (Nat.digitChar d) = some d := by decide
  refine ⟨_, _, _, _, rfl, ?_⟩
  rw [hexCode?, hdigit _ (Nat.mod_lt _ (by omega)), hdigit _ (Nat.mod_lt _ (by omega)),
    hdigit _ (Nat.mod_lt _ (by omega)), hdigit _ (Nat.mod_lt _ (by omega))]
  show some _ = some n
  congr 1
  omega

/-- How a character is written: as an escape of one letter, as an escaped code, or as it is. -/
theorem writeChar_cases (c : Char) :
    (∃ letter, writeChar false c = ['\\', letter] ∧ letter ≠ 'u' ∧ escapedChar? letter = some c) ∨
    (∃ d₁ d₂ d₃ d₄, writeChar false c = ['\\', 'u', d₁, d₂, d₃, d₄] ∧
      hexCode? d₁ d₂ d₃ d₄ = some c.toNat) ∨
    (writeChar false c = [c] ∧ c ≠ '"' ∧ c ≠ '\\' ∧ ¬ c.toNat < 32) := by
  unfold writeChar
  cases hshort : shortEscape? c with
  | some letter => exact Or.inl ⟨letter, rfl, escapedChar?_of_shortEscape? hshort⟩
  | none =>
      by_cases hcontrol : c.toNat < 32
      · obtain ⟨d₁, d₂, d₃, d₄, hdigits, hcode⟩ := hexCode?_hexDigits (by omega : c.toNat < 65536)
        refine Or.inr (Or.inl ⟨d₁, d₂, d₃, d₄, ?_, hcode⟩)
        dsimp only
        rw [if_pos (Or.inl hcontrol), escapedCode, if_pos (by omega), escapedUnit, hdigits]
      · refine Or.inr (Or.inr ⟨?_, ?_, ?_, hcontrol⟩)
        · dsimp only
          rw [if_neg (by simp [hcontrol])]
        · rintro rfl
          cases hshort
        · rintro rfl
          cases hshort

/-- What is written for a character is read as its code; the text is never at its end there. -/
theorem readUnits_writeChar (opening fuel : Nat) (c next : Char) (rest : List Char) :
    readUnits opening (fuel + 1) (writeChar false c ++ next :: rest) = (do
      let (units, rest) ← readUnits opening fuel (next :: rest)
      return (c.toNat :: units, rest)) := by
  rcases writeChar_cases c with ⟨letter, hwrite, hu, hescaped⟩ |
    ⟨d₁, d₂, d₃, d₄, hwrite, hcode⟩ | ⟨hwrite, hquote, hslash, hcontrol⟩
  · have hescape : readEscape opening (letter :: next :: rest) = .ok (c.toNat, next :: rest) := by
      rw [readEscape, hescaped]
      · simp [hu]
      · simp [hu]
    rw [hwrite, List.cons_append, readUnits, if_neg (by decide), if_pos rfl]
    show (readEscape opening (letter :: next :: rest) >>= _) = _
    rw [hescape]
    rfl
  · have hescape : readEscape opening ('u' :: d₁ :: d₂ :: d₃ :: d₄ :: next :: rest) =
        .ok (c.toNat, next :: rest) := by
      rw [readEscape, hcode]
    rw [hwrite, List.cons_append, readUnits, if_neg (by decide), if_pos rfl]
    show (readEscape opening ('u' :: d₁ :: d₂ :: d₃ :: d₄ :: next :: rest) >>= _) = _
    rw [hescape]
    rfl
  · rw [hwrite, List.cons_append, readUnits, if_neg hquote, if_neg hslash, if_neg hcontrol]
    rfl

/-- **A written text is read as its characters' codes.** -/
theorem readUnits_write (opening : Nat) (cs rest : List Char) {fuel : Nat}
    (hfuel : cs.length < fuel) :
    readUnits opening fuel (cs.flatMap (writeChar false) ++ '"' :: rest) =
      .ok (cs.map Char.toNat, rest) := by
  induction cs generalizing fuel with
  | nil =>
      cases fuel with
      | zero => cases hfuel
      | succ fuel => rfl
  | cons c cs ih =>
      cases fuel with
      | zero => cases hfuel
      | succ fuel =>
          rw [List.length_cons] at hfuel
          -- another character or the closing quote comes next
          obtain ⟨next, more, hnext⟩ : ∃ next more,
              cs.flatMap (writeChar false) ++ '"' :: rest = next :: more :=
            List.exists_cons_of_ne_nil (by simp)
          rw [List.flatMap_cons, List.append_assoc, hnext, readUnits_writeChar, ← hnext,
            ih (by omega)]
          rfl

theorem length_le_flatMap_writeChar (cs : List Char) :
    cs.length ≤ (cs.flatMap (writeChar false)).length := by
  rw [List.length_flatMap]
  induction cs with
  | nil => exact Nat.zero_le _
  | cons c cs ih =>
      have hpos : 0 < (writeChar false c).length := by
        rcases writeChar_cases c with ⟨_, hwrite, -⟩ | ⟨_, _, _, _, hwrite, -⟩ | ⟨hwrite, -⟩ <;>
          rw [hwrite] <;> simp
      simp only [List.length_cons, List.map_cons, List.sum_cons]
      omega

/-- **A written text is read back.** -/
theorem readText_writeText (s : String) (rest : List Char) :
    ∃ cs, writeText false s ++ rest = '"' :: cs ∧ readText cs = .ok (s, rest) := by
  refine ⟨s.toList.flatMap (writeChar false) ++ '"' :: rest, by simp [writeText], ?_⟩
  have hlength := length_le_flatMap_writeChar s.toList
  rw [readText, readUnits_write]
  · show Except.ok (String.ofList (charsOfUnits (s.toList.map Char.toNat)), rest) = _
    rw [charsOfUnits_map, String.ofList_toList]
  · simp only [List.length_append, List.length_cons]
    omega

/-! ## Values -/

theorem skipSpace_newLine (depth : Nat) (cs : List Char) :
    skipSpace (newLine depth ++ cs) = skipSpace cs := by
  unfold skipSpace
  rw [List.dropWhile_append, if_pos]
  rw [List.isEmpty_iff, List.dropWhile_eq_nil_iff]
  intro c hc
  rcases List.mem_cons.mp hc with rfl | hc
  · rfl
  · rw [List.eq_of_mem_replicate hc]
    rfl

theorem skipSpace_cons {c : Char} (h : isSpace c = false) (cs : List Char) :
    skipSpace (c :: cs) = c :: cs := by
  rw [skipSpace, List.dropWhile_cons_of_neg (by simp [h])]

/-- What is written begins with neither a blank nor a closing bracket. -/
theorem writeIndented_eq_cons {value : Json} (h : value.isTextual = true) (depth : Nat) :
    ∃ c cs, writeIndented depth value = c :: cs ∧ isSpace c = false ∧ c ≠ ']' := by
  cases value with
  | null => exact ⟨_, _, rfl, rfl, by decide⟩
  | bool value => cases value <;> exact ⟨_, _, rfl, rfl, by decide⟩
  | int value => cases h
  | real value => cases h
  | str value =>
      rw [writeIndented]
      · exact ⟨_, _, rfl, rfl, by decide⟩
      all_goals simp
  | arr items => cases items <;> exact ⟨_, _, by rw [writeIndented]; rfl, rfl, by decide⟩
  | obj members => cases members <;> exact ⟨_, _, by rw [writeIndented]; rfl, rfl, by decide⟩

theorem setMember_of_not_mem {name : String} {value : Json} {members : List (String × Json)}
    (h : name ∉ members.map (·.1)) : setMember name value members = members ++ [(name, value)] := by
  induction members with
  | nil => rfl
  | cons member rest ih =>
      rw [List.map_cons, List.mem_cons, not_or] at h
      rw [setMember, if_neg (Ne.symm h.1), ih h.2]
      rfl

/-- Members with distinct names that are set one by one stay as they are. -/
theorem setMembers_of_nodup {members added : List (String × Json)}
    (h : ((members ++ added).map (·.1)).Nodup) : setMembers members added = members ++ added := by
  induction added generalizing members with
  | nil => rw [List.append_nil]; rfl
  | cons member rest ih =>
      have hnot : member.1 ∉ members.map (·.1) := by
        rw [List.map_append, List.nodup_append] at h
        exact fun hmem => h.2.2 _ hmem member.1 (by simp) rfl
      have hset : setMembers members (member :: rest) =
          setMembers (members ++ [(member.1, member.2)]) rest := by
        rw [← setMember_of_not_mem hnot]
        rfl
      rw [hset, ih (by rwa [List.append_assoc]), List.append_assoc]
      rfl

section Steps

variable {fuel levels : Nat} {cs tail more rest : List Char} {value : Json}

theorem readValue_arr {first : Char} {items : List Json} (hcs : skipSpace cs = first :: more)
    (hfirst : first ≠ ']') (hitems : readItems fuel levels (first :: more) = .ok (items, rest)) :
    readValue (fuel + 1) (levels + 1) ('[' :: cs) = .ok (.arr items, rest) := by
  rw [readValue]
  dsimp only [deeper, bind, Except.bind]
  rw [hcs]
  split
  · next heq => exact absurd (List.cons_eq_cons.mp heq).1 hfirst
  · rw [hitems]
    rfl

theorem readValue_obj {first : Char} {members : List (String × Json)}
    (hcs : skipSpace cs = first :: more) (hfirst : first ≠ '}')
    (hmembers : readMembers fuel levels (first :: more) = .ok (members, rest)) :
    readValue (fuel + 1) (levels + 1) ('{' :: cs) = .ok (.obj (setMembers [] members), rest) := by
  rw [readValue]
  dsimp only [deeper, bind, Except.bind]
  rw [hcs]
  split
  · next heq => exact absurd (List.cons_eq_cons.mp heq).1 hfirst
  · rw [hmembers]
    rfl

theorem readItems_last (hvalue : readValue fuel levels cs = .ok (value, tail))
    (htail : skipSpace tail = ']' :: rest) : readItems (fuel + 1) levels cs = .ok ([value], rest) := by
  rw [readItems, hvalue]
  dsimp only [bind, Except.bind]
  rw [htail]
  rfl

theorem readItems_more {items : List Json} (hvalue : readValue fuel levels cs = .ok (value, tail))
    (htail : skipSpace tail = ',' :: more)
    (hitems : readItems fuel levels (skipSpace more) = .ok (items, rest)) :
    readItems (fuel + 1) levels cs = .ok (value :: items, rest) := by
  rw [readItems, hvalue]
  dsimp only [bind, Except.bind]
  rw [htail]
  show (readItems fuel levels (skipSpace more) >>= _) = _
  rw [hitems]
  rfl

/-- A written name is read together with the value after it. -/
theorem readMembers_writeText (name : String) (hcs : skipSpace cs = cs)
    (hvalue : readValue fuel levels cs = .ok (value, tail)) :
    readMembers (fuel + 1) levels (writeText false name ++ ':' :: ' ' :: cs) = (match skipSpace tail with
      | '}' :: rest => .ok ([(name, value)], rest)
      | ',' :: rest => do
          let (members, rest) ← readMembers fuel levels (skipSpace rest)
          return ((name, value) :: members, rest)
      | rest => stopAt .commaExpected rest) := by
  obtain ⟨text, htext, hread⟩ := readText_writeText name (':' :: ' ' :: cs)
  have hspace : skipSpace (' ' :: cs) = cs := by
    rw [skipSpace, List.dropWhile_cons_of_pos rfl]
    exact hcs
  rw [htext, readMembers]
  show (readText text >>= _) = _
  rw [hread]
  show (readValue fuel levels (skipSpace (' ' :: cs)) >>= _) = _
  rw [hspace, hvalue]
  rfl

theorem readMembers_last (name : String) (hcs : skipSpace cs = cs)
    (hvalue : readValue fuel levels cs = .ok (value, tail)) (htail : skipSpace tail = '}' :: rest) :
    readMembers (fuel + 1) levels (writeText false name ++ ':' :: ' ' :: cs) =
      .ok ([(name, value)], rest) := by
  rw [readMembers_writeText name hcs hvalue, htail]
  rfl

theorem readMembers_more (name : String) {members : List (String × Json)}
    (hcs : skipSpace cs = cs) (hvalue : readValue fuel levels cs = .ok (value, tail))
    (htail : skipSpace tail = ',' :: more)
    (hmembers : readMembers fuel levels (skipSpace more) = .ok (members, rest)) :
    readMembers (fuel + 1) levels (writeText false name ++ ':' :: ' ' :: cs) =
      .ok ((name, value) :: members, rest) := by
  rw [readMembers_writeText name hcs hvalue, htail]
  show (readMembers fuel levels (skipSpace more) >>= _) = _
  rw [hmembers]
  rfl

end Steps

/-- No blanks stand before a written value. -/
theorem skipSpace_writeIndented {value : Json} (h : value.isTextual = true) (depth : Nat)
    (tail : List Char) :
    skipSpace (writeIndented depth value ++ tail) = writeIndented depth value ++ tail := by
  obtain ⟨c, cs, heq, hspace, -⟩ := writeIndented_eq_cons h depth
  rw [heq, List.cons_append, skipSpace_cons hspace]

theorem length_writeIndented_pos {value : Json} (h : value.isTextual = true) (depth : Nat) :
    0 < (writeIndented depth value).length := by
  obtain ⟨c, cs, heq, -⟩ := writeIndented_eq_cons h depth
  rw [heq]
  exact Nat.succ_pos _

/-- What is written for items begins as what is written for the first. -/
theorem writeIndentedItems_eq_cons {items : List Json} (hne : items ≠ [])
    (h : areTextual items = true) (depth : Nat) :
    ∃ c cs, writeIndentedItems depth items = c :: cs ∧ isSpace c = false ∧ c ≠ ']' := by
  match items with
  | [item] =>
      rw [writeIndentedItems]
      exact writeIndented_eq_cons (areTextual_cons_iff.mp h).1 depth
  | item :: item' :: items =>
      obtain ⟨c, cs, heq, hc⟩ := writeIndented_eq_cons (areTextual_cons_iff.mp h).1 depth
      rw [writeIndentedItems, heq]
      · exact ⟨c, _, rfl, hc⟩
      · simp

/-- What is written for members begins with the quote of the first name. -/
theorem writeIndentedMembers_eq_cons {members : List (String × Json)} (hne : members ≠ [])
    (depth : Nat) : ∃ cs, writeIndentedMembers depth members = '"' :: cs := by
  match members with
  | [(name, value)] =>
      rw [writeIndentedMembers]
      exact ⟨_, rfl⟩
  | (name, value) :: member :: members =>
      rw [writeIndentedMembers]
      · exact ⟨_, rfl⟩
      · simp

mutual

/-- **A written value is read back,** whatever follows. -/
theorem readValue_writeIndented (depth : Nat) :
    (value : Json) → value.isTextual = true → value.isDistinct = true → (fuel levels : Nat) →
      2 * (writeIndented depth value).length ≤ fuel + 1 → value.nesting ≤ levels →
      (rest : List Char) →
      readValue (fuel + 1) levels (writeIndented depth value ++ rest) = .ok (value, rest)
  | .null, _, _, _, _, _, _, _ | .bool true, _, _, _, _, _, _, _ | .bool false, _, _, _, _, _, _, _
  | .arr [], _, _, _, _ + 1, _, _, _ | .obj [], _, _, _, _ + 1, _, _, _ => rfl
  | .int _, h, _, _, _, _, _, _ | .real _, h, _, _, _, _, _, _ => by cases h
  | .arr _, _, _, _, 0, _, h, _ | .obj _, _, _, _, 0, _, h, _ => absurd h (Nat.not_succ_le_zero _)
  | .str value, _, _, fuel, _, _, _, rest => by
      obtain ⟨text, htext, hread⟩ := readText_writeText value rest
      rw [show writeIndented depth (.str value) = writeText false value from rfl, htext, readValue]
      show (readText text >>= _) = _
      rw [hread]
      rfl
  | .arr (item :: items), ht, hd, fuel, levels + 1, hfuel, hn, rest => by
      rw [isTextual] at ht
      rw [isDistinct] at hd
      rw [writeIndented] at hfuel ⊢
      rw [nesting, Nat.succ_le_succ_iff] at hn
      simp only [List.cons_append, List.append_assoc, List.length_cons, List.length_append,
        List.length_nil, List.nil_append] at hfuel ⊢
      have hitems := readItems_writeIndentedItems (depth + 1) (item :: items) (by simp) ht hd
        fuel levels (by omega) hn (newLine depth ++ ']' :: rest) rest
        (by rw [skipSpace_newLine]; rfl)
      obtain ⟨c, cs, heq, hspace, hc⟩ :=
        writeIndentedItems_eq_cons (List.cons_ne_nil item items) ht (depth + 1)
      rw [heq, List.cons_append] at hitems ⊢
      refine readValue_arr ?_ hc hitems
      rw [skipSpace_newLine, skipSpace_cons hspace]
  | .obj (member :: members), ht, hd, fuel, levels + 1, hfuel, hn, rest => by
      rw [isTextual] at ht
      obtain ⟨hnodup, hd⟩ := isDistinct_obj_iff.mp hd
      rw [writeIndented] at hfuel ⊢
      rw [nesting, Nat.succ_le_succ_iff] at hn
      simp only [List.cons_append, List.append_assoc, List.length_cons, List.length_append,
        List.length_nil, List.nil_append] at hfuel ⊢
      have hmembers := readMembers_writeIndentedMembers (depth + 1) (member :: members) (by simp)
        ht hd fuel levels (by omega) hn (newLine depth ++ '}' :: rest) rest
        (by rw [skipSpace_newLine]; rfl)
      obtain ⟨cs, heq⟩ :=
        writeIndentedMembers_eq_cons (List.cons_ne_nil member members) (depth + 1)
      rw [heq, List.cons_append] at hmembers ⊢
      -- setting the members one by one keeps them, since their names are distinct
      have hset : setMembers [] (member :: members) = member :: members :=
        setMembers_of_nodup hnodup
      rw [← hset]
      refine readValue_obj ?_ (by decide) hmembers
      rw [skipSpace_newLine, skipSpace_cons rfl]

/-- Written items are read back. -/
theorem readItems_writeIndentedItems (depth : Nat) :
    (items : List Json) → items ≠ [] → areTextual items = true → areDistinct items = true →
      (fuel levels : Nat) → 2 * (writeIndentedItems depth items).length < fuel →
      itemsNesting items ≤ levels → (tail rest : List Char) → skipSpace tail = ']' :: rest →
      readItems fuel levels (writeIndentedItems depth items ++ tail) = .ok (items, rest)
  | [], h, _, _, _, _, _, _, _, _, _ => absurd rfl h
  | [item], _, ht, hd, fuel, levels, hfuel, hn, tail, rest, htail => by
      obtain ⟨ht, -⟩ := areTextual_cons_iff.mp ht
      obtain ⟨hd, -⟩ := areDistinct_cons_iff.mp hd
      have hn := itemsNesting_le_iff.mp hn item List.mem_cons_self
      have hpos := length_writeIndented_pos ht depth
      rw [writeIndentedItems] at hfuel ⊢
      obtain ⟨fuel, rfl⟩ : ∃ n, fuel = n + 2 := ⟨fuel - 2, by omega⟩
      exact readItems_last (readValue_writeIndented depth item ht hd fuel levels (by omega) hn tail)
        htail
  | item :: item' :: items, _, ht, hd, fuel, levels, hfuel, hn, tail, rest, htail => by
      obtain ⟨ht, hts⟩ := areTextual_cons_iff.mp ht
      obtain ⟨hd, hds⟩ := areDistinct_cons_iff.mp hd
      rw [itemsNesting, Nat.max_le] at hn
      have hpos := length_writeIndented_pos ht depth
      obtain ⟨c, cs, heq, hspace, -⟩ :=
        writeIndentedItems_eq_cons (List.cons_ne_nil item' items) hts depth
      rw [writeIndentedItems] at hfuel ⊢ <;> try simp
      simp only [List.cons_append, List.append_assoc, List.length_cons, List.length_append]
        at hfuel ⊢
      obtain ⟨fuel, rfl⟩ : ∃ n, fuel = n + 2 := ⟨fuel - 2, by omega⟩
      have hmore := readItems_writeIndentedItems depth (item' :: items) (by simp) hts hds
        (fuel + 1) levels (by omega) hn.2 tail rest htail
      refine readItems_more (readValue_writeIndented depth item ht hd fuel levels (by omega) hn.1 _)
        (skipSpace_cons rfl _) ?_
      rw [skipSpace_newLine, heq, List.cons_append, skipSpace_cons hspace, ← List.cons_append,
        ← heq, hmore]

/-- Written members are read back. -/
theorem readMembers_writeIndentedMembers (depth : Nat) :
    (members : List (String × Json)) → members ≠ [] → haveTextual members = true →
      haveDistinct members = true → (fuel levels : Nat) →
      2 * (writeIndentedMembers depth members).length < fuel → membersNesting members ≤ levels →
      (tail rest : List Char) → skipSpace tail = '}' :: rest →
      readMembers fuel levels (writeIndentedMembers depth members ++ tail) = .ok (members, rest)
  | [], h, _, _, _, _, _, _, _, _, _ => absurd rfl h
  | [(name, value)], _, ht, hd, fuel, levels, hfuel, hn, tail, rest, htail => by
      obtain ⟨ht, -⟩ := haveTextual_cons_iff.mp ht
      obtain ⟨hd, -⟩ := haveDistinct_cons_iff.mp hd
      have hn := membersNesting_le_iff.mp hn (name, value) List.mem_cons_self
      have hpos := length_writeIndented_pos ht depth
      rw [writeIndentedMembers] at hfuel ⊢
      simp only [List.append_assoc, List.length_append] at hfuel ⊢
      obtain ⟨fuel, rfl⟩ : ∃ n, fuel = n + 2 := ⟨fuel - 2, by omega⟩
      exact readMembers_last name (skipSpace_writeIndented ht depth tail)
        (readValue_writeIndented depth value ht hd fuel levels (by omega) hn tail) htail
  | (name, value) :: member :: members, _, ht, hd, fuel, levels, hfuel, hn, tail, rest, htail => by
      obtain ⟨ht, hts⟩ := haveTextual_cons_iff.mp ht
      obtain ⟨hd, hds⟩ := haveDistinct_cons_iff.mp hd
      rw [membersNesting, Nat.max_le] at hn
      have hpos := length_writeIndented_pos ht depth
      obtain ⟨cs, heq⟩ := writeIndentedMembers_eq_cons (List.cons_ne_nil member members) depth
      rw [writeIndentedMembers] at hfuel ⊢ <;> try simp
      simp only [List.cons_append, List.append_assoc, List.length_cons, List.length_append]
        at hfuel ⊢
      obtain ⟨fuel, rfl⟩ : ∃ n, fuel = n + 2 := ⟨fuel - 2, by omega⟩
      have hmore := readMembers_writeIndentedMembers depth (member :: members) (by simp) hts hds
        (fuel + 1) levels (by omega) hn.2 tail rest htail
      refine readMembers_more name (skipSpace_writeIndented ht depth _)
        (readValue_writeIndented depth value ht hd fuel levels (by omega) hn.1 _)
        (skipSpace_cons rfl _) ?_
      rw [skipSpace_newLine, heq, List.cons_append, skipSpace_cons rfl, ← List.cons_append,
        ← heq, hmore]

end

/-! ## Documents -/

/-- **A written document is read back.** -/
theorem readDocument_writeIndented {value : Json} (ht : value.isTextual = true)
    (hd : value.isDistinct = true) (hn : value.nesting ≤ nestingLimit) {tail : List Char}
    (htail : skipSpace tail = []) : readDocument (writeIndented 0 value ++ tail) = .ok value := by
  have hvalue := readValue_writeIndented 0 value ht hd
    (2 * (writeIndented 0 value ++ tail).length + 1) nestingLimit
    (by simp only [List.length_append]; omega) hn tail
  rw [readDocument, skipSpace_writeIndented ht, hvalue]
  dsimp only [bind, Except.bind]
  rw [htail]
  rfl

open Text (Bytes IsAscii byteOf encode)

/-- The two characters that a written value begins with. -/
theorem writeIndented_eq_cons_cons {value : Json} (h : value.isTextual = true) (depth : Nat) :
    ∃ c d cs, writeIndented depth value = c :: d :: cs ∧ IsAscii c ∧ c ≠ '\x00' ∧ d ≠ '\x00' := by
  cases value with
  | null => exact ⟨_, _, _, rfl, by decide⟩
  | bool value => cases value <;> exact ⟨_, _, _, rfl, by decide⟩
  | int value => cases h
  | real value => cases h
  | str value =>
      rw [show writeIndented depth (.str value) = writeText false value from rfl, writeText]
      cases value.toList with
      | nil => exact ⟨_, _, _, rfl, by decide⟩
      | cons c cs =>
          rw [List.flatMap_cons]
          rcases writeChar_cases c with ⟨letter, hwrite, -⟩ | ⟨_, _, _, _, hwrite, -⟩ |
            ⟨hwrite, -, -, hcontrol⟩
          · rw [hwrite]
            exact ⟨_, _, _, rfl, by decide⟩
          · rw [hwrite]
            exact ⟨_, _, _, rfl, by decide⟩
          · rw [hwrite]
            refine ⟨_, _, _, rfl, by decide, by decide, ?_⟩
            rintro rfl
            exact hcontrol (by decide)
  | arr items => cases items <;> exact ⟨_, _, _, by rw [writeIndented]; rfl, by decide⟩
  | obj members => cases members <;> exact ⟨_, _, _, by rw [writeIndented]; rfl, by decide⟩

theorem encodingByZeros_of_ne_zero {bytes : Bytes} (h : ∀ b ∈ bytes.take 2, b ≠ 0) :
    encodingByZeros bytes = .utf8 := by
  unfold encodingByZeros
  split
  all_goals simp_all

/-- The bytes of a text are taken for UTF-8 as they are if it does not begin with a byte order mark
and its first two characters are not zero. -/
theorem detectEncoding_encode {s : String} (hmark : s.toList.head? ≠ some '\uFEFF')
    (hzero : ∀ c ∈ s.toList.take 2, c ≠ '\x00') :
    detectEncoding (encode s) = (.utf8, encode s, 0) := by
  have hbytes : ∀ b ∈ (encode s).take 2, b ≠ 0 := by
    intro b hb
    rw [Text.encode_eq_flatMap] at hb
    obtain ⟨c, hc, hb⟩ := List.mem_flatMap.mp (Text.take_flatMap_subset 2 s.toList hb)
    exact Text.ne_zero_of_mem_utf8EncodeChar (hzero c hc) hb
  have hzeros := encodingByZeros_of_ne_zero hbytes
  have hcs := Text.encode_eq_flatMap s
  unfold detectEncoding
  split
  · next heq => exact absurd rfl (hbytes 0 (by simp [heq]))
  · next heq => exact absurd (Text.lt_of_flatMap (hcs.symm.trans heq)) (by decide)
  · next heq => exact absurd (Text.lt_of_flatMap (hcs.symm.trans heq)) (by decide)
  · next heq => exact absurd (Text.lt_of_flatMap (hcs.symm.trans heq)) (by decide)
  · next heq =>
    obtain ⟨after, hafter, -⟩ := Text.mark_of_flatMap (hcs.symm.trans heq)
    rw [hafter] at hmark
    exact absurd rfl hmark
  · rw [hzeros]

/-- **A written document is read back from its bytes.** -/
theorem readBytes_indented {value : Json} (ht : value.isTextual = true)
    (hd : value.isDistinct = true) (hn : value.nesting ≤ nestingLimit) :
    readBytes (encode (value.indented ++ "\n")) = .ok value := by
  have hchars : (value.indented ++ "\n").toList = writeIndented 0 value ++ ['\n'] := by
    rw [String.toList_append, indented, String.toList_ofList]
    rfl
  obtain ⟨c, d, cs, heq, hascii, hc, hd'⟩ := writeIndented_eq_cons_cons ht 0
  have hstart : (value.indented ++ "\n").toList = c :: d :: (cs ++ ['\n']) := by
    rw [hchars, heq]
    rfl
  have hmark : (value.indented ++ "\n").toList.head? ≠ some '\uFEFF' := by
    rw [hstart]
    rintro ⟨rfl⟩
    exact absurd hascii (by decide)
  have hzero : ∀ x ∈ (value.indented ++ "\n").toList.take 2, x ≠ '\x00' := by
    simp [hstart, hc, hd']
  rw [readBytes, detectEncoding_encode hmark hzero]
  dsimp only
  rw [Text.decode_encode]
  dsimp only
  rw [readDecoded, hchars, readDocument_writeIndented ht hd hn rfl]
  rfl

end Json

end OscalValidation

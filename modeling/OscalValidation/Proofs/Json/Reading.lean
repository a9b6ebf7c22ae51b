import Mathlib.Algebra.Ring.Nat
import Mathlib.Data.List.Induction
import OscalValidation.Json.Bytes
import OscalValidation.Proofs.Attempts

set_option autoImplicit false

/-! # Documents that are read

A document is read from its scalars up. So what holds of every scalar that is read, and of arrays
and objects if it holds of what is in them, holds of every document (`KeptByReading.of_read`).
-/

namespace OscalValidation

namespace Json

/-- **What holds of a value that is read if it holds of what is in it.** -/
structure KeptByReading (P : Json → Prop) : Prop where
  str (text : String) : P (.str text)
  /-- It holds of the words that stand for a value. -/
  literal : ∀ literal ∈ literals, P literal.2
  /-- It holds of integers that can be written. -/
  int {value : Int} (short : isLong value = false) : P (.int value)
  /-- It holds of numbers with a fraction or an exponent. -/
  real (negative : Bool) (digits : Nat) (exponent : Int) :
    P (.real (.ofDecimal negative digits exponent))
  /-- It holds of an array if it does of the items. -/
  arr {items : List Json} (h : ∀ item ∈ items, P item) : P (.arr items)
  /-- It holds of an object if it does of the values, of which one may replace another. -/
  obj {members : List (String × Json)} (h : ∀ m ∈ members, P m.2) :
    P (.obj (setMembers [] members))

variable {P : Json → Prop}

/-! ## Numbers -/

theorem natOfDigits_append_singleton (digits : List Char) (c : Char) :
    natOfDigits (digits ++ [c]) = 10 * natOfDigits digits + (c.toNat - 48) := by
  simp [natOfDigits]

/-- Digits denote a number below the power of ten that their number gives. -/
theorem natOfDigits_lt {digits : List Char} (h : ∀ c ∈ digits, isDigit c = true) :
    natOfDigits digits < 10 ^ digits.length := by
  induction digits using List.reverseRecOn with
  | nil => simp [natOfDigits]
  | append_singleton rest c ih =>
      have hrest := ih fun d hd => h d (List.mem_append_left _ hd)
      have hc : c.toNat - 48 ≤ 9 := by
        have hdigit := h c (by simp)
        simp only [isDigit, Bool.and_eq_true, decide_eq_true_eq, Char.le_def] at hdigit
        have hle : c.toNat ≤ 57 := hdigit.2
        omega
      rw [natOfDigits_append_singleton, List.length_append, List.length_singleton, pow_succ]
      omega

theorem isDigit_of_integerDigits? {cs digits rest : List Char}
    (h : integerDigits? cs = some (digits, rest)) : ∀ c ∈ digits, isDigit c = true := by
  unfold integerDigits? at h
  split at h
  · cases h
    exact List.forall_mem_singleton.mpr rfl
  · split at h
    · cases h
    · cases h
      exact List.all_eq_true.mp (List.all_takeWhile (p := isDigit))

/-- An integer without too many digits can be written. -/
theorem isLong_of_digits {digits : List Char} (h : ∀ c ∈ digits, isDigit c = true)
    (hlength : digits.length ≤ maxIntegerDigits) {value : Int}
    (hvalue : value.natAbs = natOfDigits digits) : isLong value = false := by
  have hbound (n : Nat) (hn : digits.length ≤ n) : value.natAbs < Nat.pow 10 n := by
    rw [hvalue]
    exact lt_of_lt_of_le (natOfDigits_lt h) (Nat.pow_le_pow_right (by decide) hn)
  have hlt := hbound maxIntegerDigits hlength
  unfold isLong
  exact decide_eq_false (Nat.not_le.mpr hlt)

/-- A number that is read is an integer or a number with a fraction. -/
theorem KeptByReading.of_readNumber? (kept : KeptByReading P) {cs rest : List Char} {value : Json}
    (h : readNumber? cs = some (.ok (value, rest))) : P value := by
  unfold readNumber? at h
  -- the sign does not matter
  split at h
  split at h
  · cases h
  · next whole after hdigits =>
    dsimp only at h
    split at h
    · split at h
      · cases h
      · next hshort =>
        cases h
        refine kept.int (isLong_of_digits (isDigit_of_integerDigits? hdigits)
          (Nat.le_of_not_lt hshort) ?_)
        split <;> simp
    · cases h
      exact kept.real _ _ _

theorem KeptByReading.of_readScalar (kept : KeptByReading P) {cs rest : List Char} {value : Json}
    (h : readScalar cs = .ok (value, rest)) : P value := by
  unfold readScalar at h
  split at h
  · next word literal hfound =>
    cases h
    exact kept.literal _ (List.mem_of_find?_eq_some hfound)
  · split at h
    · next reading hreading =>
      subst h
      exact kept.of_readNumber? hreading
    · cases h

section Within

variable {fuel levels : Nat}

theorem KeptByReading.of_readValue (kept : KeptByReading P)
    (hitems : ∀ levels cs items rest, readItems fuel levels cs = .ok (items, rest) →
      ∀ item ∈ items, P item)
    (hmembers : ∀ levels cs members rest, readMembers fuel levels cs = .ok (members, rest) →
      ∀ m ∈ members, P m.2) {cs rest : List Char} {value : Json}
    (h : readValue (fuel + 1) levels cs = .ok (value, rest)) : P value := by
  unfold readValue at h
  split at h
  · obtain ⟨⟨text, after⟩, -, h⟩ := bind_eq_ok_iff.mp h
    cases h
    exact kept.str text
  · obtain ⟨inner, -, h⟩ := bind_eq_ok_iff.mp h
    split at h
    · cases h
      exact kept.arr nofun
    · obtain ⟨⟨items, after⟩, hread, h⟩ := bind_eq_ok_iff.mp h
      cases h
      exact kept.arr (hitems _ _ _ _ hread)
  · obtain ⟨inner, -, h⟩ := bind_eq_ok_iff.mp h
    split at h
    · cases h
      have hnone : ∀ m ∈ ([] : List (String × Json)), P m.2 := nofun
      exact kept.obj hnone
    · obtain ⟨⟨members, after⟩, hread, h⟩ := bind_eq_ok_iff.mp h
      cases h
      exact kept.obj (hmembers _ _ _ _ hread)
  · exact kept.of_readScalar h

theorem KeptByReading.of_readItems
    (hvalue : ∀ levels cs value rest, readValue fuel levels cs = .ok (value, rest) → P value)
    (hitems : ∀ levels cs items rest, readItems fuel levels cs = .ok (items, rest) →
      ∀ item ∈ items, P item)
    {cs rest : List Char} {items : List Json}
    (h : readItems (fuel + 1) levels cs = .ok (items, rest)) : ∀ item ∈ items, P item := by
  unfold readItems at h
  obtain ⟨⟨item, after⟩, hitem, h⟩ := bind_eq_ok_iff.mp h
  have hfirst := hvalue _ _ _ _ hitem
  dsimp only at h
  split at h
  · cases h
    exact List.forall_mem_singleton.mpr hfirst
  · obtain ⟨⟨more, after'⟩, hmore, h⟩ := bind_eq_ok_iff.mp h
    cases h
    exact List.forall_mem_cons.mpr ⟨hfirst, hitems _ _ _ _ hmore⟩
  · cases h

theorem KeptByReading.of_readMembers
    (hvalue : ∀ levels cs value rest, readValue fuel levels cs = .ok (value, rest) → P value)
    (hmembers : ∀ levels cs members rest, readMembers fuel levels cs = .ok (members, rest) →
      ∀ m ∈ members, P m.2) {cs rest : List Char} {members : List (String × Json)}
    (h : readMembers (fuel + 1) levels cs = .ok (members, rest)) : ∀ m ∈ members, P m.2 := by
  unfold readMembers at h
  dsimp only at h
  split at h
  · obtain ⟨⟨name, after⟩, -, h⟩ := bind_eq_ok_iff.mp h
    dsimp only at h
    split at h
    · obtain ⟨⟨value, after'⟩, hread, h⟩ := bind_eq_ok_iff.mp h
      have hfirst := hvalue _ _ _ _ hread
      dsimp only at h
      split at h
      · cases h
        exact List.forall_mem_singleton.mpr hfirst
      · obtain ⟨⟨more, after''⟩, hmore, h⟩ := bind_eq_ok_iff.mp h
        cases h
        exact List.forall_mem_cons.mpr ⟨hfirst, hmembers _ _ _ _ hmore⟩
      · cases h
    · cases h
  · cases h

end Within

/-- It holds of what is read within a bound on the number of steps. -/
theorem KeptByReading.of_readWithin (kept : KeptByReading P) (fuel : Nat) :
    (∀ levels cs value rest, readValue fuel levels cs = .ok (value, rest) → P value) ∧
      (∀ levels cs items rest, readItems fuel levels cs = .ok (items, rest) →
        ∀ item ∈ items, P item) ∧
      ∀ levels cs members rest, readMembers fuel levels cs = .ok (members, rest) →
        ∀ m ∈ members, P m.2 := by
  induction fuel with
  | zero =>
      refine ⟨fun levels cs value rest h => ?_, fun levels cs items rest h => ?_,
        fun levels cs members rest h => ?_⟩
      · cases h
      · cases h
      · cases h
  | succ fuel ih =>
      obtain ⟨hvalue, hitems, hmembers⟩ := ih
      exact ⟨fun _ _ _ _ h => kept.of_readValue hitems hmembers h,
        fun _ _ _ _ h => KeptByReading.of_readItems hvalue hitems h,
        fun _ _ _ _ h => KeptByReading.of_readMembers hvalue hmembers h⟩

/-- **It holds of every document that is read.** -/
theorem KeptByReading.of_read (kept : KeptByReading P) {text : String} {document : Json}
    (h : read text = .ok document) : P document := by
  unfold read readDecoded at h
  split at h
  · cases h
  · split at h
    · next hread =>
      cases h
      obtain ⟨⟨value, rest⟩, hvalue, hend⟩ := bind_eq_ok_iff.mp hread
      dsimp only at hend
      split at hend
      · cases hend
        exact (kept.of_readWithin _).1 _ _ _ _ hvalue
      · cases hend
    · cases h
    · cases h
    · cases h

/-- It holds of what a file holds. -/
theorem KeptByReading.of_readFile (kept : KeptByReading P) {bytes : Text.Bytes} {document : Json}
    (h : readFile bytes = .ok document) : P document := by
  unfold readFile at h
  split at h
  · cases h
  · next text htext =>
    cases hread : read (String.ofList (Text.uniformLines text.toList)) with
    | error e =>
        rw [hread] at h
        cases h
    | ok value =>
        rw [hread] at h
        cases h
        exact kept.of_read hread

end Json

end OscalValidation

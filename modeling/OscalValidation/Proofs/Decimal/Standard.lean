import Mathlib.Algebra.Order.Field.Rat
import Mathlib.Algebra.Order.Field.Power
import Mathlib.Tactic.NormNum
import Mathlib.Tactic.Ring
import OscalValidation.Decimal.Binary64

set_option autoImplicit false

/-! # Numbers in standard form

Rounding leads to numbers in standard form (`isStandard_ofDecimal`). Two such numbers are equal
exactly if they denote the same (`sameValue_iff`), and a number is an integer exactly if it denotes
it (`equalsInt_iff`).
-/

namespace OscalValidation

namespace Binary64

/-- **The number is in standard form.** -/
def IsStandard : Binary64 → Prop
  | .finite _ mantissa exponent => mantissa < 2 ^ 53 ∧ minExponent ≤ exponent ∧
      (2 ^ 52 ≤ mantissa ∨ exponent = minExponent)
  | _ => True

/-! ## Powers of two -/

theorem cast_twoTo (n : Nat) : (twoTo n : ℚ) = 2 ^ n := by
  rw [twoTo]
  exact Nat.cast_pow 2 n

/-- A power of two is the quotient of two with natural exponents. -/
theorem zpow_mul_twoTo (e : Int) : (2 : ℚ) ^ e * twoTo (-e).toNat = twoTo e.toNat := by
  rw [cast_twoTo, cast_twoTo]
  rcases le_total 0 e with h | h
  · lift e to Nat using h
    simp
  · obtain ⟨n, rfl⟩ : ∃ n : Nat, e = -n := ⟨e.natAbs, by omega⟩
    simp

theorem twoTo_pos (n : Nat) : 0 < (twoTo n : ℚ) := by
  rw [cast_twoTo]
  positivity

theorem le_shifted_iff {m n : Nat} {e : Int} :
    m * twoTo e.toNat ≤ n * twoTo (-e).toNat ↔ (m : ℚ) * 2 ^ e ≤ n := by
  rw [← Nat.cast_le (α := ℚ), Nat.cast_mul, Nat.cast_mul, ← zpow_mul_twoTo e, ← mul_assoc]
  exact mul_le_mul_iff_left₀ (twoTo_pos _)

theorem eq_shifted_iff {m n : Nat} {e : Int} :
    m * twoTo e.toNat = n * twoTo (-e).toNat ↔ (m : ℚ) * 2 ^ e = n := by
  rw [← Nat.cast_inj (R := ℚ), Nat.cast_mul, Nat.cast_mul, ← zpow_mul_twoTo e, ← mul_assoc]
  exact mul_left_inj' (twoTo_pos _).ne'

/-! ## Rounding -/

/-- **The power of two next below a quotient.** -/
theorem floorLog2_spec {num den : Nat} (hnum : num ≠ 0) (hden : den ≠ 0) :
    (den : ℚ) * 2 ^ floorLog2 num den ≤ num ∧ (num : ℚ) < den * 2 ^ (floorLog2 num den + 1) := by
  have hcast (n : Nat) : ((2 ^ n : Nat) : ℚ) = (2 : ℚ) ^ (n : Int) := by simp
  have hnumle : (2 : ℚ) ^ (num.log2 : Int) ≤ num := by
    rw [← hcast, Nat.cast_le]
    exact Nat.log2_self_le hnum
  have hnumlt : (num : ℚ) < 2 ^ ((num.log2 : Int) + 1) := by
    rw [← Nat.cast_succ, ← hcast, Nat.cast_lt]
    exact Nat.lt_log2_self
  have hdenle : (2 : ℚ) ^ (den.log2 : Int) ≤ den := by
    rw [← hcast, Nat.cast_le]
    exact Nat.log2_self_le hden
  have hdenlt : (den : ℚ) < 2 ^ ((den.log2 : Int) + 1) := by
    rw [← Nat.cast_succ, ← hcast, Nat.cast_lt]
    exact Nat.lt_log2_self
  have htwo (e : Int) : (0 : ℚ) < 2 ^ e := by positivity
  unfold floorLog2 settleLog
  -- the estimate from the bit lengths is right or one too large
  have hestimate := le_shifted_iff (m := den) (n := num) (e := (num.log2 : Int) - den.log2)
  split
  · next h =>
    refine ⟨hestimate.mp h, hnumlt.trans_le ?_⟩
    calc (2 : ℚ) ^ ((num.log2 : Int) + 1)
        = 2 ^ (den.log2 : Int) * 2 ^ ((num.log2 : Int) - den.log2 + 1) := by
          rw [← zpow_add₀ (by norm_num)]
          congr 1
          omega
      _ ≤ den * 2 ^ ((num.log2 : Int) - den.log2 + 1) :=
          mul_le_mul_of_nonneg_right hdenle (htwo _).le
  · next h =>
    rw [sub_add_cancel]
    refine ⟨?_, lt_of_not_ge fun hle => h (hestimate.mpr hle)⟩
    calc (den : ℚ) * 2 ^ ((num.log2 : Int) - den.log2 - 1)
        ≤ 2 ^ ((den.log2 : Int) + 1) * 2 ^ ((num.log2 : Int) - den.log2 - 1) :=
          mul_le_mul_of_nonneg_right hdenlt.le (htwo _).le
      _ = 2 ^ (num.log2 : Int) := by
          rw [← zpow_add₀ (by norm_num)]
          congr 1
          omega
      _ ≤ num := hnumle

theorem le_divideToEven {num den bound : Nat} (hden : 0 < den) (h : bound * den ≤ num) :
    bound ≤ divideToEven num den := by
  have hquotient : bound ≤ num / den := (Nat.le_div_iff_mul_le hden).mpr h
  unfold divideToEven
  dsimp only
  split
  · exact hquotient
  · split <;> omega

theorem divideToEven_le {num den bound : Nat} (hden : 0 < den) (h : num < bound * den) :
    divideToEven num den ≤ bound := by
  have hquotient : num / den < bound := (Nat.div_lt_iff_lt_mul hden).mpr h
  unfold divideToEven
  dsimp only
  split
  · omega
  · split <;> omega

theorem isStandard_zero (negative : Bool) : (zero negative).IsStandard :=
  ⟨by decide, Int.le_refl _, Or.inr rfl⟩

/-- The mantissa to which a quotient is rounded, if the exponent is one that may be used. -/
theorem mantissa_bounds {num den : Nat} (hnum : num ≠ 0) (hden : den ≠ 0) {e : Int}
    (he : floorLog2 num den - 52 ≤ e) :
    divideToEven (num * twoTo (-e).toNat) (den * twoTo e.toNat) ≤ 2 ^ 53 ∧
      (e = floorLog2 num den - 52 →
        2 ^ 52 ≤ divideToEven (num * twoTo (-e).toNat) (den * twoTo e.toNat)) := by
  obtain ⟨hlower, hupper⟩ := floorLog2_spec hnum hden
  have hpos : 0 < den * twoTo e.toNat :=
    Nat.mul_pos (Nat.pos_iff_ne_zero.mpr hden) (Nat.pow_pos (by decide))
  have hden' : (0 : ℚ) ≤ den := Nat.cast_nonneg den
  have hscaled (k : Nat) : 2 ^ k * (den * twoTo e.toNat) ≤ num * twoTo (-e).toNat ↔
      (den : ℚ) * 2 ^ (e + k) ≤ num := by
    rw [← Nat.mul_assoc, le_shifted_iff, Nat.cast_mul, Nat.cast_pow, zpow_add₀ (by norm_num),
      zpow_natCast]
    rw [show ((2 : Nat) : ℚ) ^ k * den * 2 ^ e = den * (2 ^ e * 2 ^ k) by push_cast; ring]
  constructor
  · refine divideToEven_le hpos (lt_of_not_ge fun hle => ?_)
    have hbelow : (den : ℚ) * 2 ^ (floorLog2 num den + 1) ≤ den * 2 ^ (e + (53 : Nat)) :=
      mul_le_mul_of_nonneg_left (zpow_le_zpow_right₀ (by norm_num) (by omega)) hden'
    exact absurd (hbelow.trans ((hscaled 53).mp hle)) (not_le.mpr hupper)
  · rintro rfl
    refine le_divideToEven hpos ((hscaled 52).mpr ?_)
    rwa [Nat.cast_ofNat, sub_add_cancel]

/-- **A quotient is rounded to a number in standard form.** -/
theorem isStandard_ofRatio (negative : Bool) {num den : Nat} (hden : den ≠ 0) :
    (ofRatio negative num den).IsStandard := by
  unfold ofRatio
  by_cases hnum : num = 0
  · rw [if_pos hnum]
    exact isStandard_zero negative
  · rw [if_neg hnum]
    obtain ⟨e, he⟩ : ∃ e, e = max (floorLog2 num den - 52) minExponent := ⟨_, rfl⟩
    obtain ⟨hle, hge⟩ := mantissa_bounds hnum hden (e := e) (by omega)
    have hmin : minExponent ≤ e := by omega
    dsimp only
    rw [← he]
    generalize divideToEven (num * twoTo (-e).toNat) (den * twoTo e.toNat) = mantissa at hle hge ⊢
    by_cases hfull : mantissa = twoTo 53
    · -- a mantissa that has become too large is halved
      rw [if_pos hfull]
      dsimp only
      split
      · trivial
      · exact ⟨by decide, by omega, Or.inl (by decide)⟩
    · rw [if_neg hfull]
      dsimp only
      split
      · trivial
      · refine ⟨Nat.lt_of_le_of_ne hle hfull, hmin, ?_⟩
        by_cases hexponent : e = floorLog2 num den - 52
        · exact Or.inl (hge hexponent)
        · right
          omega

theorem isStandard_ofDecimal (negative : Bool) (digits : Nat) (exponent : Int) :
    (ofDecimal negative digits exponent).IsStandard := by
  unfold ofDecimal
  dsimp only
  split
  · exact isStandard_zero negative
  · split
    · trivial
    · exact isStandard_ofRatio negative (Nat.pos_iff_ne_zero.mp (Nat.pow_pos (by decide)))

/-! ## Values -/

/-- **What a finite number denotes.** -/
def value? : Binary64 → Option ℚ
  | .finite negative mantissa exponent =>
      some (if negative then -(mantissa * 2 ^ exponent) else mantissa * 2 ^ exponent)
  | _ => none

/-- **A number is an integer exactly if it denotes it.** -/
theorem equalsInt_iff {x : Binary64} {n : Int} : x.equalsInt n = true ↔ x.value? = some (n : ℚ) := by
  cases x with
  | finite negative m e =>
      have hnonneg : (0 : ℚ) ≤ m * 2 ^ e := by positivity
      have hsize : m * twoTo e.toNat = n.natAbs * twoTo (-e).toNat ↔ (m : ℚ) * 2 ^ e = |(n : ℚ)| := by
        rw [eq_shifted_iff, Nat.cast_natAbs, Int.cast_abs]
      rw [equalsInt, value?, Bool.and_eq_true, Bool.or_eq_true, beq_iff_eq, beq_iff_eq, beq_iff_eq,
        hsize, Option.some.injEq]
      generalize (m : ℚ) * 2 ^ e = q at hnonneg
      rcases lt_or_ge n 0 with hn | hn
      · have hn' : (n : ℚ) < 0 := Int.cast_lt_zero.mpr hn
        rw [abs_of_neg hn', decide_eq_true hn, or_iff_right hn.ne]
        cases negative with
        | false => exact iff_of_false nofun fun heq => absurd hn' (not_lt.mpr (heq ▸ hnonneg))
        | true => simp [neg_eq_iff_eq_neg]
      · have hn' : (0 : ℚ) ≤ n := Int.cast_nonneg hn
        rw [abs_of_nonneg hn', decide_eq_false (not_lt.mpr hn)]
        cases negative with
        | false => simp
        | true =>
            -- a negative number that is not negative is zero
            constructor
            · rintro ⟨hq, rfl | h⟩
              · simp [hq]
              · cases h
            · intro heq
              have hzero : (n : ℚ) = 0 := le_antisymm (heq ▸ neg_nonpos.mpr hnonneg) hn'
              refine ⟨?_, Or.inl (Int.cast_eq_zero.mp hzero)⟩
              rw [hzero] at heq ⊢
              exact neg_eq_zero.mp heq
  | _ => simp [equalsInt, value?]

/-- What a number denotes has one mantissa and one exponent. -/
theorem eq_of_mul_zpow_eq {s s' : Bool} {m m' : Nat} {e e' : Int}
    (h : (finite s m e).IsStandard) (h' : (finite s' m' e').IsStandard)
    (heq : (m : ℚ) * 2 ^ e = m' * 2 ^ e') : m = m' ∧ e = e' := by
  have hpos (e : Int) : (0 : ℚ) < 2 ^ e := by positivity
  have hshift {m m' : Nat} {e e' : Int} (hle : e ≤ e') (heq : (m : ℚ) * 2 ^ e = m' * 2 ^ e') :
      m = m' * 2 ^ (e' - e).toNat := by
    have hsplit : (2 : ℚ) ^ e' = 2 ^ (e' - e).toNat * 2 ^ e := by
      rw [← zpow_natCast, ← zpow_add₀ (by norm_num)]
      congr 1
      omega
    rw [hsplit, ← mul_assoc] at heq
    exact_mod_cast mul_right_cancel₀ (hpos e).ne' heq
  -- of two mantissas one step apart the larger one would have too many digits
  have hnot {s s' : Bool} {m m' : Nat} {e e' : Int} (h : (finite s m e).IsStandard)
      (h' : (finite s' m' e').IsStandard) (heq : (m : ℚ) * 2 ^ e = m' * 2 ^ e') : ¬ e < e' := by
    intro hlt
    have hmantissa := hshift hlt.le heq
    have hstep : 2 ≤ 2 ^ (e' - e).toNat := by
      calc 2 = 2 ^ 1 := rfl
        _ ≤ 2 ^ (e' - e).toNat := Nat.pow_le_pow_right (by decide) (by omega)
    have hleast : minExponent ≤ e := h.2.1
    have hlarge : 2 ^ 52 ≤ m' := h'.2.2.resolve_right (by omega)
    have hfull : m' * 2 ≤ m := hmantissa ▸ Nat.mul_le_mul_left m' hstep
    have hbelow : m < 2 ^ 53 := h.1
    omega
  have hexponent : e = e' := by
    have hnlt := hnot h h' heq
    have hngt := hnot h' h heq.symm
    omega
  subst hexponent
  have hmantissa := hshift (le_refl e) heq
  rw [sub_self, Int.toNat_zero, Nat.pow_zero, Nat.mul_one] at hmantissa
  exact ⟨hmantissa, rfl⟩

/-- Numbers that denote the same have the same sign, unless they are zero. -/
theorem eq_of_value?_eq {s s' : Bool} {m m' : Nat} {e e' : Int}
    (h : (finite s m e).IsStandard) (h' : (finite s' m' e').IsStandard)
    (heq : (finite s m e).value? = (finite s' m' e').value?) :
    finite s m e = finite s' m' e' ∨ m = 0 ∧ m' = 0 := by
  have hzero {m : Nat} {e : Int} (hq : (m : ℚ) * 2 ^ e = 0) : m = 0 :=
    Nat.cast_eq_zero.mp ((mul_eq_zero.mp hq).resolve_right (by positivity))
  have hq : (0 : ℚ) ≤ m * 2 ^ e := by positivity
  have hq' : (0 : ℚ) ≤ m' * 2 ^ e' := by positivity
  have hopposite (hneg : (m : ℚ) * 2 ^ e = -(m' * 2 ^ e')) : m = 0 ∧ m' = 0 := by
    have hnone := le_antisymm (hneg ▸ neg_nonpos.mpr hq') hq
    rw [hnone, zero_eq_neg] at hneg
    exact ⟨hzero hnone, hzero hneg⟩
  rw [value?, value?, Option.some.injEq] at heq
  cases s <;> cases s'
  case false.false =>
    obtain ⟨rfl, rfl⟩ := eq_of_mul_zpow_eq h h' heq
    exact Or.inl rfl
  case false.true => exact Or.inr (hopposite heq)
  case true.false => exact Or.inr (hopposite (neg_eq_iff_eq_neg.mp heq))
  case true.true =>
    obtain ⟨rfl, rfl⟩ := eq_of_mul_zpow_eq h h' (neg_inj.mp heq)
    exact Or.inl rfl

/-- **Numbers in standard form are equal exactly if they denote the same.** -/
theorem sameValue_iff {x y : Binary64} (hx : x.IsStandard) (hy : y.IsStandard) :
    x.sameValue y = true ↔
      (∃ q, x.value? = some q ∧ y.value? = some q) ∨
        ∃ negative, x = .infinity negative ∧ y = .infinity negative := by
  cases x with
  | nan => simp [sameValue, value?]
  | infinity negative =>
      cases y with
      | infinity negative' => simp [sameValue, value?, eq_comm (a := negative)]
      | _ => simp [sameValue, value?]
  | finite s m e =>
      cases y with
      | finite s' m' e' =>
          have hvalue : (∃ q, (finite s m e).value? = some q ∧ (finite s' m' e').value? = some q) ↔
              (finite s m e).value? = (finite s' m' e').value? := by
            simp [value?, eq_comm]
          rw [hvalue, or_iff_left (by simp)]
          unfold sameValue
          split
          · next hnan => cases hnan
          · next hnan _ => cases hnan
          · next heq heq' =>
            cases heq
            cases heq'
            simp [value?]
          · next hne =>
            rw [beq_iff_eq]
            refine ⟨congrArg value?, fun heq => (eq_of_value?_eq hx hy heq).resolve_right ?_⟩
            rintro ⟨rfl, rfl⟩
            exact hne _ _ _ _ rfl rfl
      | _ => simp [sameValue, value?]

end Binary64

end OscalValidation

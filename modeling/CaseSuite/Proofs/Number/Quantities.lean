import CaseSuite.Proofs.Number.Rounding
import Mathlib

/-!
# Exact values of numbers

A double that is a number denotes a rational number or an infinity.  Two doubles, or a double and an
integer, are equal exactly if they denote the same: nothing is rounded on the way.  The only two
words for one value are those of the zeros.
-/

namespace CaseSuite

/-- What a number denotes. -/
inductive Quantity where
  | finite (value : ℚ)
  | infinite (negative : Bool)
  deriving DecidableEq

namespace Binary64

/-- The value of a finite double. -/
def value (x : Binary64) : ℚ := x.scaled / one

/-- What a double denotes; a NaN denotes nothing. -/
def quantity? (x : Binary64) : Option Quantity :=
  if x.isNaN then none
  else if x.isFinite then some (.finite x.value)
  else some (.infinite x.negative)

/-! ## Words for one value -/

theorem border_le (w : Nat) : border w ≤ 4 * (significandAt w * unitAt w) := by
  unfold border
  split <;> omega

theorem magnitude_lt_of_unsigned_lt
    {x y : Binary64} (h : x.unsigned < y.unsigned) : x.magnitude < y.magnitude := by
  have hunit := unitAt_pos x.unsigned
  have hupper := border_succ x.unsigned
  have hlower := border_le y.unsigned
  have hborders : border (x.unsigned + 1) ≤ border y.unsigned := border_strictMono.monotone h
  rw [magnitude_eq, magnitude_eq]
  omega

/-- The words of two doubles with the same absolute value differ in the sign at most. -/
theorem unsigned_eq_of_magnitude
    {x y : Binary64} (h : x.magnitude = y.magnitude) : x.unsigned = y.unsigned := by
  rcases Nat.lt_trichotomy x.unsigned y.unsigned with hlt | heq | hgt
  · exact absurd h (magnitude_lt_of_unsigned_lt hlt).ne
  · exact heq
  · exact absurd h (magnitude_lt_of_unsigned_lt hgt).ne'

theorem scaled_eq_zero_iff {x : Binary64} : x.scaled = 0 ↔ x.magnitude = 0 := by
  unfold scaled
  split <;> omega

theorem eq_of_scaled
    {x y : Binary64} (h : x.scaled = y.scaled) (hx : x.magnitude ≠ 0) : x = y := by
  have hsame : x.negative = y.negative ∧ x.magnitude = y.magnitude := by
    unfold scaled at h
    split at h <;> split at h <;> simp_all
  exact eq_of_unsigned hsame.1 (unsigned_eq_of_magnitude hsame.2)

/-! ## Infinities -/

theorem isNaN_of_isFinite {x : Binary64} (h : x.isFinite = true) : x.isNaN = false := by
  have hfield : ¬ x.exponentField = 2047 := by simpa [isFinite] using h
  simp [isNaN, hfield]

theorem quantity?_of_isNaN {x : Binary64} (h : x.isNaN = true) : x.quantity? = none := by
  rw [quantity?, if_pos h]

theorem quantity?_of_finite {x : Binary64} (h : x.isFinite = true) :
    x.quantity? = some (.finite x.value) := by
  rw [quantity?, if_neg (by simp [isNaN_of_isFinite h]), if_pos h]

theorem quantity?_of_infinite
    {x : Binary64} (hnumber : x.isNaN = false) (h : x.isFinite = false) :
    x.quantity? = some (.infinite x.negative) := by
  rw [quantity?, if_neg (by simp [hnumber]), if_neg (by simp [h])]

/-- Every double denotes something but a NaN. -/
theorem quantity?_isSome_iff {x : Binary64} : x.quantity?.isSome = true ↔ x.isNaN = false := by
  unfold quantity?
  split
  · simp_all
  · split <;> simp_all

/-- An infinity has the largest exponent and no fraction. -/
theorem unsigned_of_infinite
    {x : Binary64} (hnumber : x.isNaN = false) (h : x.isFinite = false) :
    x.unsigned = 2047 * 2 ^ 52 := by
  have hfield : x.exponentField = 2047 := by simpa [isFinite] using h
  have hfraction : x.fraction = 0 := by simpa [isNaN, hfield] using hnumber
  rw [exponentField_eq] at hfield
  rw [fraction_eq] at hfraction
  omega

theorem magnitude_ne_zero_of_infinite
    {x : Binary64} (h : x.isFinite = false) : x.magnitude ≠ 0 := by
  have hfield : x.exponentField = 2047 := by simpa [isFinite] using h
  have hsignificand : 0 < x.significand := by
    rw [significand, hfield]
    exact Nat.add_pos_right _ (Nat.two_pow_pos 52)
  exact (Nat.mul_pos hsignificand (Nat.two_pow_pos _)).ne'

/-! ## Equality of doubles -/

/-- Two doubles are equal if they are the same, or the two zeros. -/
theorem equal_iff_of_number
    {x y : Binary64} (hx : x.isNaN = false) (hy : y.isNaN = false) :
    x.equal y = true ↔ x = y ∨ x.magnitude = 0 ∧ y.magnitude = 0 := by
  have hbits : x.bits = y.bits ↔ x = y :=
    ⟨fun h => by cases x; cases y; cases h; rfl, fun h => by rw [h]⟩
  simp only [equal, hx, hy, Bool.not_false, Bool.true_and, Bool.or_eq_true, Bool.and_eq_true,
    beq_iff_eq, hbits]

theorem one_pos : 0 < one := by
  have h := Number.Interval.one_pos
  rw [Number.Interval.one] at h
  omega

theorem value_eq_iff {x : Binary64} {q : ℚ} : x.value = q ↔ (x.scaled : ℚ) = q * one := by
  have hone : (one : ℚ) ≠ 0 := by exact_mod_cast one_pos.ne'
  rw [value, div_eq_iff hone]

theorem value_inj {x y : Binary64} : x.value = y.value ↔ x.scaled = y.scaled := by
  have hy : (y.scaled : ℚ) = y.value * one := value_eq_iff.mp rfl
  rw [value_eq_iff, ← hy, Int.cast_inj]

theorem equal_iff_of_finite
    {x y : Binary64} (hx : x.isFinite = true) (hy : y.isFinite = true) :
    x.equal y = true ↔ x.value = y.value := by
  rw [value_inj, equal_iff_of_number (isNaN_of_isFinite hx) (isNaN_of_isFinite hy)]
  constructor
  · rintro (rfl | ⟨hzero, hzero'⟩)
    · rfl
    · rw [scaled_eq_zero_iff.mpr hzero, scaled_eq_zero_iff.mpr hzero']
  · intro h
    by_cases hzero : x.magnitude = 0
    · rw [scaled_eq_zero_iff.mpr hzero] at h
      exact Or.inr ⟨hzero, scaled_eq_zero_iff.mp h.symm⟩
    · exact Or.inl (eq_of_scaled h hzero)

theorem equal_iff_of_infinite
    {x y : Binary64} (hx : x.isNaN = false) (hy : y.isNaN = false) (hinf : x.isFinite = false) :
    x.equal y = true ↔ y.isFinite = false ∧ x.negative = y.negative := by
  rw [equal_iff_of_number hx hy]
  constructor
  · rintro (rfl | ⟨hzero, -⟩)
    · exact ⟨hinf, rfl⟩
    · exact absurd hzero (magnitude_ne_zero_of_infinite hinf)
  · rintro ⟨hinf', hsign⟩
    refine Or.inl (eq_of_unsigned hsign ?_)
    rw [unsigned_of_infinite hx hinf, unsigned_of_infinite hy hinf']

theorem equal_comm (x y : Binary64) : x.equal y = y.equal x := by
  simp only [equal, Bool.and_comm x.isNaN.not, Bool.and_comm (x.magnitude == 0),
    BEq.comm (a := x.bits)]

/-- Two doubles are equal if they denote the same. -/
theorem equal_iff_quantity {x y : Binary64} :
    x.equal y = true ↔ ∃ q, x.quantity? = some q ∧ y.quantity? = some q := by
  by_cases hx : x.isNaN = true
  · simp [equal, quantity?_of_isNaN hx, hx]
  by_cases hy : y.isNaN = true
  · simp [equal, quantity?_of_isNaN hy, hy]
  rw [Bool.not_eq_true] at hx hy
  cases hfinite : x.isFinite with
  | false =>
      rw [equal_iff_of_infinite hx hy hfinite, quantity?_of_infinite hx hfinite]
      cases hfinite' : y.isFinite with
      | false => simp [quantity?_of_infinite hy hfinite', eq_comm]
      | true => simp [quantity?_of_finite hfinite']
  | true =>
      rw [quantity?_of_finite hfinite]
      cases hfinite' : y.isFinite with
      | false =>
          rw [equal_comm, equal_iff_of_infinite hy hx hfinite', quantity?_of_infinite hy hfinite']
          simp [hfinite]
      | true =>
          rw [equal_iff_of_finite hfinite hfinite', quantity?_of_finite hfinite']
          simp [eq_comm]

/-! ## Doubles and integers -/

theorem magnitude_eq_natAbs (x : Binary64) : x.magnitude = x.scaled.natAbs := by
  unfold scaled
  split <;> simp

/-- A double that denotes an integer is whole, and the integer is its part towards zero. -/
theorem truncate_of_scaled {x : Binary64} {n : ℤ} (h : x.scaled = n * one) :
    x.magnitude % one = 0 ∧ x.truncate = n := by
  have hone := one_pos
  have hmagnitude : x.magnitude = n.natAbs * one := by
    rw [magnitude_eq_natAbs, h, Int.natAbs_mul, Int.natAbs_natCast]
  have hdiv : x.magnitude / one = n.natAbs := by rw [hmagnitude, Nat.mul_div_cancel _ hone]
  refine ⟨by rw [hmagnitude, Nat.mul_mod_left], ?_⟩
  unfold truncate
  unfold scaled at h
  generalize one = unit at *
  have hunit : (0 : ℤ) < unit := by exact_mod_cast hone
  rw [hdiv]
  by_cases hnegative : x.negative = true
  · rw [if_pos hnegative] at h ⊢
    have hsign : n ≤ 0 := by nlinarith [Int.natCast_nonneg x.magnitude]
    omega
  · rw [if_neg hnegative] at h ⊢
    have hsign : 0 ≤ n := by nlinarith [Int.natCast_nonneg x.magnitude]
    omega

/-- A whole double is its part towards zero. -/
theorem scaled_of_isWhole {x : Binary64} (h : x.isWhole = true) :
    x.isFinite = true ∧ x.scaled = x.truncate * one := by
  rw [isWhole, Bool.and_eq_true, beq_iff_eq] at h
  obtain ⟨hfinite, hmod⟩ := h
  refine ⟨hfinite, ?_⟩
  have hmagnitude : ((x.magnitude / one : ℕ) : ℤ) * one = x.magnitude := by
    exact_mod_cast Nat.div_mul_cancel (Nat.dvd_of_mod_eq_zero hmod)
  unfold scaled truncate
  split
  · rw [neg_mul, hmagnitude]
  · exact hmagnitude.symm

theorem isNaN_limit (negative : Bool) : (limit negative).isNaN = false := by
  cases negative <;> decide +kernel

theorem scaled_limit (negative : Bool) :
    (limit negative).scaled = (if negative then -2 ^ 63 else 2 ^ 63) * one := by
  cases negative <;> decide +kernel

theorem value_limit (negative : Bool) :
    (limit negative).value = if negative then -2 ^ 63 else 2 ^ 63 := by
  rw [value_eq_iff, scaled_limit]
  generalize one = unit
  cases negative <;> norm_num

/-- The range test compares with the ends of the 64-bit integers, the upper one left out. -/
theorem within_limits_iff {x : Binary64} (h : x.isNaN = false) :
    ((limit true).atMost x && x.below (limit false)) = true ↔
      -2 ^ 63 * (one : ℤ) ≤ x.scaled ∧ x.scaled < 2 ^ 63 * one := by
  have hleast : (limit true).scaled = -2 ^ 63 * one := scaled_limit true
  have hbound : (limit false).scaled = 2 ^ 63 * one := scaled_limit false
  simp only [atMost, below, isNaN_limit, h, Bool.not_false, Bool.true_and, Bool.and_eq_true,
    decide_eq_true_eq]
  rw [hleast, hbound]

/-- In the range of the 64-bit integers a conversion is exact. -/
theorem toInt_toInt64 {x : Binary64} (h : x.isNaN = false) (hleast : -2 ^ 63 ≤ x.truncate)
    (hbelow : x.truncate < 2 ^ 63) : x.toInt64.toInt = x.truncate := by
  have hlimit : Int.pow 2 63 = 2 ^ 63 := rfl
  have hclamp : max (-2 ^ 63) (min (2 ^ 63 - 1) x.truncate) = x.truncate := by omega
  rw [toInt64, if_neg (by simp [h]), hlimit, hclamp]
  exact Int64.toInt_ofInt_of_le hleast hbelow

/-- A double equals an integer if it is finite and exactly as many units. -/
theorem equalsInt_iff_scaled {x : Binary64} {n : Int64} :
    x.equalsInt n = true ↔ x.isFinite = true ∧ x.scaled = n.toInt * one := by
  have hone : (0 : ℤ) < one := by exact_mod_cast one_pos
  rw [equalsInt, Bool.and_eq_true, Bool.and_eq_true, beq_iff_eq]
  constructor
  · rintro ⟨⟨hwhole, hrange⟩, rfl⟩
    obtain ⟨hfinite, hscaled⟩ := scaled_of_isWhole hwhole
    have hnumber := isNaN_of_isFinite hfinite
    rw [within_limits_iff hnumber, hscaled] at hrange
    have hleast : -2 ^ 63 ≤ x.truncate := le_of_mul_le_mul_right hrange.1 hone
    have hbelow : x.truncate < 2 ^ 63 := lt_of_mul_lt_mul_right hrange.2 hone.le
    rw [toInt_toInt64 hnumber hleast hbelow]
    exact ⟨hfinite, hscaled⟩
  · rintro ⟨hfinite, hscaled⟩
    have hnumber := isNaN_of_isFinite hfinite
    have hleast : -2 ^ 63 ≤ n.toInt := n.le_toInt
    have hbelow : n.toInt < 2 ^ 63 := n.toInt_lt
    obtain ⟨hmod, htruncate⟩ := truncate_of_scaled hscaled
    refine ⟨⟨by simp [isWhole, hfinite, hmod], (within_limits_iff hnumber).mpr ?_⟩, ?_⟩
    · rw [hscaled]
      exact ⟨mul_le_mul_of_nonneg_right hleast hone.le, mul_lt_mul_of_pos_right hbelow hone⟩
    · rw [← Int64.toInt_inj, toInt_toInt64 hnumber (htruncate ▸ hleast) (htruncate ▸ hbelow),
        htruncate]

/-- A double equals an integer if it is finite and its value is this integer. -/
theorem equalsInt_iff_value {x : Binary64} {n : Int64} :
    x.equalsInt n = true ↔ x.isFinite = true ∧ x.value = n.toInt := by
  rw [equalsInt_iff_scaled, value_eq_iff]
  exact_mod_cast Iff.rfl

/-- A double equals an integer if it denotes this integer. -/
theorem equalsInt_iff_quantity {x : Binary64} {n : Int64} :
    x.equalsInt n = true ↔ x.quantity? = some (.finite n.toInt) := by
  rw [equalsInt_iff_value]
  cases hfinite : x.isFinite with
  | true => simp [quantity?_of_finite hfinite]
  | false =>
      cases hnumber : x.isNaN with
      | true => simp [quantity?_of_isNaN hnumber]
      | false => simp [quantity?_of_infinite hnumber hfinite]

theorem value_zero (negative : Bool) : (zero negative).value = 0 := by
  have hscaled : (zero negative).scaled = 0 := by cases negative <;> decide +kernel
  rw [value, hscaled, Int.cast_zero, zero_div]

/--
Comparing an integer with a double rounds neither of them: they are equal exactly if the double is
finite and its value is the integer.  So both zeros equal `0`, the double `2^63` equals no integer
of 64 bits and `-2^63` equals the least one, and a NaN, an infinity and whatever has a fraction
equal none.
-/
theorem mixed_comparison_is_exact :
    (∀ (n : Int64) (x : Binary64),
      x.equalsInt n = true ↔ x.isFinite = true ∧ x.value = n.toInt) ∧
    (∀ negative, (zero negative).equalsInt 0 = true) ∧
    (∀ (n : Int64) (x : Binary64), x.value = 2 ^ 63 → x.equalsInt n = false) ∧
    (∀ x : Binary64, x.isFinite = true → x.value = -2 ^ 63 →
      x.equalsInt Int64.minValue = true) ∧
    ∀ (n : Int64) (x : Binary64), (x.isFinite = false ∨ ∀ k : ℤ, x.value ≠ k) →
      x.equalsInt n = false := by
  refine ⟨fun n x => equalsInt_iff_value, ?_, ?_, ?_, ?_⟩
  · intro negative
    refine equalsInt_iff_value.mpr ⟨by cases negative <;> decide +kernel, ?_⟩
    rw [value_zero, Int64.toInt_zero, Int.cast_zero]
  · intro n x hvalue
    rw [← Bool.not_eq_true, equalsInt_iff_value, hvalue]
    rintro ⟨-, hequal⟩
    have hbelow := n.toInt_lt
    have hlimit : (2 : ℤ) ^ 63 = n.toInt := by exact_mod_cast hequal
    omega
  · intro x hfinite hvalue
    refine equalsInt_iff_value.mpr ⟨hfinite, ?_⟩
    rw [hvalue, Int64.toInt_minValue]
    norm_num
  · intro n x hnone
    rw [← Bool.not_eq_true, equalsInt_iff_value]
    rintro ⟨hfinite, hvalue⟩
    rcases hnone with hinfinite | hfraction
    · rw [hfinite] at hinfinite
      cases hinfinite
    · exact hfraction n.toInt hvalue

theorem mixed_comparison_is_exact_ends :
    (∀ n, (limit false).equalsInt n = false) ∧
    (limit true).equalsInt Int64.minValue = true ∧
    (∀ n, nan.equalsInt n = false ∧ (infinity true).equalsInt n = false) ∧
    (∀ n, (Binary64.mk 0x4004000000000000).equalsInt n = false) ∧
    (Binary64.mk 0x4340000000000000).equalsInt 9007199254740993 = false := by
  obtain ⟨hexact, -, hpast, hleast, hnone⟩ := mixed_comparison_is_exact
  have hhalves : 2 * (Binary64.mk 0x4004000000000000).scaled = 5 * one := by decide +kernel
  refine ⟨fun n => hpast n _ (value_limit false),
    hleast _ (by decide +kernel) (value_limit true), ?_, ?_, ?_⟩
  · exact fun n => ⟨hnone n _ (Or.inl (by decide +kernel)), hnone n _ (Or.inl (by decide +kernel))⟩
  · refine fun n => hnone n _ (Or.inr fun k hvalue => ?_)
    have hscaled : (Binary64.mk 0x4004000000000000).scaled = k * one := by
      rw [value_eq_iff] at hvalue
      exact_mod_cast hvalue
    have hone : (one : ℤ) ≠ 0 := by exact_mod_cast one_pos.ne'
    have heven : 2 * k = 5 := by
      apply mul_right_cancel₀ hone
      rw [← hhalves, hscaled, mul_assoc]
    omega
  · decide +kernel

end Binary64
end CaseSuite

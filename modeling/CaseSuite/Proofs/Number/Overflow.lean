import CaseSuite.Number.Text
import CaseSuite.Proofs.Number.Quantities
import Mathlib

/-!
# Overflow

A decimal is rounded to a finite double exactly if it lies below half a unit above the largest one:
at that point the tie goes to the even neighbour, which is no finite double any more.  Rounding
decides this by the word that it computes; here it is said in terms of the decimal alone.
-/

namespace CaseSuite

/-! ## Rounding a quotient -/

namespace Binary64

open Number

/-- The least positive number that is too large for a double: half a unit above the largest one. -/
def overflow : ℚ := 2 ^ 1024 - 2 ^ 970

theorem le_divToEven {n d k : Nat} (hd : 0 < d) (h : k * d ≤ n) : k ≤ divToEven n d := by
  have hquotient : k ≤ n / d := (Nat.le_div_iff_mul_le hd).mpr h
  unfold divToEven
  dsimp only
  split_ifs <;> omega

theorem divToEven_le {n d k : Nat} (hd : 0 < d) (h : n < k * d) : divToEven n d ≤ k := by
  have hquotient : n / d < k := (Nat.div_lt_iff_lt_mul hd).mpr h
  unfold divToEven
  dsimp only
  split_ifs <;> omega

/-- A tie goes away from an odd number. -/
theorem divToEven_le_iff_of_odd {n d k : Nat} (hd : 0 < d) (hodd : k % 2 = 1) :
    divToEven n d ≤ k ↔ 2 * n < (2 * k + 1) * d := by
  have hsplit : n = n / d * d + n % d := (Nat.div_add_mod' n d).symm
  have hrest : n % d < d := Nat.mod_lt n hd
  rcases Nat.lt_trichotomy (n / d) k with hlt | heq | hgt
  · have hbelow : (n / d + 1) * d ≤ k * d := Nat.mul_le_mul_right d hlt
    have hle : divToEven n d ≤ k := divToEven_le hd (by linarith)
    simp only [hle, true_iff]
    linarith
  · have hround : divToEven n d ≤ k ↔ 2 * (n % d) < d := by
      unfold divToEven
      dsimp only
      split_ifs <;> omega
    have hdouble : 2 * n = 2 * k * d + 2 * (n % d) := by
      rw [heq] at hsplit
      linarith
    rw [hround, hdouble, Nat.add_mul, Nat.one_mul]
    omega
  · have habove : (k + 1) * d ≤ n / d * d := Nat.mul_le_mul_right d hgt
    have hfloor : n / d * d ≤ n := Nat.div_mul_le_self n d
    have hle : k + 1 ≤ divToEven n d := le_divToEven hd (habove.trans hfloor)
    constructor
    · intro h
      omega
    · intro h
      linarith

/-- The word without sign that a quotient, in units of `2^-1074`, is rounded to. -/
def roundedWord (n d : Nat) : Nat :=
  let shift := Nat.log2 (n / d) - 52
  shift * 2 ^ 52 + divToEven n (d * 2 ^ shift)

theorem ofRatio_eq (negative : Bool) (n d : Nat) :
    ofRatio negative n d =
      if infinityWord ≤ roundedWord (n * one) d then infinity negative
      else ofWord negative (roundedWord (n * one) d) :=
  rfl

theorem lt_roundingUnits {n d : Nat} (hd : 0 < d) :
    n < 2 ^ 53 * (d * 2 ^ (Nat.log2 (n / d) - 52)) := by
  generalize hshift : Nat.log2 (n / d) - 52 = shift
  have hquotient : n / d < 2 ^ (shift + 53) :=
    Nat.lt_log2_self.trans_le (Nat.pow_le_pow_right (by decide) (by omega))
  have hn : n < 2 ^ (shift + 53) * d := (Nat.div_lt_iff_lt_mul hd).mp hquotient
  calc
    n < 2 ^ (shift + 53) * d := hn
    _ = 2 ^ 53 * (d * 2 ^ shift) := by ring

theorem roundingUnits_le {n d : Nat} (hd : 0 < d) (hlarge : 52 ≤ Nat.log2 (n / d)) :
    2 ^ 52 * (d * 2 ^ (Nat.log2 (n / d) - 52)) ≤ n := by
  have hpos : n / d ≠ 0 := by
    intro hzero
    rw [hzero, Nat.log2_zero] at hlarge
    omega
  have hquotient : 2 ^ Nat.log2 (n / d) ≤ n / d := Nat.log2_self_le hpos
  generalize hshift : Nat.log2 (n / d) - 52 = shift
  rw [show Nat.log2 (n / d) = 52 + shift by omega] at hquotient
  calc
    2 ^ 52 * (d * 2 ^ shift) = 2 ^ (52 + shift) * d := by ring
    _ ≤ n := (Nat.le_div_iff_mul_le hd).mp hquotient

/-- A quotient is rounded up to a power of two from half a unit below it on. -/
theorem le_roundedWord_iff {n d s : Nat} (hd : 0 < d) (hs : 0 < s) :
    (s + 2) * 2 ^ 52 ≤ roundedWord n d ↔ (2 ^ 54 - 1) * (d * 2 ^ s) ≤ 2 * n := by
  have hupper := lt_roundingUnits (n := n) hd
  rcases Nat.lt_trichotomy (Nat.log2 (n / d)) (s + 52) with hsmall | hequal | hlarge
  · -- the significand of a smaller shift carries into the next exponent at most
    have hshift : Nat.log2 (n / d) - 52 ≤ s - 1 := by omega
    have hunits : d * 2 ^ (Nat.log2 (n / d) - 52) ≤ d * 2 ^ (s - 1) :=
      Nat.mul_le_mul_left d (Nat.pow_le_pow_right (by decide) hshift)
    have hdouble : d * 2 ^ s = 2 * (d * 2 ^ (s - 1)) := by
      obtain ⟨k, rfl⟩ := Nat.exists_eq_add_of_lt hs
      simp only [Nat.zero_add, Nat.add_sub_cancel]
      ring
    have hword : roundedWord n d < (s + 2) * 2 ^ 52 := by
      have hround := divToEven_le (by positivity) hupper
      rw [roundedWord]
      omega
    constructor
    · intro h
      omega
    · intro h
      omega
  · have hshift : Nat.log2 (n / d) - 52 = s := by omega
    have hodd := divToEven_le_iff_of_odd (n := n) (d := d * 2 ^ s) (k := 2 ^ 53 - 1)
      (by positivity) (by decide)
    rw [roundedWord, hshift]
    omega
  · have hlower := roundingUnits_le hd (by omega : 52 ≤ Nat.log2 (n / d))
    have hround := le_divToEven (by positivity) hlower
    have hunits : d * 2 ^ (s + 1) ≤ d * 2 ^ (Nat.log2 (n / d) - 52) :=
      Nat.mul_le_mul_left d (Nat.pow_le_pow_right (by decide) (by omega))
    have hword : (s + 2) * 2 ^ 52 ≤ roundedWord n d := by
      rw [roundedWord]
      omega
    have hdouble : d * 2 ^ (s + 1) = 2 * (d * 2 ^ s) := by ring
    simp only [hword, true_iff]
    omega

theorem isFinite_ofWord (negative : Bool) {w : Nat} (hw : w < 2 ^ 63) :
    (ofWord negative w).isFinite = true ↔ w / 2 ^ 52 ≠ 2047 := by
  have hfield : (ofWord negative w).exponentField = w / 2 ^ 52 := by
    simp only [exponentField, ofWord, word, UInt64.toNat_ofNat', Nat.pow_eq]
    split <;> omega
  rw [isFinite, hfield, bne_iff_ne]

theorem not_isFinite_infinity (negative : Bool) : ¬ (infinity negative).isFinite = true := by
  rw [infinity, isFinite_ofWord negative (by decide)]
  decide

theorem isFinite_zero (negative : Bool) : (zero negative).isFinite = true := by
  rw [zero, isFinite_ofWord negative (by decide)]
  decide

-- the powers below are too large to be computed, so their exponents are kept general
theorem pow_sub_pow (e : Nat) : (2 : ℚ) ^ (54 + e) - 2 ^ e = (((2 ^ 54 - 1) * 2 ^ e : ℕ) : ℚ) := by
  have hcast : ((2 ^ 54 - 1 : ℕ) : ℚ) = 2 ^ 54 - 1 := by norm_num
  rw [Nat.cast_mul, hcast, Nat.cast_pow, Nat.cast_ofNat, pow_add, sub_one_mul]

theorem overflow_eq : overflow = (((2 ^ 54 - 1) * 2 ^ 970 : ℕ) : ℚ) :=
  pow_sub_pow 970

theorem le_roundedWord_scaled_iff {n d : Nat} (hd : 0 < d) (a b : Nat) :
    (a + b + 3) * 2 ^ 52 ≤ roundedWord (n * Nat.pow 2 b) d ↔ (2 ^ 54 - 1) * 2 ^ a * d ≤ n := by
  have hpos : 0 < 2 * 2 ^ b := by positivity
  have hunits : (2 ^ 54 - 1) * (d * 2 ^ (a + b + 1)) = (2 ^ 54 - 1) * 2 ^ a * d * (2 * 2 ^ b) := by
    ring
  have hscaled : 2 * (n * 2 ^ b) = n * (2 * 2 ^ b) := by ring
  rw [Nat.pow_eq, le_roundedWord_iff hd (Nat.succ_pos (a + b)), hunits, hscaled]
  exact Nat.mul_le_mul_right_iff hpos

/-- A quotient is rounded to infinity from half a unit above the largest double on. -/
theorem infinityWord_le_iff {n d : Nat} (hd : 0 < d) :
    infinityWord ≤ roundedWord (n * one) d ↔ (2 ^ 54 - 1) * 2 ^ 970 * d ≤ n := by
  unfold one
  generalize hscale : 1074 = scale
  have hword : infinityWord = (970 + scale + 3) * 2 ^ 52 := by
    rw [← hscale]
    rfl
  rw [hword]
  exact le_roundedWord_scaled_iff hd 970 scale

/-- A quotient is rounded to a finite double exactly if it does not overflow. -/
theorem isFinite_ofRatio (negative : Bool) (n : Nat) {d : Nat} (hd : 0 < d) :
    (ofRatio negative n d).isFinite = true ↔ (n : ℚ) / d < overflow := by
  have hd' : (0 : ℚ) < d := by exact_mod_cast hd
  have hoverflow : overflow ≤ (n : ℚ) / d ↔ (2 ^ 54 - 1) * 2 ^ 970 * d ≤ n := by
    rw [overflow_eq, le_div_iff₀ hd', ← Nat.cast_mul, Nat.cast_le]
  have hword : infinityWord = 2047 * 2 ^ 52 := rfl
  rw [← not_le, hoverflow, ← infinityWord_le_iff hd, ofRatio_eq]
  split
  · rename_i hinfinite
    exact iff_of_false (not_isFinite_infinity negative) (not_not_intro hinfinite)
  · rename_i hfinite
    have hbelow : roundedWord (n * one) d < 2047 * 2 ^ 52 := by
      rw [← hword]
      exact not_le.mp hfinite
    refine iff_of_true ?_ hfinite
    rw [isFinite_ofWord negative (by omega)]
    omega

theorem overflow_le : overflow ≤ 10 ^ (310 : ℤ) := by
  have hle : (2 ^ 54 - 1) * 2 ^ 970 ≤ 10 ^ 310 := by decide +kernel
  rw [overflow_eq, zpow_ofNat]
  exact_mod_cast hle

theorem one_lt_overflow : 1 < overflow := by
  have hlt : 1 < (2 ^ 54 - 1) * 2 ^ 970 := by decide +kernel
  rw [overflow_eq]
  exact_mod_cast hlt

end Binary64

/-! ## Decimals -/

namespace Number

theorem Decimal.pow_le_value {d : Decimal} (h : 0 < d.digits) :
    10 ^ (d.exponent + digitCount d.digits - 1) ≤ d.value := by
  have hcount : 0 < digitCount d.digits := Nat.length_toDigits_pos
  have hdigits : (10 : ℚ) ^ (digitCount d.digits - 1) ≤ d.digits := by
    exact_mod_cast Interval.pow_le_of_digitCount h
  have hsum : d.exponent + digitCount d.digits - 1 =
      ((digitCount d.digits - 1 : ℕ) : ℤ) + d.exponent := by omega
  rw [hsum, zpow_add₀ (by norm_num), zpow_natCast]
  exact mul_le_mul_of_nonneg_right hdigits (by positivity)

theorem Decimal.value_lt_pow (d : Decimal) :
    d.value < 10 ^ (d.exponent + digitCount d.digits) := by
  have hdigits : (d.digits : ℚ) < 10 ^ digitCount d.digits := by
    exact_mod_cast Interval.lt_pow_digitCount d.digits
  rw [Int.add_comm, zpow_add₀ (by norm_num), zpow_natCast]
  exact mul_lt_mul_of_pos_right hdigits (by positivity)

end Number

namespace Binary64

open Number

/-- A decimal is rounded to a finite double exactly if it does not overflow. -/
theorem isFinite_ofDecimal (negative : Bool) (d : Decimal) :
    (ofDecimal negative d).isFinite = true ↔ d.value < overflow := by
  unfold ofDecimal
  split
  · rename_i hdigits
    have hvalue : d.value = 0 := by simp [Decimal.value, hdigits]
    rw [hvalue]
    exact iff_of_true (isFinite_zero negative) (zero_lt_one.trans one_lt_overflow)
  · rename_i hdigits
    have hpos : 0 < d.digits := Nat.pos_of_ne_zero hdigits
    dsimp only
    split
    · rename_i htop
      have hlarge : overflow ≤ d.value :=
        calc
          overflow ≤ 10 ^ (310 : ℤ) := overflow_le
          _ ≤ 10 ^ (d.exponent + digitCount d.digits - 1) :=
              zpow_le_zpow_right₀ (by norm_num) (by omega)
          _ ≤ d.value := Decimal.pow_le_value hpos
      exact iff_of_false (not_isFinite_infinity negative) (not_lt.mpr hlarge)
    · split
      · rename_i htop
        have hsmall : d.value < overflow :=
          calc
            d.value < 10 ^ (d.exponent + digitCount d.digits) := d.value_lt_pow
            _ ≤ 10 ^ (0 : ℤ) := zpow_le_zpow_right₀ (by norm_num) (by omega)
            _ = 1 := zpow_zero _
            _ < overflow := one_lt_overflow
        exact iff_of_true (isFinite_zero negative) hsmall
      · have hratio : ((d.digits * Nat.pow 10 d.exponent.toNat : ℕ) : ℚ) /
            (Nat.pow 10 (-d.exponent).toNat : ℕ) = d.value := by
          rw [Decimal.value, ← Interval.ratio_eq_zpow, Nat.cast_mul, mul_div_assoc]
        have hunit : 0 < Nat.pow 10 (-d.exponent).toNat := Nat.pow_pos (by decide)
        rw [isFinite_ofRatio negative _ hunit, hratio]

end Binary64

end CaseSuite

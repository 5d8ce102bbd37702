import CaseSuite.Number.Shortest
import Mathlib

/-!
# Rounding intervals

The reals that round to a finite double lie between two borders, and the upper border of a word is
the lower border of the next one.  So no real lies in the intervals of two doubles, the ends
included: an end belongs to the even neighbour only.  The shortest decimal of a double lies in its
interval, because the grid of seventeen digits is finer than the interval is wide.
-/

namespace CaseSuite

/-! ## Words without sign -/

namespace Binary64

/-- The word without its sign bit. -/
def unsigned (x : Binary64) : Nat := x.word % 2 ^ 63

/-- The significand that a word without sign holds. -/
def significandAt (w : Nat) : Nat :=
  if w / 2 ^ 52 = 0 then w % 2 ^ 52 else w % 2 ^ 52 + 2 ^ 52

/-- What the significand of a word without sign counts, in units of `2^-1074`. -/
def unitAt (w : Nat) : Nat := 2 ^ (w / 2 ^ 52 - 1)

/-- The lower border of what rounds to a word, in quarters of `2^-1074`. -/
def border (w : Nat) : Nat :=
  if significandAt w = 2 ^ 52 ∧ 1 < w / 2 ^ 52 then 4 * (significandAt w * unitAt w) - unitAt w
  else 4 * (significandAt w * unitAt w) - 2 * unitAt w

theorem word_lt (x : Binary64) : x.word < 2 ^ 64 :=
  x.bits.toNat_lt

theorem exponentField_eq (x : Binary64) : x.exponentField = x.unsigned / 2 ^ 52 := by
  have h := x.word_lt
  simp only [exponentField, unsigned, Nat.pow_eq]
  omega

theorem fraction_eq (x : Binary64) : x.fraction = x.unsigned % 2 ^ 52 := by
  simp only [fraction, unsigned, Nat.pow_eq]
  omega

theorem significand_eq (x : Binary64) : x.significand = significandAt x.unsigned := by
  rw [significand, significandAt, exponentField_eq, fraction_eq]
  rfl

theorem magnitude_eq (x : Binary64) :
    x.magnitude = significandAt x.unsigned * unitAt x.unsigned := by
  rw [magnitude, significand_eq, shift, exponentField_eq]
  rfl

/-- A double is its sign and its word without sign. -/
theorem eq_of_unsigned
    {x y : Binary64} (hsign : x.negative = y.negative) (h : x.unsigned = y.unsigned) : x = y := by
  have hx := x.word_lt
  have hy := y.word_lt
  have hword : x.word = y.word := by
    simp only [negative, decide_eq_decide] at hsign
    simp only [unsigned] at h
    have hpow : Nat.pow 2 63 = 2 ^ 63 := rfl
    rw [hpow] at hsign
    omega
  obtain ⟨⟨bits⟩⟩ := x
  obtain ⟨⟨bits'⟩⟩ := y
  simp only [word, UInt64.toNat] at hword
  rw [BitVec.eq_of_toNat_eq hword]

/-! ## Borders -/

theorem unitAt_pos (w : Nat) : 0 < unitAt w :=
  Nat.two_pow_pos _

theorem significandAt_lt (w : Nat) : significandAt w < 2 ^ 53 := by
  unfold significandAt
  split <;> omega

theorem significandAt_parity (w : Nat) : significandAt w % 2 = w % 2 := by
  unfold significandAt
  split <;> omega

theorem border_succ_of_lt {w : Nat} (h : w % 2 ^ 52 + 1 < 2 ^ 52) :
    border (w + 1) = 4 * (significandAt w * unitAt w) + 2 * unitAt w := by
  have hexponent : (w + 1) / 2 ^ 52 = w / 2 ^ 52 := by omega
  have hunit : unitAt (w + 1) = unitAt w := by rw [unitAt, hexponent, unitAt]
  have hsignificand : significandAt (w + 1) = significandAt w + 1 := by
    rw [significandAt, hexponent, significandAt]
    split <;> omega
  have hnormal : ¬ (significandAt (w + 1) = 2 ^ 52 ∧ 1 < (w + 1) / 2 ^ 52) := by
    rw [significandAt, hexponent]
    split <;> omega
  rw [border, if_neg hnormal, hsignificand, hunit, Nat.add_mul, Nat.one_mul]
  omega

/-- After the last significand of an exponent comes the smallest one of the next. -/
theorem border_succ_of_eq {w : Nat} (h : w % 2 ^ 52 + 1 = 2 ^ 52) :
    border (w + 1) = 4 * (significandAt w * unitAt w) + 2 * unitAt w := by
  have hexponent : (w + 1) / 2 ^ 52 = w / 2 ^ 52 + 1 := by omega
  have hsignificand : significandAt (w + 1) = 2 ^ 52 := by
    rw [significandAt, hexponent, if_neg (by omega)]
    omega
  rcases Nat.eq_zero_or_pos (w / 2 ^ 52) with hzero | hpos
  · have hlast : significandAt w = 2 ^ 52 - 1 := by
      rw [significandAt, if_pos hzero]
      omega
    have hunit : unitAt w = 1 := by
      rw [unitAt, hzero]
      rfl
    have hunit' : unitAt (w + 1) = 1 := by
      rw [unitAt, hexponent, hzero]
      rfl
    rw [border, if_neg (by omega), hsignificand, hunit, hunit', hlast]
    rfl
  · have hlast : significandAt w = 2 ^ 53 - 1 := by
      rw [significandAt, if_neg (by omega)]
      omega
    have hunit : unitAt (w + 1) = 2 * unitAt w := by
      rw [unitAt, unitAt, hexponent, ← Nat.pow_succ']
      congr 1
      omega
    rw [border, if_pos ⟨hsignificand, by omega⟩, hsignificand, hunit, hlast]
    omega

/-- The upper border of a word lies half a unit above its value. -/
theorem border_succ (w : Nat) :
    border (w + 1) = 4 * (significandAt w * unitAt w) + 2 * unitAt w := by
  have hmod : w % 2 ^ 52 < 2 ^ 52 := Nat.mod_lt w (by decide)
  rcases Nat.lt_or_ge (w % 2 ^ 52 + 1) (2 ^ 52) with hmore | hlast
  · exact border_succ_of_lt hmore
  · exact border_succ_of_eq (by omega)

/-- The borders of a word are far enough apart for a grid of seventeen digits. -/
theorem border_gap {w : Nat} (h : 0 < significandAt w) :
    4 * (significandAt w * unitAt w) + 10 ^ 16 * border w < 10 ^ 16 * border (w + 1) := by
  have hunit := unitAt_pos w
  have hmost : significandAt w * unitAt w < 2 ^ 53 * unitAt w :=
    Nat.mul_lt_mul_of_pos_right (significandAt_lt w) hunit
  have hleast : unitAt w ≤ significandAt w * unitAt w := Nat.le_mul_of_pos_left _ h
  rw [border_succ, border]
  split
  · rename_i hpower
    rw [hpower.1]
    omega
  · omega

theorem border_lt_succ (w : Nat) : border w < border (w + 1) := by
  have hunit := unitAt_pos w
  rw [border_succ, border]
  split <;> omega

theorem border_strictMono : StrictMono border :=
  strictMono_nat_of_lt_succ border_lt_succ

end Binary64

/-! ## What lies in an interval -/

namespace Number

/-- The rational number that a decimal stands for. -/
def Decimal.value (d : Decimal) : ℚ := d.digits * 10 ^ d.exponent

namespace Interval

open Binary64

/-- A number lies in the interval; its ends count if they are closed. -/
def Within (i : Interval) (q : ℚ) : Prop :=
  if i.closed then i.lower ≤ q * one ∧ q * one ≤ i.upper
  else i.lower < q * one ∧ q * one < i.upper

theorem Within.bounds {i : Interval} {q : ℚ} (h : i.Within q) :
    i.lower ≤ q * one ∧ q * one ≤ i.upper := by
  unfold Within at h
  split at h
  · exact h
  · exact ⟨h.1.le, h.2.le⟩

theorem within_of_lt {i : Interval} {q : ℚ} (hlower : i.lower < q * one)
    (hupper : q * one < i.upper) : i.Within q := by
  unfold Within
  split
  · exact ⟨hlower.le, hupper.le⟩
  · exact ⟨hlower, hupper⟩

theorem holds_iff_within {i : Interval} {n d : Nat} (hd : 0 < d) :
    i.holds n d = true ↔ i.Within (n / d) := by
  have hd : (0 : ℚ) < d := by exact_mod_cast hd
  unfold holds Within
  -- the unit is only a factor here, and too large to be computed
  generalize one = unit
  split
  · rw [div_mul_eq_mul_div, le_div_iff₀ hd, div_le_iff₀ hd, Bool.and_eq_true, decide_eq_true_iff,
      decide_eq_true_iff]
    norm_cast
  · rw [div_mul_eq_mul_div, lt_div_iff₀ hd, div_lt_iff₀ hd, Bool.and_eq_true, decide_eq_true_iff,
      decide_eq_true_iff]
    norm_cast

/-- The interval of a double in terms of its word. -/
theorem ofBinary64_eq (x : Binary64) :
    ofBinary64 x =
      { value := 4 * (significandAt x.unsigned * unitAt x.unsigned)
        lower := border x.unsigned
        upper := border (x.unsigned + 1)
        closed := x.unsigned % 2 == 0 } := by
  have hunit : Nat.pow 2 x.shift = unitAt x.unsigned := by
    rw [shift, exponentField_eq]
    rfl
  have hshift : 0 < x.shift ↔ 1 < x.unsigned / 2 ^ 52 := by
    rw [shift, exponentField_eq]
    omega
  have hlower : 4 * (significandAt x.unsigned * unitAt x.unsigned) -
      (if (significandAt x.unsigned = Nat.pow 2 52 && 0 < x.shift) = true then unitAt x.unsigned
        else 2 * unitAt x.unsigned) = border x.unsigned := by
    rw [border]
    simp only [Bool.and_eq_true, decide_eq_true_iff, hshift]
    split
    · rename_i hpower
      exact (if_pos hpower).symm
    · rename_i hother
      exact (if_neg hother).symm
  unfold ofBinary64
  simp only [hunit, magnitude_eq, significand_eq, hlower, border_succ, significandAt_parity]

/-- A number between two words rounds to one of them only: the border belongs to the even one. -/
theorem not_within_of_lt
    {x y : Binary64} {q : ℚ} (h : x.unsigned < y.unsigned) (hx : (ofBinary64 x).Within q) :
    ¬ (ofBinary64 y).Within q := by
  intro hy
  rw [ofBinary64_eq] at hx hy
  have hborders : border (x.unsigned + 1) ≤ border y.unsigned := border_strictMono.monotone h
  have hborders : (border (x.unsigned + 1) : ℚ) ≤ border y.unsigned := by exact_mod_cast hborders
  have hupper := hx.bounds.2
  have hlower := hy.bounds.1
  simp only at hupper hlower
  have hsame : border (x.unsigned + 1) = border y.unsigned := by
    have hge : (border y.unsigned : ℚ) ≤ border (x.unsigned + 1) := hlower.trans hupper
    exact_mod_cast le_antisymm hborders hge
  have hnext : y.unsigned = x.unsigned + 1 := (border_strictMono.injective hsame).symm
  rcases Nat.mod_two_eq_zero_or_one x.unsigned with heven | hodd
  · have hopen : (y.unsigned % 2 == 0) = false := by simpa using (by omega : y.unsigned % 2 = 1)
    unfold Within at hy
    simp only [hopen] at hy
    exact absurd hy.1 (not_lt.mpr (hsame ▸ hupper))
  · have hopen : (x.unsigned % 2 == 0) = false := by simpa using hodd
    unfold Within at hx
    simp only [hopen] at hx
    exact absurd hx.2 (not_lt.mpr (hsame ▸ hlower))

/-- No number rounds to two words. -/
theorem unsigned_eq_of_within
    {x y : Binary64} {q : ℚ} (hx : (ofBinary64 x).Within q) (hy : (ofBinary64 y).Within q) :
    x.unsigned = y.unsigned := by
  rcases Nat.lt_trichotomy x.unsigned y.unsigned with hlt | heq | hgt
  · exact absurd hy (not_within_of_lt hlt hx)
  · exact heq
  · exact absurd hx (not_within_of_lt hgt hy)

/-! ## The shortest decimal -/

theorem one_pos : 0 < one := by
  unfold one Binary64.one
  -- for every exponent, so that the power is not computed
  generalize 1074 = e
  exact Nat.mul_pos (by decide) (Nat.two_pow_pos e)

theorem ratio_eq_zpow (e : Int) :
    ((Nat.pow 10 e.toNat : ℕ) : ℚ) / (Nat.pow 10 (-e).toNat : ℕ) = 10 ^ e := by
  rw [Nat.pow_eq, Nat.pow_eq]
  rcases Int.le_total 0 e with hpos | hneg
  · rw [Int.toNat_of_nonpos (by omega : -e ≤ 0)]
    conv_rhs => rw [← Int.toNat_of_nonneg hpos, zpow_natCast]
    simp
  · rw [Int.toNat_of_nonpos hneg]
    have he : e = -((-e).toNat : Int) := by omega
    conv_rhs => rw [he, zpow_neg, zpow_natCast]
    simp

/-- A point of the grid of multiples of a power of ten lies in the interval if its decimal does. -/
theorem holds_grid_iff {i : Interval} {m : Nat} {e : Int} :
    i.holds (m * Nat.pow 10 e.toNat) (Nat.pow 10 (-e).toNat) = true ↔
      i.Within (Decimal.value ⟨m, e⟩) := by
  have hpos : 0 < Nat.pow 10 (-e).toNat := Nat.pow_pos (by decide)
  have hvalue : ((m * Nat.pow 10 e.toNat : ℕ) : ℚ) / (Nat.pow 10 (-e).toNat : ℕ) =
      Decimal.value ⟨m, e⟩ := by
    rw [Decimal.value, ← ratio_eq_zpow, Nat.cast_mul, mul_div_assoc]
  rw [holds_iff_within hpos, hvalue]

/-- What a grid offers lies in the interval. -/
theorem within_of_onGrid? {i : Interval} {e : Int} {d : Decimal} (h : i.onGrid? e = some d) :
    i.Within d.value := by
  unfold onGrid? at h
  simp only at h
  split at h
  · rename_i hhigh
    rw [Bool.and_eq_true] at hhigh
    obtain rfl := Option.some.inj h
    exact holds_grid_iff.mp hhigh.1
  · split at h
    · rename_i hlow
      obtain rfl := Option.some.inj h
      exact holds_grid_iff.mp hlow
    · simp at h

/-- The value lies between two neighbours on a grid. -/
theorem value_between_neighbours (i : Interval) (e : Int) :
    let below := i.value * Nat.pow 10 (-e).toNat / (one * Nat.pow 10 e.toNat)
    Decimal.value ⟨below, e⟩ * one ≤ i.value ∧ i.value < Decimal.value ⟨below + 1, e⟩ * one := by
  intro below
  have hn : 0 < Nat.pow 10 e.toNat := Nat.pow_pos (by decide)
  have hd : 0 < Nat.pow 10 (-e).toNat := Nat.pow_pos (by decide)
  have hdq : (0 : ℚ) < (Nat.pow 10 (-e).toNat : ℕ) := by exact_mod_cast hd
  have hstep : 0 < one * Nat.pow 10 e.toNat := Nat.mul_pos one_pos hn
  have hbelow : below * (one * Nat.pow 10 e.toNat) ≤ i.value * Nat.pow 10 (-e).toNat :=
    Nat.div_mul_le_self _ _
  have habove : i.value * Nat.pow 10 (-e).toNat < (below + 1) * (one * Nat.pow 10 e.toNat) := by
    rw [Nat.mul_comm (below + 1)]
    exact Nat.lt_mul_div_succ _ hstep
  have hpoint : ∀ m : ℕ, Decimal.value ⟨m, e⟩ * one =
      (m * (one * Nat.pow 10 e.toNat) : ℕ) / (Nat.pow 10 (-e).toNat : ℕ) := by
    intro m
    generalize one = unit
    rw [Decimal.value, ← ratio_eq_zpow]
    generalize Nat.pow 10 e.toNat = n
    push_cast
    ring
  rw [hpoint, hpoint, div_le_iff₀ hdq, lt_div_iff₀ hdq]
  exact ⟨by exact_mod_cast hbelow, by exact_mod_cast habove⟩

/-- A grid that is finer than the interval is wide offers something. -/
theorem onGrid?_isSome
    {i : Interval} {e : Int} (hlower : i.lower < i.value) (hupper : i.value < i.upper)
    (hfine : (10 : ℚ) ^ e * one < i.upper - i.lower) : (i.onGrid? e).isSome := by
  obtain ⟨hbelow, habove⟩ := value_between_neighbours i e
  have hlower : (i.lower : ℚ) < i.value := by exact_mod_cast hlower
  have hupper : (i.value : ℚ) < i.upper := by exact_mod_cast hupper
  unfold onGrid?
  dsimp only
  generalize i.value * Nat.pow 10 (-e).toNat / (one * Nat.pow 10 e.toNat) = below at *
  have hstep : Decimal.value ⟨below + 1, e⟩ * one =
      Decimal.value ⟨below, e⟩ * one + (10 : ℚ) ^ e * one := by
    generalize one = unit
    simp only [Decimal.value]
    push_cast
    ring
  have hsome : i.holds (below * Nat.pow 10 e.toNat) (Nat.pow 10 (-e).toNat) = true ∨
      i.holds ((below + 1) * Nat.pow 10 e.toNat) (Nat.pow 10 (-e).toNat) = true := by
    rw [holds_grid_iff, holds_grid_iff]
    rcases lt_or_ge (i.lower : ℚ) (Decimal.value ⟨below, e⟩ * one) with hinside | houtside
    · exact Or.inl (within_of_lt hinside (hbelow.trans_lt hupper))
    · refine Or.inr (within_of_lt (hlower.trans habove) ?_)
      rw [hstep]
      linarith only [houtside, hfine]
  split
  · rfl
  · split
    · rfl
    · rename_i hhigh hlow
      rcases hsome with hsome | hsome
      · exact absurd hsome hlow
      · rw [Bool.not_eq_true] at hlow
        rw [hsome, hlow] at hhigh
        exact absurd rfl hhigh

theorem pow_le_of_digitCount {n : Nat} (h : 0 < n) : 10 ^ (digitCount n - 1) ≤ n := by
  by_contra hlt
  have hcount : 0 < digitCount n := Nat.length_toDigits_pos
  rcases Nat.eq_zero_or_pos (digitCount n - 1) with hzero | hpos
  · rw [hzero] at hlt
    omega
  · have hshort := (Nat.length_toDigits_le_iff (b := 10) (by decide) hpos).mpr (not_le.mp hlt)
    have hcount' : (Nat.toDigits 10 n).length = digitCount n := rfl
    omega

theorem lt_pow_digitCount (n : Nat) : n < 10 ^ digitCount n :=
  (Nat.length_toDigits_le_iff (by decide) Nat.length_toDigits_pos).mp le_rfl

/-- The leading digit is not above the value. -/
theorem leading_le {i : Interval} (h : 0 < i.value) : (10 : ℚ) ^ i.leading * one ≤ i.value := by
  have hone := one_pos
  have hvalue : (0 : ℚ) < i.value := by exact_mod_cast h
  unfold leading
  generalize one = unit at *
  split
  · rename_i hle
    have hpos : 0 < i.value / unit := Nat.div_pos hle hone
    have hcount : 0 < digitCount (i.value / unit) := Nat.length_toDigits_pos
    have hpow := pow_le_of_digitCount hpos
    have hexponent : (digitCount (i.value / unit) : Int) - 1 =
        ((digitCount (i.value / unit) - 1 : ℕ) : Int) := by omega
    rw [hexponent, zpow_natCast]
    have hmul : 10 ^ (digitCount (i.value / unit) - 1) * unit ≤ i.value :=
      (Nat.mul_le_mul_right unit hpow).trans (Nat.div_mul_le_self _ _)
    exact_mod_cast hmul
  · have hlt := lt_pow_digitCount ((unit + i.value - 1) / i.value - 1)
    generalize digitCount ((unit + i.value - 1) / i.value - 1) = count at *
    have hceil : unit ≤ 10 ^ count * i.value := by
      have hdiv : unit + i.value - 1 < i.value * ((unit + i.value - 1) / i.value + 1) :=
        Nat.lt_mul_div_succ _ h
      have hquotient : (unit + i.value - 1) / i.value ≤ 10 ^ count := by omega
      have hmul := Nat.mul_le_mul_left i.value hquotient
      rw [Nat.mul_add] at hdiv
      rw [Nat.mul_comm]
      omega
    rw [zpow_neg, zpow_natCast, inv_mul_le_iff₀ (by positivity)]
    exact_mod_cast hceil

/-- Seventeen digits are enough for the interval of a positive double. -/
theorem fine_grid {x : Binary64} (h : 0 < x.magnitude) :
    (10 : ℚ) ^ ((ofBinary64 x).leading - 16) * one <
      (ofBinary64 x).upper - (ofBinary64 x).lower := by
  rw [magnitude_eq] at h
  have hgap := border_gap (Nat.pos_of_mul_pos_right h)
  have hgap :
      (4 * (significandAt x.unsigned * unitAt x.unsigned) : ℕ) + 10 ^ 16 * (border x.unsigned : ℚ) <
      10 ^ 16 * border (x.unsigned + 1) := by exact_mod_cast hgap
  have hleading : (10 : ℚ) ^ (ofBinary64 x).leading * one ≤ (ofBinary64 x).value := by
    apply leading_le
    rw [ofBinary64_eq]
    exact Nat.mul_pos (by decide) h
  rw [zpow_sub₀ (by norm_num)]
  rw [ofBinary64_eq] at hleading ⊢
  dsimp only at hleading ⊢
  generalize (one : ℚ) = unit at *
  generalize (10 : ℚ) ^ Interval.leading _ = power at *
  rw [div_mul_eq_mul_div, div_lt_iff₀ (by positivity)]
  norm_num
  linarith

/-- The shortest decimal of a positive double lies in its interval. -/
theorem within_shortest {x : Binary64} (h : 0 < x.magnitude) :
    (ofBinary64 x).Within (Number.shortest x).value := by
  have hpos : 0 < significandAt x.unsigned * unitAt x.unsigned := magnitude_eq x ▸ h
  have hunit := unitAt_pos x.unsigned
  have hleast : unitAt x.unsigned ≤ significandAt x.unsigned * unitAt x.unsigned :=
    Nat.le_mul_of_pos_left _ (Nat.pos_of_mul_pos_right hpos)
  have hgrid : ((ofBinary64 x).onGrid? ((ofBinary64 x).leading - 16)).isSome := by
    apply onGrid?_isSome _ _ (fine_grid h)
    · rw [ofBinary64_eq]
      dsimp only
      rw [border]
      split <;> omega
    · rw [ofBinary64_eq]
      dsimp only
      rw [border_succ]
      omega
  have hfound : ((List.range 18).findSome? fun (k : Nat) =>
      (ofBinary64 x).onGrid? ((ofBinary64 x).leading + 1 - k)).isSome := by
    rw [List.findSome?_isSome_iff]
    refine ⟨17, by decide, ?_⟩
    have hexponent :
        (ofBinary64 x).leading + 1 - ((17 : Nat) : Int) = (ofBinary64 x).leading - 16 := by
      omega
    rw [hexponent]
    exact hgrid
  obtain ⟨d, hd⟩ := Option.isSome_iff_exists.mp hfound
  obtain ⟨k, -, hk⟩ := List.exists_of_findSome?_eq_some hd
  have hshortest : Number.shortest x = d := by
    rw [Number.shortest, Interval.shortest]
    simp only [hd, Option.getD_some]
  rw [hshortest]
  exact within_of_onGrid? hk

end Interval
end Number
end CaseSuite

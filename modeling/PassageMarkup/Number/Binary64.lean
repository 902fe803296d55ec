/-
Module: PassageMarkup.Number.Binary64
Layer: Number
Purpose: The double precision numbers that a passage computes with, exactly. A finite magnitude is a
  whole number of units, one unit being the smallest positive magnitude 2⁻¹⁰⁷⁴, and it lies on the grid
  of its size: 53 significant bits, coarser the larger it is. Rounding a ratio to that grid is the one
  operation from which reading a decimal and scaling a number are built.
Imports: none
Main exports: gap, Magnitude, Binary64, roundHalfEven, Binary64.ofRatio, Binary64.negate, Binary64.scale
-/

namespace PassageMarkup.Number

/-- Distance in units between neighbouring magnitudes around `n` units. It is one unit for the small
magnitudes and doubles with every further bit beyond the 53rd. -/
def gap (n : Nat) : Nat :=
  Nat.pow 2 (n.log2 - 52)

/-- Number of bits behind the point of one unit. -/
def unitBits : Nat := 1074

/-- The number of units in one. -/
def unitsPerOne : Nat :=
  Nat.pow 2 unitBits

/-- Number of bits in front of the point of the largest finite numbers. -/
def wholeBits : Nat := 1024

/-- The magnitude, in units, from which on a number is infinite. -/
def unitLimit : Nat :=
  Nat.pow 2 (wholeBits + unitBits)

theorem natPow_two_pos (bits : Nat) : 0 < Nat.pow 2 bits :=
  Nat.two_pow_pos bits

theorem unitLimit_pos : 0 < unitLimit := by
  unfold unitLimit
  apply natPow_two_pos

/-- A finite magnitude: a number of units on the grid of its size. -/
structure Magnitude where
  units : Nat
  onGrid : gap units ∣ units
  bounded : units < unitLimit
deriving DecidableEq

/-- A double precision number. Zero has a sign. -/
inductive Binary64 where
  | nan
  | infinite (negative : Bool)
  | finite (negative : Bool) (magnitude : Magnitude)
deriving DecidableEq

/-- The quotient rounded to the nearest whole number, a half to the even neighbour. -/
def roundHalfEven (num den : Nat) : Nat :=
  let quotient := num / den
  let rest := num % den
  if 2 * rest < den then quotient
  else if den < 2 * rest then quotient + 1
  else if quotient % 2 = 0 then quotient
  else quotient + 1

theorem roundHalfEven_le (num den : Nat) : roundHalfEven num den ≤ num / den + 1 := by
  unfold roundHalfEven
  dsimp only
  split
  · omega
  · split
    · omega
    · split <;> omega

/-- A quotient that comes out even is not rounded. -/
theorem roundHalfEven_mul (n : Nat) {den : Nat} (h : 0 < den) :
    roundHalfEven (n * den) den = n := by
  simp [roundHalfEven, Nat.mul_div_cancel n h, h]

/-- At most 53 bits, shifted by any amount, lie on the grid. -/
theorem gap_dvd_mul_pow {m : Nat} (e : Nat) (h : m ≤ Nat.pow 2 53) :
    gap (m * Nat.pow 2 e) ∣ m * Nat.pow 2 e := by
  simp only [Nat.pow_eq] at h ⊢
  rcases Nat.lt_or_eq_of_le h with hlt | rfl
  · by_cases hm : m = 0
    · simp [hm]
    · have hne : m * 2 ^ e ≠ 0 := Nat.mul_ne_zero hm (by simp)
      have hbound : m * 2 ^ e < 2 ^ (53 + e) := by
        rw [Nat.pow_add]
        exact Nat.mul_lt_mul_of_pos_right hlt (Nat.two_pow_pos e)
      have hlog : (m * 2 ^ e).log2 < 53 + e := (Nat.log2_lt hne).2 hbound
      exact Nat.dvd_trans (Nat.pow_dvd_pow 2 (by omega)) (Nat.dvd_mul_left _ _)
  · rw [← Nat.pow_add, gap, Nat.log2_two_pow]
    exact Nat.pow_dvd_pow 2 (by omega)

/-- Shift of the grid on which a ratio of units is rounded. -/
def gridShift (num den : Nat) : Nat :=
  (num / den).log2 - 52

/-- A ratio of units rounded to its grid, not yet bounded. -/
def roundToGrid (num den : Nat) : Nat :=
  roundHalfEven num (den * Nat.pow 2 (gridShift num den)) * Nat.pow 2 (gridShift num den)

theorem roundToGrid_onGrid (num den : Nat) : gap (roundToGrid num den) ∣ roundToGrid num den := by
  apply gap_dvd_mul_pow
  have hshift : num / (den * 2 ^ gridShift num den) < 2 ^ 53 := by
    rw [← Nat.div_div_eq_div_mul, Nat.div_lt_iff_lt_mul (Nat.two_pow_pos _), ← Nat.pow_add]
    by_cases hq : num / den = 0
    · rw [hq]; exact Nat.two_pow_pos _
    · exact (Nat.log2_lt hq).1 (by simp only [gridShift]; omega)
  exact Nat.le_trans (roundHalfEven_le _ _) hshift

/-- The zero of a sign. -/
def Binary64.zero (negative : Bool) : Binary64 :=
  .finite negative ⟨0, Nat.dvd_zero _, unitLimit_pos⟩

/-- The number nearest to a ratio of units, infinite from the limit on. -/
def Binary64.ofRatio (negative : Bool) (num den : Nat) : Binary64 :=
  if h : roundToGrid num den < unitLimit then
    .finite negative ⟨roundToGrid num den, roundToGrid_onGrid num den, h⟩
  else .infinite negative

/-- The number with the other sign. -/
def Binary64.negate : Binary64 → Binary64
  | .nan => .nan
  | .infinite negative => .infinite (!negative)
  | .finite negative magnitude => .finite (!negative) magnitude

/-- The product with a positive whole number, rounded. -/
def Binary64.scale (factor : Nat) : Binary64 → Binary64
  | .nan => .nan
  | .infinite negative => .infinite negative
  | .finite negative magnitude => .ofRatio negative (magnitude.units * factor) 1

/-- Whether a number is neither infinite nor undefined. -/
def Binary64.isFinite : Binary64 → Bool
  | .finite _ _ => true
  | _ => false

end PassageMarkup.Number

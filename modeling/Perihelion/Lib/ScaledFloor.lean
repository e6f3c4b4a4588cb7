import Mathlib.Data.Rat.Floor
import Mathlib.Tactic.FieldSimp
import Mathlib.Tactic.Positivity

/-! # Rescaled amounts, rounded down

An integer amount is moved by a power of a base and divided by a scale, all in one quotient that
rounds down once.  Its value is the floor of the exact rational; a bound on a quotient, and a
quotient of a quotient, go back to the exact fraction too.
-/

namespace ScaledFloor

/-- A floor of a fraction of integers is their quotient. -/
theorem floor_div {n d : Int} (positive : 0 < d) : ⌊(n : ℚ) / d⌋ = n / d := by
  obtain ⟨k, rfl⟩ := Int.eq_ofNat_of_zero_le (Int.le_of_lt positive)
  exact Rat.floor_intCast_div_natCast n k

/-- `n` moved by `shift` places and divided by the scale. -/
def rescale (base : Nat) (scale n shift : Int) : Int :=
  if 0 ≤ shift then n * (base : Int) ^ shift.toNat / scale
  else n / (scale * (base : Int) ^ (-shift).toNat)

theorem rescale_eq {base : Nat} (positive : 0 < base) {scale : Int} (scaled : 0 < scale)
    (n shift : Int) : rescale base scale n shift = ⌊(n : ℚ) * (base : ℚ) ^ shift / scale⌋ := by
  have power (k : Nat) : 0 < (base : Int) ^ k := by positivity
  unfold rescale
  split
  · rename_i up
    rw [← floor_div scaled]
    congr 1
    obtain ⟨k, rfl⟩ := Int.eq_ofNat_of_zero_le up
    push_cast
    simp
  · rename_i down
    obtain ⟨k, same⟩ := Int.eq_ofNat_of_zero_le (show 0 ≤ -shift by omega)
    obtain rfl : shift = -(k : Int) := by omega
    rw [← floor_div (Int.mul_pos scaled (power _))]
    congr 1
    have base_ne : (base : ℚ) ≠ 0 := by positivity
    have scale_ne : (scale : ℚ) ≠ 0 := by positivity
    push_cast
    rw [Int.neg_neg, Int.toNat_natCast, zpow_neg, zpow_natCast]
    field_simp

/-- A quotient in finer units is below a whole number of coarse ones exactly if the fraction is. -/
theorem fine_lt_iff {x p bound coarse fine : Int} (positive : 0 < p) (unit : 0 < fine) :
    x * (coarse * fine) / p < bound * fine ↔ x * coarse < bound * p := by
  rw [Int.ediv_lt_iff_lt_mul positive]
  constructor
  · intro below
    have scaled : x * coarse * fine < bound * p * fine := by
      calc x * coarse * fine = x * (coarse * fine) := by ring
        _ < bound * fine * p := below
        _ = bound * p * fine := by ring
    exact lt_of_mul_lt_mul_right scaled (Int.le_of_lt unit)
  · intro below
    calc x * (coarse * fine) = x * coarse * fine := by ring
      _ < bound * p * fine := Int.mul_lt_mul_of_pos_right below unit
      _ = bound * fine * p := by ring

/-- Rounding down in fine units and then in coarse ones rounds down once. -/
theorem fine_ediv {x p coarse fine : Int} (positive : 0 < p) (unit : 0 < fine) :
    x * (coarse * fine) / p / fine = ⌊(x : ℚ) * coarse / p⌋ := by
  rw [Int.ediv_ediv_of_nonneg (Int.le_of_lt positive), ← Int.mul_assoc,
    Int.mul_ediv_mul_of_pos_left _ _ unit, ← floor_div positive]
  push_cast
  rfl

end ScaledFloor

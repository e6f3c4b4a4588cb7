import Perihelion.Sdk.Intent

/-! # Rounding to doubles

A sum is rounded to the nearest double, so it is never rounded across one: a double stays on the
same side of it.
-/

namespace Perihelion.Sdk

/-- The distance of neighbouring doubles around `n`. -/
def ulp (n : Nat) : Nat := 2 ^ (n.log2 - 52)

theorem nearestDouble_eq (n : Nat) :
    nearestDouble n =
      if 2 * (n % ulp n) < ulp n ∨ (2 * (n % ulp n) = ulp n ∧ n / ulp n % 2 = 0) then n / ulp n * ulp n
      else (n / ulp n + 1) * ulp n := rfl

theorem ulp_dvd_nearestDouble (n : Nat) : ulp n ∣ nearestDouble n := by
  rw [nearestDouble_eq]
  split
  · exact Nat.dvd_mul_left _ _
  · exact Nat.dvd_mul_left _ _

theorem nearestDouble_between (n : Nat) :
    n / ulp n * ulp n ≤ nearestDouble n ∧ nearestDouble n ≤ (n / ulp n + 1) * ulp n := by
  have grown : n / ulp n * ulp n ≤ (n / ulp n + 1) * ulp n := Nat.mul_le_mul_right _ (Nat.le_succ _)
  rw [nearestDouble_eq]
  split
  · exact ⟨le_refl _, grown⟩
  · exact ⟨grown, le_refl _⟩

theorem nearestDouble_of_dvd {n : Nat} (divides : ulp n ∣ n) : nearestDouble n = n := by
  have none : n % ulp n = 0 := Nat.mod_eq_zero_of_dvd divides
  have positive : 0 < ulp n := Nat.two_pow_pos _
  rw [nearestDouble_eq, if_pos (Or.inl (by omega)), Nat.div_mul_cancel divides]

/-- Nothing is rounded across a double. -/
theorem nearestDouble_le {m k : Nat} (below : m ≤ k) (double : nearestDouble k = k) :
    nearestDouble m ≤ k := by
  obtain ⟨-, up⟩ := nearestDouble_between m
  by_cases whole : ulp m ∣ m
  · rw [nearestDouble_of_dvd whole]
    exact below
  · have nonzero : m ≠ 0 := by
      rintro rfl
      exact whole (Nat.dvd_zero _)
    have logs : m.log2 ≤ k.log2 := by
      rw [Nat.le_log2 (by omega)]
      exact Nat.le_trans (Nat.log2_self_le nonzero) below
    have finer : ulp m ∣ ulp k := Nat.pow_dvd_pow 2 (by omega)
    have multiple : ulp m ∣ k := by
      have divides := ulp_dvd_nearestDouble k
      rw [double] at divides
      exact Nat.dvd_trans finer divides
    obtain ⟨q, rfl⟩ := multiple
    have positive : 0 < ulp m := Nat.two_pow_pos _
    have quotient : m / ulp m < q := by
      rw [Nat.div_lt_iff_lt_mul positive, Nat.mul_comm]
      apply Nat.lt_of_le_of_ne below
      intro same
      exact whole ⟨q, same⟩
    calc nearestDouble m ≤ (m / ulp m + 1) * ulp m := up
      _ ≤ q * ulp m := Nat.mul_le_mul_right _ quotient
      _ = ulp m * q := Nat.mul_comm _ _

theorem le_nearestDouble {m k : Nat} (above : k ≤ m) (double : nearestDouble k = k) :
    k ≤ nearestDouble m := by
  obtain ⟨down, -⟩ := nearestDouble_between m
  have positive : 0 < ulp m := Nat.two_pow_pos _
  by_cases low : k ≤ m / ulp m * ulp m
  · exact Nat.le_trans low down
  · -- then both have the same leading bit, and `k` is a multiple that lies too high
    have nonzero : m ≠ 0 := by
      rintro rfl
      simp at low
      omega
    have leading : 2 ^ m.log2 ≤ m / ulp m * ulp m := by
      have divides : ulp m ∣ 2 ^ m.log2 := Nat.pow_dvd_pow 2 (by omega)
      obtain ⟨q, leads⟩ := divides
      have fits : q ≤ m / ulp m := by
        rw [Nat.le_div_iff_mul_le positive, Nat.mul_comm, ← leads]
        exact Nat.log2_self_le nonzero
      rw [leads, Nat.mul_comm]
      exact Nat.mul_le_mul_right _ fits
    have logs : m.log2 ≤ k.log2 := by
      rw [Nat.le_log2 (by omega)]
      omega
    have divides : ulp m ∣ k := by
      have multiple := ulp_dvd_nearestDouble k
      rw [double] at multiple
      exact Nat.dvd_trans (Nat.pow_dvd_pow 2 (by omega)) multiple
    obtain ⟨q, rfl⟩ := divides
    have quotient : q ≤ m / ulp m := by
      rw [Nat.le_div_iff_mul_le positive, Nat.mul_comm]
      exact above
    exact absurd (Nat.mul_comm (ulp m) q ▸ Nat.mul_le_mul_right _ quotient) low

/-- A sum with something nonnegative is not rounded below the other summand. -/
theorem JsInteger.le_addDouble (a : JsInteger) {b : Int} (nonneg : 0 ≤ b) :
    a.value ≤ addDouble a.value b := by
  unfold addDouble
  rcases lt_trichotomy (a.value + b) 0 with negative | zero | positive
  · rw [Int.sign_eq_neg_one_of_neg negative]
    have smaller : (a.value + b).natAbs ≤ a.value.natAbs := by omega
    have rounded := nearestDouble_le smaller a.exact
    omega
  · rw [zero]
    simp
    omega
  · rw [Int.sign_eq_one_of_pos positive]
    by_cases lower : a.value ≤ 0
    · omega
    · have larger : a.value.natAbs ≤ (a.value + b).natAbs := by omega
      have rounded := le_nearestDouble larger a.exact
      omega

end Perihelion.Sdk

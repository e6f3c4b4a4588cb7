import Mathlib.Logic.Function.Basic
import Mathlib.Tactic.Common

/-! # Bitmaps over machine words

A set of naturals kept as words of `w` bits: number `n` is bit `n % w` of word
`n / w`.
-/

namespace Bitmap

variable {w : Nat}

/-- `(word >> bit) & 1 == 1`. -/
def marked (word : BitVec w) (bit : Nat) : Bool := (word >>> bit) &&& 1#w == 1#w

/-- `word | (1 << bit)`. -/
def mark (word : BitVec w) (bit : Nat) : BitVec w := word ||| (1#w <<< bit)

def has (words : Nat → BitVec w) (n : Nat) : Bool := marked (words (n / w)) (n % w)

def add (words : Nat → BitVec w) (n : Nat) : Nat → BitVec w :=
  Function.update words (n / w) (mark (words (n / w)) (n % w))

theorem marked_eq_getLsbD (positive : 0 < w) (word : BitVec w) (bit : Nat) :
    marked word bit = word.getLsbD bit := by
  unfold marked
  cases set : word.getLsbD bit with
  | true =>
      rw [beq_iff_eq]
      apply BitVec.eq_of_getLsbD_eq
      intro i inside
      simp only [BitVec.getLsbD_and, BitVec.getLsbD_ushiftRight, BitVec.getLsbD_one]
      by_cases zero : i = 0
      · subst zero
        simp [set]
      · simp [zero]
  | false =>
      rw [beq_eq_false_iff_ne]
      intro same
      have low := congrArg (fun word => word.getLsbD 0) same
      simp only [BitVec.getLsbD_and, BitVec.getLsbD_ushiftRight, BitVec.getLsbD_one, Nat.add_zero,
        set, Bool.false_and] at low
      simp [positive] at low

theorem marked_mark (word : BitVec w) {bit : Nat} (inside : bit < w) (other : Nat) :
    marked (mark word bit) other = (decide (other = bit) || marked word other) := by
  have positive : 0 < w := by omega
  rw [marked_eq_getLsbD positive, marked_eq_getLsbD positive, mark, BitVec.getLsbD_or,
    BitVec.getLsbD_shiftLeft, BitVec.getLsbD_one]
  by_cases same : other = bit
  · subst same
    simp [inside, positive]
  · by_cases below : other < bit
    · simp [same, below]
    · have nonzero : other - bit ≠ 0 := by omega
      simp [same, nonzero]

/-- The other spelling of a clear bit, `word & (1 << bit) == 0`. -/
theorem and_bit_eq_zero (word : BitVec w) {bit : Nat} (inside : bit < w) :
    word &&& (1#w <<< bit) = 0#w ↔ marked word bit = false := by
  rw [marked_eq_getLsbD (by omega)]
  constructor
  · intro clear
    have here := congrArg (fun word => word.getLsbD bit) clear
    have positive : 0 < w := by omega
    simpa [inside, positive] using here
  · intro clear
    apply BitVec.eq_of_getLsbD_eq
    intro i _
    simp only [BitVec.getLsbD_and, BitVec.getLsbD_shiftLeft, BitVec.getLsbD_one,
      BitVec.getLsbD_zero]
    by_cases same : i = bit
    · subst same
      simp [clear]
    · by_cases below : i < bit
      · simp [below]
      · have nonzero : i - bit ≠ 0 := by omega
        simp [nonzero]

/-- Adding a number adds it and nothing else. -/
theorem has_add (positive : 0 < w) (words : Nat → BitVec w) (n m : Nat) :
    has (add words n) m = (decide (m = n) || has words m) := by
  unfold has add
  by_cases sameWord : m / w = n / w
  · rw [sameWord, Function.update_self, marked_mark _ (Nat.mod_lt n positive)]
    have same : (m % w = n % w) ↔ m = n := by
      constructor
      · intro sameBit
        rw [← Nat.div_add_mod m w, ← Nat.div_add_mod n w, sameWord, sameBit]
      · intro equal
        rw [equal]
    simp only [same]
  · have different : m ≠ n := fun equal => sameWord (congrArg (· / w) equal)
    rw [Function.update_of_ne sameWord]
    simp [different]

end Bitmap

import Mathlib.Logic.Function.Iterate
import Mathlib.Tactic.Common

/-! # Cyclic redundancy checks

The bitwise register, most significant bit first, and its table-driven form.  One step of
the register is linear over exclusive or, so eight steps split into a shift and a value
that depends on the top byte alone: the entry of the table.
-/

namespace Crc

variable {w : Nat}

/-- One bit of the register: shift, and reduce by the polynomial if a bit falls out. -/
def shift (polynomial : BitVec w) (x : BitVec w) : BitVec w :=
  if x.msb then (x <<< 1) ^^^ polynomial else x <<< 1

theorem shift_xor (polynomial x y : BitVec w) :
    shift polynomial (x ^^^ y) = shift polynomial x ^^^ shift polynomial y := by
  unfold shift
  rw [BitVec.msb_xor, BitVec.shiftLeft_xor_distrib]
  cases x.msb with
  | true =>
      cases y.msb with
      | true =>
          simp only [Bool.xor_self, Bool.false_eq_true, if_false, if_true]
          rw [BitVec.xor_assoc, BitVec.xor_comm polynomial, BitVec.xor_assoc (y <<< 1),
            BitVec.xor_self, BitVec.xor_zero]
      | false =>
          simp only [Bool.xor_false, Bool.false_eq_true, if_false, if_true]
          rw [BitVec.xor_assoc, BitVec.xor_comm (y <<< 1), ← BitVec.xor_assoc]
  | false =>
      cases y.msb with
      | true =>
          simp only [Bool.false_xor, Bool.false_eq_true, if_false, if_true]
          rw [BitVec.xor_assoc]
      | false => rfl

def rounds (polynomial : BitVec w) (n : Nat) : BitVec w → BitVec w := (shift polynomial)^[n]

theorem rounds_succ (polynomial : BitVec w) (n : Nat) (x : BitVec w) :
    rounds polynomial (n + 1) x = rounds polynomial n (shift polynomial x) :=
  Function.iterate_succ_apply _ _ _

theorem rounds_xor (polynomial : BitVec w) (n : Nat) (x y : BitVec w) :
    rounds polynomial n (x ^^^ y) = rounds polynomial n x ^^^ rounds polynomial n y := by
  induction n generalizing x y with
  | zero => rfl
  | succ n ih => rw [rounds_succ, rounds_succ, rounds_succ, shift_xor, ih]

/-- While no bit falls out, the register only shifts. -/
theorem rounds_of_clear (polynomial : BitVec w) {n : Nat} {x : BitVec w}
    (clear : ∀ i, w ≤ i + n → x.getLsbD i = false) : rounds polynomial n x = x <<< n := by
  induction n generalizing x with
  | zero => exact (BitVec.shiftLeft_zero x).symm
  | succ n ih =>
      have top : x.msb = false := by
        rw [BitVec.msb_eq_getLsbD_last]
        exact clear _ (by omega)
      have shifted : shift polynomial x = x <<< 1 := by
        unfold shift
        rw [top]
        rfl
      rw [rounds_succ, shifted, ih, ← BitVec.shiftLeft_add, Nat.add_comm]
      intro i high
      rw [BitVec.getLsbD_shiftLeft]
      by_cases zero : i = 0
      · simp [zero]
      · rw [clear (i - 1) (by omega)]
        simp

/-- The top `n` bits decide what is added to the shifted register. -/
theorem rounds_split (polynomial : BitVec w) {n : Nat} (narrow : n ≤ w) (x : BitVec w) :
    rounds polynomial n x =
      (x <<< n) ^^^ rounds polynomial n ((x >>> (w - n)) <<< (w - n)) := by
  have parts : x = ((x <<< n) >>> n) ^^^ ((x >>> (w - n)) <<< (w - n)) := by
    apply BitVec.eq_of_getLsbD_eq
    intro i inside
    simp only [BitVec.getLsbD_xor, BitVec.getLsbD_ushiftRight, BitVec.getLsbD_shiftLeft]
    by_cases low : i < w - n
    · have fits : n + i < w := by omega
      simp [low, fits]
    · have over' : ¬ n + i < w := by omega
      have back : w - n + (i - (w - n)) = i := by omega
      simp [low, over', inside, back]
  have clear : ∀ i, w ≤ i + n → ((x <<< n) >>> n).getLsbD i = false := by
    intro i high
    rw [BitVec.getLsbD_ushiftRight, BitVec.getLsbD_shiftLeft]
    have out : ¬ n + i < w := by omega
    simp [out]
  have again : ((x <<< n) >>> n) <<< n = x <<< n := by
    apply BitVec.eq_of_getLsbD_eq
    intro i inside
    simp only [BitVec.getLsbD_shiftLeft, BitVec.getLsbD_ushiftRight]
    by_cases low : i < n
    · simp [low]
    · have back : n + (i - n) = i := by omega
      simp [low, inside, back]
  calc rounds polynomial n x
      = rounds polynomial n (((x <<< n) >>> n) ^^^ ((x >>> (w - n)) <<< (w - n))) := by
        rw [← parts]
    _ = (x <<< n) ^^^ rounds polynomial n ((x >>> (w - n)) <<< (w - n)) := by
        rw [rounds_xor, rounds_of_clear polynomial clear, again]

/-- Eight bits at a time: the bitwise register and the table agree on every byte. -/
theorem rounds_byte (polynomial : BitVec w) (wide : 8 ≤ w) (crc : BitVec w) (byte : BitVec 8) :
    rounds polynomial 8 (crc ^^^ (byte.setWidth w <<< (w - 8))) =
      (crc <<< 8) ^^^ rounds polynomial 8
        (((crc >>> (w - 8)).setWidth 8 ^^^ byte).setWidth w <<< (w - 8)) := by
  rw [rounds_split polynomial wide]
  have shifted : (crc ^^^ (byte.setWidth w <<< (w - 8))) <<< 8 = crc <<< 8 := by
    apply BitVec.eq_of_getLsbD_eq
    intro i inside
    simp only [BitVec.getLsbD_shiftLeft, BitVec.getLsbD_xor, BitVec.getLsbD_setWidth]
    by_cases low : i < 8
    · simp [low]
    · have none : i - 8 < w - 8 := by omega
      simp [none]
  have entry : ((crc ^^^ (byte.setWidth w <<< (w - 8))) >>> (w - 8)) <<< (w - 8) =
      ((crc >>> (w - 8)).setWidth 8 ^^^ byte).setWidth w <<< (w - 8) := by
    apply BitVec.eq_of_getLsbD_eq
    intro i inside
    simp only [BitVec.getLsbD_shiftLeft, BitVec.getLsbD_ushiftRight, BitVec.getLsbD_xor,
      BitVec.getLsbD_setWidth]
    by_cases low : i < w - 8
    · simp [low]
    · have back : w - 8 + (i - (w - 8)) = i := by omega
      have bit : i - (w - 8) < 8 := by omega
      have small : i - (w - 8) < w := by omega
      simp [low, inside, back, bit, small]
  rw [shifted, entry]

end Crc

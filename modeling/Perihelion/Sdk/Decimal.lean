import Perihelion.Sdk.Intent

/-! # Decimal texts

The digits of a number, the number of a text of digits, and zeros at either end.  Texts of
digits are known by their length and their number.
-/

namespace Perihelion.Sdk

/-- `n.toString()` of a nonnegative `bigint`. -/
def decimal (n : Nat) : JsString := js (toString n)

/-- `/^\d+$/`. -/
def isDigits (s : JsString) : Bool := s ≠ [] && s.all isDigit

/-- `s.padStart(n, "0")`. -/
def padStart (n : Nat) (s : JsString) : JsString := List.replicate (n - s.length) 48 ++ s

/-- `s.padEnd(n, "0")`. -/
def padEnd (n : Nat) (s : JsString) : JsString := s ++ List.replicate (n - s.length) 48

/-- `s.replace(/0+$/, "")`. -/
def stripTrailing (s : JsString) : JsString := (s.reverse.dropWhile (· = 48)).reverse

/-- Without the zeros in front, but for a last one. -/
def stripLeading (s : JsString) : JsString :=
  let rest := s.dropWhile (· = 48)
  if rest = [] then js "0" else rest

/-! ## Numbers -/

theorem isDigit_iff {unit : UInt16} : isDigit unit = true ↔ 48 ≤ unit.toNat ∧ unit.toNat ≤ 57 := by
  simp [isDigit, UInt16.le_iff_toNat_le]

theorem bigInt_snoc (s : JsString) (unit : UInt16) :
    bigInt (s ++ [unit]) = 10 * bigInt s + (unit.toNat - 48) := by
  simp [bigInt]

theorem bigInt_append (s t : JsString) : bigInt (s ++ t) = bigInt s * 10 ^ t.length + bigInt t := by
  induction t using List.reverseRecOn with
  | nil => simp [bigInt]
  | append_singleton t unit ih =>
      rw [← List.append_assoc, bigInt_snoc, bigInt_snoc, ih, List.length_append, List.length_singleton,
        pow_succ]
      ring

theorem bigInt_zeros (n : Nat) : bigInt (List.replicate n 48) = 0 := by
  induction n with
  | zero => rfl
  | succ n ih =>
      rw [List.replicate_succ', bigInt_snoc, ih]
      rfl

theorem bigInt_lt {s : JsString} (digits : s.all isDigit = true) : bigInt s < 10 ^ s.length := by
  induction s using List.reverseRecOn with
  | nil => exact Nat.one_pos
  | append_singleton s unit ih =>
      rw [List.all_append, Bool.and_eq_true] at digits
      have earlier := ih digits.1
      have last := isDigit_iff.mp (by simpa using digits.2)
      rw [bigInt_snoc, List.length_append, List.length_singleton, pow_succ]
      omega

/-- Texts of digits of one length are known by their number. -/
theorem digits_inj {s t : JsString} (left : s.all isDigit = true) (right : t.all isDigit = true)
    (length : s.length = t.length) (same : bigInt s = bigInt t) : s = t := by
  induction s using List.reverseRecOn generalizing t with
  | nil => exact (List.length_eq_zero_iff.mp length.symm).symm
  | append_singleton s unit ih =>
      cases t using List.reverseRecOn with
      | nil => simp at length
      | append_singleton t unit' =>
          rw [List.all_append, Bool.and_eq_true] at left right
          have last := isDigit_iff.mp (by simpa using left.2)
          have last' := isDigit_iff.mp (by simpa using right.2)
          rw [bigInt_snoc, bigInt_snoc] at same
          rw [List.length_append, List.length_append, List.length_singleton, List.length_singleton] at length
          have units : unit = unit' := UInt16.toNat_inj.mp (by omega)
          rw [ih left.1 right.1 (by omega) (by omega), units]

/-! ## The digits of a number -/

theorem decimal_eq (n : Nat) :
    decimal n = (Nat.toDigits 10 n).map fun ch => UInt16.ofNat ch.toNat := by
  simp [decimal, js]

theorem digitChar_unit {digit : Nat} (small : digit < 10) :
    UInt16.ofNat digit.digitChar.toNat = UInt16.ofNat (48 + digit) := by
  have entries : ∀ i : Fin 10, UInt16.ofNat i.val.digitChar.toNat = UInt16.ofNat (48 + i.val) := by
    decide
  exact entries ⟨digit, small⟩

theorem decimal_small {n : Nat} (small : n < 10) : decimal n = [UInt16.ofNat (48 + n)] := by
  rw [decimal_eq, Nat.toDigits_of_lt_base small, List.map_singleton, digitChar_unit small]

theorem decimal_snoc {n : Nat} (large : 10 ≤ n) :
    decimal n = decimal (n / 10) ++ [UInt16.ofNat (48 + n % 10)] := by
  have small : n % 10 < 10 := Nat.mod_lt _ (by decide)
  rw [decimal_eq, decimal_eq, Nat.toDigits_of_base_le (by decide) large, List.map_append,
    List.map_singleton, digitChar_unit small]

theorem unit_toNat {digit : Nat} (small : digit < 10) : (UInt16.ofNat (48 + digit)).toNat = 48 + digit := by
  rw [UInt16.toNat_ofNat']
  omega

theorem bigInt_decimal (n : Nat) : bigInt (decimal n) = n := by
  induction n using Nat.strong_induction_on with
  | _ n ih =>
      by_cases small : n < 10
      · rw [decimal_small small]
        show 10 * 0 + ((UInt16.ofNat (48 + n)).toNat - 48) = n
        rw [unit_toNat small]
        omega
      · rw [decimal_snoc (by omega), bigInt_snoc, ih (n / 10) (by omega), unit_toNat (Nat.mod_lt _ (by decide))]
        omega

theorem decimal_digits (n : Nat) : (decimal n).all isDigit = true := by
  induction n using Nat.strong_induction_on with
  | _ n ih =>
      by_cases small : n < 10
      · rw [decimal_small small, List.all_cons, List.all_nil, Bool.and_true, isDigit_iff, unit_toNat small]
        omega
      · have last : n % 10 < 10 := Nat.mod_lt _ (by decide)
        rw [decimal_snoc (by omega), List.all_append, ih (n / 10) (by omega), List.all_cons, List.all_nil,
          Bool.and_true, Bool.true_and, isDigit_iff, unit_toNat last]
        omega

theorem decimal_ne_nil (n : Nat) : decimal n ≠ [] := by
  rw [decimal_eq]
  simp [Nat.toDigits_ne_nil]

theorem decimal_length_le {n d : Nat} (positive : 0 < d) : (decimal n).length ≤ d ↔ n < 10 ^ d := by
  rw [decimal_eq, List.length_map]
  exact Nat.length_toDigits_le_iff (by decide) positive

/-! ## Padding and stripping -/

theorem all_zeros (n : Nat) : (List.replicate n (48 : UInt16)).all isDigit = true := by
  rw [List.all_replicate]
  split <;> rfl

/-- A text of digits comes back from its number, if it is known how long it was. -/
theorem padStart_decimal {s : JsString} (positive : 0 < s.length) (digits : s.all isDigit = true) :
    padStart s.length (decimal (bigInt s)) = s := by
  have short := (decimal_length_le positive).mpr (bigInt_lt digits)
  apply digits_inj
  · rw [padStart, List.all_append, all_zeros, decimal_digits, Bool.and_self]
  · exact digits
  · rw [padStart, List.length_append, List.length_replicate]
    omega
  · rw [padStart, bigInt_append, bigInt_zeros, bigInt_decimal]
    omega

theorem padStart_spec {n d : Nat} (positive : 0 < d) (small : n < 10 ^ d) :
    (padStart d (decimal n)).length = d ∧ (padStart d (decimal n)).all isDigit = true ∧
      bigInt (padStart d (decimal n)) = n := by
  have short := (decimal_length_le positive).mpr small
  refine ⟨?_, ?_, ?_⟩
  · rw [padStart, List.length_append, List.length_replicate]
    omega
  · rw [padStart, List.all_append, all_zeros, decimal_digits, Bool.and_self]
  · rw [padStart, bigInt_append, bigInt_zeros, bigInt_decimal]
    omega

/-- The zeros that are stripped are only zeros. -/
theorem stripTrailing_zeros (s : JsString) :
    stripTrailing s ++ List.replicate (s.length - (stripTrailing s).length) 48 = s := by
  have parts := List.takeWhile_append_dropWhile (p := fun unit : UInt16 => decide (unit = 48))
    (l := s.reverse)
  have zeros : s.reverse.takeWhile (fun unit => decide (unit = 48)) =
      List.replicate (s.reverse.takeWhile fun unit => decide (unit = 48)).length 48 := by
    apply List.eq_replicate_iff.mpr
    refine ⟨rfl, fun unit member => ?_⟩
    exact of_decide_eq_true (List.mem_takeWhile_imp (p := fun unit : UInt16 => decide (unit = 48)) member)
  have whole := congrArg List.reverse parts
  rw [List.reverse_append, List.reverse_reverse] at whole
  have counted := congrArg List.length whole
  rw [List.length_append, List.length_reverse, List.length_reverse] at counted
  have count : s.length - (stripTrailing s).length =
      (s.reverse.takeWhile fun unit => decide (unit = 48)).length := by
    rw [stripTrailing, List.length_reverse]
    omega
  conv => rhs; rw [← whole, zeros, List.reverse_replicate]
  rw [count]
  rfl

theorem padEnd_stripTrailing (s : JsString) : padEnd s.length (stripTrailing s) = s :=
  stripTrailing_zeros s

theorem stripTrailing_padded (s : JsString) (n : Nat) :
    stripTrailing (s ++ List.replicate n 48) = stripTrailing s := by
  rw [stripTrailing, List.reverse_append, List.reverse_replicate, List.dropWhile_append_of_pos, stripTrailing]
  intro unit member
  rw [List.eq_of_mem_replicate member]
  rfl

theorem stripTrailing_sub {s : JsString} (digits : s.all isDigit = true) :
    (stripTrailing s).all isDigit = true ∧ (stripTrailing s).length ≤ s.length := by
  have whole := stripTrailing_zeros s
  constructor
  · rw [← whole, List.all_append, Bool.and_eq_true] at digits
    exact digits.1
  · have counted := congrArg List.length whole
    rw [List.length_append] at counted
    omega

/-- The canonical text of the number of a text of digits. -/
theorem decimal_bigInt {s : JsString} (digits : s.all isDigit = true) :
    decimal (bigInt s) = stripLeading s := by
  induction s with
  | nil => rfl
  | cons first rest ih =>
      rw [List.all_cons, Bool.and_eq_true] at digits
      have value := bigInt_append [first] rest
      by_cases zero : first = 48
      · have same : bigInt (first :: rest) = bigInt rest := by
          rw [zero]
          simp [bigInt]
        rw [same, ih digits.2, stripLeading, stripLeading, zero]
        rfl
      · have kept : stripLeading (first :: rest) = first :: rest := by
          simp [stripLeading, zero]
        have large := isDigit_iff.mp digits.1
        have nonzero : first.toNat ≠ 48 := fun same => zero (UInt16.toNat_inj.mp same)
        have lead : bigInt [first] = first.toNat - 48 := by simp [bigInt]
        have low : 10 ^ rest.length ≤ bigInt (first :: rest) := by
          rw [List.singleton_append, lead] at value
          rw [value]
          have one : 1 ≤ first.toNat - 48 := by omega
          have scaled := Nat.mul_le_mul_right (10 ^ rest.length) one
          omega
        have all : (first :: rest).all isDigit = true := by
          rw [List.all_cons, digits.1, digits.2, Bool.and_self]
        have length : (decimal (bigInt (first :: rest))).length = (first :: rest).length := by
          apply Nat.le_antisymm
          · exact (decimal_length_le (Nat.succ_pos _)).mpr (bigInt_lt all)
          · by_contra short
            have positive := List.length_pos_iff.mpr (decimal_ne_nil (bigInt (first :: rest)))
            rw [List.length_cons] at short
            have small := (decimal_length_le (d := rest.length) (n := bigInt (first :: rest)) (by omega)).mp (by omega)
            omega
        rw [kept]
        exact digits_inj (decimal_digits _) all length (bigInt_decimal _)

end Perihelion.Sdk

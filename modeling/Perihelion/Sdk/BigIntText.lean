import Perihelion.Relayer.Text
import Perihelion.Sdk.Decimal

/-! # Texts that `BigInt` reads

White space around a number is ignored, zeros in front of it too, and a radix may be named.  Of a
decimal text as the validators ask for it nothing is ignored.
-/

namespace Perihelion.Sdk

open Relayer (toLowerCase)

/-- What `trim` takes away: white space and line terminators. -/
def isSpace (unit : UInt16) : Bool :=
  (9 ≤ unit && unit ≤ 13) || unit == 0x20 || unit == 0xA0 || unit == 0x1680 ||
    (0x2000 ≤ unit && unit ≤ 0x200A) || unit == 0x2028 || unit == 0x2029 || unit == 0x202F ||
    unit == 0x205F || unit == 0x3000 || unit == 0xFEFF

def trim (s : JsString) : JsString := ((s.dropWhile isSpace).reverse.dropWhile isSpace).reverse

/-- The digits of a text in a base, `none` where there is another character or no digit. -/
def digits (base : Nat) (text : JsString) : Option Nat :=
  if text = [] then none
  else text.foldl (fun n unit => do
    let n ← n
    let digit ← Hex.value unit
    if digit < base then some (base * n + digit) else none) (some 0)

/-- `BigInt(text)`, `none` where that is a `SyntaxError`. -/
def bigIntOf (text : JsString) : Option Int :=
  let text := trim text
  let radix := toLowerCase (text.take 2)
  if text = [] then some 0
  else if radix = js "0x" then (digits 16 (text.drop 2)).map Int.ofNat
  else if radix = js "0o" then (digits 8 (text.drop 2)).map Int.ofNat
  else if radix = js "0b" then (digits 2 (text.drop 2)).map Int.ofNat
  else if text.take 1 = js "-" then (digits 10 (text.drop 1)).map fun n => -Int.ofNat n
  else if text.take 1 = js "+" then (digits 10 (text.drop 1)).map Int.ofNat
  else (digits 10 text).map Int.ofNat

/-! ## White space -/

theorem trim_of_plain {s : JsString} (plain : ∀ unit ∈ s, isSpace unit = false) : trim s = s := by
  have kept (t : JsString) (clean : ∀ unit ∈ t, isSpace unit = false) : t.dropWhile isSpace = t := by
    cases t with
    | nil => rfl
    | cons first rest => rw [List.dropWhile_cons_of_neg (by simp [clean first List.mem_cons_self])]
  rw [trim, kept s plain, kept _ (fun unit member => plain unit (List.mem_reverse.mp member)),
    List.reverse_reverse]

/-- Neither white space nor a point nor a minus. -/
theorem digit_plain {unit : UInt16} (digit : isDigit unit = true) :
    isSpace unit = false ∧ (unit != 46) = true ∧ unit ≠ 45 := by
  have range := isDigit_iff.mp digit
  have other (n : UInt16) (apart : n.toNat < 48 ∨ 57 < n.toNat) : unit ≠ n := by
    rintro rfl
    omega
  refine ⟨?_, bne_iff_ne.mpr (other 46 (by decide)), other 45 (by decide)⟩
  simp only [isSpace, Bool.or_eq_false_iff, Bool.and_eq_false_iff, decide_eq_false_iff_not, beq_eq_false_iff_ne,
    UInt16.le_iff_toNat_le, UInt16.reduceToNat]
  refine ⟨⟨⟨⟨⟨⟨⟨⟨⟨⟨?_, other _ ?_⟩, other _ ?_⟩, other _ ?_⟩, ?_⟩, other _ ?_⟩, other _ ?_⟩, other _ ?_⟩,
    other _ ?_⟩, other _ ?_⟩, other _ ?_⟩
  all_goals first | decide | omega

/-! ## Decimal texts -/

theorem value_digit {unit : UInt16} (digit : isDigit unit = true) :
    Hex.value unit = some (unit.toNat - 48) := by
  have range := isDigit_iff.mp digit
  exact if_pos range

theorem digits_decimal {s : JsString} (given : s ≠ []) (decimal : s.all isDigit = true) :
    digits 10 s = some (bigInt s) := by
  have general (rest : JsString) (n : Nat) (known : rest.all isDigit = true) :
      rest.foldl (fun n unit => do
        let n ← n
        let digit ← Hex.value unit
        if digit < 10 then some (10 * n + digit) else none) (some n) =
      some (rest.foldl (fun n unit => 10 * n + (unit.toNat - 48)) n) := by
    induction rest generalizing n with
    | nil => rfl
    | cons unit rest ih =>
        rw [List.all_cons, Bool.and_eq_true] at known
        have range := isDigit_iff.mp known.1
        have small : unit.toNat - 48 < 10 := by omega
        simp only [List.foldl_cons, value_digit known.1, Option.bind_eq_bind, Option.bind_some, if_pos small]
        exact ih _ known.2
  rw [digits, if_neg given]
  exact general s 0 decimal

theorem toLowerCase_digits {s : JsString} (decimal : s.all isDigit = true) : toLowerCase s = s := by
  unfold toLowerCase
  conv => rhs; rw [← List.map_id s]
  apply List.map_congr_left
  intro unit member
  have range := isDigit_iff.mp (List.all_eq_true.mp decimal unit member)
  have capital : ¬ (65 ≤ unit ∧ unit ≤ 90) := by
    simp only [UInt16.le_iff_toNat_le, UInt16.reduceToNat]
    omega
  have kelvin : unit ≠ 0x212A := by
    rintro rfl
    exact absurd range (by decide)
  rw [if_neg capital, if_neg kelvin, id]

theorem isNonNegIntString_digits {s : JsString} (canonical : isNonNegIntString s = true) :
    s ≠ [] ∧ s.all isDigit = true := by
  rcases Bool.or_eq_true_iff.mp canonical with zero | positive
  · rw [of_decide_eq_true zero]
    decide
  · cases s with
    | nil => cases positive
    | cons first rest =>
        simp only [isPositiveIntString, Bool.and_eq_true, decide_eq_true_eq, UInt16.le_iff_toNat_le,
          UInt16.reduceToNat] at positive
        have leading : isDigit first = true := isDigit_iff.mpr ⟨by omega, positive.1.2⟩
        refine ⟨List.cons_ne_nil first rest, ?_⟩
        rw [List.all_cons, leading, positive.2]
        rfl

/-- No sign, no radix and no white space: the number of its digits. -/
theorem bigIntOf_decimal {s : JsString} (canonical : isNonNegIntString s = true) :
    bigIntOf s = some (bigInt s : Int) := by
  obtain ⟨given, decimal⟩ := isNonNegIntString_digits canonical
  have plain : trim s = s := trim_of_plain fun unit member =>
    (digit_plain (List.all_eq_true.mp decimal unit member)).1
  have front (n : Nat) : (s.take n).all isDigit = true :=
    List.all_eq_true.mpr fun unit member => List.all_eq_true.mp decimal unit (List.mem_of_mem_take member)
  have marked (n : Nat) (mark : JsString) (other : mark.all isDigit = false) : s.take n ≠ mark := by
    intro same
    rw [← same, front n] at other
    cases other
  simp only [bigIntOf, plain, toLowerCase_digits (front 2), if_neg given,
    if_neg (marked 2 (js "0x") (by decide)), if_neg (marked 2 (js "0o") (by decide)),
    if_neg (marked 2 (js "0b") (by decide)), if_neg (marked 1 (js "-") (by decide)),
    if_neg (marked 1 (js "+") (by decide)), digits_decimal given decimal]
  rfl

end Perihelion.Sdk

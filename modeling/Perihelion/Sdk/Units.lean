import Perihelion.Sdk.BigIntText

/-! # Units

Human amounts with a decimal point against whole numbers of the smallest unit.  There and back
is the identity on numbers, and on texts it only tidies up.
-/

namespace Perihelion.Sdk

open Fallible

def maxDecimals : Nat := 36

/-- `decimals` as a number of places, if it is one. -/
def assertValidDecimals (decimals : JsNumber) (fn : String) : Except ValidationError Nat :=
  match decimals.asInteger with
  | some n => do
      require (0 ≤ n ∧ n ≤ maxDecimals) (refused fn decimals)
      return n.toNat
  | none => .error (refused fn decimals)
where
  refused (fn : String) (decimals : JsNumber) : ValidationError :=
    ⟨.perihelionValidationError, "decimals",
      [.text fn, .text ": decimals must be an integer between 0 and ", .integer maxDecimals,
        .text ", got ", .number decimals]⟩

/-- `/^\d+(\.\d+)?$/`, 46 being the point. -/
def isAmount (s : JsString) : Bool :=
  isDigits (s.takeWhile (· != 46)) &&
    match s.dropWhile (· != 46) with
    | [] => true
    | _ :: frac => isDigits frac

/-- `s.split(".")[0]`. -/
def wholePart (s : JsString) : JsString := s.takeWhile (· != 46)

/-- `s.split(".")[1] ?? ""`. -/
def fracPart (s : JsString) : JsString := (s.dropWhile (· != 46)).tail.takeWhile (· != 46)

def toSmallestUnits (human : JsString) (decimals : JsNumber) : Except ValidationError JsString := do
  let places ← assertValidDecimals decimals "toSmallestUnits"
  require (isAmount (trim human)) ⟨.perihelionValidationError, "human",
    [.text "toSmallestUnits: invalid amount \"", .string human, .text "\""]⟩
  let whole := wholePart (trim human)
  let frac := fracPart (trim human)
  require (frac.length ≤ places) ⟨.perihelionValidationError, "human",
    [.text "toSmallestUnits: \"", .string human, .text "\" has more than ", .number decimals,
      .text " decimal places"]⟩
  -- `BigInt("")` would be 0 as well.
  let padded := padEnd places frac
  return decimal (bigInt whole * 10 ^ places + bigInt padded)

/-- `/^-?\d+$/`, 45 being the minus. -/
def isInteger : JsString → Bool
  | [] => false
  | first :: rest => if first = 45 then isDigits rest else isDigits (first :: rest)

def fromSmallestUnits (smallest : JsString) (decimals : JsNumber) : Except ValidationError JsString := do
  let places ← assertValidDecimals decimals "fromSmallestUnits"
  let trimmed := trim smallest
  require (isInteger trimmed) ⟨.perihelionValidationError, "smallest",
    [.text "fromSmallestUnits: invalid amount \"", .string smallest, .text "\""]⟩
  let negative := trimmed.head? = some 45
  let abs := if negative then bigInt trimmed.tail else bigInt trimmed
  let factor := 10 ^ places
  let whole := abs / factor
  let frac := stripTrailing (padStart places (decimal (abs % factor)))
  let sign := if negative ∧ (whole ≠ 0 ∨ frac ≠ []) then js "-" else []
  return if frac = [] then sign ++ decimal whole else sign ++ decimal whole ++ js "." ++ frac

/-! ## Decimals -/

theorem assertValidDecimals_ok {decimals : JsNumber} {fn : String} {places : Nat} :
    assertValidDecimals decimals fn = .ok places ↔
      decimals.asInteger = some (places : Int) ∧ places ≤ maxDecimals := by
  unfold assertValidDecimals
  cases decimals.asInteger with
  | none => simp
  | some n =>
      simp only [bind_ok, require_ok, exists_const, pure_ok, Option.some.injEq]
      constructor
      · rintro ⟨⟨nonneg, small⟩, rfl⟩
        omega
      · rintro ⟨rfl, small⟩
        exact ⟨⟨by omega, by omega⟩, rfl⟩

/-! ## Texts -/

/-- A whole number, and behind a point the places that are not zero. -/
def joined (whole frac : JsString) : JsString := if frac = [] then whole else whole ++ js "." ++ frac

theorem split_point {digits rest : JsString} (whole : digits.all isDigit = true) :
    (digits ++ 46 :: rest).takeWhile (· != 46) = digits ∧
      (digits ++ 46 :: rest).dropWhile (· != 46) = 46 :: rest := by
  have apart (unit : UInt16) (member : unit ∈ digits) : (unit != 46) = true :=
    (digit_plain (List.all_eq_true.mp whole unit member)).2.1
  constructor
  · rw [List.takeWhile_append_of_pos apart]
    simp
  · rw [List.dropWhile_append_of_pos apart]
    simp

theorem no_point {digits : JsString} (whole : digits.all isDigit = true) :
    digits.takeWhile (· != 46) = digits ∧ digits.dropWhile (· != 46) = [] := by
  have apart (unit : UInt16) (member : unit ∈ digits) : (unit != 46) = true :=
    (digit_plain (List.all_eq_true.mp whole unit member)).2.1
  exact ⟨List.takeWhile_eq_self_iff.mpr apart, List.dropWhile_eq_nil_iff.mpr apart⟩

theorem joined_parts {whole frac : JsString} (digits : whole.all isDigit = true)
    (digits' : frac.all isDigit = true) :
    trim (joined whole frac) = joined whole frac ∧ wholePart (joined whole frac) = whole ∧
      fracPart (joined whole frac) = frac := by
  have plain (s : JsString) (all : s.all isDigit = true) (unit : UInt16) (member : unit ∈ s) :
      isSpace unit = false :=
    (digit_plain (List.all_eq_true.mp all unit member)).1
  by_cases none : frac = []
  · have parts := no_point digits
    rw [joined, if_pos none, wholePart, fracPart, parts.1, parts.2, none]
    exact ⟨trim_of_plain (plain whole digits), rfl, rfl⟩
  · have parts := @split_point whole frac digits
    have text : joined whole frac = whole ++ 46 :: frac := by
      rw [joined, if_neg none, List.append_assoc]
      rfl
    rw [text, wholePart, fracPart, parts.1, parts.2, List.tail_cons, (no_point digits').1]
    refine ⟨trim_of_plain fun unit member => ?_, rfl, rfl⟩
    rcases List.mem_append.mp member with left | right
    · exact plain whole digits unit left
    · cases List.mem_cons.mp right with
      | inl point =>
          rw [point]
          rfl
      | inr digit => exact plain frac digits' unit digit

theorem joined_isAmount {whole frac : JsString} (digits : whole.all isDigit = true)
    (some : whole ≠ []) (digits' : frac.all isDigit = true) : isAmount (joined whole frac) = true := by
  by_cases none : frac = []
  · have parts := no_point digits
    rw [joined, if_pos none, isAmount, parts.1, parts.2, isDigits, digits, Bool.and_true, Bool.and_true]
    exact decide_eq_true some
  · have parts := @split_point whole frac digits
    have text : joined whole frac = whole ++ 46 :: frac := by
      rw [joined, if_neg none, List.append_assoc]
      rfl
    rw [text, isAmount, parts.1, parts.2]
    simp [isDigits, digits, digits', some, none]

/-- An amount is its whole part and its places, both digits. -/
theorem isAmount_parts {s : JsString} (amount : isAmount s = true) :
    (wholePart s).all isDigit = true ∧ wholePart s ≠ [] ∧ (fracPart s).all isDigit = true := by
  rw [isAmount, Bool.and_eq_true, isDigits, Bool.and_eq_true, decide_eq_true_iff] at amount
  obtain ⟨⟨some, digits⟩, places⟩ := amount
  refine ⟨digits, some, ?_⟩
  rw [fracPart]
  cases split : s.dropWhile (· != 46) with
  | nil => rfl
  | cons point frac =>
      rw [split] at places
      have all : frac.all isDigit = true := (Bool.and_eq_true_iff.mp places).2
      rw [List.tail_cons, (no_point all).1]
      exact all

/-! ## There and back -/

section places

variable {decimals : JsNumber} {d : Nat} (places : decimals.asInteger = some (d : Int)) (small : d ≤ maxDecimals)

include places

theorem toSmallestUnits_ok {human smallest : JsString} :
    toSmallestUnits human decimals = .ok smallest ↔
      d ≤ maxDecimals ∧ isAmount (trim human) = true ∧ (fracPart (trim human)).length ≤ d ∧
        smallest = decimal (bigInt (wholePart (trim human)) * 10 ^ d +
          bigInt (padEnd d (fracPart (trim human)))) := by
  simp only [toSmallestUnits, bind_ok, require_ok, exists_const, pure_ok, assertValidDecimals_ok, places,
    Option.some.injEq, Int.natCast_inj]
  constructor
  · rintro ⟨_, ⟨rfl, small⟩, amount, short, value⟩
    exact ⟨small, amount, short, value.symm⟩
  · rintro ⟨small, amount, short, value⟩
    exact ⟨d, ⟨rfl, small⟩, amount, short, value.symm⟩

include small

theorem fromSmallestUnits_decimal (n : Nat) :
    fromSmallestUnits (decimal n) decimals =
      .ok (joined (decimal (n / 10 ^ d)) (stripTrailing (padStart d (decimal (n % 10 ^ d))))) := by
  have digits := decimal_digits n
  have trimmed : trim (decimal n) = decimal n :=
    trim_of_plain fun unit member => (digit_plain (List.all_eq_true.mp digits unit member)).1
  have value := bigInt_decimal n
  have some := decimal_ne_nil n
  have integer : isInteger (decimal n) = true ∧ (decimal n).head? ≠ .some 45 := by
    cases text : decimal n with
    | nil => exact absurd text some
    | cons first rest =>
        rw [text] at digits
        have plain := (digit_plain (List.all_eq_true.mp digits first List.mem_cons_self)).2.2
        rw [isInteger, if_neg plain, isDigits, digits, List.head?_cons]
        exact ⟨rfl, fun same => plain (Option.some.inj same)⟩
  have valid : assertValidDecimals decimals "fromSmallestUnits" = .ok d :=
    assertValidDecimals_ok.mpr ⟨places, small⟩
  rw [fromSmallestUnits, bind_of_ok valid]
  simp only [trimmed, bind_ok, require_ok, exists_const, pure_ok, integer.1, integer.2, value, true_and,
    if_false, false_and, List.nil_append]
  rfl

end places

/-- The places of a remainder are digits, as many as there are decimals at most, and padded they
    are the remainder again. -/
theorem places_spec {n d : Nat} (below : n < 10 ^ d) :
    (stripTrailing (padStart d (decimal n))).all isDigit = true ∧
      (stripTrailing (padStart d (decimal n))).length ≤ d ∧
      bigInt (padEnd d (stripTrailing (padStart d (decimal n)))) = n := by
  cases d with
  | zero =>
      have zero : n = 0 := by simpa using below
      subst zero
      decide
  | succ d =>
      obtain ⟨length, digits, value⟩ := padStart_spec d.succ_pos below
      have stripped := stripTrailing_sub digits
      have padded := padEnd_stripTrailing (padStart (d + 1) (decimal n))
      rw [length] at stripped padded
      exact ⟨stripped.1, stripped.2, by rw [padded, value]⟩

/-- Padded places are less than one, and their number has them for its digits. -/
theorem padEnd_spec {frac : JsString} {d : Nat} (digits : frac.all isDigit = true) (short : frac.length ≤ d) :
    bigInt (padEnd d frac) < 10 ^ d ∧
      stripTrailing (padStart d (decimal (bigInt (padEnd d frac)))) = stripTrailing frac := by
  have all : (padEnd d frac).all isDigit = true := by
    rw [padEnd, List.all_append, digits, all_zeros, Bool.and_self]
  have length : (padEnd d frac).length = d := by
    rw [padEnd, List.length_append, List.length_replicate]
    omega
  have below := bigInt_lt all
  rw [length] at below
  refine ⟨below, ?_⟩
  cases d with
  | zero =>
      have none : frac = [] := List.length_eq_zero_iff.mp (Nat.le_zero.mp short)
      subst none
      decide
  | succ d =>
      have back := padStart_decimal (by omega) all
      rw [length] at back
      rw [back]
      exact stripTrailing_padded frac _

/-- An amount without spaces around it, zeros in front of it, and zeros or nothing behind its
    point. -/
def tidy (human : JsString) : JsString :=
  joined (stripLeading (wholePart (trim human))) (stripTrailing (fracPart (trim human)))

theorem units_round_trip {decimals : JsNumber} {d : Nat} (places : decimals.asInteger = some (d : Int))
    (small : d ≤ 36) :
    (∀ n : Nat, (fromSmallestUnits (decimal n) decimals).bind (toSmallestUnits · decimals) =
      .ok (decimal n)) ∧
    ∀ human smallest : JsString, toSmallestUnits human decimals = .ok smallest →
      fromSmallestUnits smallest decimals = .ok (tidy human) := by
  constructor
  · intro n
    have positive : 0 < 10 ^ d := Nat.pow_pos (by decide)
    obtain ⟨digits, short, value⟩ := places_spec (Nat.mod_lt n positive)
    have whole := decimal_digits (n / 10 ^ d)
    have parts := joined_parts whole digits
    rw [fromSmallestUnits_decimal places small]
    apply (toSmallestUnits_ok places).mpr
    rw [parts.1, parts.2.1, parts.2.2, value, bigInt_decimal]
    refine ⟨small, joined_isAmount whole (decimal_ne_nil _) digits, short, ?_⟩
    rw [Nat.div_add_mod']
  · intro human smallest accepted
    obtain ⟨_, amount, short, rfl⟩ := (toSmallestUnits_ok places).mp accepted
    obtain ⟨whole, _, frac⟩ := isAmount_parts amount
    obtain ⟨below, stripped⟩ := padEnd_spec frac short
    rw [fromSmallestUnits_decimal places small, tidy, ← stripped, ← decimal_bigInt whole,
      Nat.mul_comm, Nat.mul_add_div (by omega), Nat.div_eq_of_lt below, Nat.add_zero, Nat.mul_add_mod,
      Nat.mod_eq_of_lt below]

namespace Sample

theorem seven_small : 7 ≤ 2 ^ 53 := by decide

def stellarDecimals : JsNumber :=
  .integer ⟨(7 : Nat), natAbs_lt_of_small seven_small, nearestDouble_natAbs seven_small⟩

end Sample

theorem units_round_trip_sample :
    fromSmallestUnits (js "75000000") Sample.stellarDecimals = .ok (js "7.5") := by
  have tidied := (@units_round_trip Sample.stellarDecimals 7 rfl (by decide)).2 (js " 007.500 ")
    (js "75000000") (by rfl)
  exact tidied

end Perihelion.Sdk

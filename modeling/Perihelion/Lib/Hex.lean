import Perihelion.Lib.BigEndian

/-! # Hexadecimal texts

Byte strings and numbers written in lower case, over UTF-16 code units, and read in either
case.
-/

namespace Hex

open BigEndian

def digit (n : Nat) : UInt16 := UInt16.ofNat (if n < 10 then 48 + n else 87 + n)

def value (unit : UInt16) : Option Nat :=
  let n := unit.toNat
  if 48 ≤ n ∧ n ≤ 57 then some (n - 48)
  else if 97 ≤ n ∧ n ≤ 102 then some (n - 87)
  else if 65 ≤ n ∧ n ≤ 70 then some (n - 55)
  else none

theorem value_digit {n : Nat} (small : n < 16) : value (digit n) = some n := by
  have every : ∀ n : Fin 16, value (digit n.val) = some n.val := by decide
  exact every ⟨n, small⟩

/-! ## Byte strings -/

def text (bytes : Bytes) : List UInt16 :=
  bytes.flatMap fun byte => [digit (byte.toNat / 16), digit (byte.toNat % 16)]

def parse : List UInt16 → Option Bytes
  | [] => some []
  | [_] => none
  | high :: low :: rest => do
      let h ← value high
      let l ← value low
      let bytes ← parse rest
      return UInt8.ofNat (16 * h + l) :: bytes

@[simp] theorem text_nil : text [] = [] := rfl

theorem text_cons (byte : UInt8) (bytes : Bytes) :
    text (byte :: bytes) = digit (byte.toNat / 16) :: digit (byte.toNat % 16) :: text bytes := rfl

@[simp] theorem text_append (before after : Bytes) :
    text (before ++ after) = text before ++ text after := by
  simp [text]

@[simp] theorem text_length (bytes : Bytes) : (text bytes).length = 2 * bytes.length := by
  induction bytes with
  | nil => rfl
  | cons byte bytes ih =>
      rw [text_cons, List.length_cons, List.length_cons, ih, List.length_cons]
      omega

theorem value_text {bytes : Bytes} : ∀ unit ∈ text bytes, (value unit).isSome := by
  intro unit member
  obtain ⟨byte, -, here⟩ := List.mem_flatMap.mp member
  have small := byte.toNat_lt
  rcases List.mem_cons.mp here with rfl | here
  · rw [value_digit (by omega)]
    rfl
  · rw [List.mem_singleton.mp here, value_digit (by omega)]
    rfl

/-- What is written reads back. -/
@[simp] theorem parse_text (bytes : Bytes) : parse (text bytes) = some bytes := by
  induction bytes with
  | nil => rfl
  | cons byte bytes ih =>
      have small := byte.toNat_lt
      have whole : 16 * (byte.toNat / 16) + byte.toNat % 16 = byte.toNat := by omega
      rw [text_cons, parse, value_digit (by omega), value_digit (by omega), ih]
      simp only [Option.bind_eq_bind, Option.bind_some, whole, UInt8.ofNat_toNat, Option.pure_def]

theorem parse_length {units : List UInt16} {bytes : Bytes} (parsed : parse units = some bytes) :
    units.length = 2 * bytes.length := by
  fun_induction parse units generalizing bytes with
  | case1 =>
      cases parsed
      rfl
  | case2 => cases parsed
  | case3 high low rest ih =>
      simp only [Option.bind_eq_bind, Option.bind_eq_some_iff, Option.pure_def,
        Option.some.injEq] at parsed
      obtain ⟨h, -, l, -, tail, found, rfl⟩ := parsed
      rw [List.length_cons, List.length_cons, List.length_cons, ih found]
      omega

theorem value_lt {unit : UInt16} {n : Nat} (read : value unit = some n) : n < 16 := by
  simp only [value] at read
  split at read
  · cases read
    omega
  · split at read
    · cases read
      omega
    · split at read
      · cases read
        omega
      · cases read

theorem parse_cons {high low : UInt16} {rest : List UInt16} {bytes : Bytes} :
    parse (high :: low :: rest) = some bytes ↔ ∃ h l tail, value high = some h ∧ value low = some l ∧
      parse rest = some tail ∧ bytes = UInt8.ofNat (16 * h + l) :: tail := by
  simp only [parse, Option.bind_eq_bind, Option.bind_eq_some_iff, Option.pure_def,
    Option.some.injEq]
  grind

/-- The bytes from the `k`-th on stand in the digits from the `2 * k`-th on. -/
theorem parse_drop {units : List UInt16} {bytes : Bytes} (parsed : parse units = some bytes) (k : Nat) :
    parse (units.drop (2 * k)) = some (bytes.drop k) := by
  induction k generalizing units bytes with
  | zero => exact parsed
  | succ k ih =>
      match units with
      | [] =>
          cases parsed
          rfl
      | [_] => cases parsed
      | high :: low :: rest =>
          obtain ⟨h, l, tail, -, -, found, rfl⟩ := parse_cons.mp parsed
          exact ih found

theorem parse_take {units : List UInt16} {bytes : Bytes} (parsed : parse units = some bytes) (k : Nat) :
    parse (units.take (2 * k)) = some (bytes.take k) := by
  induction k generalizing units bytes with
  | zero => rfl
  | succ k ih =>
      match units with
      | [] =>
          cases parsed
          rfl
      | [_] => cases parsed
      | high :: low :: rest =>
          obtain ⟨h, l, tail, first, second, found, rfl⟩ := parse_cons.mp parsed
          exact parse_cons.mpr ⟨h, l, tail.take k, first, second, ih found, rfl⟩

/-! ## Numbers -/

/-- `padStart(width, "0")`. -/
def padStart (width : Nat) (units : List UInt16) : List UInt16 :=
  List.replicate (width - units.length) (digit 0) ++ units

/-- The lowest `width` digits of a number, most significant first. -/
def lowest : Nat → Nat → List UInt16
  | 0, _ => []
  | width + 1, n => lowest width (n / 16) ++ [digit (n % 16)]

/-- `toString(16)`: as many digits as the number has, and at least one. -/
def ofNat (n : Nat) : List UInt16 := lowest (n.log2 / 4 + 1) n

@[simp] theorem lowest_length (width n : Nat) : (lowest width n).length = width := by
  induction width generalizing n with
  | zero => rfl
  | succ width ih => rw [lowest, List.length_append, ih, List.length_singleton]

theorem lowest_zero (width : Nat) : lowest width 0 = List.replicate width (digit 0) := by
  induction width with
  | zero => rfl
  | succ width ih => rw [lowest, Nat.zero_div, Nat.zero_mod, ih, List.replicate_succ']

theorem lowest_pad {width n : Nat} (fits : n < 16 ^ width) (more : Nat) :
    lowest (more + width) n = List.replicate more (digit 0) ++ lowest width n := by
  induction width generalizing n with
  | zero =>
      have zero : n = 0 := by simpa using fits
      rw [zero, Nat.add_zero, lowest_zero, lowest, List.append_nil]
  | succ width ih =>
      have high : n / 16 < 16 ^ width := by
        rw [pow_succ] at fits
        omega
      rw [← Nat.add_assoc, lowest, lowest, ih high, List.append_assoc]

theorem padStart_ofNat {width n : Nat} (fits : n < 16 ^ (width + 1)) :
    padStart (width + 1) (ofNat n) = lowest (width + 1) n := by
  have enough : n < 16 ^ (n.log2 / 4 + 1) := by
    have bits : n < 2 ^ (n.log2 + 1) := Nat.lt_log2_self
    have more : 2 ^ (n.log2 + 1) ≤ 2 ^ (4 * (n.log2 / 4 + 1)) :=
      Nat.pow_le_pow_right (by decide) (by omega)
    rw [pow_mul] at more
    exact bits.trans_le more
  have narrow : n.log2 / 4 + 1 ≤ width + 1 := by
    by_cases zero : n = 0
    · rw [zero]
      exact Nat.le_add_left 1 width
    · rw [show (16 : Nat) = 2 ^ 4 from rfl, ← pow_mul] at fits
      have bits := (Nat.log2_lt zero).mpr fits
      omega
  have whole : width + 1 - (n.log2 / 4 + 1) + (n.log2 / 4 + 1) = width + 1 := Nat.sub_add_cancel narrow
  have padded := lowest_pad enough (width + 1 - (n.log2 / 4 + 1))
  rw [whole] at padded
  rw [padStart, ofNat, lowest_length, padded]

/-- The digits of the bytes are those of the number. -/
theorem text_encode (k n : Nat) : text (encode k n) = lowest (2 * k) n := by
  induction k generalizing n with
  | zero => rfl
  | succ k ih =>
      have low : (UInt8.ofNat n).toNat = n % 256 := UInt8.toNat_ofNat'
      have high : n % 256 / 16 = n / 16 % 16 := by omega
      have last : n % 256 % 16 = n % 16 := by omega
      have rest : n / 16 / 16 = n / 256 := by omega
      rw [encode, text_append, ih, text_cons, text_nil, low, high, last,
        show 2 * (k + 1) = 2 * k + 1 + 1 from rfl, lowest, lowest, rest, List.append_assoc]
      rfl

theorem parse_padStart {k n : Nat} (fits : n < 256 ^ (k + 1)) :
    parse (padStart (2 * (k + 1)) (ofNat n)) = some (encode (k + 1) n) := by
  have width : 2 * (k + 1) = (2 * k + 1) + 1 := rfl
  have small : n < 16 ^ ((2 * k + 1) + 1) := by
    have square : (16 : Nat) ^ (2 * (k + 1)) = 256 ^ (k + 1) := by
      rw [pow_mul]
      norm_num
    rw [← width, square]
    exact fits
  rw [width, padStart_ofNat small, ← width, ← text_encode, parse_text]

end Hex

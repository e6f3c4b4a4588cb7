import Mathlib.Data.List.Induction
import Mathlib.Tactic.Common
import Mathlib.Tactic.Ring

/-! # Big-endian byte strings

Unsigned integers in a fixed number of bytes, most significant byte first, and
fixed-offset fields of a message.
-/

namespace BigEndian

abbrev Bytes := List UInt8

/-- The `n` low-order bytes of `x`, most significant first. -/
def encode : Nat → Nat → Bytes
  | 0, _ => []
  | n + 1, x => encode n (x / 256) ++ [UInt8.ofNat x]

def decode (bytes : Bytes) : Nat := bytes.foldl (fun acc b => acc * 256 + b.toNat) 0

/-- The `n` bytes of `message` that start at `offset`. -/
def field (message : Bytes) (offset n : Nat) : Bytes := (message.drop offset).take n

@[simp] theorem encode_length (n x : Nat) : (encode n x).length = n := by
  induction n generalizing x with
  | zero => rfl
  | succ n ih => simp [encode, ih]

theorem encode_zero (n : Nat) : encode n 0 = List.replicate n 0 := by
  induction n with
  | zero => rfl
  | succ n ih =>
      rw [encode, Nat.zero_div, ih, List.replicate_succ']
      rfl

theorem encode_mod (n x : Nat) : encode n (x % 256 ^ n) = encode n x := by
  induction n generalizing x with
  | zero => rfl
  | succ n ih =>
      have high : x % 256 ^ (n + 1) / 256 = x / 256 % 256 ^ n := by
        rw [pow_succ', Nat.mod_mul_right_div_self]
      have low : UInt8.ofNat (x % 256 ^ (n + 1)) = UInt8.ofNat x := by
        apply UInt8.toNat_inj.mp
        rw [UInt8.toNat_ofNat', UInt8.toNat_ofNat', pow_succ', Nat.mod_mul_right_mod]
      rw [encode, encode, high, low, ih]

/-- A number in more bytes than it needs. -/
theorem encode_pad {n x : Nat} (fits : x < 256 ^ n) (more : Nat) :
    encode (more + n) x = List.replicate more 0 ++ encode n x := by
  induction n generalizing x with
  | zero =>
      have zero : x = 0 := by simpa using fits
      rw [zero, Nat.add_zero, encode_zero, encode, List.append_nil]
  | succ n ih =>
      have high : x / 256 < 256 ^ n := by
        rw [pow_succ] at fits
        omega
      rw [← Nat.add_assoc, encode, encode, ih high, List.append_assoc]

theorem decode_append_byte (bytes : Bytes) (b : UInt8) :
    decode (bytes ++ [b]) = decode bytes * 256 + b.toNat := by
  simp [decode]

@[simp] theorem decode_encode (n x : Nat) : decode (encode n x) = x % 256 ^ n := by
  induction n generalizing x with
  | zero => simp [encode, decode, Nat.mod_one]
  | succ n ih =>
      rw [encode, decode_append_byte, ih, pow_succ', Nat.mod_mul]
      simp only [UInt8.toNat_ofNat']
      omega

theorem decode_append (before after : Bytes) :
    decode (before ++ after) = decode before * 256 ^ after.length + decode after := by
  induction after using List.reverseRecOn with
  | nil => simp [decode]
  | append_singleton after b ih =>
      rw [← List.append_assoc, decode_append_byte, decode_append_byte, ih, List.length_append,
        List.length_singleton, pow_succ]
      ring

theorem decode_lt (bytes : Bytes) : decode bytes < 256 ^ bytes.length := by
  induction bytes using List.reverseRecOn with
  | nil => simp [decode]
  | append_singleton bytes b ih =>
      have small := b.toNat_lt
      rw [decode_append_byte, List.length_append, List.length_singleton, pow_succ]
      omega

/-- Reading a field as a number loses nothing. -/
theorem encode_decode (bytes : Bytes) : encode bytes.length (decode bytes) = bytes := by
  induction bytes using List.reverseRecOn with
  | nil => rfl
  | append_singleton bytes b ih =>
      have small := b.toNat_lt
      have high : (decode bytes * 256 + b.toNat) / 256 = decode bytes := by omega
      have low : UInt8.ofNat (decode bytes * 256 + b.toNat) = b := by
        apply UInt8.toNat_inj.mp
        rw [UInt8.toNat_ofNat']
        omega
      rw [decode_append_byte, List.length_append, List.length_singleton, encode, high, low, ih]

theorem field_length {message : Bytes} {offset n : Nat} (inside : offset + n ≤ message.length) :
    (field message offset n).length = n := by
  simp only [field, List.length_take, List.length_drop]
  omega

theorem field_split (message : Bytes) (offset n m : Nat) :
    field message offset (n + m) = field message offset n ++ field message (offset + n) m := by
  simp only [field, List.take_add, List.drop_drop]

/-- What follows a message is in none of its fields. -/
theorem field_append_left (message : Bytes) {offset n : Nat} (inside : offset + n ≤ message.length)
    (tail : Bytes) : field (message ++ tail) offset n = field message offset n := by
  have fits : n ≤ (message.drop offset).length := by
    rw [List.length_drop]
    omega
  rw [field, field, List.drop_append_of_le_length (by omega), List.take_append_of_le_length fits]

/-- A message is its fields in a row. -/
theorem drop_eq_field (message : Bytes) (offset n : Nat) :
    message.drop offset = field message offset n ++ message.drop (offset + n) := by
  rw [field, ← List.drop_drop, List.take_append_drop]

/-- A field that starts where its predecessors end. -/
theorem field_of_append (before here after : Bytes) (offset n : Nat)
    (start : before.length = offset) (width : here.length = n) :
    field (before ++ (here ++ after)) offset n = here := by
  subst start width
  simp [field]

end BigEndian

import Mathlib.Data.List.Induction
import Mathlib.Tactic.Ring

/-! # Repacking groups of bits

A stream of bits in groups of one width comes out in groups of another, through a shift
buffer whose old bits are never cleared.  The groups spell a number, the first one on top;
what has been written and the bits still held together spell the number that went in.
-/

namespace Repack

/-- The number that groups of `b` bits spell. -/
def value (b : Nat) (groups : List Nat) : Nat := groups.foldl (fun acc g => acc * 2 ^ b + g) 0

/-- The last `n` groups of `b` bits of a number. -/
def groups (b : Nat) : Nat → Nat → List Nat
  | 0, _ => []
  | n + 1, x => groups b n (x / 2 ^ b) ++ [x % 2 ^ b]

variable {b : Nat}

@[simp] theorem value_nil : value b [] = 0 := rfl

theorem value_append_group (gs : List Nat) (g : Nat) :
    value b (gs ++ [g]) = value b gs * 2 ^ b + g := by
  simp [value]

@[simp] theorem groups_length (n x : Nat) : (groups b n x).length = n := by
  induction n generalizing x with
  | zero => rfl
  | succ n ih => simp [groups, ih]

theorem groups_lt {n x g : Nat} (member : g ∈ groups b n x) : g < 2 ^ b := by
  induction n generalizing x with
  | zero => cases member
  | succ n ih =>
      rcases List.mem_append.mp member with earlier | last
      · exact ih earlier
      · rw [List.mem_singleton.mp last]
        exact Nat.mod_lt _ (Nat.two_pow_pos b)

theorem value_groups (n x : Nat) : value b (groups b n x) = x % 2 ^ (b * n) := by
  induction n generalizing x with
  | zero => simp [groups, Nat.mod_one]
  | succ n ih =>
      rw [groups, value_append_group, ih, Nat.mul_succ, Nat.add_comm (b * n), pow_add, Nat.mod_mul]
      ring

/-- Groups of one width are known by their number and by what they spell. -/
theorem groups_value {gs : List Nat} (small : ∀ g ∈ gs, g < 2 ^ b) :
    groups b gs.length (value b gs) = gs := by
  induction gs using List.reverseRecOn with
  | nil => rfl
  | append_singleton gs g ih =>
      have low := small g (List.mem_append_right _ List.mem_cons_self)
      have top : (value b gs * 2 ^ b + g) / 2 ^ b = value b gs := by
        rw [Nat.mul_comm, Nat.mul_add_div (Nat.two_pow_pos b), Nat.div_eq_of_lt low, Nat.add_zero]
      have last : (value b gs * 2 ^ b + g) % 2 ^ b = g := by
        rw [Nat.mul_comm, Nat.mul_add_mod, Nat.mod_eq_of_lt low]
      rw [value_append_group, List.length_append, List.length_singleton, groups, top, last,
        ih fun g' member => small g' (List.mem_append_left _ member)]

/-- The first group holds the top bits. -/
theorem groups_head (n x : Nat) :
    groups b (n + 1) x = (x / 2 ^ (b * n) % 2 ^ b) :: groups b n x := by
  induction n generalizing x with
  | zero => simp [groups]
  | succ n ih =>
      rw [groups, ih, Nat.div_div_eq_div_mul, ← pow_add, Nat.mul_succ, Nat.add_comm b]
      rfl

/-! ## The shift buffer -/

variable {w : Nat}

/-- What has come out and the `held` low bits of the buffer spell `n`. -/
def Spells (b : Nat) (out : List Nat) (buffer : BitVec w) (held n : Nat) : Prop :=
  value b out * 2 ^ held + buffer.toNat % 2 ^ held = n

/-- The older bits move up, out of reach of the held ones. -/
theorem low_push (buffer : BitVec w) {a held g : Nat} (room : held + a ≤ w) (small : g < 2 ^ a) :
    ((buffer <<< a) ||| BitVec.ofNat w g).toNat % 2 ^ (held + a) =
      buffer.toNat % 2 ^ held * 2 ^ a + g := by
  have fits : g < 2 ^ w :=
    Nat.lt_of_lt_of_le small (Nat.pow_le_pow_right (by omega) (by omega))
  have width : 2 ^ w = 2 ^ a * 2 ^ (w - a) := by
    rw [← pow_add]
    congr 1
    omega
  have shifted : buffer.toNat <<< a % 2 ^ w = 2 ^ a * (buffer.toNat % 2 ^ (w - a)) := by
    rw [Nat.shiftLeft_eq, width, Nat.mul_comm, Nat.mul_mod_mul_left]
  have kept : buffer.toNat % 2 ^ (w - a) % 2 ^ held = buffer.toNat % 2 ^ held :=
    Nat.mod_mod_of_dvd _ (Nat.pow_dvd_pow 2 (by omega))
  rw [BitVec.toNat_or, BitVec.toNat_shiftLeft, BitVec.toNat_ofNat, shifted, Nat.mod_eq_of_lt fits,
    ← Nat.two_pow_add_eq_or_of_lt small, Nat.add_comm held, pow_add, Nat.mod_mul,
    Nat.mul_add_mod, Nat.mod_eq_of_lt small, Nat.mul_add_div (Nat.two_pow_pos a),
    Nat.div_eq_of_lt small, Nat.add_zero, kept]
  ring

theorem Spells.push {out : List Nat} {buffer : BitVec w} {a held n g : Nat}
    (spells : Spells b out buffer held n) (room : held + a ≤ w) (small : g < 2 ^ a) :
    Spells b out ((buffer <<< a) ||| BitVec.ofNat w g) (held + a) (n * 2 ^ a + g) := by
  unfold Spells at spells ⊢
  rw [low_push buffer room small, ← spells, pow_add]
  ring

/-- A group is taken off the top of the held bits. -/
theorem Spells.emit {out : List Nat} {buffer : BitVec w} {held n : Nat}
    (spells : Spells b out buffer held n) (enough : b ≤ held) :
    Spells b (out ++ [(buffer >>> (held - b)).toNat % 2 ^ b]) buffer (held - b) n := by
  have width : 2 ^ held = 2 ^ (held - b) * 2 ^ b := by
    rw [← pow_add]
    congr 1
    omega
  unfold Spells at spells ⊢
  rw [value_append_group, BitVec.toNat_ushiftRight, Nat.shiftRight_eq_div_pow, ← spells, width,
    Nat.mod_mul]
  ring

/-- With nothing held, the groups that came out are those of the number that went in. -/
theorem Spells.done {out : List Nat} {buffer : BitVec w} {n : Nat}
    (spells : Spells b out buffer 0 n) (small : ∀ g ∈ out, g < 2 ^ b) :
    out = groups b out.length n := by
  have spelled : value b out = n := by
    simpa [Spells, Nat.mod_one] using spells
  rw [← spelled, groups_value small]

end Repack

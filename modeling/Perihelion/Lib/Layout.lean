import Mathlib.Data.List.DropRight
import Mathlib.Data.PEquiv
import Perihelion.Lib.BigEndian

/-! # Fixed layouts

A layout reads its values from texts of one width, and no value from two texts.  Fields in a row
make up a layout again: a record whose fields cannot be spelt in two ways cannot be either.
-/

universe u v

namespace BigEndian

structure Layout (α : Type u) where
  width : Nat
  values : Bytes ≃. α
  sized : ∀ {text a}, a ∈ values text → text.length = width

namespace Layout

variable {α : Type u} {β : Type v}

def Reads (layout : Layout α) (text : Bytes) (a : α) : Prop := a ∈ layout.values text

def Writes (layout : Layout α) (a : α) (text : Bytes) : Prop := text ∈ layout.values.symm a

theorem reads_iff_writes (layout : Layout α) {text : Bytes} {a : α} :
    layout.Reads text a ↔ layout.Writes a text := layout.values.mem_iff_mem.symm

theorem Reads.text_eq {layout : Layout α} {text text' : Bytes} {a : α} (reads : layout.Reads text a)
    (writes : layout.Writes a text') : text = text' :=
  layout.values.inj reads (layout.reads_iff_writes.mpr writes)

/-! ## Fields -/

/-- A text that is always the same. -/
def literal (tag : Bytes) : Layout Unit where
  width := tag.length
  values := {
    toFun := fun text => if text = tag then some () else none
    invFun := fun _ => some tag
    inv := by
      intro text _
      simp [eq_comm] }
  sized := by
    intro text _ reads
    have same : text = tag := by simpa using reads
    rw [same]

theorem literal_reads {tag text : Bytes} {u : Unit} : (literal tag).Reads text u ↔ text = tag := by
  simp [Reads, literal]

theorem literal_writes {tag text : Bytes} {u : Unit} : (literal tag).Writes u text ↔ text = tag := by
  rw [← reads_iff_writes, literal_reads]

/-- An unsigned number of `n` bytes. -/
def unsigned (n : Nat) : Layout Nat where
  width := n
  values := {
    toFun := fun text => if text.length = n then some (decode text) else none
    invFun := fun x => if x < 256 ^ n then some (encode n x) else none
    inv := by
      intro text x
      constructor
      · intro written
        obtain ⟨small, rfl⟩ : x < 256 ^ n ∧ encode n x = text := by simpa using written
        rw [if_pos (encode_length n x), decode_encode, Nat.mod_eq_of_lt small]
      · intro read
        obtain ⟨rfl, rfl⟩ : text.length = n ∧ decode text = x := by simpa using read
        rw [if_pos (decode_lt text), encode_decode] }
  sized := by
    intro text x reads
    have both : text.length = n ∧ decode text = x := by simpa using reads
    exact both.1

theorem unsigned_reads {n : Nat} {text : Bytes} {x : Nat} :
    (unsigned n).Reads text x ↔ text.length = n ∧ decode text = x := by
  simp [Reads, unsigned]

theorem unsigned_writes {n : Nat} {text : Bytes} {x : Nat} :
    (unsigned n).Writes x text ↔ x < 256 ^ n ∧ text = encode n x := by
  simp [Writes, unsigned, PEquiv.symm, eq_comm]

/-- A text without its zeros on the right. -/
def unpad (text : Bytes) : Bytes := text.rdropWhile (· == 0)

theorem unpad_rightpad {word : Bytes} (plain : 0 ∉ word) (n : Nat) :
    unpad (word.rightpad n 0) = word := by
  have kept : word.rdropWhile (· == 0) = word := by
    rw [List.rdropWhile_eq_self_iff]
    intro nonempty zero
    apply plain
    rw [← beq_iff_eq.mp zero]
    exact List.getLast_mem nonempty
  unfold unpad List.rightpad
  rw [List.rdropWhile, List.reverse_append, List.reverse_replicate, List.dropWhile_append,
    List.dropWhile_replicate]
  simpa [List.rdropWhile] using kept

theorem rightpad_unpad (text : Bytes) : (unpad text).rightpad text.length 0 = text := by
  have zeros : text.rtakeWhile (· == 0) =
      List.replicate (text.rtakeWhile (· == 0)).length 0 := by
    apply List.eq_replicate_of_mem
    intro byte member
    have zero := List.mem_rtakeWhile_imp member
    exact beq_iff_eq.mp zero
  have parts : unpad text ++ text.rtakeWhile (· == 0) = text := List.rdropWhile_append_rtakeWhile ..
  have lengths := congrArg List.length parts
  rw [List.length_append] at lengths
  have rest : text.length - (unpad text).length = (text.rtakeWhile (· == 0)).length := by omega
  rw [List.rightpad, rest, ← zeros, parts]

theorem unpad_length (text : Bytes) : (unpad text).length ≤ text.length :=
  (List.rdropWhile_prefix ..).length_le

/-- A text without zeros, padded with zeros on the right. -/
def padded (n : Nat) : Layout Bytes where
  width := n
  values := {
    toFun := fun text => if text.length = n ∧ 0 ∉ unpad text then some (unpad text) else none
    invFun := fun word => if word.length ≤ n ∧ 0 ∉ word then some (word.rightpad n 0) else none
    inv := by
      intro text word
      constructor
      · intro written
        obtain ⟨⟨short, plain⟩, rfl⟩ : (word.length ≤ n ∧ 0 ∉ word) ∧ word.rightpad n 0 = text := by
          simpa using written
        have length : (word.rightpad n 0).length = n := by simp [List.rightpad, short]
        rw [unpad_rightpad plain, if_pos ⟨length, plain⟩]
      · intro read
        obtain ⟨⟨rfl, plain⟩, rfl⟩ : (text.length = n ∧ 0 ∉ unpad text) ∧ unpad text = word := by
          simpa using read
        rw [if_pos ⟨unpad_length text, plain⟩, rightpad_unpad] }
  sized := by
    intro text word reads
    have all : (text.length = n ∧ 0 ∉ unpad text) ∧ unpad text = word := by simpa using reads
    exact all.1.1

theorem padded_reads {n : Nat} {text word : Bytes} :
    (padded n).Reads text word ↔ text.length = n ∧ unpad text = word ∧ 0 ∉ word := by
  simp only [Reads, padded, PEquiv.coe_mk, Option.mem_def, Option.ite_none_right_eq_some,
    Option.some.injEq]
  grind

theorem padded_writes {n : Nat} {text word : Bytes} :
    (padded n).Writes word text ↔ (word.length ≤ n ∧ 0 ∉ word) ∧ text = word.rightpad n 0 := by
  simp [Writes, padded, PEquiv.symm, eq_comm]

/-! ## Composition -/

/-- One layout after the other. -/
def pair (first : Layout α) (second : Layout β) : Layout (α × β) where
  width := first.width + second.width
  values := {
    toFun := fun text =>
      (first.values (text.take first.width)).bind fun a =>
        (second.values (text.drop first.width)).map fun b => (a, b)
    invFun := fun both =>
      (first.values.symm both.1).bind fun text =>
        (second.values.symm both.2).map fun rest => text ++ rest
    inv := by
      rintro text ⟨a, b⟩
      simp only [Option.bind_eq_some_iff, Option.map_eq_some_iff, Prod.mk.injEq]
      constructor
      · rintro ⟨front, writes, rest, written, rfl⟩
        have reads := first.values.eq_some_iff.mp writes
        have length : front.length = first.width := first.sized reads
        rw [List.take_left' length, List.drop_left' length]
        exact ⟨a, reads, b, second.values.eq_some_iff.mp written, rfl, rfl⟩
      · rintro ⟨_, reads, _, read, rfl, rfl⟩
        exact ⟨_, first.values.eq_some_iff.mpr reads, _, second.values.eq_some_iff.mpr read,
          List.take_append_drop ..⟩ }
  sized := by
    rintro text ⟨a, b⟩ reads
    simp only [PEquiv.coe_mk, Option.mem_def, Option.bind_eq_some_iff, Option.map_eq_some_iff] at reads
    obtain ⟨_, reads, _, read, -⟩ := reads
    have front := first.sized reads
    have rest := second.sized read
    rw [← List.take_append_drop first.width text, List.length_append, front, rest]

theorem pair_reads {first : Layout α} {second : Layout β} {text : Bytes} {a : α} {b : β} :
    (first.pair second).Reads text (a, b) ↔
      first.Reads (text.take first.width) a ∧ second.Reads (text.drop first.width) b := by
  simp only [Reads, pair, PEquiv.coe_mk, Option.mem_def, Option.bind_eq_some_iff,
    Option.map_eq_some_iff, Prod.mk.injEq]
  grind

theorem Writes.pair {first : Layout α} {second : Layout β} {a : α} {b : β} {text rest : Bytes}
    (writes : first.Writes a text) (written : second.Writes b rest) :
    (first.pair second).Writes (a, b) (text ++ rest) := by
  have length : text.length = first.width := first.sized (first.reads_iff_writes.mpr writes)
  rw [← reads_iff_writes, pair_reads, List.take_left' length, List.drop_left' length]
  exact ⟨first.reads_iff_writes.mpr writes, second.reads_iff_writes.mpr written⟩

/-- A layout whose values stand for others. -/
def via (layout : Layout α) (values : α ≃. β) : Layout β where
  width := layout.width
  values := layout.values.trans values
  sized := by
    intro text b reads
    obtain ⟨a, reads, -⟩ := (PEquiv.mem_trans _ _ _ _).mp reads
    exact layout.sized reads

theorem via_reads {layout : Layout α} {values : α ≃. β} {text : Bytes} {b : β} :
    (layout.via values).Reads text b ↔ ∃ a, layout.Reads text a ∧ b ∈ values a :=
  PEquiv.mem_trans ..

theorem via_writes {layout : Layout α} {values : α ≃. β} {b : β} {text : Bytes} :
    (layout.via values).Writes b text ↔ ∃ a, a ∈ values.symm b ∧ layout.Writes a text := by
  simp only [← reads_iff_writes, via_reads, values.mem_iff_mem, and_comm]

/-! ## Values that stand for others -/

/-- A word of `n` bytes, which any `n` bytes are. -/
def word (n : Nat) : Layout (BitVec (8 * n)) :=
  (unsigned n).via {
    toFun := fun x => if x < 256 ^ n then some (BitVec.ofNat (8 * n) x) else none
    invFun := fun v => some v.toNat
    inv := by
      intro x v
      have width : 256 ^ n = 2 ^ (8 * n) := by rw [Nat.pow_mul]
      simp only [Option.some.injEq, Option.ite_none_right_eq_some, width]
      constructor
      · rintro rfl
        exact ⟨v.isLt, (BitVec.ofNat_toNat ..).trans (BitVec.setWidth_eq v)⟩
      · rintro ⟨small, rfl⟩
        exact (BitVec.toNat_ofNat ..).trans (Nat.mod_eq_of_lt small) }

theorem word_reads {n : Nat} {text : Bytes} {v : BitVec (8 * n)} :
    (word n).Reads text v ↔ text.length = n ∧ BitVec.ofNat (8 * n) (decode text) = v := by
  have small := decode_lt text
  simp only [word, via_reads, unsigned_reads, PEquiv.coe_mk, Option.mem_def,
    Option.ite_none_right_eq_some, Option.some.injEq]
  grind

theorem word_writes {n : Nat} {v : BitVec (8 * n)} {text : Bytes} :
    (word n).Writes v text ↔ text = encode n v.toNat := by
  have width : 256 ^ n = 2 ^ (8 * n) := by rw [Nat.pow_mul]
  have small := v.isLt
  simp only [word, via_writes, unsigned_writes, PEquiv.symm, PEquiv.coe_mk, Option.mem_def,
    Option.some.injEq, width]
  grind

/-- One value of a type means that there is none. -/
def nullable [DecidableEq α] (absent : α) : α ≃. Option α where
  toFun a := some (if a = absent then none else some a)
  invFun o := o.elim (some absent) fun a => if a = absent then none else some a
  inv := by
    rintro a (_ | b)
    · grind
    · grind

end Layout

end BigEndian

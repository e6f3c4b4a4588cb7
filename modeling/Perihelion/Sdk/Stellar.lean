import Perihelion.Lib.Bitmap
import Perihelion.Lib.Crc
import Perihelion.Settlement.Address

/-! # Strkeys in the SDK

The client's own base32 decoder and CRC, over JavaScript strings and 32-bit integers.
What it accepts, the settlement contract's validator accepts too.
-/

namespace Perihelion.Sdk

open BigEndian

/-- A JavaScript string: its UTF-16 code units. -/
abbrev JsString := List UInt16

instance : LawfulBEq JsString := inferInstance

def js (text : String) : JsString := text.toList.map fun ch => UInt16.ofNat ch.toNat

/-! ## UTF-8 -/

def utf8 (codePoint : Nat) : Bytes :=
  if codePoint < 0x80 then [UInt8.ofNat codePoint]
  else if codePoint < 0x800 then
    [UInt8.ofNat (0xC0 + codePoint / 0x40), UInt8.ofNat (0x80 + codePoint % 0x40)]
  else if codePoint < 0x10000 then
    [UInt8.ofNat (0xE0 + codePoint / 0x1000), UInt8.ofNat (0x80 + codePoint / 0x40 % 0x40),
      UInt8.ofNat (0x80 + codePoint % 0x40)]
  else
    [UInt8.ofNat (0xF0 + codePoint / 0x40000), UInt8.ofNat (0x80 + codePoint / 0x1000 % 0x40),
      UInt8.ofNat (0x80 + codePoint / 0x40 % 0x40), UInt8.ofNat (0x80 + codePoint % 0x40)]

def isHighSurrogate (unit : UInt16) : Bool := 0xD800 ≤ unit && unit ≤ 0xDBFF

def isLowSurrogate (unit : UInt16) : Bool := 0xDC00 ≤ unit && unit ≤ 0xDFFF

/-- A unit outside a pair; a lone surrogate becomes U+FFFD. -/
def encodeUnit (unit : UInt16) : Bytes :=
  if isHighSurrogate unit || isLowSurrogate unit then utf8 0xFFFD else utf8 unit.toNat

/-- `new TextEncoder().encode(value)`. -/
def textEncode : JsString → Bytes
  | [] => []
  | [unit] => encodeUnit unit
  | high :: low :: rest =>
      if isHighSurrogate high && isLowSurrogate low then
        utf8 (0x10000 + (high.toNat - 0xD800) * 0x400 + (low.toNat - 0xDC00)) ++ textEncode rest
      else encodeUnit high ++ textEncode (low :: rest)

theorem encodeUnit_ascii {unit : UInt16} (plain : unit.toNat < 128) :
    encodeUnit unit = [unit.toUInt8] := by
  have high : isHighSurrogate unit = false := by
    simp only [isHighSurrogate, Bool.and_eq_false_iff, decide_eq_false_iff_not, UInt16.le_iff_toNat_le]
    left
    simp only [UInt16.reduceToNat]
    omega
  have low : isLowSurrogate unit = false := by
    simp only [isLowSurrogate, Bool.and_eq_false_iff, decide_eq_false_iff_not, UInt16.le_iff_toNat_le]
    left
    simp only [UInt16.reduceToNat]
    omega
  simp only [encodeUnit, high, low, Bool.or_self, Bool.false_eq_true, if_false, utf8, plain, if_true]
  rfl

/-- ASCII text is its own encoding. -/
theorem textEncode_ascii {s : JsString} (plain : ∀ unit ∈ s, unit.toNat < 128) :
    textEncode s = s.map (·.toUInt8) := by
  fun_induction textEncode s with
  | case1 => rfl
  | case2 unit => exact encodeUnit_ascii (plain unit List.mem_cons_self)
  | case3 high low rest pair ih =>
      have small := plain high List.mem_cons_self
      simp only [isHighSurrogate, Bool.and_eq_true, decide_eq_true_iff, UInt16.le_iff_toNat_le,
        UInt16.reduceToNat] at pair
      omega
  | case4 high low rest pair ih =>
      rw [encodeUnit_ascii (plain high List.mem_cons_self),
        ih fun unit member => plain unit (List.mem_cons_of_mem _ member)]
      rfl

/-! ## CRC -/

/-- One turn of the inner loop.  The register is an `int32`; nothing is masked off. -/
def crc16Bit (crc : BitVec 32) : BitVec 32 :=
  if crc &&& 0x8000#32 ≠ 0#32 then (crc <<< 1) ^^^ 0x1021#32 else crc <<< 1

def crc16Byte (crc : BitVec 32) (byte : UInt8) : BitVec 32 :=
  crc16Bit^[8] (crc ^^^ (byte.toBitVec.setWidth 32 <<< 8))

def crc16 (data : Bytes) : BitVec 32 := data.foldl crc16Byte 0 &&& 0xffff#32

theorem setWidth_shiftLeft {m k : Nat} (narrow : k ≤ m) (x : BitVec m) (n : Nat) :
    (x <<< n).setWidth k = x.setWidth k <<< n := by
  apply BitVec.eq_of_getLsbD_eq
  intro i inside
  have small : i < m := by omega
  simp only [BitVec.getLsbD_setWidth, BitVec.getLsbD_shiftLeft, inside, small]
  by_cases low : i < n
  · simp [low]
  · have fits : i - n < k := by omega
    simp [low, fits]

/-- The low half of the register is the 16-bit register. -/
theorem crc16Bit_low (crc : BitVec 32) :
    (crc16Bit crc).setWidth 16 = Crc.shift 0x1021#16 (crc.setWidth 16) := by
  have tested : (crc &&& 0x8000#32 ≠ 0#32) ↔ (crc.setWidth 16).msb = true := by
    have clear := Bitmap.and_bit_eq_zero crc (show 15 < 32 by decide)
    have mask : 1#32 <<< 15 = 0x8000#32 := by decide
    rw [mask, Bitmap.marked_eq_getLsbD (by decide)] at clear
    rw [ne_eq, clear, Bool.not_eq_false, BitVec.msb_eq_getLsbD_last]
    simp
  unfold crc16Bit Crc.shift
  by_cases falls : crc &&& 0x8000#32 ≠ 0#32
  · rw [if_pos falls, if_pos (tested.mp falls), BitVec.setWidth_xor,
      setWidth_shiftLeft (by decide)]
    rfl
  · rw [if_neg falls, if_neg (mt tested.mpr falls), setWidth_shiftLeft (by decide)]

theorem crc16Bits_low (n : Nat) (crc : BitVec 32) :
    (crc16Bit^[n] crc).setWidth 16 = Crc.rounds 0x1021#16 n (crc.setWidth 16) := by
  induction n generalizing crc with
  | zero => rfl
  | succ n ih => rw [Function.iterate_succ_apply, ih, crc16Bit_low, Crc.rounds_succ]

/-- The settlement contract's table holds the values of the bitwise register. -/
theorem crc16Table_eq (i : BitVec 8) :
    (Settlement.crc16Table[i.toNat]!).toBitVec =
      Crc.rounds 0x1021#16 8 (i.setWidth 16 <<< 8) := by
  have entries : ∀ i : Fin 256, (Settlement.crc16Table[i.val]!).toBitVec =
      Crc.rounds 0x1021#16 8 ((BitVec.ofFin (w := 8) i).setWidth 16 <<< 8) := by
    decide +kernel
  exact entries i.toFin

/-- One byte of the settlement contract's loop. -/
def tableByte (crc : UInt16) (byte : UInt8) : UInt16 :=
  (crc <<< 8) ^^^ Settlement.crc16Table[((crc >>> 8).toUInt8 ^^^ byte).toNat]!

theorem tableByte_toBitVec (crc : UInt16) (byte : UInt8) :
    (tableByte crc byte).toBitVec =
      (crc.toBitVec <<< 8) ^^^ Crc.rounds 0x1021#16 8
        (((crc.toBitVec >>> 8).setWidth 8 ^^^ byte.toBitVec).setWidth 16 <<< 8) := by
  have entry := crc16Table_eq ((crc.toBitVec >>> 8).setWidth 8 ^^^ byte.toBitVec)
  rw [← entry, tableByte, UInt16.toBitVec_xor]
  rfl

theorem crc16Byte_low {crc : BitVec 32} {table : UInt16}
    (same : crc.setWidth 16 = table.toBitVec) (byte : UInt8) :
    (crc16Byte crc byte).setWidth 16 = (tableByte table byte).toBitVec := by
  have moved : (byte.toBitVec.setWidth 32 <<< 8).setWidth 16 = byte.toBitVec.setWidth 16 <<< 8 := by
    rw [setWidth_shiftLeft (by decide), BitVec.setWidth_setWidth_of_le _ (by decide)]
  rw [crc16Byte, crc16Bits_low, tableByte_toBitVec, BitVec.setWidth_xor, same, moved]
  exact Crc.rounds_byte 0x1021#16 (by decide) table.toBitVec byte.toBitVec

/-- The two loops keep the same register. -/
theorem crc16_foldl (data : Bytes) {crc : BitVec 32} {table : UInt16}
    (same : crc.setWidth 16 = table.toBitVec) :
    (data.foldl crc16Byte crc).setWidth 16 = (data.foldl tableByte table).toBitVec := by
  induction data generalizing crc table with
  | nil => exact same
  | cons byte rest ih => exact ih (crc16Byte_low same byte)

/-! ## Base32 -/

def base32Alphabet : JsString := js "ABCDEFGHIJKLMNOPQRSTUVWXYZ234567"

/-- The local variables of the loop; `buf` is an `int32` that keeps its old bits. -/
structure Base32 where
  buf : BitVec 32
  bitsLeft : Nat
  out : Bytes

def Base32.push (b : Base32) (val : Nat) : Base32 :=
  let buf := (b.buf <<< 5) ||| BitVec.ofNat 32 val
  let bitsLeft := b.bitsLeft + 5
  if 8 ≤ bitsLeft then
    { buf
      bitsLeft := bitsLeft - 8
      out := b.out ++ [UInt8.ofNat ((buf.sshiftRight (bitsLeft - 8)) &&& 0xff#32).toNat] }
  else { buf, bitsLeft, out := b.out }

/-- The loop.  It runs over code points, but a surrogate is in no alphabet, with its other
    half or without. -/
def Base32.run (b : Base32) : JsString → Option Base32
  | [] => some b
  | ch :: rest => do
      let val ← base32Alphabet.idxOf? ch
      (b.push val).run rest

/-- The output array has exactly the length that the loop fills. -/
def base32Decode (input : JsString) : Option Bytes :=
  if input.length * 5 % 8 ≠ 0 then none else (Base32.run ⟨0, 0, []⟩ input).map Base32.out

theorem base32Value_of_idxOf {ch : UInt16} {val : Nat} (found : base32Alphabet.idxOf? ch = some val) :
    ch.toNat < 128 ∧ val < 32 ∧
      Settlement.base32Value ch.toUInt8 = some (UInt8.ofNat val) := by
  have entries : ∀ i : Fin 32, base32Alphabet[i.val]!.toNat < 128 ∧
      Settlement.base32Value (base32Alphabet[i.val]!).toUInt8 = some (UInt8.ofNat i.val) := by
    decide +kernel
  rw [List.idxOf?, List.findIdx?_eq_some_iff_getElem] at found
  obtain ⟨inside, here, -⟩ := found
  have small : val < 32 := inside
  have entry := entries ⟨val, small⟩
  have same : base32Alphabet[val]! = ch := by
    rw [getElem!_pos base32Alphabet val inside]
    exact beq_iff_eq.mp here
  rw [same] at entry
  exact ⟨entry.1, small, entry.2⟩

/-- The two decoders keep the same bits, as far as the narrower one has them. -/
structure SameBits (b : Base32) (d : Settlement.Decoder) : Prop where
  buf : b.buf = d.bitBuffer.setWidth 32
  bitsLeft : b.bitsLeft = d.bitsInBuffer
  few : b.bitsLeft < 8
  out : b.out = d.payload

theorem and_ff_toNat (x : BitVec 32) : (x &&& 0xff#32).toNat = (x.setWidth 8).toNat := by
  rw [BitVec.toNat_and, BitVec.toNat_setWidth]
  exact Nat.and_two_pow_sub_one_eq_mod x.toNat 8

/-- The byte taken from the 64-bit buffer is the one taken from its low half, sign and all. -/
theorem shifted_byte (x : BitVec 64) {k : Nat} (few : k < 8) :
    (((x.setWidth 32).sshiftRight k) &&& 0xff#32).toNat = ((x >>> k) &&& 0xFF#64).toNat := by
  have wide : ((x >>> k) &&& 0xFF#64).toNat = ((x >>> k).setWidth 8).toNat := by
    rw [BitVec.toNat_and, BitVec.toNat_setWidth]
    exact Nat.and_two_pow_sub_one_eq_mod (x >>> k).toNat 8
  rw [and_ff_toNat, wide]
  congr 1
  apply BitVec.eq_of_getLsbD_eq
  intro i inside
  have low : i < 32 := by omega
  have inLow : k + i < 32 := by omega
  simp only [BitVec.getLsbD_setWidth, BitVec.getLsbD_sshiftRight, BitVec.getLsbD_ushiftRight, inside,
    decide_true, Bool.true_and, inLow, if_true]
  simp [low]

theorem SameBits.push {b : Base32} {d : Settlement.Decoder} (same : SameBits b d) {val : Nat}
    (small : val < 32) : SameBits (b.push val) (d.push (UInt8.ofNat val)) := by
  have value : (UInt8.ofNat val).toNat = val := by
    rw [UInt8.toNat_ofNat']
    omega
  have buf : (b.buf <<< 5) ||| BitVec.ofNat 32 val =
      ((d.bitBuffer <<< 5) ||| BitVec.ofNat 64 (UInt8.ofNat val).toNat).setWidth 32 := by
    rw [value, same.buf, BitVec.setWidth_or, setWidth_shiftLeft (by decide),
      BitVec.setWidth_ofNat_of_le (by decide)]
  have bitsLeft := same.bitsLeft
  have few := same.few
  unfold Base32.push Settlement.Decoder.push
  rw [same.bitsLeft] at few ⊢
  by_cases full : 8 ≤ d.bitsInBuffer + 5
  · simp only [full, if_true]
    constructor
    case buf => exact buf
    case bitsLeft => rfl
    case few =>
      show d.bitsInBuffer + 5 - 8 < 8
      omega
    case out =>
      show b.out ++ _ = d.payload ++ _
      rw [same.out, buf, shifted_byte _ (by omega)]
      rfl
  · simp only [full, if_false]
    constructor
    case buf => exact buf
    case bitsLeft => rfl
    case few =>
      show d.bitsInBuffer + 5 < 8
      omega
    case out => exact same.out

theorem SameBits.run {b b' : Base32} {d : Settlement.Decoder} (same : SameBits b d) {s : JsString}
    (ran : b.run s = some b') :
    (∀ unit ∈ s, unit.toNat < 128) ∧
      ∃ d', d.run (s.map (·.toUInt8)) = some d' ∧ SameBits b' d' := by
  induction s generalizing b d with
  | nil =>
      obtain rfl := Option.some.inj ran
      exact ⟨fun unit member => absurd member List.not_mem_nil, d, rfl, same⟩
  | cons ch rest ih =>
      simp only [Base32.run, Option.bind_eq_bind, Option.bind_eq_some_iff] at ran
      obtain ⟨val, found, ran⟩ := ran
      obtain ⟨plain, small, value⟩ := base32Value_of_idxOf found
      obtain ⟨rest_plain, d', runs, last⟩ := ih (same.push small) ran
      refine ⟨?_, d', ?_, last⟩
      · intro unit member
        rcases List.mem_cons.mp member with rfl | member
        · exact plain
        · exact rest_plain unit member
      · simp only [List.map_cons, Settlement.Decoder.run, value, Option.bind_eq_bind,
          Option.bind_some]
        exact runs

/-- Five bits go in for each character and come out as bytes. -/
theorem Base32.run_length {b b' : Base32} {s : JsString} (few : b.bitsLeft < 8)
    (ran : b.run s = some b') :
    b'.out.length * 8 + b'.bitsLeft = b.out.length * 8 + b.bitsLeft + 5 * s.length ∧
      b'.bitsLeft < 8 := by
  induction s generalizing b with
  | nil =>
      obtain rfl := Option.some.inj ran
      exact ⟨rfl, few⟩
  | cons ch rest ih =>
      simp only [Base32.run, Option.bind_eq_bind, Option.bind_eq_some_iff] at ran
      obtain ⟨val, -, ran⟩ := ran
      have pushed : (b.push val).out.length * 8 + (b.push val).bitsLeft =
          b.out.length * 8 + b.bitsLeft + 5 ∧ (b.push val).bitsLeft < 8 := by
        unfold Base32.push
        by_cases full : 8 ≤ b.bitsLeft + 5
        · simp only [full, if_true, List.length_append, List.length_singleton]
          omega
        · simp only [full, if_false]
          omega
      have later := ih pushed.2 ran
      rw [List.length_cons]
      omega

/-! ## Strkeys -/

def isValidStrkey (value : JsString) (expectedVersion : UInt8) : Bool :=
  match base32Decode value with
  | none => false
  | some decoded =>
      if decoded.length < 3 then false
      else if decoded.head? ≠ some expectedVersion then false
      else
        let payload := decoded.take (decoded.length - 2)
        let checksum : BitVec 32 :=
          (decoded.getD (decoded.length - 2) 0).toBitVec.setWidth 32
            ||| ((decoded.getD (decoded.length - 1) 0).toBitVec.setWidth 32 <<< 8)
        crc16 payload == checksum

theorem isValidStrkey_decoded {value : JsString} {expectedVersion : UInt8}
    (valid : isValidStrkey value expectedVersion = true) :
    ∃ decoded, base32Decode value = some decoded ∧ decoded.head? = some expectedVersion ∧
      crc16 (decoded.take (decoded.length - 2)) =
        ((decoded.getD (decoded.length - 2) 0).toBitVec.setWidth 32
          ||| ((decoded.getD (decoded.length - 1) 0).toBitVec.setWidth 32 <<< 8)) := by
  unfold isValidStrkey at valid
  cases decode : base32Decode value with
  | none =>
      rw [decode] at valid
      cases valid
  | some decoded =>
      rw [decode] at valid
      dsimp only at valid
      split at valid
      · cases valid
      · split at valid
        · cases valid
        · rename_i version
          exact ⟨decoded, rfl, not_not.mp version, beq_iff_eq.mp valid⟩

/-- The two checksum bytes, low byte first, against the register as one number. -/
theorem checksum_of_crc16 {data : Bytes} {low high : UInt8}
    (same : crc16 data = (low.toBitVec.setWidth 32 ||| (high.toBitVec.setWidth 32 <<< 8))) :
    Settlement.checksum data = [low, high] := by
  have registers := crc16_foldl data (show (0 : BitVec 32).setWidth 16 = (0 : UInt16).toBitVec from rfl)
  have masked : (crc16 data).setWidth 16 = (data.foldl tableByte 0).toBitVec := by
    rw [← registers, crc16, BitVec.setWidth_and]
    exact BitVec.and_allOnes
  have bits : (data.foldl tableByte 0).toBitVec =
      (low.toBitVec.setWidth 16 ||| (high.toBitVec.setWidth 16 <<< 8)) := by
    rw [← masked, same, BitVec.setWidth_or, setWidth_shiftLeft (by decide),
      BitVec.setWidth_setWidth_of_le _ (by decide), BitVec.setWidth_setWidth_of_le _ (by decide)]
  have first : ((data.foldl tableByte 0) &&& 0xff).toUInt8 = low := by
    apply UInt8.eq_of_toBitVec_eq
    have out : high.toBitVec.setWidth 8 <<< 8 = 0#8 := BitVec.shiftLeft_eq_zero (Nat.le_refl 8)
    rw [UInt16.toBitVec_toUInt8, UInt16.toBitVec_and, bits, BitVec.setWidth_and, BitVec.setWidth_or,
      setWidth_shiftLeft (by decide), BitVec.setWidth_setWidth_of_le _ (by decide),
      BitVec.setWidth_setWidth_of_le _ (by decide), out, BitVec.or_zero, BitVec.setWidth_eq]
    exact BitVec.and_allOnes
  have second : ((data.foldl tableByte 0) >>> 8).toUInt8 = high := by
    apply UInt8.eq_of_toBitVec_eq
    rw [UInt16.toBitVec_toUInt8, UInt16.toBitVec_shiftRight, bits]
    apply BitVec.eq_of_getLsbD_eq
    intro i inside
    have fits : 8 + i < 16 := by omega
    simp [inside, fits]
  show [((data.foldl tableByte 0) &&& 0xff).toUInt8, ((data.foldl tableByte 0) >>> 8).toUInt8] = _
  rw [first, second]

theorem field_last_two {bytes : Bytes} (length : bytes.length = 35) :
    field bytes 33 2 = [bytes.getD 33 0, bytes.getD 34 0] := by
  apply List.ext_getElem
  · rw [field_length (by omega)]
    rfl
  · intro i inside _
    rw [field_length (by omega)] at inside
    have first : i = 0 ∨ i = 1 := by omega
    rcases first with rfl | rfl
    · simp [field, length]
    · simp [field, length]

/-- What the SDK takes for a strkey is ASCII and, byte for byte, a strkey. -/
theorem isValidStrkey_settlement {value : JsString} {expectedVersion : UInt8}
    (length : value.length = 56)
    (announced : Settlement.announcedVersion (value.map (·.toUInt8)) = some expectedVersion)
    (valid : isValidStrkey value expectedVersion = true) :
    (∀ unit ∈ value, unit.toNat < 128) ∧
      Settlement.isValidStrkey (value.map (·.toUInt8)) = true := by
  obtain ⟨decoded, decodes, version, crc⟩ := isValidStrkey_decoded valid
  unfold base32Decode at decodes
  rw [length, if_neg (by decide), Option.map_eq_some_iff] at decodes
  obtain ⟨b, ran, rfl⟩ := decodes
  have start : SameBits ⟨0, 0, []⟩ ⟨0, 0, []⟩ := ⟨rfl, rfl, by decide, rfl⟩
  obtain ⟨plain, d, runs, same⟩ := start.run ran
  obtain ⟨bits, few⟩ := Base32.run_length (by decide) ran
  have bytes : b.out.length = 35 := by
    rw [length] at bits
    simp only [List.length_nil] at bits
    omega
  refine ⟨plain, ?_⟩
  have decoded : (Settlement.decodeStrkey (value.map (·.toUInt8))).isSome := by
    rw [Option.isSome_iff_exists]
    refine ⟨_, Settlement.decodeStrkey_some.mpr ⟨by rw [List.length_map, length], expectedVersion,
      announced, d, runs, ?_, ?_, rfl⟩⟩
    · rw [← same.out]
      exact version
    · rw [← same.out]
      rw [bytes] at crc
      rw [checksum_of_crc16 crc, field_last_two bytes]
  exact decoded

/-- 71 is `G` and 67 is `C`. -/
def isStellarAddress (value : JsString) : Bool :=
  if value.length ≠ 56 then false
  else if value.head? = some 71 then isValidStrkey value 0x30
  else if value.head? = some 67 then isValidStrkey value 0x10
  else false

/-- `[version, key]` of a `G` or a `C` strkey. -/
def decodeStrkey (value : JsString) : Option (UInt8 × Bytes) := do
  let decoded ← base32Decode value
  if decoded.length ≠ 35 then none
  else
    let version := decoded.getD 0 0
    if version ≠ 0x30 ∧ version ≠ 0x10 then none
    else
      let payload := decoded.take 33
      let checksum : BitVec 32 :=
        (decoded.getD 33 0).toBitVec.setWidth 32 ||| ((decoded.getD 34 0).toBitVec.setWidth 32 <<< 8)
      if crc16 payload ≠ checksum then none
      else some (version, field decoded 1 32)

theorem announcedVersion_head {value : JsString} {first : UInt8} {version : UInt8}
    (head : (value.map (·.toUInt8)).head? = some first)
    (known : first = 71 ∧ version = 0x30 ∨ first = 67 ∧ version = 0x10) :
    Settlement.announcedVersion (value.map (·.toUInt8)) = some version := by
  unfold Settlement.announcedVersion
  rw [head]
  rcases known with ⟨rfl, rfl⟩ | ⟨rfl, rfl⟩
  · rfl
  · rfl

/-- A 56-character `G` or `C` text with a valid checksum, on both sides. -/
theorem strkey_settlement {value : JsString} {first : UInt16} {version : UInt8}
    (length : value.length = 56) (head : value.head? = some first)
    (known : first = 71 ∧ version = 0x30 ∨ first = 67 ∧ version = 0x10)
    (valid : isValidStrkey value version = true) :
    (∀ unit ∈ value, unit.toNat < 128) ∧
      Settlement.isValidStrkey (value.map (·.toUInt8)) = true := by
  have encoded : (value.map (·.toUInt8)).head? = some first.toUInt8 := by
    rw [List.head?_map, head]
    rfl
  refine isValidStrkey_settlement length (announcedVersion_head encoded ?_) valid
  rcases known with ⟨rfl, rfl⟩ | ⟨rfl, rfl⟩
  · exact Or.inl ⟨rfl, rfl⟩
  · exact Or.inr ⟨rfl, rfl⟩

/-- An address that the SDK takes reaches the settlement contract as a strkey. -/
theorem isStellarAddress_settlement {value : JsString} (accepted : isStellarAddress value = true) :
    (textEncode value).length = 56 ∧ Settlement.isValidStrkey (textEncode value) = true := by
  unfold isStellarAddress at accepted
  split at accepted
  · cases accepted
  · rename_i given
    have length : value.length = 56 := not_not.mp given
    have strkey : (∀ unit ∈ value, unit.toNat < 128) ∧
        Settlement.isValidStrkey (value.map (·.toUInt8)) = true := by
      split at accepted
      · rename_i head
        exact strkey_settlement length head (Or.inl ⟨rfl, rfl⟩) accepted
      · split at accepted
        · rename_i head
          exact strkey_settlement length head (Or.inr ⟨rfl, rfl⟩) accepted
        · cases accepted
    rw [textEncode_ascii strkey.1]
    exact ⟨by rw [List.length_map, length], strkey.2⟩

/-! ## Asset identifiers -/

/-- `/^[A-Za-z0-9]{1,12}$/`. -/
def isAssetCode (code : JsString) : Bool :=
  1 ≤ code.length && code.length ≤ 12 &&
    code.all fun unit => (65 ≤ unit && unit ≤ 90) || (97 ≤ unit && unit ≤ 122)
      || (48 ≤ unit && unit ≤ 57)

/-- 58 is the colon. -/
def isStellarAsset (value : JsString) : Bool :=
  if value = js "native" then true
  else match value.idxOf? 58 with
    | none => value.length = 56 && value.head? = some 67 && isValidStrkey value 0x10
    | some colon =>
        let code := value.take colon
        let issuer := value.drop (colon + 1)
        if ¬ isAssetCode code then false
        else issuer.length = 56 && issuer.head? = some 71 && isValidStrkey issuer 0x30

/-- A letter or a digit is one on both sides, and is not the colon. -/
theorem alphanumeric_settlement {unit : UInt16}
    (plain : ((65 ≤ unit && unit ≤ 90) || (97 ≤ unit && unit ≤ 122)
      || (48 ≤ unit && unit ≤ 57)) = true) :
    unit.toNat < 128 ∧ Settlement.isAsciiAlphanumeric unit.toUInt8 = true ∧
      unit.toUInt8 ≠ 58 := by
  have entries : ∀ i : Fin 128, ((65 ≤ i.val ∧ i.val ≤ 90) ∨ (97 ≤ i.val ∧ i.val ≤ 122) ∨
      (48 ≤ i.val ∧ i.val ≤ 57)) →
        Settlement.isAsciiAlphanumeric (UInt8.ofNat i.val) = true ∧ UInt8.ofNat i.val ≠ 58 := by
    decide +kernel
  simp only [Bool.or_eq_true, Bool.and_eq_true, decide_eq_true_iff, UInt16.le_iff_toNat_le,
    UInt16.reduceToNat] at plain
  have small : unit.toNat < 128 := by omega
  have same : unit.toUInt8 = UInt8.ofNat unit.toNat := rfl
  have entry := entries ⟨unit.toNat, small⟩
  dsimp only at entry
  rw [same]
  exact ⟨small, entry (by omega)⟩

theorem isAssetCode_settlement {code : JsString} (accepted : isAssetCode code = true) :
    (1 ≤ code.length ∧ code.length ≤ 12) ∧ (∀ unit ∈ code, unit.toNat < 128) ∧
      (code.map (·.toUInt8)).all Settlement.isAsciiAlphanumeric ∧
      ∀ byte ∈ code.map (·.toUInt8), (byte != 58) = true := by
  simp only [isAssetCode, Bool.and_eq_true, decide_eq_true_iff, List.all_eq_true] at accepted
  obtain ⟨length, plain⟩ := accepted
  refine ⟨length, fun unit member => (alphanumeric_settlement (by simpa using plain unit member)).1,
    ?_, ?_⟩
  · rw [List.all_map, List.all_eq_true]
    intro unit member
    exact (alphanumeric_settlement (by simpa using plain unit member)).2.1
  · intro byte member
    obtain ⟨unit, given, rfl⟩ := List.mem_map.mp member
    exact bne_iff_ne.mpr (alphanumeric_settlement (by simpa using plain unit given)).2.2

theorem not_native {id : Bytes} (long : 7 ≤ id.length) : id ≠ ascii "native" := by
  rintro rfl
  revert long
  decide

/-- `CODE:ISSUER`, told apart at the colon. -/
theorem classic_settlement {code issuer : Bytes}
    (length : 1 ≤ code.length ∧ code.length ≤ 12)
    (plain : code.all Settlement.isAsciiAlphanumeric)
    (noColon : ∀ byte ∈ code, (byte != 58) = true) (head : issuer.head? = some 71)
    (valid : Settlement.isValidStrkey issuer = true) (issuerLength : issuer.length = 56) :
    (Settlement.DestAsset.parse (code ++ 58 :: issuer)).isSome := by
  have before : (code ++ 58 :: issuer).takeWhile (· != 58) = code := by
    rw [List.takeWhile_append_of_pos noColon, List.takeWhile_cons_of_neg (by decide),
      List.append_nil]
  have after : (code ++ 58 :: issuer).dropWhile (· != 58) = 58 :: issuer := by
    rw [List.dropWhile_append_of_pos noColon, List.dropWhile_cons_of_neg (by decide)]
  have long : 7 ≤ (code ++ 58 :: issuer).length := by
    rw [List.length_append, List.length_cons]
    omega
  have colon : 58 ∈ code ++ 58 :: issuer := List.mem_append_right _ List.mem_cons_self
  rw [Settlement.DestAsset.parse_isSome (not_native long), if_pos colon, before, after]
  refine ⟨?_, length.2, plain, head, valid⟩
  rintro rfl
  exact absurd length.1 (by decide)

/-- A contract strkey has no colon in it. -/
theorem contract_settlement {value : JsString} (absent : value.idxOf? 58 = none)
    (length : value.length = 56) (head : value.head? = some 67)
    (valid : isValidStrkey value 0x10 = true) :
    (Settlement.DestAsset.parse (textEncode value)).isSome ∧ (textEncode value).length ≠ 0 ∧
      (textEncode value).length ≤ Settlement.maxDestAssetLen := by
  obtain ⟨plain, strkey⟩ := strkey_settlement length head (Or.inr ⟨rfl, rfl⟩) valid
  have encoded : (value.map (·.toUInt8)).length = 56 := by rw [List.length_map, length]
  have noColon : (58 : UInt8) ∉ value.map (·.toUInt8) := by
    intro member
    obtain ⟨unit, member, same⟩ := List.mem_map.mp member
    have small := plain unit member
    have colon : unit = 58 := by
      apply UInt16.toNat_inj.mp
      have low := congrArg UInt8.toNat same
      rw [UInt16.toNat_toUInt8] at low
      simp only [UInt8.reduceToNat, UInt16.reduceToNat] at low ⊢
      omega
    rw [List.idxOf?_eq_none_iff] at absent
    exact absent (colon ▸ member)
  rw [textEncode_ascii plain,
    Settlement.DestAsset.parse_isSome (not_native (by omega)), if_neg noColon]
  refine ⟨⟨?_, strkey⟩, by omega, ?_⟩
  · rw [List.head?_map, head]
    rfl
  · rw [encoded]
    decide

/-- Plain text is encoded unit by unit, on both sides of the colon. -/
theorem textEncode_colon {value : JsString} {colon : Nat} (found : value.idxOf? 58 = some colon)
    (before : ∀ unit ∈ value.take colon, unit.toNat < 128)
    (after : ∀ unit ∈ value.drop (colon + 1), unit.toNat < 128) :
    textEncode value =
      (value.take colon).map (·.toUInt8) ++ 58 :: (value.drop (colon + 1)).map (·.toUInt8) := by
  obtain ⟨inside, here, -⟩ := List.idxOf?_eq_some_iff.mp found
  have parts : value = value.take colon ++ 58 :: value.drop (colon + 1) := by
    rw [← here, ← List.drop_eq_getElem_cons inside, List.take_append_drop]
  have plain : ∀ unit ∈ value, unit.toNat < 128 := by
    intro unit member
    rw [parts] at member
    rcases List.mem_append.mp member with member | member
    · exact before unit member
    · rcases List.mem_cons.mp member with rfl | member
      · decide
      · exact after unit member
  rw [textEncode_ascii plain]
  conv => lhs; rw [parts]
  rw [List.map_append, List.map_cons]
  rfl

theorem coded_settlement {value : JsString} {colon : Nat} (found : value.idxOf? 58 = some colon)
    (coded : isAssetCode (value.take colon) = true)
    (length : (value.drop (colon + 1)).length = 56)
    (head : (value.drop (colon + 1)).head? = some 71)
    (valid : isValidStrkey (value.drop (colon + 1)) 0x30 = true) :
    (Settlement.DestAsset.parse (textEncode value)).isSome ∧ (textEncode value).length ≠ 0 ∧
      (textEncode value).length ≤ Settlement.maxDestAssetLen := by
  obtain ⟨codeLength, codePlain, alphanumeric, noColon⟩ := isAssetCode_settlement coded
  obtain ⟨plain, strkey⟩ := strkey_settlement length head (Or.inl ⟨rfl, rfl⟩) valid
  have issuerHead : ((value.drop (colon + 1)).map (·.toUInt8)).head? = some 71 := by
    rw [List.head?_map, head]
    rfl
  rw [textEncode_colon found codePlain plain]
  refine ⟨classic_settlement (by rw [List.length_map]; exact codeLength) alphanumeric noColon
    issuerHead strkey (by rw [List.length_map, length]), ?_, ?_⟩
  · simp
  · rw [List.length_append, List.length_cons, List.length_map, List.length_map, length]
    have bound : Settlement.maxDestAssetLen = 69 := rfl
    omega

/-- What the SDK takes for an asset is a canonical identifier of the settlement contract. -/
theorem isStellarAsset_settlement {value : JsString} (accepted : isStellarAsset value = true) :
    (Settlement.DestAsset.parse (textEncode value)).isSome ∧ (textEncode value).length ≠ 0 ∧
      (textEncode value).length ≤ Settlement.maxDestAssetLen := by
  unfold isStellarAsset at accepted
  split at accepted
  · rename_i native
    subst native
    have encoded : textEncode (js "native") = ascii "native" := by decide
    rw [encoded]
    exact ⟨rfl, by decide, by decide⟩
  · split at accepted
    · rename_i absent
      simp only [Bool.and_eq_true, decide_eq_true_iff] at accepted
      obtain ⟨⟨length, head⟩, valid⟩ := accepted
      exact contract_settlement absent length head valid
    · rename_i colon found
      dsimp only at accepted
      split at accepted
      · cases accepted
      · rename_i coded
        simp only [Bool.and_eq_true, decide_eq_true_iff] at accepted
        obtain ⟨⟨length, head⟩, valid⟩ := accepted
        exact coded_settlement found (not_not.mp coded) length head valid

end Perihelion.Sdk

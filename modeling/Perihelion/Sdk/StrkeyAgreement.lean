import Perihelion.Sdk.Stellar

/-! # One strkey language on both chains

The text that a signer checks is a JavaScript string and the settlement contract sees its
UTF-8 bytes.  Only ASCII is accepted on either side, and on ASCII the two loops go through
the same values, so both sides accept the same texts and read the same key out of them.
-/

namespace Perihelion.Sdk

open BigEndian

/-! ## Back from the bytes to the text -/

/-- Every byte of a longer sequence is past ASCII; its last one is enough here. -/
theorem utf8_ascii {codePoint : Nat} (plain : ∀ byte ∈ utf8 codePoint, byte.toNat < 128) :
    codePoint < 128 := by
  have tail : (UInt8.ofNat (0x80 + codePoint % 0x40)).toNat = 128 + codePoint % 64 := by
    rw [UInt8.toNat_ofNat']
    omega
  by_contra long
  have last : UInt8.ofNat (0x80 + codePoint % 0x40) ∈ utf8 codePoint := by
    unfold utf8
    rw [if_neg long]
    split
    · simp
    · split
      · simp
      · simp
  have small := plain _ last
  omega

theorem encodeUnit_plain {unit : UInt16} (plain : ∀ byte ∈ encodeUnit unit, byte.toNat < 128) :
    unit.toNat < 128 := by
  unfold encodeUnit at plain
  split at plain
  · exact absurd (utf8_ascii plain) (by decide)
  · exact utf8_ascii plain

/-- Only ASCII text encodes to ASCII. -/
theorem textEncode_plain {s : JsString} (plain : ∀ byte ∈ textEncode s, byte.toNat < 128) :
    ∀ unit ∈ s, unit.toNat < 128 := by
  fun_induction textEncode s with
  | case1 => exact fun unit member => absurd member List.not_mem_nil
  | case2 unit =>
      intro other member
      rw [List.mem_singleton.mp member]
      exact encodeUnit_plain plain
  | case3 high low rest pair ih =>
      have small := utf8_ascii fun byte member => plain byte (List.mem_append_left _ member)
      omega
  | case4 high low rest pair ih =>
      intro unit member
      rcases List.mem_cons.mp member with rfl | member
      · exact encodeUnit_plain fun byte member => plain byte (List.mem_append_left _ member)
      · exact ih (fun byte member => plain byte (List.mem_append_right _ member)) unit member

/-- An ASCII unit is known by its byte. -/
theorem toUInt8_inj {a b : UInt16} (left : a.toNat < 128) (right : b.toNat < 128)
    (same : a.toUInt8 = b.toUInt8) : a = b := by
  apply UInt16.toNat_inj.mp
  have low := congrArg UInt8.toNat same
  rw [UInt16.toNat_toUInt8, UInt16.toNat_toUInt8] at low
  omega

/-! ## Base32 -/

theorem idxOf_of_base32Value {ch : UInt16} {value : UInt8} (plain : ch.toNat < 128)
    (known : Settlement.base32Value ch.toUInt8 = some value) :
    base32Alphabet.idxOf? ch = some value.toNat ∧ value.toNat < 32 := by
  have entries : ∀ i : Fin 128,
      (Settlement.base32Value (UInt16.ofNat i.val).toUInt8).all fun value =>
        base32Alphabet.idxOf? (UInt16.ofNat i.val) == some value.toNat && decide (value.toNat < 32) := by
    decide +kernel
  have entry := entries ⟨ch.toNat, plain⟩
  rw [UInt16.ofNat_toNat, known, Option.all_some, Bool.and_eq_true] at entry
  exact ⟨beq_iff_eq.mp entry.1, of_decide_eq_true entry.2⟩

theorem base32Value_plain {c : UInt8} {value : UInt8} (known : Settlement.base32Value c = some value) :
    c.toNat < 128 := by
  unfold Settlement.base32Value at known
  simp only [UInt8.le_iff_toNat_le, UInt8.reduceToNat] at known
  split at known
  · omega
  · split at known
    · omega
    · cases known

theorem decoder_run_plain {d d' : Settlement.Decoder} {s : Bytes} (ran : d.run s = some d') :
    ∀ byte ∈ s, byte.toNat < 128 := by
  induction s generalizing d with
  | nil => exact fun byte member => absurd member List.not_mem_nil
  | cons c rest ih =>
      simp only [Settlement.Decoder.run, Option.bind_eq_bind, Option.bind_eq_some_iff] at ran
      obtain ⟨value, known, ran⟩ := ran
      intro byte member
      rcases List.mem_cons.mp member with rfl | member
      · exact base32Value_plain known
      · exact ih ran byte member

/-- What the contract's loop gets through, the client's gets through with the same bits. -/
theorem SameBits.run_back {b : Base32} {d d' : Settlement.Decoder} (same : SameBits b d) {s : JsString}
    (plain : ∀ unit ∈ s, unit.toNat < 128) (ran : d.run (s.map (·.toUInt8)) = some d') :
    ∃ b', b.run s = some b' ∧ SameBits b' d' := by
  induction s generalizing b d with
  | nil =>
      obtain rfl := Option.some.inj ran
      exact ⟨b, rfl, same⟩
  | cons ch rest ih =>
      simp only [List.map_cons, Settlement.Decoder.run, Option.bind_eq_bind,
        Option.bind_eq_some_iff] at ran
      obtain ⟨value, known, ran⟩ := ran
      obtain ⟨found, small⟩ := idxOf_of_base32Value (plain ch List.mem_cons_self) known
      have pushed := same.push small
      rw [UInt8.ofNat_toNat] at pushed
      obtain ⟨b', runs, last⟩ :=
        ih pushed (fun unit member => plain unit (List.mem_cons_of_mem _ member)) ran
      refine ⟨b', ?_, last⟩
      simp only [Base32.run, found, Option.bind_eq_bind, Option.bind_some]
      exact runs

/-! ## CRC -/

/-- `2^k - 1` masks the low `k` bits. -/
theorem getLsbD_mask {w k : Nat} (narrow : k ≤ w) (i : Nat) :
    ((BitVec.allOnes k).setWidth w).getLsbD i = decide (i < k) := by
  rw [BitVec.getLsbD_setWidth, BitVec.getLsbD_allOnes]
  by_cases low : i < k
  · simp [low, Nat.lt_of_lt_of_le low narrow]
  · simp [low]

/-- The masked register is the table's, with nothing above it. -/
theorem crc16_getLsbD (data : Bytes) (i : Nat) :
    (crc16 data).getLsbD i = (data.foldl tableByte 0).toBitVec.getLsbD i := by
  have registers := crc16_foldl data (show (0 : BitVec 32).setWidth 16 = (0 : UInt16).toBitVec from rfl)
  rw [← registers, crc16, BitVec.getLsbD_and, BitVec.getLsbD_setWidth, Bool.and_comm]
  have narrow : 16 ≤ 32 := by decide
  have mask : (0xffff#32).getLsbD i = decide (i < 16) := getLsbD_mask narrow i
  rw [mask]

/-- The register as one number, from the two checksum bytes. -/
theorem crc16_of_checksum {data : Bytes} {low high : UInt8}
    (same : Settlement.checksum data = [low, high]) :
    crc16 data = (low.toBitVec.setWidth 32 ||| (high.toBitVec.setWidth 32 <<< 8)) := by
  have bytes : [((data.foldl tableByte 0) &&& 0xff).toUInt8, ((data.foldl tableByte 0) >>> 8).toUInt8] =
    [low, high] := same
  obtain ⟨rfl, rest⟩ := List.cons.inj bytes
  obtain ⟨rfl, -⟩ := List.cons.inj rest
  apply BitVec.eq_of_getLsbD_eq
  intro i inside
  rw [crc16_getLsbD]
  generalize data.foldl tableByte 0 = register
  have narrow : 8 ≤ 16 := by decide
  have mask : (UInt16.toBitVec 255).getLsbD i = decide (i < 8) := getLsbD_mask narrow i
  simp only [UInt16.toBitVec_toUInt8, UInt16.toBitVec_and, UInt16.toBitVec_shiftRight,
    BitVec.getLsbD_or, BitVec.getLsbD_setWidth, BitVec.getLsbD_shiftLeft, BitVec.getLsbD_and, inside,
    decide_true, Bool.true_and, mask]
  by_cases first : i < 8
  · simp [first]
  · by_cases second : i < 16
    · have near : i - 8 < 8 := by omega
      have there : 8 + (i - 8) = i := by omega
      have wide : i - 8 < 32 := by omega
      simp [first, near, wide, there]
    · have above : ¬ i - 8 < 8 := by omega
      rw [BitVec.getLsbD_of_ge _ _ (by omega)]
      simp [first, above]

theorem checksum_iff {data : Bytes} {low high : UInt8} :
    Settlement.checksum data = [low, high] ↔
      crc16 data = (low.toBitVec.setWidth 32 ||| (high.toBitVec.setWidth 32 <<< 8)) :=
  ⟨crc16_of_checksum, checksum_of_crc16⟩

/-! ## Strkeys -/

/-- 56 characters are 35 bytes. -/
theorem Base32.run_strkey {b : Base32} {s : JsString} (ran : Base32.run ⟨0, 0, []⟩ s = some b) :
    b.out.length = 35 ↔ s.length = 56 ∨ s.length = 57 := by
  obtain ⟨bits, few⟩ := Base32.run_length (by decide) ran
  simp only [List.length_nil] at bits
  omega

theorem base32Decode_some {value : JsString} {decoded : Bytes} :
    base32Decode value = some decoded ↔
      value.length * 5 % 8 = 0 ∧ ∃ b, Base32.run ⟨0, 0, []⟩ value = some b ∧ b.out = decoded := by
  unfold base32Decode
  by_cases whole : value.length * 5 % 8 = 0
  · simp [whole]
  · simp [whole]

/-- What both readings of a strkey ask of its characters. -/
structure Reads (value : JsString) (version : UInt8) (decoded : Bytes) : Prop where
  length : value.length = 56
  bytes : ∃ b, Base32.run ⟨0, 0, []⟩ value = some b ∧ b.out = decoded
  version : decoded.head? = some version
  checksum : Settlement.checksum (decoded.take 33) = field decoded 33 2

theorem Reads.decoded_length {value : JsString} {version : UInt8} {decoded : Bytes}
    (reads : Reads value version decoded) : decoded.length = 35 := by
  obtain ⟨b, ran, rfl⟩ := reads.bytes
  exact (Base32.run_strkey ran).mpr (Or.inl reads.length)

theorem isValidStrkey_iff {value : JsString} {version : UInt8} (length : value.length = 56) :
    isValidStrkey value version = true ↔ ∃ decoded, Reads value version decoded := by
  constructor
  · intro valid
    obtain ⟨decoded, decodes, head, crc⟩ := isValidStrkey_decoded valid
    obtain ⟨-, b, ran, rfl⟩ := base32Decode_some.mp decodes
    have bytes : b.out.length = 35 := (Base32.run_strkey ran).mpr (Or.inl length)
    rw [bytes] at crc
    refine ⟨b.out, length, ⟨b, ran, rfl⟩, head, ?_⟩
    rw [field_last_two bytes]
    exact checksum_iff.mpr crc
  · rintro ⟨decoded, reads⟩
    have bytes := reads.decoded_length
    have decodes : base32Decode value = some decoded :=
      base32Decode_some.mpr ⟨by rw [reads.length], reads.bytes⟩
    have crc := reads.checksum
    rw [field_last_two bytes, checksum_iff] at crc
    unfold isValidStrkey
    rw [decodes]
    simp [bytes, reads.version, crc]

theorem decodeStrkey_some {value : JsString} {version : UInt8} {key : Bytes} :
    decodeStrkey value = some (version, key) ↔
      (version = 0x30 ∨ version = 0x10) ∧
        ∃ decoded, Reads value version decoded ∧ field decoded 1 32 = key := by
  constructor
  · intro ok
    simp only [decodeStrkey, Option.bind_eq_bind, Option.bind_eq_some_iff] at ok
    obtain ⟨decoded, decodes, ok⟩ := ok
    obtain ⟨whole, bytes⟩ := base32Decode_some.mp decodes
    split at ok
    · cases ok
    · rename_i long
      have decodedLength := not_not.mp long
      split at ok
      · cases ok
      · rename_i known
        split at ok
        · cases ok
        · rename_i crc
          have pair := Prod.mk.inj (Option.some.inj ok)
          obtain ⟨rfl, rfl⟩ := pair
          refine ⟨by grind, decoded, ⟨?_, bytes, ?_, ?_⟩, rfl⟩
          · obtain ⟨b, ran, rfl⟩ := bytes
            have length := (Base32.run_strkey ran).mp decodedLength
            omega
          · cases decoded with
            | nil => cases decodedLength
            | cons first rest => rfl
          · rw [field_last_two decodedLength]
            exact checksum_iff.mpr (not_not.mp crc)
  · rintro ⟨known, decoded, reads, rfl⟩
    have bytes := reads.decoded_length
    have decodes : base32Decode value = some decoded :=
      base32Decode_some.mpr ⟨by rw [reads.length], reads.bytes⟩
    have crc := reads.checksum
    rw [field_last_two bytes, checksum_iff] at crc
    have head : decoded.getD 0 0 = version := by
      rw [List.getD_eq_getElem?_getD, ← List.head?_eq_getElem?, reads.version]
      rfl
    simp only [decodeStrkey, decodes, Option.bind_eq_bind, Option.bind_some, bytes, head, crc]
    rcases known with rfl | rfl
    · simp
    · simp

/-! ## The version byte and the first character -/

theorem Base32.run_prefix {b b' : Base32} {s : JsString} (ran : b.run s = some b') :
    b.out <+: b'.out := by
  induction s generalizing b with
  | nil =>
      obtain rfl := Option.some.inj ran
      exact List.prefix_refl _
  | cons ch rest ih =>
      simp only [Base32.run, Option.bind_eq_bind, Option.bind_eq_some_iff] at ran
      obtain ⟨val, -, ran⟩ := ran
      have pushed : b.out <+: (b.push val).out := by
        unfold Base32.push
        dsimp only
        split
        · exact List.prefix_append _ _
        · exact List.prefix_refl _
      exact pushed.trans (ih ran)

/-- The first byte is the first five bits and three of the second. -/
def firstByte (first second : Nat) : UInt8 :=
  UInt8.ofNat (((((0#32 <<< 5) ||| BitVec.ofNat 32 first) <<< 5 ||| BitVec.ofNat 32 second).sshiftRight 2)
    &&& 0xff#32).toNat

theorem firstByte_known : ∀ first second : Fin 32,
    (firstByte first second = 0x30 → base32Alphabet[first.val]! = 71) ∧
      (firstByte first second = 0x10 → base32Alphabet[first.val]! = 67) := by
  decide +kernel

theorem Reads.firstByte {value : JsString} {version : UInt8} {decoded : Bytes}
    (reads : Reads value version decoded) :
    ∃ first second : Fin 32, value.head? = some base32Alphabet[first.val]! ∧
      Sdk.firstByte first second = version := by
  obtain ⟨b, ran, rfl⟩ := reads.bytes
  match value, reads.length, ran with
  | c :: c' :: rest, _, ran =>
      simp only [Base32.run, Option.bind_eq_bind, Option.bind_eq_some_iff] at ran
      obtain ⟨first, here, second, next, ran⟩ := ran
      obtain ⟨-, small, -⟩ := base32Value_of_idxOf here
      obtain ⟨-, small', -⟩ := base32Value_of_idxOf next
      obtain ⟨rest, out⟩ := Base32.run_prefix ran
      refine ⟨⟨first, small⟩, ⟨second, small'⟩, ?_, ?_⟩
      · obtain ⟨inside, same, -⟩ := List.idxOf?_eq_some_iff.mp here
        rw [List.head?_cons, getElem!_pos base32Alphabet first inside, same]
      · have head := reads.version
        rw [← out] at head
        exact Option.some.inj head

/-- The version byte is the one that the first character announces. -/
theorem Reads.announced {value : JsString} {version : UInt8} {decoded : Bytes}
    (reads : Reads value version decoded) :
    (version = 0x30 → value.head? = some 71) ∧ (version = 0x10 → value.head? = some 67) := by
  obtain ⟨first, second, head, byte⟩ := reads.firstByte
  obtain ⟨account, contract⟩ := firstByte_known first second
  rw [head, ← byte]
  exact ⟨fun same => congrArg some (account same), fun same => congrArg some (contract same)⟩

theorem announcedVersion_known {bytes : Bytes} {version : UInt8}
    (announced : Settlement.announcedVersion bytes = some version) :
    version = 0x30 ∨ version = 0x10 := by
  unfold Settlement.announcedVersion at announced
  split at announced
  · exact Or.inl (Option.some.inj announced).symm
  · split at announced
    · exact Or.inr (Option.some.inj announced).symm
    · cases announced

/-! ## The same answer on both sides -/

/-- A text of the one kind of character that either loop gets through. -/
theorem Reads.textEncode {value : JsString} {version : UInt8} {decoded : Bytes}
    (reads : Reads value version decoded) :
    Sdk.textEncode value = value.map (·.toUInt8) ∧
      ∃ d, Settlement.Decoder.run ⟨0, 0, []⟩ (value.map (·.toUInt8)) = some d ∧
        d.payload = decoded := by
  obtain ⟨b, ran, rfl⟩ := reads.bytes
  have start : SameBits ⟨0, 0, []⟩ ⟨0, 0, []⟩ := ⟨rfl, rfl, by decide, rfl⟩
  obtain ⟨plain, d, runs, same⟩ := start.run ran
  exact ⟨textEncode_ascii plain, d, runs, same.out.symm⟩

theorem reads_of_textEncode {value : JsString} {version : UInt8} {d : Settlement.Decoder}
    (length : (textEncode value).length = 56)
    (ran : Settlement.Decoder.run ⟨0, 0, []⟩ (textEncode value) = some d)
    (head : d.payload.head? = some version)
    (checksum : Settlement.checksum (d.payload.take 33) = field d.payload 33 2) :
    Reads value version d.payload := by
  have plain := textEncode_plain (decoder_run_plain ran)
  rw [textEncode_ascii plain] at length ran
  have start : SameBits ⟨0, 0, []⟩ ⟨0, 0, []⟩ := ⟨rfl, rfl, by decide, rfl⟩
  obtain ⟨b, runs, same⟩ := start.run_back plain ran
  rw [List.length_map] at length
  exact ⟨length, ⟨b, runs, same.out⟩, head, checksum⟩

/-- Both decoders give the same version and key, or both refuse. -/
theorem decodeStrkey_textEncode (value : JsString) :
    decodeStrkey value = Settlement.decodeStrkey (textEncode value) := by
  apply Option.ext
  intro decoded
  obtain ⟨version, key⟩ := decoded
  rw [decodeStrkey_some, Settlement.decodeStrkey_some]
  constructor
  · rintro ⟨known, bytes, reads, rfl⟩
    obtain ⟨encoded, d, ran, rfl⟩ := reads.textEncode
    obtain ⟨account, contract⟩ := reads.announced
    rw [encoded]
    refine ⟨by rw [List.length_map, reads.length], version, ?_, d, ran, reads.version,
      reads.checksum, rfl⟩
    rcases known with rfl | rfl
    · exact announcedVersion_head (by rw [List.head?_map, account rfl]; rfl) (Or.inl ⟨rfl, rfl⟩)
    · exact announcedVersion_head (by rw [List.head?_map, contract rfl]; rfl) (Or.inr ⟨rfl, rfl⟩)
  · rintro ⟨length, _, announced, d, ran, head, checksum, pair⟩
    obtain ⟨rfl, rfl⟩ := Prod.mk.inj pair
    exact ⟨announcedVersion_known announced, d.payload,
      reads_of_textEncode length ran head checksum, rfl⟩

theorem isValidStrkey_of_decodeStrkey {value : JsString} {version : UInt8}
    (length : value.length = 56) (known : version = 0x30 ∨ version = 0x10) :
    isValidStrkey value version = true ↔ ∃ key, decodeStrkey value = some (version, key) := by
  rw [isValidStrkey_iff length]
  constructor
  · rintro ⟨decoded, reads⟩
    exact ⟨_, decodeStrkey_some.mpr ⟨known, decoded, reads, rfl⟩⟩
  · rintro ⟨key, ok⟩
    obtain ⟨-, decoded, reads, -⟩ := decodeStrkey_some.mp ok
    exact ⟨decoded, reads⟩

theorem decodeStrkey_length {value : JsString} {version : UInt8} {key : Bytes}
    (ok : decodeStrkey value = some (version, key)) :
    value.length = 56 ∧ (version = 0x30 ∧ value.head? = some 71 ∨ version = 0x10 ∧ value.head? = some 67) := by
  obtain ⟨known, decoded, reads, -⟩ := decodeStrkey_some.mp ok
  obtain ⟨account, contract⟩ := reads.announced
  refine ⟨reads.length, ?_⟩
  rcases known with rfl | rfl
  · exact Or.inl ⟨rfl, account rfl⟩
  · exact Or.inr ⟨rfl, contract rfl⟩

/-- 71 is `G` and 67 is `C`. -/
theorem isStellarAddress_iff (value : JsString) :
    isStellarAddress value = true ↔ (decodeStrkey value).isSome := by
  rw [Option.isSome_iff_exists]
  constructor
  · intro accepted
    unfold isStellarAddress at accepted
    split at accepted
    · cases accepted
    · rename_i given
      have length : value.length = 56 := not_not.mp given
      split at accepted
      · obtain ⟨key, ok⟩ := (isValidStrkey_of_decodeStrkey length (Or.inl rfl)).mp accepted
        exact ⟨_, ok⟩
      · split at accepted
        · obtain ⟨key, ok⟩ := (isValidStrkey_of_decodeStrkey length (Or.inr rfl)).mp accepted
          exact ⟨_, ok⟩
        · cases accepted
  · rintro ⟨⟨version, key⟩, ok⟩
    obtain ⟨length, kind⟩ := decodeStrkey_length ok
    unfold isStellarAddress
    rw [if_neg (not_not.mpr length)]
    rcases kind with ⟨rfl, head⟩ | ⟨rfl, head⟩
    · rw [if_pos head]
      exact (isValidStrkey_of_decodeStrkey length (Or.inl rfl)).mpr ⟨key, ok⟩
    · rw [if_neg (by rw [head]; decide), if_pos head]
      exact (isValidStrkey_of_decodeStrkey length (Or.inr rfl)).mpr ⟨key, ok⟩

/-! ## Asset identifiers -/

theorem settlement_announced {bytes : Bytes} {decoded : UInt8 × Bytes}
    (ok : Settlement.decodeStrkey bytes = some decoded) :
    Settlement.announcedVersion bytes = some decoded.1 := by
  obtain ⟨-, version, announced, d, -, -, -, rfl⟩ := Settlement.decodeStrkey_some.mp ok
  exact announced

/-- A strkey whose first byte is known is of the kind that it announces. -/
theorem isValidStrkey_of_settlement {value : JsString} {first : UInt8} {version : UInt8}
    (known : first = 71 ∧ version = 0x30 ∨ first = 67 ∧ version = 0x10)
    (head : (textEncode value).head? = some first)
    (valid : Settlement.isValidStrkey (textEncode value) = true) :
    value.length = 56 ∧ value.head? = some first.toUInt16 ∧ isValidStrkey value version = true := by
  obtain ⟨⟨version', key⟩, decodes⟩ := Option.isSome_iff_exists.mp valid
  have announced := settlement_announced decodes
  rw [← decodeStrkey_textEncode] at decodes
  obtain ⟨length, kind⟩ := decodeStrkey_length decodes
  unfold Settlement.announcedVersion at announced
  rw [head] at announced
  have same : version' = version := by
    rcases known with ⟨rfl, rfl⟩ | ⟨rfl, rfl⟩
    · exact (Option.some.inj announced).symm
    · exact (Option.some.inj announced).symm
  subst same
  refine ⟨length, ?_, ?_⟩
  · rcases known with ⟨rfl, rfl⟩ | ⟨rfl, rfl⟩
    · rcases kind with ⟨-, given⟩ | ⟨other, -⟩
      · exact given
      · cases other
    · rcases kind with ⟨other, -⟩ | ⟨-, given⟩
      · cases other
      · exact given
  · refine (isValidStrkey_of_decodeStrkey length ?_).mpr ⟨key, decodes⟩
    rcases known with ⟨-, rfl⟩ | ⟨-, rfl⟩
    · exact Or.inl rfl
    · exact Or.inr rfl

theorem alphanumeric_plain {byte : UInt8} (plain : Settlement.isAsciiAlphanumeric byte = true) :
    byte.toNat < 128 := by
  simp only [Settlement.isAsciiAlphanumeric, Bool.or_eq_true, Bool.and_eq_true, decide_eq_true_iff,
    UInt8.le_iff_toNat_le, UInt8.reduceToNat] at plain
  omega

theorem isValidStrkey_plain {bytes : Bytes} (valid : Settlement.isValidStrkey bytes = true) :
    ∀ byte ∈ bytes, byte.toNat < 128 := by
  obtain ⟨decoded, ok⟩ := Option.isSome_iff_exists.mp valid
  obtain ⟨-, _, -, d, ran, -⟩ := Settlement.decodeStrkey_some.mp ok
  exact decoder_run_plain ran

theorem parse_plain {bytes : Bytes} (canonical : (Settlement.DestAsset.parse bytes).isSome) :
    ∀ byte ∈ bytes, byte.toNat < 128 := by
  by_cases native : bytes = ascii "native"
  · rw [native]
    have checked : (ascii "native").all (fun byte => decide (byte.toNat < 128)) = true := by decide
    exact fun byte member => of_decide_eq_true (List.all_eq_true.mp checked byte member)
  · rw [Settlement.DestAsset.parse_isSome native] at canonical
    split at canonical
    · rename_i colon
      obtain ⟨-, -, code, -, issuer⟩ := canonical
      rw [Settlement.colon_parts colon]
      intro byte member
      rcases List.mem_append.mp member with member | member
      · exact alphanumeric_plain (List.all_eq_true.mp code byte member)
      · rcases List.mem_cons.mp member with rfl | member
        · decide
        · exact isValidStrkey_plain issuer byte member
    · exact isValidStrkey_plain canonical.2

theorem isAssetCode_of_settlement {code : JsString} (plain : ∀ unit ∈ code, unit.toNat < 128)
    (length : code.map (·.toUInt8) ≠ [] ∧ (code.map (·.toUInt8)).length ≤ 12)
    (alphanumeric : (code.map (·.toUInt8)).all Settlement.isAsciiAlphanumeric = true) :
    isAssetCode code = true := by
  have entries : ∀ i : Fin 128, Settlement.isAsciiAlphanumeric (UInt16.ofNat i.val).toUInt8 = true →
      ((65 ≤ i.val ∧ i.val ≤ 90) ∨ (97 ≤ i.val ∧ i.val ≤ 122)) ∨ (48 ≤ i.val ∧ i.val ≤ 57) := by
    decide +kernel
  obtain ⟨some, short⟩ := length
  rw [List.length_map] at short
  have nonempty : 1 ≤ code.length := List.length_pos_iff.mpr fun none => some (by rw [none]; rfl)
  simp only [isAssetCode, Bool.and_eq_true, decide_eq_true_iff, List.all_eq_true, Bool.or_eq_true,
    UInt16.le_iff_toNat_le, UInt16.reduceToNat]
  refine ⟨⟨nonempty, short⟩, ?_⟩
  intro unit member
  have entry := entries ⟨unit.toNat, plain unit member⟩
  rw [UInt16.ofNat_toNat] at entry
  exact entry (List.all_eq_true.mp alphanumeric _ (List.mem_map_of_mem member))

theorem native_of_textEncode {value : JsString} (plain : ∀ unit ∈ value, unit.toNat < 128)
    (same : value.map (·.toUInt8) = ascii "native") : value = js "native" := by
  have encoded : (js "native").map (·.toUInt8) = ascii "native" := by decide
  have checked : (js "native").all (fun unit => decide (unit.toNat < 128)) = true := by decide
  have small : ∀ unit ∈ js "native", unit.toNat < 128 := fun unit member =>
    of_decide_eq_true (List.all_eq_true.mp checked unit member)
  rw [← encoded] at same
  have lengths := congrArg List.length same
  rw [List.length_map, List.length_map] at lengths
  apply List.ext_getElem lengths
  intro i here there
  have bytes : (value[i]).toUInt8 = ((js "native")[i]).toUInt8 := by
    have each := List.getElem_of_eq same (i := i) (by rw [List.length_map]; exact here)
    rwa [List.getElem_map, List.getElem_map] at each
  exact toUInt8_inj (plain _ (List.getElem_mem here)) (small _ (List.getElem_mem there)) bytes

/-- An ASCII text has its first colon where its bytes have theirs. -/
theorem colon_settlement {value : JsString} {colon : Nat} (found : value.idxOf? 58 = some colon)
    (plain : ∀ unit ∈ value, unit.toNat < 128) :
    (value.map (·.toUInt8)).takeWhile (· != 58) = (value.take colon).map (·.toUInt8) ∧
      ((value.map (·.toUInt8)).dropWhile (· != 58)).tail = (value.drop (colon + 1)).map (·.toUInt8) := by
  obtain ⟨inside, here, first⟩ := List.idxOf?_eq_some_iff.mp found
  have parts : value = value.take colon ++ 58 :: value.drop (colon + 1) := by
    rw [← here, ← List.drop_eq_getElem_cons inside, List.take_append_drop]
  have before : ∀ byte ∈ (value.take colon).map (·.toUInt8), (byte != 58) = true := by
    intro byte member
    obtain ⟨unit, inCode, rfl⟩ := List.mem_map.mp member
    rw [bne_iff_ne]
    intro same
    have unit_eq : unit = 58 :=
      toUInt8_inj (plain unit (List.mem_of_mem_take inCode)) (by decide) same
    obtain ⟨i, short, at_i⟩ := List.getElem_of_mem inCode
    rw [List.length_take] at short
    rw [List.getElem_take] at at_i
    exact first i (by omega) (at_i.trans unit_eq)
  have bytes : value.map (·.toUInt8) =
      (value.take colon).map (·.toUInt8) ++ 58 :: (value.drop (colon + 1)).map (·.toUInt8) := by
    conv => lhs; rw [parts]
    rw [List.map_append, List.map_cons]
    rfl
  rw [bytes]
  constructor
  · rw [List.takeWhile_append_of_pos before, List.takeWhile_cons_of_neg (by decide), List.append_nil]
  · rw [List.dropWhile_append_of_pos before, List.dropWhile_cons_of_neg (by decide)]
    rfl

/-- A canonical identifier of the settlement contract is one of the SDK's. -/
theorem isStellarAsset_of_parse {value : JsString}
    (canonical : (Settlement.DestAsset.parse (textEncode value)).isSome) :
    isStellarAsset value = true := by
  have plain := textEncode_plain (parse_plain canonical)
  unfold isStellarAsset
  split
  · rfl
  · rename_i other
    have notNative : textEncode value ≠ ascii "native" := by
      rw [textEncode_ascii plain]
      exact mt (native_of_textEncode plain) other
    rw [Settlement.DestAsset.parse_isSome notNative] at canonical
    split
    · rename_i absent
      have noColon : (58 : UInt8) ∉ textEncode value := by
        rw [textEncode_ascii plain]
        intro member
        obtain ⟨unit, member, same⟩ := List.mem_map.mp member
        rw [toUInt8_inj (plain unit member) (b := 58) (by decide) same] at member
        exact List.idxOf?_eq_none_iff.mp absent member
      rw [if_neg noColon] at canonical
      obtain ⟨length, head, valid⟩ :=
        isValidStrkey_of_settlement (Or.inr ⟨rfl, rfl⟩) canonical.1 canonical.2
      simp [length, head, valid]
    · rename_i colon found
      have member : (58 : UInt8) ∈ textEncode value := by
        rw [textEncode_ascii plain]
        obtain ⟨inside, here, -⟩ := List.idxOf?_eq_some_iff.mp found
        exact List.mem_map.mpr ⟨58, here ▸ List.getElem_mem inside, rfl⟩
      have codePlain : ∀ unit ∈ value.take colon, unit.toNat < 128 :=
        fun unit inside => plain unit (List.mem_of_mem_take inside)
      have issuerPlain : ∀ unit ∈ value.drop (colon + 1), unit.toNat < 128 :=
        fun unit inside => plain unit (List.mem_of_mem_drop inside)
      obtain ⟨before, after⟩ := colon_settlement found plain
      rw [if_pos member, textEncode_ascii plain, before, after] at canonical
      obtain ⟨some, short, alphanumeric, head, valid⟩ := canonical
      rw [← textEncode_ascii issuerPlain] at head valid
      obtain ⟨length, head, valid⟩ := isValidStrkey_of_settlement (Or.inl ⟨rfl, rfl⟩) head valid
      have coded := isAssetCode_of_settlement codePlain ⟨some, short⟩ alphanumeric
      simp [coded, length, head, valid]

/-- The signing-time checks and the settlement contract's take the same texts, and read the same
    version and key out of a strkey. -/
theorem stellar_checks_agree (s : JsString) :
    isStellarAddress s = Settlement.isValidStrkey (textEncode s) ∧
      (isStellarAsset s = true ↔ (Settlement.DestAsset.parse (textEncode s)).isSome) ∧
      decodeStrkey s = Settlement.decodeStrkey (textEncode s) := by
  refine ⟨?_, ⟨fun accepted => (isStellarAsset_settlement accepted).1, isStellarAsset_of_parse⟩,
    decodeStrkey_textEncode s⟩
  rw [Bool.eq_iff_iff, isStellarAddress_iff, decodeStrkey_textEncode]
  rfl

end Perihelion.Sdk

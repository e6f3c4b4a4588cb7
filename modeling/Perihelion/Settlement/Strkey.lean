import Perihelion.Lib.Repack
import Perihelion.Settlement.Address

/-! # One strkey for every key

The encoder for contract ids, and the decoder read as its inverse.  Both repack the bits of
the same 35 bytes, so a strkey is the base32 text of its version, its key and their
checksum, and nothing else is accepted.
-/

namespace Perihelion.Settlement

open BigEndian Repack

/-! ## Base32 -/

def base32Alphabet : Bytes := ascii "ABCDEFGHIJKLMNOPQRSTUVWXYZ234567"

def base32Char (index : Nat) : UInt8 := base32Alphabet.getD index 0

/-- The text of bytes whose bits fill their last character: each five bits are one letter. -/
def base32 (data : Bytes) : Bytes := (groups 5 (data.length * 8 / 5) (decode data)).map base32Char

theorem base32Value_base32Char {g : Nat} (small : g < 32) :
    base32Value (base32Char g) = some (UInt8.ofNat g) := by
  have entries : ∀ i : Fin 32, base32Value (base32Char i.val) = some (UInt8.ofNat i.val) := by
    decide +kernel
  exact entries ⟨g, small⟩

theorem base32Char_of_value {c value : UInt8} (known : base32Value c = some value) :
    value.toNat < 32 ∧ base32Char value.toNat = c := by
  have entries : ∀ i : Fin 256, (base32Value (UInt8.ofNat i.val)).all fun value =>
      decide (value.toNat < 32) && base32Char value.toNat == UInt8.ofNat i.val := by
    decide +kernel
  have entry := entries ⟨c.toNat, c.toNat_lt⟩
  rw [UInt8.ofNat_toNat, known, Option.all_some, Bool.and_eq_true] at entry
  exact ⟨of_decide_eq_true entry.1, beq_iff_eq.mp entry.2⟩

/-- A byte string is the number that its bytes spell. -/
theorem decode_eq_value (bytes : Bytes) : decode bytes = value 8 (bytes.map (·.toNat)) := by
  rw [decode, value, List.foldl_map]
  rfl

/-- Bytes are known by their length and their number. -/
theorem decode_inj {bytes bytes' : Bytes} (length : bytes.length = bytes'.length)
    (same : decode bytes = decode bytes') : bytes = bytes' := by
  rw [← encode_decode bytes, ← encode_decode bytes', length, same]

/-! ## The encoder -/

/-- The local variables of the encoding loop. -/
structure Encoder where
  bitBuffer : BitVec 64
  bitsInBuffer : Nat
  out : Bytes

/-- `while bits_in_buffer >= 5`. -/
def Encoder.drain (e : Encoder) : Encoder :=
  if 5 ≤ e.bitsInBuffer then
    let bits := e.bitsInBuffer - 5
    let index := ((e.bitBuffer >>> bits) &&& 0x1F).toNat
    Encoder.drain { e with bitsInBuffer := bits, out := e.out ++ [base32Char index] }
  else e
termination_by e.bitsInBuffer

def Encoder.push (e : Encoder) (byte : UInt8) : Encoder :=
  Encoder.drain
    { e with
      bitBuffer := (e.bitBuffer <<< 8) ||| BitVec.ofNat 64 byte.toNat
      bitsInBuffer := e.bitsInBuffer + 8 }

/-- The 35 bytes of a strkey. -/
def strkeyPayload (version : UInt8) (key : Bytes) : Bytes :=
  version :: key ++ checksum (version :: key)

/-- The state in which the loop over a contract's payload ends. -/
def contractEncoder (id : Bytes32) : Encoder :=
  (strkeyPayload versionContract id.toBytes).foldl Encoder.push ⟨0, 0, []⟩

def contractStrkey (id : Bytes32) : Bytes := (contractEncoder id).out

/-- The groups written so far and the bits held are those of the bytes read. -/
structure Encoder.Writes (e : Encoder) (written : List Nat) (data : Bytes) : Prop where
  out : e.out = written.map base32Char
  small : ∀ g ∈ written, g < 2 ^ 5
  spells : Spells 5 written e.bitBuffer e.bitsInBuffer (decode data)
  count : written.length * 5 + e.bitsInBuffer = data.length * 8

theorem low_mask (x : BitVec 64) : (x &&& 0x1F).toNat = x.toNat % 2 ^ 5 := by
  rw [BitVec.toNat_and]
  exact Nat.and_two_pow_sub_one_eq_mod x.toNat 5

theorem Encoder.Writes.drain {e : Encoder} {written : List Nat} {data : Bytes}
    (writes : e.Writes written data) :
    ∃ written', e.drain.Writes written' data ∧ e.drain.bitsInBuffer < 5 := by
  fun_induction Encoder.drain e generalizing written with
  | case1 e enough bits index =>
      rename_i ih
      have spells := writes.spells.emit enough
      have count := writes.count
      apply ih
      show Encoder.Writes _ (written ++ [(e.bitBuffer >>> bits).toNat % 2 ^ 5]) data
      constructor
      case out => rw [List.map_append, List.map_singleton, ← low_mask, writes.out]
      case small =>
        intro g member
        rcases List.mem_append.mp member with earlier | last
        · exact writes.small g earlier
        · rw [List.mem_singleton.mp last]
          exact Nat.mod_lt _ (by decide)
      case spells => exact spells
      case count =>
        rw [List.length_append, List.length_singleton]
        dsimp only [bits]
        omega
  | case2 e few => exact ⟨written, writes, by omega⟩

/-- One byte in, one or two characters out. -/
theorem Encoder.Writes.push {e : Encoder} {written : List Nat} {data : Bytes}
    (writes : e.Writes written data) (few : e.bitsInBuffer < 5) (byte : UInt8) :
    ∃ written', (e.push byte).Writes written' (data ++ [byte]) ∧ (e.push byte).bitsInBuffer < 5 := by
  apply @Encoder.Writes.drain _ written
  have spells := writes.spells.push (a := 8) (by omega) byte.toNat_lt
  have count := writes.count
  constructor
  case out => exact writes.out
  case small => exact writes.small
  case spells =>
    rw [decode_append_byte]
    exact spells
  case count =>
    rw [List.length_append, List.length_singleton]
    dsimp only
    omega

theorem Encoder.Writes.foldl {e : Encoder} {written : List Nat} {data : Bytes}
    (writes : e.Writes written data) (few : e.bitsInBuffer < 5) (more : Bytes) :
    ∃ written', (more.foldl Encoder.push e).Writes written' (data ++ more) ∧
      (more.foldl Encoder.push e).bitsInBuffer < 5 := by
  induction more generalizing e written data with
  | nil => exact ⟨written, by rwa [List.append_nil], few⟩
  | cons byte more ih =>
      obtain ⟨next, pushed, few'⟩ := writes.push few byte
      obtain ⟨last, run, ended⟩ := ih pushed few'
      rw [List.append_assoc] at run
      exact ⟨last, run, ended⟩

/-- The loop writes the base32 text of bytes whose bits fill their last character, and holds
    nothing back. -/
theorem foldl_push {data : Bytes} (full : data.length * 8 % 5 = 0) :
    (data.foldl Encoder.push ⟨0, 0, []⟩).out = base32 data ∧
      (data.foldl Encoder.push ⟨0, 0, []⟩).bitsInBuffer = 0 := by
  have start : Encoder.Writes ⟨0, 0, []⟩ [] [] := by
    constructor
    case out => rfl
    case small => exact fun g member => absurd member List.not_mem_nil
    case spells => rfl
    case count => rfl
  obtain ⟨written, run, few⟩ := start.foldl (by decide) data
  have spells := run.spells
  have count := run.count
  rw [List.nil_append] at spells count
  have none : (data.foldl Encoder.push ⟨0, 0, []⟩).bitsInBuffer = 0 := by omega
  have length : data.length * 8 / 5 = written.length := by omega
  rw [none] at spells
  refine ⟨?_, none⟩
  rw [run.out, base32, length, ← spells.done run.small]

theorem strkeyPayload_length (version : UInt8) {key : Bytes} (width : key.length = 32) :
    (strkeyPayload version key).length = 35 := by
  simp [strkeyPayload, checksum, width]

theorem contractStrkey_eq (id : Bytes32) :
    contractStrkey id = base32 (strkeyPayload versionContract id.toBytes) := by
  have length := strkeyPayload_length versionContract (Bytes32.toBytes_length id)
  exact (foldl_push (by rw [length])).1

/-! ## The decoder -/

/-- The bytes written so far and the bits held are those of the groups read. -/
structure Decoder.Reads (d : Decoder) (read : List Nat) : Prop where
  few : d.bitsInBuffer < 8
  spells : Spells 8 (d.payload.map (·.toNat)) d.bitBuffer d.bitsInBuffer (value 5 read)
  count : d.payload.length * 8 + d.bitsInBuffer = read.length * 5

theorem Decoder.Reads.push {d : Decoder} {read : List Nat} (reads : d.Reads read) {g : Nat}
    (small : g < 32) : (d.push (UInt8.ofNat g)).Reads (read ++ [g]) := by
  have few := reads.few
  have count := reads.count
  have given : (UInt8.ofNat g).toNat = g := by
    rw [UInt8.toNat_ofNat']
    omega
  have spells := reads.spells.push (a := 5) (g := g) (by omega) small
  rw [← value_append_group] at spells
  unfold Decoder.push
  rw [given]
  by_cases full : 8 ≤ d.bitsInBuffer + 5
  · simp only [full, if_true]
    constructor
    case few => exact (by omega : d.bitsInBuffer + 5 - 8 < 8)
    case spells =>
      have emitted := spells.emit full
      have byte (x : BitVec 64) : (UInt8.ofNat (x &&& 0xFF).toNat).toNat = x.toNat % 2 ^ 8 := by
        have masked : (x &&& 0xFF).toNat = x.toNat % 2 ^ 8 := by
          rw [BitVec.toNat_and]
          exact Nat.and_two_pow_sub_one_eq_mod x.toNat 8
        rw [masked, UInt8.toNat_ofNat', Nat.mod_mod]
      rw [List.map_append, List.map_singleton, byte]
      exact emitted
    case count =>
      simp only [List.length_append, List.length_singleton]
      omega
  · simp only [full, if_false]
    constructor
    case few => exact (by omega : d.bitsInBuffer + 5 < 8)
    case spells => exact spells
    case count =>
      simp only [List.length_append, List.length_singleton]
      omega

theorem Decoder.Reads.run {d : Decoder} {read : List Nat} (reads : d.Reads read) {more : List Nat}
    (small : ∀ g ∈ more, g < 32) :
    ∃ d', d.run (more.map base32Char) = some d' ∧ d'.Reads (read ++ more) := by
  induction more generalizing d read with
  | nil => exact ⟨d, rfl, by rwa [List.append_nil]⟩
  | cons g more ih =>
      obtain ⟨d', runs, last⟩ := ih (reads.push (small g List.mem_cons_self))
        fun g' member => small g' (List.mem_cons_of_mem _ member)
      refine ⟨d', ?_, by rwa [List.append_assoc] at last⟩
      simp only [List.map_cons, Decoder.run, base32Value_base32Char (small g List.mem_cons_self),
        Option.bind_eq_bind, Option.bind_some]
      exact runs

/-- Only letters of the alphabet get through. -/
theorem Decoder.run_letters {d d' : Decoder} {s : Bytes} (ran : d.run s = some d') :
    ∃ read : List Nat, (∀ g ∈ read, g < 32) ∧ s = read.map base32Char := by
  induction s generalizing d with
  | nil => exact ⟨[], fun g member => absurd member List.not_mem_nil, rfl⟩
  | cons c rest ih =>
      simp only [Decoder.run, Option.bind_eq_bind, Option.bind_eq_some_iff] at ran
      obtain ⟨value, known, ran⟩ := ran
      obtain ⟨small, letter⟩ := base32Char_of_value known
      obtain ⟨read, each, rfl⟩ := ih ran
      refine ⟨value.toNat :: read, ?_, by rw [List.map_cons, letter]⟩
      intro g member
      rcases List.mem_cons.mp member with rfl | member
      · exact small
      · exact each g member

theorem Decoder.reads_start : Decoder.Reads ⟨0, 0, []⟩ [] := by
  constructor
  case few => exact Nat.zero_lt_succ 7
  case spells => rfl
  case count => rfl

/-- A whole strkey leaves nothing in the buffer that counts. -/
theorem Decoder.Reads.whole {d : Decoder} {read : List Nat} (reads : d.Reads read)
    (all : read.length = 56) : d.payload.length = 35 ∧ decode d.payload = value 5 read := by
  have few := reads.few
  have count := reads.count
  have spells := reads.spells
  have none : d.bitsInBuffer = 0 := by omega
  rw [none] at spells
  refine ⟨by omega, ?_⟩
  simpa [Spells, Nat.mod_one, ← decode_eq_value] using spells

theorem base32_eq {data : Bytes} (length : data.length = 35) :
    base32 data = (groups 5 56 (decode data)).map base32Char := by
  rw [base32, length]

/-- What goes through the decoder is the text of what comes out, whatever is left in the high bits
    of the buffer. -/
theorem Decoder.run_base32 {s : Bytes} {d : Decoder} (length : s.length = 56)
    (ran : Decoder.run ⟨0, 0, []⟩ s = some d) : d.payload.length = 35 ∧ s = base32 d.payload := by
  obtain ⟨read, small, rfl⟩ := Decoder.run_letters ran
  obtain ⟨d', runs, reads⟩ := Decoder.reads_start.run small
  obtain rfl := Option.some.inj (runs.symm.trans ran)
  rw [List.length_map] at length
  obtain ⟨full, spelled⟩ := reads.whole length
  have same : groups 5 read.length (value 5 read) = read := groups_value small
  rw [length] at same
  exact ⟨full, by rw [base32_eq full, spelled, List.nil_append, same]⟩

theorem Decoder.run_of_base32 {data : Bytes} (length : data.length = 35) :
    ∃ d, Decoder.run ⟨0, 0, []⟩ (base32 data) = some d ∧ d.payload = data := by
  have small : ∀ g ∈ groups 5 56 (decode data), g < 32 := fun g member => groups_lt member
  obtain ⟨d, runs, reads⟩ := Decoder.reads_start.run small
  rw [List.nil_append] at reads
  obtain ⟨full, spelled⟩ := reads.whole (groups_length 56 _)
  have bound : decode data < 2 ^ (5 * 56) := by
    have small : decode data < 2 ^ (8 * data.length) := by
      rw [pow_mul]
      exact decode_lt data
    have bits : 8 * data.length = 5 * 56 := by rw [length]
    rwa [bits] at small
  rw [value_groups, Nat.mod_eq_of_lt bound] at spelled
  refine ⟨d, ?_, decode_inj (by rw [full, length]) spelled⟩
  rw [base32_eq length]
  exact runs

/-! ## Strkeys -/

/-- The first letter is the upper five bits of the version. -/
theorem announcedVersion_base32 {version : UInt8} {key : Bytes} (width : key.length = 32)
    (known : version = versionAccount ∨ version = versionContract) :
    announcedVersion (base32 (strkeyPayload version key)) = some version := by
  have length := strkeyPayload_length version width
  have first : (base32 (strkeyPayload version key)).head? =
      some (base32Char (version.toNat / 8 % 32)) := by
    have bound := decode_lt (key ++ checksum (version :: key))
    have rest : (key ++ checksum (version :: key)).length = 34 := by
      simp [checksum, width]
    have split : decode (strkeyPayload version key) =
        version.toNat * 256 ^ 34 + decode (key ++ checksum (version :: key)) := by
      have parts := decode_append [version] (key ++ checksum (version :: key))
      rw [rest] at parts
      simpa [strkeyPayload, decode] using parts
    rw [rest] at bound
    rw [base32_eq length, groups_head 55, List.map_cons, List.head?_cons, split]
    congr 3
    omega
  unfold announcedVersion
  rw [first]
  rcases known with rfl | rfl
  · rfl
  · rfl

/-- The accepted strkeys are the texts of the known versions with a 32-byte key, no others. -/
theorem decodeStrkey_iff {s : Bytes} {version : UInt8} {key : Bytes} :
    decodeStrkey s = some (version, key) ↔
      (version = versionAccount ∨ version = versionContract) ∧ key.length = 32 ∧
        s = base32 (strkeyPayload version key) := by
  constructor
  · intro decoded
    obtain ⟨length, version', announced, d, ran, head, sum, same⟩ := decodeStrkey_some.mp decoded
    obtain ⟨rfl, given⟩ := Prod.mk.inj same
    obtain ⟨full, text⟩ := Decoder.run_base32 length ran
    have known : version' = versionAccount ∨ version' = versionContract := by
      unfold announcedVersion at announced
      split at announced
      · exact Or.inl (Option.some.inj announced).symm
      · split at announced
        · exact Or.inr (Option.some.inj announced).symm
        · cases announced
    cases bytes : d.payload with
    | nil =>
        rw [bytes] at full
        cases full
    | cons first rest =>
        rw [bytes] at full head sum text given
        obtain rfl := Option.some.inj head
        have size : rest.length = 34 := Nat.succ.inj full
        have tail : field (first :: rest) 33 2 = rest.drop 32 := by
          have short : (rest.drop 32).length ≤ 2 := by simp [size]
          rw [field, List.drop_succ_cons, List.take_of_length_le short]
        have key_eq : rest.take 32 = key := given
        rw [tail, List.take_succ_cons, key_eq] at sum
        refine ⟨known, by simp [← key_eq, size], ?_⟩
        rw [text, strkeyPayload, sum, ← key_eq, List.cons_append, List.take_append_drop]
  · rintro ⟨known, width, rfl⟩
    have length := strkeyPayload_length version width
    obtain ⟨d, runs, payload⟩ := Decoder.run_of_base32 length
    have text : (base32 (strkeyPayload version key)).length = 56 := by
      rw [base32_eq length, List.length_map, groups_length]
    have front : (strkeyPayload version key).take 33 = version :: key := by
      have cut : (strkeyPayload version key).take (version :: key).length = version :: key :=
        List.take_left
      rwa [List.length_cons, width] at cut
    have tail : field (strkeyPayload version key) 33 2 = checksum (version :: key) := by
      have parts := field_of_append (version :: key) (checksum (version :: key)) [] 33 2
        (by simp [width]) rfl
      rwa [List.append_nil] at parts
    have middle : field (strkeyPayload version key) 1 32 = key :=
      field_of_append [version] key (checksum (version :: key)) 1 32 rfl width
    apply decodeStrkey_some.mpr
    refine ⟨text, version, announcedVersion_base32 width known, d, runs, ?_, ?_, ?_⟩
    · rw [payload]
      rfl
    · rw [payload, front, tail]
    · rw [payload, middle]

/-- The decoder undoes the encoder, what it accepts is the text of what it returns, and a known
    version and key have one text. -/
theorem strkey_round_trip :
    (∀ id : Bytes32, decodeStrkey (contractStrkey id) = some (versionContract, id.toBytes)) ∧
      (∀ s version key, decodeStrkey s = some (version, key) →
        s = base32 (version :: key ++ checksum (version :: key))) ∧
      ∀ version key, (version = versionAccount ∨ version = versionContract) → key.length = 32 →
        ∃! s, decodeStrkey s = some (version, key) := by
  refine ⟨fun id => ?_, fun s version key decoded => (decodeStrkey_iff.mp decoded).2.2, ?_⟩
  · rw [contractStrkey_eq]
    exact decodeStrkey_iff.mpr ⟨Or.inr rfl, Bytes32.toBytes_length id, rfl⟩
  · intro version key known width
    refine ⟨base32 (strkeyPayload version key), decodeStrkey_iff.mpr ⟨known, width, rfl⟩, ?_⟩
    intro s decoded
    exact (decodeStrkey_iff.mp decoded).2.2

theorem strkey_round_trip_zero :
    decodeStrkey (contractStrkey 0) = some (versionContract, Bytes32.toBytes 0) ∧
      ∃! s, decodeStrkey s = some (versionAccount, List.replicate 32 0) :=
  ⟨strkey_round_trip.1 0, strkey_round_trip.2.2 versionAccount _ (Or.inl rfl) rfl⟩

/-- The contract of the all-zero id, as the tests spell it. -/
example : contractStrkey 0 = ascii "CAAAAAAAAAAAAAAAAAAAAAAAAAAAAAAAAAAAAAAAAAAAAAAAAAAABSC4" := by
  decide +kernel

/-! ## Classic assets -/

/-- An accepted `CODE:ISSUER` is its code, the colon and the one strkey of its issuer. -/
theorem DestAsset.parse_classic {id code issuer : Bytes}
    (parsed : DestAsset.parse id = some (.classic code issuer)) :
    (code.length ≤ 12 ∧ code.all isAsciiAlphanumeric = true) ∧ issuer.length = 32 ∧
      id = code ++ 58 :: base32 (strkeyPayload versionAccount issuer) := by
  unfold DestAsset.parse at parsed
  split at parsed
  · cases parsed
  · split at parsed
    · rename_i colon
      dsimp only at parsed
      split at parsed
      · cases parsed
      · rename_i plain
        split at parsed
        · cases parsed
        · rename_i head
          obtain ⟨⟨version, key⟩, decoded, same⟩ := Option.map_eq_some_iff.mp parsed
          obtain ⟨rfl, rfl⟩ := DestAsset.classic.inj same
          obtain ⟨known, width, text⟩ := decodeStrkey_iff.mp decoded
          have announced := announcedVersion_base32 width known
          rw [← text, announcedVersion, if_pos (not_not.mp head)] at announced
          obtain rfl := Option.some.inj announced
          push Not at plain
          refine ⟨plain.2, width, ?_⟩
          dsimp only
          rw [← text]
          exact colon_parts colon
    · split at parsed
      · cases parsed
      · cases parsed

theorem alphanumeric_nonzero {code : Bytes} (plain : code.all isAsciiAlphanumeric = true) :
    ∀ byte ∈ code, (byte != 0) = true := by
  intro byte member
  rw [bne_iff_ne]
  rintro rfl
  have bad := List.all_eq_true.mp plain 0 member
  cases bad

/-- The padding is told apart from the code. -/
theorem takeWhile_padRight {n : Nat} {bytes : Bytes} (fits : bytes.length ≤ n)
    (nonzero : ∀ byte ∈ bytes, (byte != 0) = true) :
    (padRight n bytes).takeWhile (· != 0) = bytes := by
  rw [padRight, List.take_of_length_le fits, List.takeWhile_append_of_pos nonzero,
    List.takeWhile_replicate]
  simp

/-- The layout, the code and the issuer can be read back. -/
theorem classicAssetXdr_parts {code code' issuer issuer' : Bytes}
    (short : code.length ≤ 12) (short' : code'.length ≤ 12)
    (plain : code.all isAsciiAlphanumeric = true) (plain' : code'.all isAsciiAlphanumeric = true)
    (same : classicAssetXdr code issuer = classicAssetXdr code' issuer') :
    code = code' ∧ issuer = issuer' := by
  have fields (width : Nat) (fits : code.length ≤ width) (fits' : code'.length ≤ width)
      (rest : padRight width code ++ (encode 4 0 ++ issuer) =
        padRight width code' ++ (encode 4 0 ++ issuer')) : code = code' ∧ issuer = issuer' := by
    obtain ⟨padded, rest⟩ := List.append_inj rest (by simp)
    refine ⟨?_, List.append_cancel_left rest⟩
    rw [← takeWhile_padRight fits (alphanumeric_nonzero plain), padded,
      takeWhile_padRight fits' (alphanumeric_nonzero plain')]
  simp only [classicAssetXdr, List.append_assoc] at same
  obtain ⟨layout, rest⟩ := List.append_inj same (by simp)
  by_cases narrow : code.length ≤ 4
  · by_cases narrow' : code'.length ≤ 4
    · simp only [narrow, narrow', if_true] at rest
      exact fields 4 narrow narrow' rest
    · simp only [narrow, narrow', if_true, if_false] at layout
      cases layout
  · by_cases narrow' : code'.length ≤ 4
    · simp only [narrow, narrow', if_true, if_false] at layout
      cases layout
    · simp only [narrow, narrow', if_false] at rest
      exact fields 12 short short' rest

/-- Two identifiers whose assets have the same XDR are the same identifier. -/
theorem classicAssetXdr_identifier {a b codeA issuerA codeB issuerB : Bytes}
    (parsedA : DestAsset.parse a = some (.classic codeA issuerA))
    (parsedB : DestAsset.parse b = some (.classic codeB issuerB))
    (same : classicAssetXdr codeA issuerA = classicAssetXdr codeB issuerB) : a = b := by
  obtain ⟨⟨shortA, plainA⟩, -, textA⟩ := DestAsset.parse_classic parsedA
  obtain ⟨⟨shortB, plainB⟩, -, textB⟩ := DestAsset.parse_classic parsedB
  obtain ⟨rfl, rfl⟩ := classicAssetXdr_parts shortA shortB plainA plainB same
  rw [textA, textB]

theorem classicAssetXdr_identifier_usdc :
    ascii "USDC:GAAAAAAAAAAAAAAAAAAAAAAAAAAAAAAAAAAAAAAAAAAAAAAAAAAAAWHF" =
      ascii "USDC" ++ 58 :: base32 (strkeyPayload versionAccount (List.replicate 32 0)) := by
  have written : DestAsset.parse
      (ascii "USDC:GAAAAAAAAAAAAAAAAAAAAAAAAAAAAAAAAAAAAAAAAAAAAAAAAAAAAWHF") =
        some (.classic (ascii "USDC") (List.replicate 32 0)) := by decide +kernel
  have encoded : DestAsset.parse
      (ascii "USDC" ++ 58 :: base32 (strkeyPayload versionAccount (List.replicate 32 0))) =
        some (.classic (ascii "USDC") (List.replicate 32 0)) := by decide +kernel
  exact classicAssetXdr_identifier written encoded rfl

end Perihelion.Settlement

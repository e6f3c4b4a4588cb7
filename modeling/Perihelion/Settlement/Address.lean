import Mathlib.Data.List.TakeWhile
import Perihelion.Lib.Fallible
import Perihelion.Wire

/-! # Stellar addresses and asset identifiers

The strkey text of an account or contract (base32 over a version byte, a 32-byte key
and a CRC16 checksum) and the three canonical forms of a `destAsset`.  The contract
validates both before the host parser sees them, because that one traps.
-/

namespace Perihelion.Settlement

open BigEndian

/-- An account (`G...`) or a contract (`C...`). -/
inductive Address where
  | account (key : Bytes32)
  | contract (id : Bytes32)
  deriving DecidableEq

/-! ## Strkeys -/

/-- `6 << 3`. -/
def versionAccount : UInt8 := 0x30

/-- `2 << 3`. -/
def versionContract : UInt8 := 0x10

/-- CRC-16/XMODEM: polynomial 0x1021, initial value 0. -/
def crc16Table : Array UInt16 := #[
  0x0000, 0x1021, 0x2042, 0x3063, 0x4084, 0x50a5, 0x60c6, 0x70e7, 0x8108, 0x9129, 0xa14a, 0xb16b,
  0xc18c, 0xd1ad, 0xe1ce, 0xf1ef, 0x1231, 0x0210, 0x3273, 0x2252, 0x52b5, 0x4294, 0x72f7, 0x62d6,
  0x9339, 0x8318, 0xb37b, 0xa35a, 0xd3bd, 0xc39c, 0xf3ff, 0xe3de, 0x2462, 0x3443, 0x0420, 0x1401,
  0x64e6, 0x74c7, 0x44a4, 0x5485, 0xa56a, 0xb54b, 0x8528, 0x9509, 0xe5ee, 0xf5cf, 0xc5ac, 0xd58d,
  0x3653, 0x2672, 0x1611, 0x0630, 0x76d7, 0x66f6, 0x5695, 0x46b4, 0xb75b, 0xa77a, 0x9719, 0x8738,
  0xf7df, 0xe7fe, 0xd79d, 0xc7bc, 0x48c4, 0x58e5, 0x6886, 0x78a7, 0x0840, 0x1861, 0x2802, 0x3823,
  0xc9cc, 0xd9ed, 0xe98e, 0xf9af, 0x8948, 0x9969, 0xa90a, 0xb92b, 0x5af5, 0x4ad4, 0x7ab7, 0x6a96,
  0x1a71, 0x0a50, 0x3a33, 0x2a12, 0xdbfd, 0xcbdc, 0xfbbf, 0xeb9e, 0x9b79, 0x8b58, 0xbb3b, 0xab1a,
  0x6ca6, 0x7c87, 0x4ce4, 0x5cc5, 0x2c22, 0x3c03, 0x0c60, 0x1c41, 0xedae, 0xfd8f, 0xcdec, 0xddcd,
  0xad2a, 0xbd0b, 0x8d68, 0x9d49, 0x7e97, 0x6eb6, 0x5ed5, 0x4ef4, 0x3e13, 0x2e32, 0x1e51, 0x0e70,
  0xff9f, 0xefbe, 0xdfdd, 0xcffc, 0xbf1b, 0xaf3a, 0x9f59, 0x8f78, 0x9188, 0x81a9, 0xb1ca, 0xa1eb,
  0xd10c, 0xc12d, 0xf14e, 0xe16f, 0x1080, 0x00a1, 0x30c2, 0x20e3, 0x5004, 0x4025, 0x7046, 0x6067,
  0x83b9, 0x9398, 0xa3fb, 0xb3da, 0xc33d, 0xd31c, 0xe37f, 0xf35e, 0x02b1, 0x1290, 0x22f3, 0x32d2,
  0x4235, 0x5214, 0x6277, 0x7256, 0xb5ea, 0xa5cb, 0x95a8, 0x8589, 0xf56e, 0xe54f, 0xd52c, 0xc50d,
  0x34e2, 0x24c3, 0x14a0, 0x0481, 0x7466, 0x6447, 0x5424, 0x4405, 0xa7db, 0xb7fa, 0x8799, 0x97b8,
  0xe75f, 0xf77e, 0xc71d, 0xd73c, 0x26d3, 0x36f2, 0x0691, 0x16b0, 0x6657, 0x7676, 0x4615, 0x5634,
  0xd94c, 0xc96d, 0xf90e, 0xe92f, 0x99c8, 0x89e9, 0xb98a, 0xa9ab, 0x5844, 0x4865, 0x7806, 0x6827,
  0x18c0, 0x08e1, 0x3882, 0x28a3, 0xcb7d, 0xdb5c, 0xeb3f, 0xfb1e, 0x8bf9, 0x9bd8, 0xabbb, 0xbb9a,
  0x4a75, 0x5a54, 0x6a37, 0x7a16, 0x0af1, 0x1ad0, 0x2ab3, 0x3a92, 0xfd2e, 0xed0f, 0xdd6c, 0xcd4d,
  0xbdaa, 0xad8b, 0x9de8, 0x8dc9, 0x7c26, 0x6c07, 0x5c64, 0x4c45, 0x3ca2, 0x2c83, 0x1ce0, 0x0cc1,
  0xef1f, 0xff3e, 0xcf5d, 0xdf7c, 0xaf9b, 0xbfba, 0x8fd9, 0x9ff8, 0x6e17, 0x7e36, 0x4e55, 0x5e74,
  0x2e93, 0x3eb2, 0x0ed1, 0x1ef0]

def checksum (data : Bytes) : Bytes :=
  let crc : UInt16 := data.foldl
    (fun crc b => (crc <<< 8) ^^^ crc16Table[((crc >>> 8).toUInt8 ^^^ b).toNat]!) 0
  [(crc &&& 0xff).toUInt8, (crc >>> 8).toUInt8]

def base32Value (c : UInt8) : Option UInt8 :=
  if 65 ≤ c ∧ c ≤ 90 then some (c - 65)
  else if 50 ≤ c ∧ c ≤ 55 then some (c - 50 + 26)
  else none

/-- The local variables of the decoding loop. -/
structure Decoder where
  bitBuffer : BitVec 64
  bitsInBuffer : Nat
  payload : Bytes

def Decoder.push (d : Decoder) (value : UInt8) : Decoder :=
  let bitBuffer := (d.bitBuffer <<< 5) ||| BitVec.ofNat 64 value.toNat
  let bits := d.bitsInBuffer + 5
  if 8 ≤ bits then
    { bitBuffer
      bitsInBuffer := bits - 8
      payload := d.payload ++ [UInt8.ofNat ((bitBuffer >>> (bits - 8)) &&& 0xFF).toNat] }
  else { bitBuffer, bitsInBuffer := bits, payload := d.payload }

def Decoder.run (d : Decoder) : Bytes → Option Decoder
  | [] => some d
  | c :: rest => do
      let value ← base32Value c
      (d.push value).run rest

/-- The version byte and the key of a well-formed strkey. -/
def decodeStrkey (s : Bytes) : Option (UInt8 × Bytes) := do
  if s.length ≠ 56 then none
  else
    let expectedVersion ←
      if s.head? = some 71 then some versionAccount
      else if s.head? = some 67 then some versionContract
      else none
    let decoded ← Decoder.run ⟨0, 0, []⟩ s
    let payload := decoded.payload
    if payload.head? = some expectedVersion ∧ checksum (payload.take 33) = field payload 33 2 then
      some (expectedVersion, field payload 1 32)
    else none

def isValidStrkey (s : Bytes) : Bool := (decodeStrkey s).isSome

/-- `Address::from_string_bytes`, which traps on what is no strkey. -/
def Address.fromStringBytes (s : Bytes) : Option Address :=
  (decodeStrkey s).map fun decoded =>
    if decoded.1 = versionAccount then .account (Bytes32.ofBytes decoded.2)
    else .contract (Bytes32.ofBytes decoded.2)

theorem Address.fromStringBytes_isSome (s : Bytes) :
    (Address.fromStringBytes s).isSome = isValidStrkey s := by
  simp [Address.fromStringBytes, isValidStrkey]

theorem Decoder.run_nonzero {d d' : Decoder} {s : Bytes} (ran : d.run s = some d') : 0 ∉ s := by
  induction s generalizing d with
  | nil => exact List.not_mem_nil
  | cons c rest ih =>
      simp only [Decoder.run, Option.bind_eq_bind, Option.bind_eq_some_iff] at ran
      obtain ⟨value, known, ran⟩ := ran
      intro zero
      rcases List.mem_cons.mp zero with rfl | zero
      · cases known
      · exact ih ran zero

/-- The version byte that the first character announces. -/
def announcedVersion (s : Bytes) : Option UInt8 :=
  if s.head? = some 71 then some versionAccount
  else if s.head? = some 67 then some versionContract
  else none

theorem decodeStrkey_some {s : Bytes} {decoded} :
    decodeStrkey s = some decoded ↔
      s.length = 56 ∧ ∃ version, announcedVersion s = some version ∧
        ∃ d, Decoder.run ⟨0, 0, []⟩ s = some d ∧ d.payload.head? = some version ∧
          checksum (d.payload.take 33) = field d.payload 33 2 ∧
          (version, field d.payload 1 32) = decoded := by
  unfold decodeStrkey announcedVersion
  by_cases length : s.length = 56
  · by_cases account : s.head? = some 71
    · simp [length, account, Option.bind_eq_some_iff, and_assoc]
    · by_cases contract : s.head? = some 67
      · simp [length, contract, Option.bind_eq_some_iff, and_assoc]
      · simp [length, account, contract]
  · simp [length]

/-- No padding byte is a strkey character. -/
theorem decodeStrkey_nonzero {s : Bytes} {decoded} (ok : decodeStrkey s = some decoded) :
    s.length = 56 ∧ 0 ∉ s := by
  obtain ⟨length, _, -, d, ran, -⟩ := decodeStrkey_some.mp ok
  exact ⟨length, Decoder.run_nonzero ran⟩

theorem isValidStrkey_nonzero {s : Bytes} (valid : isValidStrkey s = true) :
    s.length = 56 ∧ 0 ∉ s := by
  obtain ⟨decoded, ok⟩ := Option.isSome_iff_exists.mp valid
  exact decodeStrkey_nonzero ok

/-- The account and the contract of the all-zero key. -/
example :
    Address.fromStringBytes (ascii "GAAAAAAAAAAAAAAAAAAAAAAAAAAAAAAAAAAAAAAAAAAAAAAAAAAAAWHF") =
        some (.account 0) ∧
      Address.fromStringBytes (ascii "CAAAAAAAAAAAAAAAAAAAAAAAAAAAAAAAAAAAAAAAAAAAAAAAAAAABSC4") =
        some (.contract 0) ∧
      Address.fromStringBytes (ascii "CAAAAAAAAAAAAAAAAAAAAAAAAAAAAAAAAAAAAAAAAAAAAAAAAAAABSCA") =
        none := by
  decide +kernel

/-! ## Destination assets -/

def maxDestAssetLen : Nat := 69

inductive DestAsset where
  | native
  | classic (code issuer : Bytes)
  | contract
  deriving DecidableEq

def isAsciiAlphanumeric (b : UInt8) : Bool :=
  (48 ≤ b && b ≤ 57) || (65 ≤ b && b ≤ 90) || (97 ≤ b && b ≤ 122)

/-- `native`, `CODE:ISSUER` or a contract strkey.  58 is the colon. -/
def DestAsset.parse (id : Bytes) : Option DestAsset :=
  if id = ascii "native" then some .native
  else if 58 ∈ id then
    let code := id.takeWhile (· != 58)
    let issuer := (id.dropWhile (· != 58)).tail
    if code = [] ∨ 12 < code.length ∨ ¬ code.all isAsciiAlphanumeric then none
    else if issuer.head? ≠ some 71 then none
    else (decodeStrkey issuer).map fun decoded => .classic code decoded.2
  else if id.head? = some 67 ∧ isValidStrkey id then some .contract
  else none

/-- Not the first form; the colon decides between the other two. -/
theorem DestAsset.parse_isSome {id : Bytes} (other : id ≠ ascii "native") :
    (DestAsset.parse id).isSome ↔
      if 58 ∈ id then
        id.takeWhile (· != 58) ≠ [] ∧ (id.takeWhile (· != 58)).length ≤ 12 ∧
          (id.takeWhile (· != 58)).all isAsciiAlphanumeric ∧
          (id.dropWhile (· != 58)).tail.head? = some 71 ∧
          isValidStrkey (id.dropWhile (· != 58)).tail
      else id.head? = some 67 ∧ isValidStrkey id := by
  unfold DestAsset.parse isValidStrkey
  rw [if_neg other]
  by_cases classic : 58 ∈ id
  · simp only [classic, if_true]
    split
    · grind
    · split
      · grind
      · grind [Option.isSome_map]
  · simp only [classic, if_false]
    split
    · grind
    · grind

/-- An identifier with a colon in it is its code, the colon and its issuer. -/
theorem colon_parts {id : Bytes} (colon : 58 ∈ id) :
    id = id.takeWhile (· != 58) ++ 58 :: (id.dropWhile (· != 58)).tail := by
  conv => lhs; rw [← List.takeWhile_append_dropWhile (p := (· != 58)) (l := id)]
  congr 1
  cases rest : id.dropWhile (· != 58) with
  | nil =>
      have passed := List.dropWhile_eq_nil_iff.mp rest 58 colon
      cases passed
  | cons first issuer =>
      have stop := List.head_dropWhile_not (p := (· != 58)) (l := id) (by rw [rest]; simp)
      have same : first = 58 := by simpa [rest] using stop
      rw [same]
      rfl

/-- No padding byte is part of a canonical identifier. -/
theorem DestAsset.parse_nonzero {id : Bytes} (canonical : (DestAsset.parse id).isSome) :
    0 ∉ id := by
  by_cases native : id = ascii "native"
  · rw [native]
    decide
  · rw [DestAsset.parse_isSome native] at canonical
    split at canonical
    · rename_i classic
      obtain ⟨_, _, plain, _, valid⟩ := canonical
      rw [colon_parts classic]
      intro zero
      rcases List.mem_append.mp zero with zero | zero
      · have bad := List.all_eq_true.mp plain 0 zero
        cases bad
      · rcases List.mem_cons.mp zero with same | zero
        · cases same
        · exact (isValidStrkey_nonzero valid).2 zero
    · exact (isValidStrkey_nonzero canonical.2).2

/-- XDR of a classic asset, from which the address of its token contract is derived. -/
def classicAssetXdr (code issuer : Bytes) : Bytes :=
  let assetType := if code.length ≤ 4 then 1 else 2
  let codeWidth := if code.length ≤ 4 then 4 else 12
  encode 4 assetType ++ padRight codeWidth code ++ encode 4 0 ++ issuer

end Perihelion.Settlement

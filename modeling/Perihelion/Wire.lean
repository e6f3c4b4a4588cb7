import Perihelion.Lib.BigEndian

/-! # Words on the wire

Both contracts address an intent by its 32-byte EIP-712 hash and exchange
fixed-layout byte strings over LayerZero.
-/

namespace Perihelion

open BigEndian

abbrev Bytes32 := BitVec 256

/-- A LayerZero endpoint id. -/
abbrev Eid := UInt32

/-- What the replay guards tell apart: a message's source endpoint id and its nonce there. -/
structure Delivery where
  srcEid : Eid
  nonce : UInt64
  deriving DecidableEq

def Bytes32.toBytes (x : Bytes32) : Bytes := encode 32 x.toNat

def Bytes32.ofBytes (bytes : Bytes) : Bytes32 := BitVec.ofNat 256 (decode bytes)

/-- The first `n` bytes of a text, zero-padded on the right. -/
def padRight (n : Nat) (bytes : Bytes) : Bytes := bytes.take n ++ List.replicate (n - bytes.length) 0

def ascii (text : String) : Bytes := text.toList.map fun ch => UInt8.ofNat ch.toNat

@[simp] theorem Bytes32.toBytes_length (x : Bytes32) : (Bytes32.toBytes x).length = 32 :=
  encode_length 32 _

@[simp] theorem Bytes32.ofBytes_toBytes (x : Bytes32) : Bytes32.ofBytes (Bytes32.toBytes x) = x := by
  apply BitVec.eq_of_toNat_eq
  have small := x.isLt
  simp only [ofBytes, toBytes, decode_encode, BitVec.toNat_ofNat]
  omega

theorem Bytes32.toBytes_ofBytes {bytes : Bytes} (width : bytes.length = 32) :
    Bytes32.toBytes (Bytes32.ofBytes bytes) = bytes := by
  have small := decode_lt bytes
  rw [width] at small
  rw [toBytes, ofBytes, BitVec.toNat_ofNat, Nat.mod_eq_of_lt (by omega), ← width, encode_decode]

@[simp] theorem padRight_length (n : Nat) (bytes : Bytes) : (padRight n bytes).length = n := by
  simp only [padRight, List.length_append, List.length_take, List.length_replicate]
  omega

/-- Width of a 256-bit unsigned integer: one past its largest value. -/
def uint256 : Nat := 2 ^ 256

def uint128 : Nat := 2 ^ 128

def uint64 : Nat := 2 ^ 64

end Perihelion

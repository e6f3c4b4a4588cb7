import Perihelion.Escrow.State

/-! # Payloads of the escrow

The outbound FillInstruction and the two inbound messages, all of fixed length and
big-endian, and the EIP-712 hash that names an intent on both chains.
-/

namespace Perihelion.Escrow

open BigEndian Fallible

/-- An address as a 32-byte word. -/
def addressWord (account : Address) : Bytes := encode 32 account.toNat

/-- `abi.encodePacked(bytes2(0x0003), bytes1(0x01), bytes1(0x01), bytes2(0x0011),
    uint128(300_000), uint128(0))`. -/
def lzReceiveOptions : Bytes :=
  encode 2 0x0003 ++ [0x01] ++ [0x01] ++ encode 2 0x0011 ++ encode 16 300000 ++ encode 16 0

def buildMessagingParams (d : Deployment) (w : World) (message : Bytes) : MessagingParams where
  dstEid := d.stellarEid
  receiver := w.stellarPeer
  message := message
  options := lzReceiveOptions
  payInLzToken := false

def encodeFillInstruction (d : Deployment) (intentHash : Bytes32) (intent : Intent)
    (lockingSolver : Address) : Bytes :=
  [protocolVersion] ++ [msgFillInstruction] ++ Bytes32.toBytes intentHash
    ++ encode 4 d.stellarEid.toNat ++ padRight 56 intent.destination
    ++ padRight 69 intent.destAsset ++ encode 16 intent.minDestAmount
    ++ encode 8 intent.deadline ++ addressWord lockingSolver ++ encode 8 0

theorem encodeFillInstruction_length (d : Deployment) (intentHash : Bytes32) (intent : Intent)
    (lockingSolver : Address) :
    (encodeFillInstruction d intentHash intent lockingSolver).length = fillInstructionLength := by
  simp [encodeFillInstruction, addressWord, fillInstructionLength]

structure FillConfirmed where
  intentHash : Bytes32
  solverEvm : Address
  fillAmount : Nat
  fillLedger : Nat
  deriving DecidableEq

structure CancelIntent where
  intentHash : Bytes32
  reason : Nat
  deriving DecidableEq

/-- The last two words run past the message; only their bytes inside it are kept. -/
def decodeFillConfirmed (message : Bytes) : Except Revert FillConfirmed := do
  require (message.length = fillConfirmedLength) .malformedPayload
  let solverWord := decode (field message 34 32)
  require (solverWord / 2 ^ 160 = 0) .malformedPayload
  return {
    intentHash := Bytes32.ofBytes (field message 2 32)
    solverEvm := BitVec.ofNat 160 solverWord
    fillAmount := decode (field message 66 16)
    fillLedger := decode (field message 82 8) }

def decodeCancelIntent (message : Bytes) : Except Revert CancelIntent := do
  require (message.length = cancelIntentLength) .malformedPayload
  let reason := decode (field message 34 1)
  require
    (reason = cancelReasonExpired ∨ reason = cancelReasonAdmin ∨ reason = cancelReasonInvalid)
    .malformedPayload
  return { intentHash := Bytes32.ofBytes (field message 2 32), reason := reason }

section Calldata

/-- `calldataload`: the 32 bytes at `offset`, of which those past the end are zero. -/
def calldataload (calldata : Bytes) (offset : Nat) : Nat :=
  decode (field (calldata ++ List.replicate (offset + 32) 0) offset 32)

/-- `_decodeFillConfirmed` as its assembly reads it: whole words of `m` and of the calldata
    that follows it, shifted to the width of the field. -/
def decodeFillConfirmedWords (m tail : Bytes) : Except Revert FillConfirmed := do
  require (m.length = fillConfirmedLength) .malformedPayload
  let hashWord := calldataload (m ++ tail) 2
  let solverWord := calldataload (m ++ tail) 34
  let amountWord := calldataload (m ++ tail) 66
  let ledgerWord := calldataload (m ++ tail) 82
  require (solverWord / 2 ^ 160 = 0) .malformedPayload
  return {
    intentHash := BitVec.ofNat 256 hashWord
    solverEvm := BitVec.ofNat 160 solverWord
    fillAmount := amountWord / 2 ^ 128 % 2 ^ 128
    fillLedger := ledgerWord / 2 ^ 192 % 2 ^ 64 }

/-- The high `n` bytes of a loaded word, whatever follows them. -/
theorem calldataload_shift (message tail : Bytes) {offset n : Nat}
    (inside : offset + n ≤ message.length) (narrow : n ≤ 32) :
    calldataload (message ++ tail) offset / 256 ^ (32 - n) = decode (field message offset n) := by
  have low := decode_lt (field (message ++ (tail ++ List.replicate (offset + 32) 0))
    (offset + n) (32 - n))
  rw [field_length (by simp only [List.length_append, List.length_replicate]; omega)] at low
  have whole : n + (32 - n) = 32 := by omega
  have split := field_split (message ++ (tail ++ List.replicate (offset + 32) 0)) offset n (32 - n)
  rw [whole] at split
  rw [calldataload, List.append_assoc, split, decode_append,
    field_length (by simp only [List.length_append, List.length_replicate]; omega),
    field_append_left message inside, Nat.mul_comm,
    Nat.mul_add_div (Nat.pow_pos (by decide)), Nat.div_eq_of_lt low, Nat.add_zero]

/-- The shifts leave the fields, so nothing past the message is read. -/
theorem decodeFillConfirmedWords_eq (m tail : Bytes) :
    decodeFillConfirmedWords m tail = decodeFillConfirmed m := by
  by_cases length : m.length = fillConfirmedLength
  · have sized := length
    unfold fillConfirmedLength at sized
    have hash := @calldataload_shift m tail 2 32 (by omega) (by decide)
    have solver := @calldataload_shift m tail 34 32 (by omega) (by decide)
    have amount := @calldataload_shift m tail 66 16 (by omega) (by decide)
    have ledger := @calldataload_shift m tail 82 8 (by omega) (by decide)
    have smallAmount := decode_lt (field m 66 16)
    have smallLedger := decode_lt (field m 82 8)
    rw [field_length (by omega)] at smallAmount smallLedger
    norm_num at hash solver amount ledger smallAmount smallLedger
    simp only [decodeFillConfirmedWords, decodeFillConfirmed, hash, solver]
    norm_num
    rw [amount, ledger, Nat.mod_eq_of_lt smallAmount, Nat.mod_eq_of_lt smallLedger]
    rfl
  · simp only [decodeFillConfirmedWords, decodeFillConfirmed, require, length]
    rfl

end Calldata

/-! ## Intent hash -/

def domainTypehash (d : Deployment) : Bytes32 :=
  d.keccak256 (ascii
    "EIP712Domain(string name,string version,uint256 chainId,address verifyingContract)")

def intentTypehash (d : Deployment) : Bytes32 :=
  d.keccak256 (ascii ("Intent(address user,string destination,uint256 sourceChainId," ++
    "address sourceAsset,uint256 sourceAmount,string destAsset,uint256 minDestAmount," ++
    "uint256 deadline,uint256 nonce,address preferredSolver)"))

def domainSeparator (d : Deployment) : Bytes32 :=
  d.keccak256 (Bytes32.toBytes (domainTypehash d)
    ++ Bytes32.toBytes (d.keccak256 (ascii "Perihelion")) ++ Bytes32.toBytes (d.keccak256 (ascii "1"))
    ++ encode 32 d.chainid ++ addressWord d.this)

def hashIntent (d : Deployment) (intent : Intent) : Bytes32 :=
  let structHash := d.keccak256 (Bytes32.toBytes (intentTypehash d) ++ addressWord intent.user
    ++ Bytes32.toBytes (d.keccak256 intent.destination) ++ encode 32 intent.sourceChainId
    ++ addressWord intent.sourceAsset ++ encode 32 intent.sourceAmount
    ++ Bytes32.toBytes (d.keccak256 intent.destAsset) ++ encode 32 intent.minDestAmount
    ++ encode 32 intent.deadline ++ encode 32 intent.nonce ++ addressWord intent.preferredSolver)
  d.keccak256 ([0x19] ++ [0x01] ++ Bytes32.toBytes (domainSeparator d) ++ Bytes32.toBytes structHash)

end Perihelion.Escrow

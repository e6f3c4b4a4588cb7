import Perihelion.Settlement.State

/-! # Payloads of the settlement contract

The two outbound messages and the decoders of `lz_receive_bytes`.  The destination
asset of a FillInstruction is checked here for its form and resolved later, since
that needs storage.
-/

namespace Perihelion.Settlement

open BigEndian Fallible

def encodeFillConfirmed (intentHash solverEvm : Bytes32) (fillAmount : I128) (fillLedger : Nat) :
    Bytes :=
  [protocolVersion] ++ [msgFillConfirmed] ++ Bytes32.toBytes intentHash ++ Bytes32.toBytes solverEvm
    ++ encode 16 fillAmount.toNat ++ encode 8 fillLedger

def encodeCancelIntent (intentHash : Bytes32) (reason : UInt8) : Bytes :=
  [protocolVersion] ++ [msgCancelIntent] ++ Bytes32.toBytes intentHash ++ [reason]

theorem encodeFillConfirmed_length (intentHash solverEvm : Bytes32) (fillAmount : I128)
    (fillLedger : Nat) :
    (encodeFillConfirmed intentHash solverEvm fillAmount fillLedger).length =
      fillConfirmedLength := by
  simp [encodeFillConfirmed, fillConfirmedLength]

theorem encodeCancelIntent_length (intentHash : Bytes32) (reason : UInt8) :
    (encodeCancelIntent intentHash reason).length = cancelIntentLength := by
  simp [encodeCancelIntent, cancelIntentLength]

/-- The intent an outbound message is about: both layouts have the hash at offset 2. -/
def messageIntent (message : Bytes) : Bytes32 := Bytes32.ofBytes (field message 2 32)

@[simp] theorem messageIntent_encodeFillConfirmed (intentHash solverEvm : Bytes32)
    (fillAmount : I128) (fillLedger : Nat) :
    messageIntent (encodeFillConfirmed intentHash solverEvm fillAmount fillLedger) = intentHash := by
  have hash := field_of_append ([protocolVersion] ++ [msgFillConfirmed]) (Bytes32.toBytes intentHash)
    (Bytes32.toBytes solverEvm ++ encode 16 fillAmount.toNat ++ encode 8 fillLedger) 2 32 rfl (by simp)
  simp only [messageIntent, encodeFillConfirmed, List.append_assoc] at hash ⊢
  rw [hash, Bytes32.ofBytes_toBytes]

@[simp] theorem messageIntent_encodeCancelIntent (intentHash : Bytes32) (reason : UInt8) :
    messageIntent (encodeCancelIntent intentHash reason) = intentHash := by
  have hash := field_of_append ([protocolVersion] ++ [msgCancelIntent]) (Bytes32.toBytes intentHash)
    [reason] 2 32 rfl (by simp)
  simp only [messageIntent, encodeCancelIntent, List.append_assoc] at hash ⊢
  rw [hash, Bytes32.ofBytes_toBytes]

/-! ## Decoding -/

def readField (n : Nat) (message : Bytes) (offset : Nat) : Except Failure Bytes := do
  require (offset + n ≤ message.length) .malformedPayload
  return field message offset n

/-- One past the last nonzero byte. -/
def trimmedLen (padded : Bytes) : Nat := (padded.reverse.dropWhile (· == 0)).length

/-- The padding comes off a text that has no zero byte of its own. -/
theorem take_trimmedLen {n : Nat} {text : Bytes} (fits : text.length ≤ n) (nonzero : 0 ∉ text) :
    (padRight n text).take (trimmedLen (padRight n text)) = text := by
  have padding : (List.replicate (n - text.length) (0 : UInt8)).reverse.dropWhile (· == 0) = [] := by
    rw [List.reverse_replicate, List.dropWhile_replicate]
    rfl
  have kept : text.reverse.dropWhile (· == 0) = text.reverse := by
    have last : 0 ∉ text.reverse := fun zero => nonzero (List.mem_reverse.mp zero)
    cases reversed : text.reverse with
    | nil => rfl
    | cons b rest =>
        rw [reversed] at last
        have nonzero : b ≠ 0 := fun same => last (by simp [same])
        simp [nonzero]
  have length : trimmedLen (padRight n text) = text.length := by
    unfold trimmedLen padRight
    rw [List.take_of_length_le fits, List.reverse_append, List.dropWhile_append, padding]
    simp [kept]
  rw [length, padRight, List.take_of_length_le fits, List.take_left]

def decodeStrkeyAddress (padded : Bytes) : Except Failure Address := do
  let strkey := padded.take (trimmedLen padded)
  require (isValidStrkey strkey) .malformedPayload
  expect .trap (Address.fromStringBytes strkey)

/-- A FillInstruction before its asset is resolved. -/
structure WireFillInstruction where
  intentHash : Bytes32
  srcEid : Eid
  recipient : Address
  destAsset : Bytes
  minDestAmount : I128
  deadline : Nat
  preferredSolver : Option Address
  lockedSolver : Option Bytes32
  reservationWindow : Nat
  deriving DecidableEq

def WireFillInstruction.intoFillInstruction (fi : WireFillInstruction) (destAsset : Address) :
    FillInstruction where
  intentHash := fi.intentHash
  srcEid := fi.srcEid
  recipient := fi.recipient
  destAsset := destAsset
  minDestAmount := fi.minDestAmount
  deadline := fi.deadline
  preferredSolver := fi.preferredSolver
  lockedSolver := fi.lockedSolver
  reservationWindow := fi.reservationWindow

def decodeFillInstruction (message : Bytes) : Except Failure WireFillInstruction := do
  require (message.length = fillInstructionLength) .malformedPayload
  let intentHash ← readField 32 message 2
  let srcEid ← readField 4 message 34
  let recipientRaw ← readField 56 message 38
  let recipient ← decodeStrkeyAddress recipientRaw
  let destAssetRaw ← readField maxDestAssetLen message 94
  let destAsset := destAssetRaw.take (trimmedLen destAssetRaw)
  require ((DestAsset.parse destAsset).isSome) .malformedPayload
  let minDestAmountBytes ← readField 16 message 163
  let minDestAmount : I128 := BitVec.ofNat 128 (decode minDestAmountBytes)
  require (0 ≤ minDestAmount.toInt) .malformedPayload
  let deadline ← readField 8 message 179
  let solverWord ← readField 32 message 187
  let reservationWindow ← readField 8 message 219
  return {
    intentHash := Bytes32.ofBytes intentHash
    srcEid := UInt32.ofNat (decode srcEid)
    recipient := recipient
    destAsset := destAsset
    minDestAmount := minDestAmount
    deadline := decode deadline
    preferredSolver := none
    lockedSolver := if decode solverWord = 0 then none else some (Bytes32.ofBytes solverWord)
    reservationWindow := decode reservationWindow }

def decodeCancelIntent (message : Bytes) : Except Failure CancelInstruction := do
  require (message.length = cancelIntentLength) .malformedPayload
  let intentHash ← readField 32 message 2
  let reason ← readField 1 message 34
  require
    (reason = [cancelReasonExpired] ∨ reason = [cancelReasonAdmin] ∨ reason = [cancelReasonInvalid])
    .malformedPayload
  return { intentHash := Bytes32.ofBytes intentHash, reason := decode reason }

/-- The discriminant, the FillInstruction (a placeholder with a cancel) and the cancel. -/
def decodeMessage (message : Bytes) :
    Except Failure (UInt8 × WireFillInstruction × Option CancelInstruction) :=
  match message with
  | version :: msgType :: _ => do
      require (version = protocolVersion) .malformedPayload
      if msgType = msgFillInstruction then
        let fi ← decodeFillInstruction message
        return (msgType, fi, none)
      else if msgType = msgCancelIntent then
        let ci ← decodeCancelIntent message
        let dummy : WireFillInstruction := {
          intentHash := ci.intentHash
          srcEid := 0
          recipient := .account 0
          destAsset := []
          minDestAmount := 0
          deadline := 0
          preferredSolver := none
          lockedSolver := none
          reservationWindow := 0 }
        return (msgType, dummy, some ci)
      else .error .unknownMessageType
  | _ => .error .malformedPayload

end Perihelion.Settlement

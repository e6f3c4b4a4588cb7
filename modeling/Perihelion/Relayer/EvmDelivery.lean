import Perihelion.Escrow.Steps
import Perihelion.Relayer.State
import Perihelion.Relayer.Text
import Perihelion.Settlement.Messages

/-! # Delivery to the escrow

`EvmDestinationDelivery` puts a frame of its own around a payload that is framed already.
What it hands to `lzReceive` is 33 bytes longer than either message the escrow knows, so
that the escrow takes none of it.
-/

namespace Perihelion.Relayer

open BigEndian Fallible
open Sdk (JsString js)

def MessageType.name : MessageType → String
  | .fillInstruction => "FillInstruction"
  | .fillConfirmed => "FillConfirmed"
  | .cancelIntent => "CancelIntent"

/-- What a delivery reads of a message. -/
structure Message where
  type : MessageType
  guid : Option JsString
  payload : JsString
  nonce : Option Nat

structure EvmDestinationDeliveryConfig where
  escrowAddress : JsString
  mockEndpointAddress : Option JsString
  dstEid : Option Nat
  srcEid : Option Nat
  srcSender : Option JsString

structure OriginTuple where
  srcEid : Nat
  sender : JsString
  nonce : Nat

/-- The contract call that is simulated and then written. -/
inductive ContractCall where
  | deliver (address : JsString) (dstEid : Nat) (receiver payload : JsString)
  | lzReceive (address : JsString) (origin : OriginTuple) (guid message executor extraData : JsString)

def zeroBytes32 : JsString := js "0x" ++ List.replicate 64 (Hex.digit 0)

/-- No hash: the first 32 bytes of the payload, zero-padded. -/
def payloadHash (message : Message) : JsString :=
  let raw := strip0x message.payload
  js "0x" ++ (raw ++ List.replicate (64 - raw.length) (Hex.digit 0)).take 64

def guidFor (message : Message) : JsString :=
  match message.guid with
  | some guid => if (js "0x").isPrefixOf guid ∧ guid.length = 66 then guid else payloadHash message
  | none => payloadHash message

def typeCode : MessageType → Except String Nat
  | .fillConfirmed => .ok 1
  | .cancelIntent => .ok 2
  | type => .error ("Unsupported outbound message type: " ++ type.name)

def encodePayload (message : Message) : Except String JsString := do
  let guid := (guidFor message).drop 2
  let code ← typeCode message.type
  let typeByte := Hex.padStart 2 (Hex.ofNat code)
  return js "0x" ++ guid ++ typeByte ++ strip0x message.payload

def isOutboundType (type : MessageType) : Bool := type = .fillConfirmed || type = .cancelIntent

def deliverViaMockEndpoint (config : EvmDestinationDeliveryConfig) (endpoint payload : JsString) :
    ContractCall :=
  .deliver endpoint (config.dstEid.getD 0) config.escrowAddress payload

def deliverDirectly (config : EvmDestinationDeliveryConfig) (account : JsString) (message : Message)
    (payload : JsString) : ContractCall :=
  .lzReceive config.escrowAddress
    ⟨config.srcEid.getD 0, config.srcSender.getD zeroBytes32, message.nonce.getD 0⟩
    (guidFor message) payload account (js "0x")

def deliver (config : EvmDestinationDeliveryConfig) (account : JsString) (message : Message) :
    Except String ContractCall := do
  require (isOutboundType message.type)
    ("EvmDestinationDelivery cannot deliver message type " ++ message.type.name)
  let payload ← encodePayload message
  match config.mockEndpointAddress with
  | some endpoint => return deliverViaMockEndpoint config endpoint payload
  | none => return deliverDirectly config account message payload

/-! ## What arrives -/

/-- The message carries these bytes as hexadecimal text, with a prefix or without. -/
def Message.Carries (message : Message) (payload : Bytes) : Prop :=
  Hex.parse (strip0x message.payload) = some payload

/-- The bytes that `lzReceive` is called with, where the text is one. -/
def ContractCall.received : ContractCall → Option Bytes
  | .lzReceive _ _ _ message _ _ => Hex.parse (strip0x message)
  | .deliver .. => none

/-- The message is delivered directly and its bytes arrive as `reads` says. -/
def Survives (config : EvmDestinationDeliveryConfig) (account : JsString) (message : Message)
    (reads : Bytes → Prop) : Prop :=
  ∃ call bytes, deliver config account message = .ok call ∧ call.received = some bytes ∧ reads bytes

def ReadsFillConfirmed (intentHash solverEvm : Bytes32) (fillAmount : Settlement.I128)
    (fillLedger : Nat) (bytes : Bytes) : Prop :=
  (∃ rest, bytes = Escrow.protocolVersion :: Escrow.msgFillConfirmed :: rest) ∧
    ∃ m, Escrow.decodeFillConfirmed bytes = .ok m ∧ m.intentHash = intentHash ∧
      m.solverEvm.toNat = solverEvm.toNat ∧ m.fillAmount = fillAmount.toNat ∧
      m.fillLedger = fillLedger

def ReadsCancelIntent (intentHash : Bytes32) (reason : UInt8) (bytes : Bytes) : Prop :=
  (∃ rest, bytes = Escrow.protocolVersion :: Escrow.msgCancelIntent :: rest) ∧
    ∃ m, Escrow.decodeCancelIntent bytes = .ok m ∧ m.intentHash = intentHash ∧
      m.reason = reason.toNat

theorem guidFor_length (message : Message) : (guidFor message).length = 66 := by
  have hash : (payloadHash message).length = 66 := by
    simp only [payloadHash, js, List.length_append, List.length_take, List.length_replicate]
    simp
    omega
  unfold guidFor
  split
  · split
    · rename_i fits
      exact fits.2
    · exact hash
  · exact hash

theorem encodePayload_length {message : Message} {encoded : JsString}
    (ran : encodePayload message = .ok encoded) :
    (strip0x encoded).length = 66 + (strip0x message.payload).length := by
  have guid := guidFor_length message
  simp only [encodePayload, bind_ok, pure_ok] at ran
  obtain ⟨code, known, rfl⟩ := ran
  have small : (Hex.padStart 2 (Hex.ofNat code)).length = 2 := by
    unfold typeCode at known
    split at known
    · cases known
      decide
    · cases known
      decide
    · cases known
  rw [List.append_assoc, List.append_assoc, strip0x_prefixed]
  simp only [List.length_append, List.length_drop, guid, small]
  omega

/-- A frame of 33 bytes goes in front of the payload. -/
theorem received_length {config : EvmDestinationDeliveryConfig} {account : JsString}
    {message : Message} {call : ContractCall} {payload bytes : Bytes}
    (delivered : deliver config account message = .ok call) (received : call.received = some bytes)
    (carries : message.Carries payload) : bytes.length = 33 + payload.length := by
  simp only [deliver, bind_ok, require_ok, exists_const] at delivered
  obtain ⟨-, encoded, ran, delivered⟩ := delivered
  have length := encodePayload_length ran
  rw [Hex.parse_length carries] at length
  split at delivered
  · cases delivered
    cases received
  · cases delivered
    have width := Hex.parse_length received
    omega

/-- Neither decoder of the escrow takes 33 bytes more than it knows. -/
theorem not_survives {config : EvmDestinationDeliveryConfig} {account : JsString} {message : Message} :
    (∀ intentHash solverEvm fillAmount fillLedger,
      message.Carries (Settlement.encodeFillConfirmed intentHash solverEvm fillAmount fillLedger) →
      ¬ Survives config account message
        (ReadsFillConfirmed intentHash solverEvm fillAmount fillLedger)) ∧
    ∀ intentHash reason, message.Carries (Settlement.encodeCancelIntent intentHash reason) →
      ¬ Survives config account message (ReadsCancelIntent intentHash reason) := by
  constructor
  · intro intentHash solverEvm fillAmount fillLedger carries survives
    obtain ⟨call, bytes, delivered, received, -, m, decoded, -⟩ := survives
    have length := received_length delivered received carries
    rw [Settlement.encodeFillConfirmed_length] at length
    simp only [Escrow.decodeFillConfirmed, bind_ok, require_ok, exists_const] at decoded
    rw [decoded.1] at length
    cases length
  · intro intentHash reason carries survives
    obtain ⟨call, bytes, delivered, received, -, m, decoded, -⟩ := survives
    have length := received_length delivered received carries
    rw [Settlement.encodeCancelIntent_length] at length
    simp only [Escrow.decodeCancelIntent, bind_ok, require_ok, exists_const] at decoded
    rw [decoded.1] at length
    cases length

/-- Whatever the state of the escrow and whoever calls, it reverts on such bytes. -/
theorem lzReceive_rejects {c : Escrow.Context} {origin : Escrow.Origin} {w w' : Escrow.World}
    {bytes : Bytes} (fill : bytes.length ≠ Escrow.fillConfirmedLength)
    (cancel : bytes.length ≠ Escrow.cancelIntentLength) :
    Escrow.lzReceive c origin bytes w ≠ .ok w' := by
  intro ran
  obtain ⟨-, -, -, -, v, handled, -⟩ := Escrow.lzReceive_ok.mp ran
  rcases Escrow.handleMessage_ok.mp handled with ⟨-, -, ran⟩ | ⟨-, -, ran⟩
  · obtain ⟨m, decoded, -⟩ := Escrow.onFillConfirmed_ok.mp ran
    simp only [Escrow.decodeFillConfirmed, bind_ok, require_ok, exists_const] at decoded
    exact fill decoded.1
  · obtain ⟨m, decoded, -⟩ := Escrow.onCancelIntent_ok.mp ran
    simp only [Escrow.decodeCancelIntent, bind_ok, require_ok, exists_const] at decoded
    exact cancel decoded.1

/-- No payload of the settlement contract survives a direct delivery, and no escrow receives it. -/
theorem direct_delivery_rejected (config : EvmDestinationDeliveryConfig) (account : JsString)
    (message : Message) :
    (∀ intentHash solverEvm fillAmount fillLedger,
      message.Carries (Settlement.encodeFillConfirmed intentHash solverEvm fillAmount fillLedger) →
      ¬ Survives config account message
        (ReadsFillConfirmed intentHash solverEvm fillAmount fillLedger)) ∧
    (∀ intentHash reason, message.Carries (Settlement.encodeCancelIntent intentHash reason) →
      ¬ Survives config account message (ReadsCancelIntent intentHash reason)) ∧
    ∀ payload call bytes, message.Carries payload →
      payload.length = Settlement.fillConfirmedLength ∨
        payload.length = Settlement.cancelIntentLength →
      deliver config account message = .ok call → call.received = some bytes →
      ∀ c origin w w', Escrow.lzReceive c origin bytes w ≠ .ok w' := by
  refine ⟨not_survives.1, not_survives.2, ?_⟩
  intro payload call bytes carries known delivered received c origin w w'
  have length := received_length delivered received carries
  apply lzReceive_rejects
  · rcases known with fill | cancel
    · rw [length, fill]
      decide
    · rw [length, cancel]
      decide
  · rcases known with fill | cancel
    · rw [length, fill]
      decide
    · rw [length, cancel]
      decide

namespace Sample

/-- No mock endpoint: deliveries go to the escrow itself. -/
def direct : EvmDestinationDeliveryConfig where
  escrowAddress := js "0x000000000000000000000000000000000000e5c0"
  mockEndpointAddress := none
  dstEid := none
  srcEid := some 30600
  srcSender := none

def account : JsString := js "0x0000000000000000000000000000000000005e1a"

/-- A fill of 90 units in ledger 1200. -/
def confirmation : Message where
  type := .fillConfirmed
  guid := none
  payload := js "0x" ++ Hex.text (Settlement.encodeFillConfirmed 0xAAAA 0x501 90 1200)
  nonce := some 1

end Sample

/-- The confirmation is delivered, 123 bytes of it, and does not decode. -/
theorem direct_delivery_garbled :
    (deliver Sample.direct Sample.account Sample.confirmation).toOption.bind
        (fun call => call.received.map List.length) = some 123 ∧
      Sample.confirmation.Carries (Settlement.encodeFillConfirmed 0xAAAA 0x501 90 1200) ∧
      ¬ Survives Sample.direct Sample.account Sample.confirmation
        (ReadsFillConfirmed 0xAAAA 0x501 90 1200) := by
  have carries : Sample.confirmation.Carries (Settlement.encodeFillConfirmed 0xAAAA 0x501 90 1200) := by
    rw [Message.Carries, Sample.confirmation, strip0x_prefixed, Hex.parse_text]
  exact ⟨by decide +kernel, carries, not_survives.1 _ _ _ _ carries⟩

end Perihelion.Relayer

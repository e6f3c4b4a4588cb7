import Perihelion.Escrow.Emitted
import Perihelion.Relayer.State
import Perihelion.Relayer.Text

/-! # From a Locked log to a message

The watcher of the escrow has only the log of a lock to go by.  It builds the
FillInstruction a second time from the fields of the event, and what it builds is what the
lock has sent.
-/

namespace Perihelion.Relayer.Evm

open BigEndian Fallible
open Escrow (LockedEvent addressWord)
open Sdk (JsString js textEncode)

def fillInstructionLength : Nat := 227

/-! ## Buffers -/

/-- `/^0x[0-9a-fA-F]{digits}$/`. -/
def isHexWord (digits : Nat) (s : JsString) : Bool :=
  (js "0x").isPrefixOf s && s.length == 2 + digits && (s.drop 2).all fun unit => (Hex.value unit).isSome

/-- `Buffer.from(s, "hex")`: whole pairs, up to the first that is not hexadecimal. -/
def bufferFromHex : JsString → Bytes
  | high :: low :: rest =>
      match Hex.value high, Hex.value low with
      | some h, some l => UInt8.ofNat (16 * h + l) :: bufferFromHex rest
      | _, _ => []
  | _ => []

/-- `bytes.copy(out, offset)`. -/
def copyInto (bytes : Bytes) (out : Bytes) (offset : Nat) : Bytes :=
  out.take offset ++ bytes.take (out.length - offset) ++ out.drop (offset + bytes.length)

def canonicalFillInstruction (intentHash solver : JsString) (stellarEid : Int)
    (destination destAsset : JsString) (minDestAmount deadline : Int) : Except String JsString := do
  require (isHexWord 64 intentHash) "invalid intent hash"
  require (isHexWord 40 solver) "invalid solver address"
  require (¬ (stellarEid < 0 ∨ 0xffffffff < stellarEid)) "invalid destination eid"
  require (¬ (minDestAmount < 0 ∨ 0xffffffffffffffffffffffffffffffff < minDestAmount))
    "min destination amount does not fit uint128"
  require (¬ (deadline < 0 ∨ 0xffffffffffffffff < deadline)) "deadline does not fit uint64"
  let recipient := textEncode destination
  let asset := textEncode destAsset
  require (¬ (56 < recipient.length ∨ 69 < asset.length)) "canonical field exceeds wire width"
  let out : Bytes := List.replicate fillInstructionLength 0
  let out := copyInto [0x01] out 0
  let out := copyInto [0x01] out 1
  let out := copyInto (bufferFromHex (intentHash.drop 2)) out 2
  let out := copyInto (encode 4 stellarEid.toNat) out 34
  let out := copyInto recipient out 38
  let out := copyInto asset out 94
  let out := copyInto (bufferFromHex (Hex.padStart 32 (Hex.ofNat minDestAmount.toNat))) out 163
  let out := copyInto (bufferFromHex (Hex.padStart 16 (Hex.ofNat deadline.toNat))) out 179
  let out := copyInto (bufferFromHex (solver.drop 2)) out 199
  return js "0x" ++ Hex.text out

/-! ## Logs -/

structure Log where
  /-- `null` while the block is pending. -/
  blockNumber : Option Nat
  transactionHash : Option JsString
  topics : List JsString
  data : JsString
  deriving DecidableEq

/-- The fields of the event that are not indexed, as viem returns them. -/
structure LockedData where
  asset : JsString
  amount : Nat
  destination : JsString
  destAsset : JsString
  minDestAmount : Nat
  deadline : Nat
  deriving DecidableEq

/-- `decodeAbiParameters(LOCKED_DATA_PARAMS, data)`, where it does not throw. -/
abbrev DecodeLockedData := JsString → Option LockedData

structure EVMSourceWatcherConfig where
  sourceEid : Eid
  stellarEid : Eid
  maxBlockRange : Option Nat
  /-- An empty text counts as none, here and as the hash of a transaction. -/
  endpointAddress : Option JsString
  /-- The value after the last one it has returned. -/
  nonceCounter : Option (Nat → Nat)

structure BridgeMessage where
  srcEid : Eid
  dstEid : Eid
  intentHash : JsString
  messageType : MessageType
  solver : JsString
  recipient : JsString
  destAsset : JsString
  amount : JsString
  deadline : JsString
  nonce : Nat
  rawPayload : JsString
  deriving DecidableEq

structure PendingMessage where
  message : BridgeMessage
  srcTxHash : JsString
  srcBlock : Nat
  deriving DecidableEq

/-- `null` is `none`; the error is that of `canonicalFillInstruction`. -/
def decodeLockedLog (decodeData : DecodeLockedData) (config : EVMSourceWatcherConfig) (log : Log) :
    Except String (Option PendingMessage) :=
  match log.blockNumber, log.topics with
  | some (block + 1), _ :: intentHash :: solverTopic :: _ :: _ =>
      let solver := js "0x" ++ solverTopic.drop 26
      match decodeData log.data with
      | none => .ok none
      | some data => do
          let rawPayload ← canonicalFillInstruction intentHash solver config.stellarEid.toNat
            data.destination data.destAsset data.minDestAmount data.deadline
          return some {
            message := {
              srcEid := config.sourceEid
              dstEid := config.stellarEid
              intentHash := intentHash
              messageType := .fillInstruction
              solver := solver
              recipient := data.destination
              destAsset := data.destAsset
              amount := js (toString data.minDestAmount)
              deadline := js (toString data.deadline)
              nonce := 0
              rawPayload := rawPayload }
            srcTxHash := log.transactionHash.getD (js "")
            srcBlock := block + 1 }
  | _, _ => .ok none

/-! ## The log of an event -/

/-- A dynamic value in ABI data: its length, then its bytes up to a multiple of 32. -/
def abiString (text : Bytes) : Bytes :=
  encode 32 text.length ++ text ++ List.replicate ((32 - text.length % 32) % 32) 0

/-- `abi.encode(asset, amount, destination, destAsset, minDestAmount, deadline)`. -/
def lockedData (event : LockedEvent) : Bytes :=
  let destination := abiString event.destination
  addressWord event.asset ++ encode 32 event.amount ++ encode 32 192
    ++ encode 32 (192 + destination.length) ++ encode 32 event.minDestAmount
    ++ encode 32 event.deadline ++ destination ++ abiString event.destAsset

/-- What a node reports for the event. -/
def lockedLog (d : Escrow.Deployment) (event : LockedEvent) (blockNumber : Nat)
    (transactionHash : JsString) : Log where
  blockNumber := some blockNumber
  transactionHash := some transactionHash
  topics :=
    [hexText (Bytes32.toBytes (d.keccak256 (ascii
        "Locked(bytes32,address,address,address,uint256,string,string,uint128,uint64)"))),
      hexText (Bytes32.toBytes event.intentHash), hexText (addressWord event.solver),
      hexText (addressWord event.user)]
  data := hexText (lockedData event)

/-! ## The buffer -/

theorem bufferFromHex_parse {units : JsString} {bytes : Bytes} (parsed : Hex.parse units = some bytes) :
    bufferFromHex units = bytes := by
  fun_induction Hex.parse units generalizing bytes with
  | case1 =>
      cases parsed
      rfl
  | case2 => cases parsed
  | case3 high low rest ih =>
      simp only [Option.bind_eq_bind, Option.bind_eq_some_iff, Option.pure_def,
        Option.some.injEq] at parsed
      obtain ⟨h, isHigh, l, isLow, tail, found, rfl⟩ := parsed
      rw [bufferFromHex, isHigh, isLow, ih found]

theorem isHexWord_text {bytes : Bytes} {n : Nat} (width : bytes.length = n) :
    isHexWord (2 * n) (js "0x" ++ Hex.text bytes) = true := by
  have digits : ∀ unit ∈ Hex.text bytes, (Hex.value unit).isSome := Hex.value_text
  simp only [isHexWord, Bool.and_eq_true, List.all_eq_true]
  refine ⟨⟨by simp, ?_⟩, by simpa [js] using digits⟩
  simp [js, width]
  omega

theorem padRight_self {n : Nat} {bytes : Bytes} (width : bytes.length = n) : padRight n bytes = bytes := by
  subst width
  simp [padRight]

theorem padRight_append (before after : Bytes) (n : Nat) :
    padRight (before.length + n) (before ++ after) = before ++ padRight n after := by
  have rest : before.length + n - (before ++ after).length = n - after.length := by
    rw [List.length_append]
    omega
  rw [padRight, rest, List.take_length_add_append, padRight, List.append_assoc]

theorem padRight_of_le {n : Nat} {bytes : Bytes} (fits : bytes.length ≤ n) :
    padRight n bytes = bytes ++ List.replicate (n - bytes.length) 0 := by
  rw [padRight, List.take_of_length_le fits]

/-- Behind what is written so far a buffer is zero. -/
theorem copyInto_padRight {size offset : Nat} {bytes written : Bytes} (behind : written.length ≤ offset)
    (fits : offset + bytes.length ≤ size) :
    copyInto bytes (padRight size written) offset = padRight size (padRight offset written ++ bytes) := by
  have before : (padRight size written).take offset = padRight offset written := by
    rw [padRight_of_le behind, padRight_of_le (by omega), List.take_append,
      List.take_of_length_le behind, List.take_replicate, Nat.min_eq_left (by omega)]
  have after : (padRight size written).drop (offset + bytes.length) =
      List.replicate (size - (offset + bytes.length)) 0 := by
    have gone : written.drop (offset + bytes.length) = [] := List.drop_eq_nil_of_le (by omega)
    have count : size - written.length - (offset + bytes.length - written.length) =
        size - (offset + bytes.length) := by omega
    rw [padRight_of_le (by omega), List.drop_append, gone, List.drop_replicate, count,
      List.nil_append]
  have length : (padRight offset written ++ bytes).length = offset + bytes.length := by
    rw [List.length_append, padRight_length]
  have whole : bytes.take (size - offset) = bytes := List.take_of_length_le (by omega)
  have rest := @padRight_of_le size (padRight offset written ++ bytes) (by omega)
  rw [copyInto, before, after, padRight_length, whole, rest, length]

theorem copyInto_next {size offset : Nat} {bytes written : Bytes} (here : written.length = offset)
    (fits : offset + bytes.length ≤ size) :
    copyInto bytes (padRight size written) offset = padRight size (written ++ bytes) := by
  rw [copyInto_padRight (by omega) fits, padRight_self here]

/-- Nine writes in the order of their offsets; the gaps stay zero. -/
theorem assembled {hash eid recipient asset amount deadline solver : Bytes} (hashWidth : hash.length = 32)
    (eidWidth : eid.length = 4) (recipientFits : recipient.length ≤ 56)
    (assetFits : asset.length ≤ 69) (amountWidth : amount.length = 16)
    (deadlineWidth : deadline.length = 8) (solverWidth : solver.length = 20) :
    copyInto solver (copyInto deadline (copyInto amount (copyInto asset (copyInto recipient
        (copyInto eid (copyInto hash (copyInto [1] (copyInto [1]
          (List.replicate fillInstructionLength 0) 0) 1) 2) 34) 38) 94) 163) 179) 199 =
      [1] ++ [1] ++ hash ++ eid ++ padRight 56 recipient ++ padRight 69 asset ++ amount ++ deadline
        ++ (List.replicate 12 0 ++ solver) ++ List.replicate 8 0 := by
  have empty : List.replicate fillInstructionLength (0 : UInt8) = padRight fillInstructionLength [] := rfl
  have head : (([1] ++ [1] : Bytes) ++ hash ++ eid).length = 38 := by simp [hashWidth, eidWidth]
  have texts (text : Bytes) : (([1] ++ [1] : Bytes) ++ hash ++ eid ++ padRight 56 text).length = 94 := by
    simp [hashWidth, eidWidth]
  have fields := texts recipient
  rw [empty]
  unfold fillInstructionLength
  rw [copyInto_next (by simp) (by simp), List.nil_append, copyInto_next (by simp) (by simp),
    copyInto_next (by simp) (by omega), copyInto_next (by simp [hashWidth]) (by omega),
    copyInto_next head (by omega), copyInto_padRight (by rw [List.length_append]; omega) (by omega)]
  -- The recipient may be shorter than its field, and so may the asset.
  have recipientField := padRight_append ([1] ++ [1] ++ hash ++ eid) recipient 56
  rw [head] at recipientField
  rw [recipientField, copyInto_padRight (by rw [List.length_append]; omega) (by omega)]
  have assetField := padRight_append ([1] ++ [1] ++ hash ++ eid ++ padRight 56 recipient) asset 69
  rw [fields] at assetField
  have strings : (([1] ++ [1] : Bytes) ++ hash ++ eid ++ padRight 56 recipient
      ++ padRight 69 asset).length = 163 := by
    rw [List.length_append, fields, padRight_length]
  have numbers : (([1] ++ [1] : Bytes) ++ hash ++ eid ++ padRight 56 recipient ++ padRight 69 asset
      ++ amount ++ deadline).length = 187 := by
    rw [List.length_append, List.length_append, strings, amountWidth, deadlineWidth]
  rw [assetField, copyInto_next (by rw [List.length_append, strings, amountWidth]) (by omega),
    copyInto_padRight (by omega) (by omega)]
  -- The solver is an address at the end of its word.
  generalize [1] ++ [1] ++ hash ++ eid ++ padRight 56 recipient ++ padRight 69 asset ++ amount
    ++ deadline = written at numbers
  have word : padRight 199 written = written ++ List.replicate 12 0 := by
    rw [padRight_of_le (by omega), numbers]
  have all : (written ++ List.replicate 12 0 ++ solver).length = 219 := by
    rw [List.length_append, List.length_append, List.length_replicate, numbers, solverWidth]
  rw [word, padRight_of_le (by omega), all]
  simp only [List.append_assoc, Nat.reduceSub]

/-! ## The message of the lock -/

theorem addressWord_split (account : Escrow.Address) :
    addressWord account = List.replicate 12 0 ++ encode 20 account.toNat :=
  encode_pad (show account.toNat < 256 ^ 20 from account.isLt) 12

theorem addressWord_topic (account : Escrow.Address) :
    (hexText (addressWord account)).drop 26 = Hex.text (encode 20 account.toNat) := by
  have zeros : Hex.text (List.replicate 12 0) = List.replicate 24 (Hex.digit 0) := by decide
  rw [hexText, addressWord_split, Hex.text_append, zeros, ← List.append_assoc]
  exact List.drop_left' (by simp [js])

/-- The checks of the encoder let everything through that the escrow lets through. -/
theorem canonicalFillInstruction_eq {d : Escrow.Deployment} {intentHash : Bytes32}
    {intent : Escrow.Intent} {solver : Escrow.Address} {destination destAsset : JsString} {now : Nat}
    (checks : Escrow.StaticChecks intent now) (recipient : textEncode destination = intent.destination)
    (asset : textEncode destAsset = intent.destAsset) :
    canonicalFillInstruction (hexText (Bytes32.toBytes intentHash))
        (js "0x" ++ Hex.text (encode 20 solver.toNat)) d.stellarEid.toNat destination destAsset
        intent.minDestAmount intent.deadline =
      .ok (hexText (Escrow.encodeFillInstruction d intentHash intent solver)) := by
  have eid := d.stellarEid.toNat_lt
  have amount := checks.minDestAmount
  have deadline := checks.deadline
  have recipientFits := checks.destination.2
  have assetFits := checks.destAsset.2
  unfold uint128 uint64 Escrow.maxDestinationLen Escrow.maxDestAssetLen at *
  have hash : isHexWord 64 (hexText (Bytes32.toBytes intentHash)) = true :=
    @isHexWord_text _ 32 (Bytes32.toBytes_length intentHash)
  have account : isHexWord 40 (js "0x" ++ Hex.text (encode 20 solver.toNat)) = true :=
    @isHexWord_text _ 20 (encode_length 20 _)
  have prefixed (bytes : Bytes) : bufferFromHex ((js "0x" ++ Hex.text bytes).drop 2) = bytes :=
    bufferFromHex_parse (Hex.parse_text bytes)
  have amountBytes : bufferFromHex (Hex.padStart 32 (Hex.ofNat intent.minDestAmount)) =
      encode 16 intent.minDestAmount := bufferFromHex_parse (@Hex.parse_padStart 15 _ (by omega))
  have deadlineBytes : bufferFromHex (Hex.padStart 16 (Hex.ofNat intent.deadline)) =
      encode 8 intent.deadline := bufferFromHex_parse (@Hex.parse_padStart 7 _ (by omega))
  simp only [canonicalFillInstruction, bind_ok, require_ok, exists_const, pure_ok, recipient, asset]
  refine ⟨hash, account, by omega, by omega, by omega, by omega, ?_⟩
  have built := assembled (Bytes32.toBytes_length intentHash) (encode_length 4 d.stellarEid.toNat)
    recipientFits assetFits (encode_length 16 intent.minDestAmount)
    (encode_length 8 intent.deadline) (encode_length 20 solver.toNat)
  unfold hexText
  simp only [prefixed, Int.toNat_natCast, amountBytes, deadlineBytes, built]
  rw [Escrow.encodeFillInstruction, addressWord_split, encode_zero]
  rfl

/-- What is asked of the ABI decoder: the texts are those whose UTF-8 the event carries. -/
structure Decodes (decodeData : DecodeLockedData) (event : LockedEvent)
    (destination destAsset : JsString) : Prop where
  recipient : textEncode destination = event.destination
  asset : textEncode destAsset = event.destAsset
  data : decodeData (hexText (lockedData event)) =
    some ⟨hexText (encode 20 event.asset.toNat), event.amount, destination, destAsset,
      event.minDestAmount, event.deadline⟩

theorem decodeLockedLog_ok {decodeData : DecodeLockedData} {config : EVMSourceWatcherConfig}
    {d : Escrow.Deployment} {event : LockedEvent} {data : LockedData} {rawPayload : JsString}
    (block : Nat) (transactionHash : JsString)
    (decoded : decodeData (hexText (lockedData event)) = some data)
    (encoded : canonicalFillInstruction (hexText (Bytes32.toBytes event.intentHash))
      (js "0x" ++ (hexText (addressWord event.solver)).drop 26) config.stellarEid.toNat
      data.destination data.destAsset data.minDestAmount data.deadline = .ok rawPayload) :
    ∃ pending, decodeLockedLog decodeData config (lockedLog d event (block + 1) transactionHash) =
        .ok (some pending) ∧ pending.message.rawPayload = rawPayload := by
  simp only [decodeLockedLog, lockedLog, decoded, encoded]
  exact ⟨_, rfl, rfl⟩

/-- The message that a lock call sends is the one that the watcher builds from its event. -/
theorem rebuilt_payload {d : Escrow.Deployment} {tx : Escrow.Tx} {w w' : Escrow.World}
    {events : List LockedEvent} {messages : List Escrow.MessagingParams}
    {decodeData : DecodeLockedData} {config : EVMSourceWatcherConfig}
    (ran : Escrow.exec d tx w = .ok w') (emitted : w'.lockedEvents = w.lockedEvents ++ events)
    (dispatched : w'.sent = w.sent ++ messages) (same : config.stellarEid = d.stellarEid) :
    ∀ event ∈ events, ∀ destination destAsset, Decodes decodeData event destination destAsset →
      ∀ blockNumber transactionHash, blockNumber ≠ 0 → ∃ params pending, messages = [params] ∧
        decodeLockedLog decodeData config (lockedLog d event blockNumber transactionHash) =
          .ok (some pending) ∧
        pending.message.rawPayload = hexText params.message := by
  intro event member destination destAsset decodes blockNumber transactionHash mined
  by_cases locking : ∃ intent signature, tx.call = .lock intent signature
  · obtain ⟨intent, signature, called⟩ := locking
    obtain ⟨-, body⟩ := Escrow.exec_ok.mp ran
    rw [called] at body
    obtain ⟨checks, sent, received, locked⟩ := Escrow.lock_emits body
    have message : messages =
        [Escrow.fillInstructionParams (tx.context d) (Escrow.hashIntent d intent) intent w] :=
      List.append_cancel_left (dispatched.symm.trans sent)
    have report : events = [Escrow.lockedEvent (tx.context d) intent received] :=
      List.append_cancel_left (emitted.symm.trans locked)
    rw [report, List.mem_singleton] at member
    subst member
    obtain ⟨block, rfl⟩ := Nat.exists_eq_succ_of_ne_zero mined
    have amount : intent.minDestAmount % uint128 = intent.minDestAmount := by
      have small := checks.minDestAmount
      unfold uint128 at *
      exact Nat.mod_eq_of_lt (by omega)
    have deadline : intent.deadline % uint64 = intent.deadline := by
      have small := checks.deadline
      unfold uint64 at *
      exact Nat.mod_eq_of_lt (by omega)
    have encoded := @canonicalFillInstruction_eq d (Escrow.hashIntent d intent) intent tx.sender
      destination destAsset _ checks decodes.recipient decodes.asset
    rw [← same, ← addressWord_topic, ← amount, ← deadline] at encoded
    obtain ⟨pending, decoded, payload⟩ :=
      decodeLockedLog_ok (d := d) block transactionHash decodes.data encoded
    exact ⟨_, pending, message, decoded, payload⟩
  · have quiet := Escrow.exec_quiet ran fun intent signature called => locking ⟨intent, signature, called⟩
    have none : events = [] := by
      rw [quiet] at emitted
      simpa using emitted
    rw [none] at member
    cases member

namespace Sample

def config : EVMSourceWatcherConfig := ⟨30101, 30600, none, none, none⟩

def lockedEvent : LockedEvent where
  intentHash := Escrow.Sample.intentHash
  solver := Escrow.Sample.solver
  user := Escrow.Sample.wallet
  asset := Escrow.Sample.token
  amount := 100
  destination := ascii "GADQOBYHA4DQOBYHA4DQOBYHA4DQOBYHA4DQOBYHA4DQOBYHA4DQOZPI"
  destAsset := ascii "native"
  minDestAmount := 90
  deadline := 1700010000

def destination : JsString := js "GADQOBYHA4DQOBYHA4DQOBYHA4DQOBYHA4DQOBYHA4DQOBYHA4DQOZPI"

/-- What the decoder makes of the data of that event, and of no other. -/
def decodeData : DecodeLockedData := fun data =>
  if data = hexText (lockedData lockedEvent) then
    some ⟨hexText (encode 20 lockedEvent.asset.toNat), 100, destination, js "native", 90, 1700010000⟩
  else none

theorem decodes : Decodes decodeData lockedEvent destination (js "native") where
  recipient := by decide +kernel
  asset := by decide +kernel
  data := if_pos rfl

theorem locked_ran : Escrow.exec Escrow.Sample.deployment Escrow.Sample.lockTx Escrow.Sample.ready =
    .ok Escrow.Sample.locked := by
  have stepped : Escrow.next Escrow.Sample.deployment Escrow.Sample.ready (.tx Escrow.Sample.lockTx) =
      some Escrow.Sample.locked := by
    simp [Escrow.Sample.locked, Escrow.replay, Transition.System.replay]
  exact (Escrow.next_tx.mp stepped).2

theorem locked_emitted : Escrow.Sample.locked.lockedEvents =
    Escrow.Sample.ready.lockedEvents ++ [lockedEvent] := by
  decide +kernel

end Sample

theorem rebuilt_payload_sample :
    ∃ params pending, Escrow.Sample.locked.sent.drop Escrow.Sample.ready.sent.length = [params] ∧
      decodeLockedLog Sample.decodeData Sample.config
          (lockedLog Escrow.Sample.deployment Sample.lockedEvent 19000000 (js "0xabc")) =
        .ok (some pending) ∧
      pending.message.rawPayload = hexText params.message := by
  have before : Escrow.Sample.ready.sent = [] := by decide +kernel
  have sent : Escrow.Sample.locked.sent = Escrow.Sample.ready.sent ++
      Escrow.Sample.locked.sent.drop Escrow.Sample.ready.sent.length := by
    rw [before]
    rfl
  exact rebuilt_payload Sample.locked_ran Sample.locked_emitted sent rfl _
    (List.mem_singleton_self _) _ _ Sample.decodes 19000000 (js "0xabc") (by decide)

end Perihelion.Relayer.Evm

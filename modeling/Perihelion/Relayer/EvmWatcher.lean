import Perihelion.Relayer.LockedLog
import Perihelion.Relayer.Tick
import Perihelion.Sdk.Intent

/-! # The watcher of the escrow

`EVMSourceWatcher.poll` scans the Locked logs of a range of blocks.  The transport nonce of a
message is not in its log.  It comes out of the receipt of the log's transaction, or where that
is of no use out of a counter.
-/

namespace Perihelion.Relayer.Evm

open BigEndian
open Sdk (JsString js nearestDouble)

/-! ## The transport nonce -/

/-- A log in the receipt of a transaction, of whichever contract. -/
structure ReceiptLog where
  address : JsString
  topics : List JsString
  data : JsString

/-- The Locked logs of the escrow, and viem's two decoders; `none` is an exception. -/
structure Source where
  logs : List Log
  decodeData : DecodeLockedData
  /-- `encodedPayload` of `decodeAbiParameters(PACKET_SENT_DATA_PARAMS, data)`. -/
  decodePacketSent : JsString → Option JsString

def packetNonceOffset : Nat := 1
def packetNonceWidth : Nat := 8

/-- `none` is `null`, and the exception of `BigInt` too: the caller goes on after either. -/
def decodePacketNonce (encodedPayload : JsString) : Option Nat :=
  let hex := strip0x encodedPayload
  let headerBytes := packetNonceOffset + packetNonceWidth
  if hex.length < headerBytes * 2 then none
  else (Hex.parse ((hex.take (headerBytes * 2)).drop (packetNonceOffset * 2))).map decode

def packetNonce (source : Source) (endpoint : JsString) (receiptLog : ReceiptLog) : Option Nat :=
  if toLowerCase receiptLog.address ≠ endpoint then none
  else if receiptLog.topics.length < 1 then none
  else (source.decodePacketSent receiptLog.data).bind decodePacketNonce

/-- The first nonce in the receipt, where the receipt has come in time. -/
def fetchPacketSentNonce (source : Source) (endpointAddress : JsString)
    (receipt : Option (List ReceiptLog)) : Option Nat :=
  receipt.bind fun logs => logs.findSome? (packetNonce source (toLowerCase endpointAddress))

/-- `nonceCounter.next(pathKey)` or `nextFallbackNonce(pathKey)`: a watcher has one path, and
    one of the two. -/
def EVMSourceWatcherConfig.nextNonce (config : EVMSourceWatcherConfig) (counter : Nat) : Nat :=
  match config.nonceCounter with
  | some next => next counter
  | none => counter + 1

/-- The nonce as a number, and the counter. -/
def resolveTransportNonce (source : Source) (config : EVMSourceWatcherConfig)
    (receipt : Option (List ReceiptLog)) (log : Log) (counter : Nat) : Nat × Nat :=
  let found := config.endpointAddress.bind fun endpointAddress =>
    log.transactionHash.bind fun _ => fetchPacketSentNonce source endpointAddress receipt
  match found with
  | some nonce => (nearestDouble nonce, counter)
  | none =>
      let next := config.nextNonce counter
      (nearestDouble (if next = 0 then 1 else next), next)

def PendingMessage.withNonce (pending : PendingMessage) (nonce : Nat) : PendingMessage :=
  { pending with message := { pending.message with nonce := nonce } }

def decodeLockedLogWithNonce (source : Source) (config : EVMSourceWatcherConfig)
    (receipt : Option (List ReceiptLog)) (log : Log) (counter : Nat) :
    Except JsString (Option PendingMessage) × Nat :=
  match decodeLockedLog source.decodeData config log with
  | .error message => (.error (js message), counter)
  | .ok none => (.ok none, counter)
  | .ok (some base) =>
      let (nonce, counter) := resolveTransportNonce source config receipt log counter
      (.ok (some (base.withNonce nonce)), counter)

/-! ## A poll -/

/-- A message and the log it comes from. -/
abbrev Observation := Log × PendingMessage

/-- What a poll leaves behind: an exception takes back none of it. -/
structure Watcher where
  maxBlockRange : Nat
  counter : Nat

/-- The loop over the logs of one range. -/
def decodeLogs (source : Source) (config : EVMSourceWatcherConfig)
    (receipt : Log → Option (List ReceiptLog)) :
    List Log → Nat → Except JsString (List Observation) × Nat
  | [], counter => (.ok [], counter)
  | log :: rest, counter =>
      match decodeLockedLogWithNonce source config (receipt log) log counter with
      | (.error message, counter) => (.error message, counter)
      | (.ok none, counter) =>
          (.error (js "Failed to decode Locked event in transaction " ++
            log.transactionHash.getD (js "unknown")), counter)
      | (.ok (some pending), counter) =>
          let (messages, counter) := decodeLogs source config receipt rest counter
          (messages.map fun messages => (log, pending) :: messages, counter)

/-- What a call of `getLogs` comes to. -/
inductive LogsReply where
  | logs
  | rangeError (message : JsString)
  | failed (message : JsString)

def getLogs (source : Source) (fromBlock toBlock : Nat) : List Log :=
  source.logs.filter fun log => log.blockNumber.any fun block => fromBlock ≤ block && block ≤ toBlock

/-- The loop over the ranges, on the replies of the node. -/
def scan (source : Source) (config : EVMSourceWatcherConfig)
    (receipt : Log → Option (List ReceiptLog)) (head : Nat) :
    List LogsReply → Watcher → Nat → Except JsString (List Observation) × Watcher
  | [], w, scanHead => if head < scanHead then (.ok [], w) else (.error (js "no reply"), w)
  | reply :: replies, w, scanHead =>
      if head < scanHead then (.ok [], w)
      else
        let toBlock := min (scanHead + w.maxBlockRange - 1) head
        match reply with
        | .failed message => (.error message, w)
        | .rangeError message =>
            if w.maxBlockRange ≤ 1 then (.error message, w)
            else
              scan source config receipt head replies
                { w with maxBlockRange := max 1 (w.maxBlockRange / 2) } scanHead
        | .logs =>
            match decodeLogs source config receipt (getLogs source scanHead toBlock) w.counter with
            | (.error message, counter) => (.error message, { w with counter := counter })
            | (.ok observed, counter) =>
                let (messages, w) :=
                  scan source config receipt head replies { w with counter := counter } (toBlock + 1)
                (messages.map fun messages => observed ++ messages, w)

/-- What the nodes answer during one poll. -/
structure PollReplies where
  fromBlock : Nat
  head : Nat
  logs : List LogsReply
  /-- The receipts that come in time. -/
  receipt : Log → Option (List ReceiptLog)
  /-- What fails after the scan: a block header, or the scan for refunds. -/
  failure : Option JsString

/-- The messages, each with its log; the head and the headers are left out. -/
def poll (source : Source) (config : EVMSourceWatcherConfig) (replies : PollReplies) (w : Watcher) :
    Except JsString (List Observation) × Watcher :=
  let (messages, w) :=
    scan source config replies.receipt replies.head replies.logs w replies.fromBlock
  match replies.failure with
  | some message => (messages.bind fun _ => .error message, w)
  | none => (messages, w)

/-! ## Keys -/

/-- The relayer takes an intent hash for the bytes that it writes out. -/
def BridgeMessage.key (message : BridgeMessage) : MessageKey where
  srcEid := message.srcEid
  dstEid := message.dstEid
  intentHash := Bytes32.ofBytes (bufferFromHex (strip0x message.intentHash))
  messageType := message.messageType
  nonce := message.nonce

def PendingMessage.relayed (pending : PendingMessage) : Relayer.PendingMessage where
  key := pending.message.key
  srcBlock := pending.srcBlock

end Perihelion.Relayer.Evm

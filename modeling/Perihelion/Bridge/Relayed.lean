import Perihelion.Bridge.Registration
import Perihelion.Bridge.Repayment
import Perihelion.Escrow.Commissions
import Perihelion.Escrow.Emitted
import Perihelion.Relayer.EvmWatcher
import Perihelion.Relayer.SorobanDelivery
import Perihelion.Settlement.Governance

/-! # The relayer as the transport

The relayer reads the Locked events of the escrow and has `lz_receive_bytes` transactions included
in ledgers of Stellar.  It resubmits, times out and tries again; the network includes what was
submitted late, in any order, or never.  Whatever comes of it is a run of the two contracts and
a transport that hands over what was sent.
-/

namespace Perihelion.Escrow

open BigEndian Fallible Transition

/-- A Locked event reports an intent that has passed the checks, and a message was sent with it. -/
structure Reported (d : Deployment) (w : World) (event : LockedEvent) (params : MessagingParams)
    (intent : Intent) : Prop where
  sent : params ∈ w.sent
  dstEid : params.dstEid = d.stellarEid
  checks : ∃ now, StaticChecks intent now
  message : params.message = encodeFillInstruction d event.intentHash intent event.solver
  destination : event.destination = intent.destination
  destAsset : event.destAsset = intent.destAsset
  minDestAmount : event.minDestAmount = intent.minDestAmount
  deadline : event.deadline = intent.deadline

theorem Reported.grow {d : Deployment} {w w' : World} {event params intent}
    (reported : Reported d w event params intent) (kept : params ∈ w'.sent) :
    Reported d w' event params intent :=
  { reported with sent := kept }

theorem exec_reports {d : Deployment} {tx : Tx} {w w' : World} (ran : exec d tx w = .ok w') :
    w'.lockedEvents = w.lockedEvents ∨ ∃ event params intent,
      w'.lockedEvents = w.lockedEvents ++ [event] ∧ Reported d w' event params intent := by
  by_cases locking : ∃ intent signature, tx.call = .lock intent signature
  · obtain ⟨intent, signature, called⟩ := locking
    obtain ⟨-, body⟩ := exec_ok.mp ran
    rw [called] at body
    obtain ⟨checks, sent, received, locked⟩ := lock_emits body
    have minimum := checks.minDestAmount
    have deadline := checks.deadline
    refine .inr ⟨lockedEvent (tx.context d) intent received,
      fillInstructionParams (tx.context d) (hashIntent d intent) intent (w.enter tx), intent, locked, ?_⟩
    constructor
    case sent =>
      rw [sent]
      exact List.mem_append_right _ (List.mem_singleton_self _)
    case dstEid => rfl
    case checks => exact ⟨_, checks⟩
    case message => rfl
    case destination => rfl
    case destAsset => rfl
    case minDestAmount =>
      unfold uint128 at minimum
      exact Nat.mod_eq_of_lt (by unfold uint128; omega)
    case deadline =>
      unfold uint64 at deadline
      exact Nat.mod_eq_of_lt (by unfold uint64; omega)
  · exact .inl (exec_quiet ran fun intent signature called => locking ⟨intent, signature, called⟩)

theorem reported_of_reachable {d : Deployment} {w : World} (reach : (system d).Reachable w) :
    ∀ event ∈ w.lockedEvents, ∃ params intent, Reported d w event params intent := by
  refine reach.invariant
    (P := fun w => ∀ event ∈ w.lockedEvents, ∃ params intent, Reported d w event params intent) ?_ ?_
  · intro w given event member
    obtain ⟨creation, made⟩ := given
    simp only [construct, bind_ok, require_ok, exists_const, pure_ok] at made
    obtain ⟨-, rfl⟩ := made
    simp [World.lockedEvents, Effect.locked] at member
  · intro w input w' reached holds stepped event member
    cases input with
    | tx tx =>
        have ran := (next_tx.mp stepped).2
        have kept (params : MessagingParams) (sent : params ∈ w.sent) : params ∈ w'.sent := by
          rcases exec_sent ran with same | ⟨_, _, _, grown, -⟩
          · rwa [same]
          · rw [grown]
            exact List.mem_append_left _ sent
        rcases exec_reports ran with same | ⟨fresh, params, intent, grown, reported⟩
        · rw [same] at member
          obtain ⟨params, intent, reported⟩ := holds event member
          exact ⟨params, intent, reported.grow (kept _ reported.sent)⟩
        · rw [grown] at member
          rcases List.mem_append.mp member with earlier | new
          · obtain ⟨params, intent, reported⟩ := holds event earlier
            exact ⟨params, intent, reported.grow (kept _ reported.sent)⟩
          · obtain rfl := List.mem_singleton.mp new
            exact ⟨params, intent, reported⟩
    | tokenArrives | nativeArrives =>
        cases stepped
        obtain ⟨params, intent, reported⟩ := holds event member
        exact ⟨params, intent, reported.grow reported.sent⟩

end Perihelion.Escrow

namespace Perihelion.Relayer.Evm

open BigEndian
open Sdk (JsString js)
open Escrow (LockedEvent)

/-- The message of a log that tells what was sent. -/
structure PendingMessage.Tells (config : EVMSourceWatcherConfig) (params : Escrow.MessagingParams)
    (pending : PendingMessage) : Prop where
  payload : pending.message.rawPayload = hexText params.message
  srcEid : pending.message.srcEid = config.sourceEid

theorem decodeLockedLog_reported {decodeData : DecodeLockedData} {config : EVMSourceWatcherConfig}
    {d : Escrow.Deployment} {w : Escrow.World} {event : LockedEvent} {params intent}
    {destination destAsset : JsString} (reported : Escrow.Reported d w event params intent)
    (decodes : Decodes decodeData event destination destAsset)
    (same : config.stellarEid = d.stellarEid) (block : Nat) (transactionHash : JsString) :
    ∃ pending : PendingMessage, pending.Tells config params ∧
      decodeLockedLog decodeData config (lockedLog d event (block + 1) transactionHash) =
        .ok (some pending) := by
  obtain ⟨now, checks⟩ := reported.checks
  have recipient := decodes.recipient.trans reported.destination
  have asset := decodes.asset.trans reported.destAsset
  have encoded := @canonicalFillInstruction_eq d event.intentHash intent event.solver destination
    destAsset now checks recipient asset
  rw [← same, ← addressWord_topic, ← reported.minDestAmount, ← reported.deadline,
    ← reported.message] at encoded
  simp only [decodeLockedLog, lockedLog, decodes.data, encoded]
  exact ⟨_, ⟨rfl, rfl⟩, rfl⟩

end Perihelion.Relayer.Evm

namespace Perihelion.Relayer.Soroban

open BigEndian Fallible
open Sdk (JsString js)

theorem appendLzReceiveCall_tells {config : SorobanDeliveryConfig} {watcher : Evm.EVMSourceWatcherConfig}
    {params : Escrow.MessagingParams} {pending : Evm.PendingMessage} {peer : ViewReply}
    {outOfRange : Thrown} {operation : Operation} (tells : pending.Tells watcher params)
    (appended : appendLzReceiveCall config pending peer outOfRange = .ok operation) :
    ∃ bytes, getPeer peer = some bytes ∧
      operation = .lzReceiveBytes config.settlementContractId
        ⟨watcher.sourceEid, Bytes32.ofBytes bytes, UInt64.ofNat pending.message.nonce⟩
        (List.replicate 32 0) params.message := by
  have payload : Evm.bufferFromHex (pending.message.rawPayload.drop 2) = params.message := by
    rw [tells.payload]
    exact Evm.bufferFromHex_parse (Hex.parse_text params.message)
  simp only [appendLzReceiveCall, bind_ok, require_ok, expect_ok, pure_ok, exists_const] at appended
  obtain ⟨-, -, _, -, bytes, found, -, rfl⟩ := appended
  rw [payload, tells.srcEid]
  exact ⟨bytes, found, rfl⟩

end Perihelion.Relayer.Soroban

namespace Perihelion.Bridge

open BigEndian Fallible Transition
open Relayer
open Sdk (JsString js)

/-- The relayer's two adapters, set up for the two contracts. -/
structure Relay (link : Link) where
  watcher : Evm.EVMSourceWatcherConfig
  decodeData : Evm.DecodeLockedData
  delivery : Soroban.SorobanDeliveryConfig
  source : watcher.sourceEid = link.evmEid
  destination : watcher.stellarEid = link.escrow.stellarEid

structure Carried where
  bridge : World
  /-- The transactions that the relayer has handed to a node. -/
  submitted : List Soroban.Transaction

inductive Carriage where
  | bridge (input : Input)
  /-- The relayer reads a Locked log of a mined block and delivers it. -/
  | deliver (event : Escrow.LockedEvent) (destination destAsset : JsString) (block : Nat)
      (transactionHash : JsString) (nonce : Nat) (answers : Soroban.Answers)
  /-- A ledger includes a transaction, and it succeeds. -/
  | ledger (transaction : Soroban.Transaction) (timestamp sequence : Nat) (host : Settlement.Host)

/-- The log is the escrow's, and decodes into texts. -/
structure Readable (link : Link) (relay : Relay link) (w : World) (event : Escrow.LockedEvent)
    (destination destAsset : JsString) : Prop where
  emitted : event ∈ w.escrow.lockedEvents
  decodes : Evm.Decodes relay.decodeData event destination destAsset

instance (link : Link) (relay : Relay link) (w : World) (event destination destAsset) :
    Decidable (Readable link relay w event destination destAsset) :=
  decidable_of_iff
    (event ∈ w.escrow.lockedEvents ∧
      (Sdk.textEncode destination = event.destination ∧ Sdk.textEncode destAsset = event.destAsset ∧
        relay.decodeData (hexText (Evm.lockedData event)) =
          some ⟨hexText (encode 20 event.asset.toNat), event.amount, destination, destAsset,
            event.minDestAmount, event.deadline⟩))
    ⟨fun ⟨emitted, recipient, asset, data⟩ => ⟨emitted, recipient, asset, data⟩,
      fun readable => ⟨readable.emitted, readable.decodes.recipient, readable.decodes.asset,
        readable.decodes.data⟩⟩

def included (origin : Settlement.Origin) (payload : Bytes) (timestamp sequence : Nat)
    (host : Settlement.Host) : Settlement.Tx where
  timestamp := timestamp
  sequence := sequence
  host := host
  call := .lzReceiveBytes origin payload

/-- The bridge with the relayer in the place of the transport to the settlement contract. -/
def Relay.next {link : Link} (relay : Relay link) (horizon : Nat) (w : Carried) :
    Carriage → Option Carried
  | .bridge (.toSettlement ..) => none
  | .bridge input =>
      (Bridge.next link horizon w.bridge input).map fun b => { w with bridge := b }
  | .deliver event destination destAsset block transactionHash nonce answers =>
      if Readable link relay w.bridge event destination destAsset then
        match Evm.decodeLockedLog relay.decodeData relay.watcher
            (Evm.lockedLog link.escrow event (block + 1) transactionHash) with
        | .ok (some pending) =>
            let effects := (Soroban.deliver relay.delivery answers (pending.withNonce nonce)).log
            some { w with submitted := w.submitted ++ Soroban.sent effects }
        | _ => none
      else none
  | .ledger transaction timestamp sequence host =>
      if transaction ∈ w.submitted ∧ w.bridge.Admits timestamp then
        match transaction.operation with
        | .restoreFootprint => some w
        | .lzReceiveBytes _ origin _ payload =>
            (Settlement.next link.settlement w.bridge.settlement
              (included origin payload timestamp sequence host)).map fun s =>
                { w with bridge := { w.bridge with settlement := s } }
      else none

def Relay.system {link : Link} (relay : Relay link) (horizon : Nat) : System Carried Carriage where
  init w := Start link w.bridge ∧ w.submitted = []
  step w input w' := relay.next horizon w input = some w'

/-! ## One step -/

/-- The call of a transaction is a message of the escrow, under whatever sender the node has named. -/
def Genuine (link : Link) (w : World) (transaction : Soroban.Transaction) : Prop :=
  ∀ contract origin guid payload,
    transaction.operation = .lzReceiveBytes contract origin guid payload →
      ∃ params ∈ w.escrow.sent, payload = params.message ∧ origin.srcEid = link.evmEid

structure Carried.Sound (link : Link) (w : Carried) : Prop where
  escrow : (Escrow.system link.escrow).Reachable w.bridge.escrow
  linked : w.bridge.Linked link
  addressed : ∀ params ∈ w.bridge.escrow.sent,
    params.dstEid = link.escrow.stellarEid ∧ params.receiver = link.settlementId
  genuine : ∀ transaction ∈ w.submitted, Genuine link w.bridge transaction

/-- What a step of the escrow sends is addressed to its peer. -/
theorem next_addressed {d : Escrow.Deployment} {input : Escrow.Input} {w w' : Escrow.World}
    (stepped : Escrow.next d w input = some w') :
    ∀ params ∈ w'.sent, params ∈ w.sent ∨
      params.dstEid = d.stellarEid ∧ params.receiver = w.stellarPeer := by
  intro params sent
  cases input with
  | tx tx =>
      rcases Escrow.exec_sends (Escrow.next_tx.mp stepped).2 with same | ⟨intent, _, _, -, -, appended, -⟩
      · exact .inl (same ▸ sent)
      · rw [appended, List.mem_append, List.mem_singleton] at sent
        rcases sent with earlier | rfl
        · exact .inl earlier
        · exact .inr ⟨rfl, rfl⟩
  | tokenArrives | nativeArrives =>
      cases stepped
      exact .inl sent

theorem sent_kept {d : Escrow.Deployment} {input : Escrow.Input} {w w' : Escrow.World}
    (stepped : Escrow.next d w input = some w') {params} (sent : params ∈ w.sent) : params ∈ w'.sent := by
  rcases Escrow.next_sent stepped with same | ⟨_, _, _, appended, -⟩
  · rwa [same]
  · rw [appended]
    exact List.mem_append_left _ sent

/-- The escrow stays as it is or takes a step. -/
theorem Input.run_escrow {link : Link} {w w' : World} {input : Input}
    (ran : input.run link w = some w') :
    w'.escrow = w.escrow ∨ ∃ move, Escrow.next link.escrow w.escrow move = some w'.escrow := by
  cases input with
  | escrow input =>
      obtain ⟨e, advanced, rfl⟩ := Option.map_eq_some_iff.mp ran
      exact .inr ⟨input, advanced⟩
  | settlement | toSettlement =>
      obtain ⟨_, -, rfl⟩ := Option.map_eq_some_iff.mp ran
      exact .inl rfl
  | toEscrow params nonce value timestamp host =>
      obtain ⟨e, advanced, rfl⟩ := Option.map_eq_some_iff.mp ran
      exact .inr ⟨_, advanced⟩

theorem Carried.Sound.bridge {link : Link} {horizon : Nat} {w : Carried} {b : World} {input : Input}
    (sound : w.Sound link) (stepped : Bridge.next link horizon w.bridge input = some b) :
    Carried.Sound link { w with bridge := b } := by
  obtain ⟨-, ran, linked⟩ := next_ok.mp stepped
  rcases Input.run_escrow ran with same | ⟨move, advanced⟩
  · constructor
    case escrow =>
      rw [show (Carried.mk b w.submitted).bridge.escrow = w.bridge.escrow from same]
      exact sound.escrow
    case linked => exact linked
    case addressed =>
      rw [show (Carried.mk b w.submitted).bridge.escrow = w.bridge.escrow from same]
      exact sound.addressed
    case genuine =>
      intro transaction member contract origin guid payload call
      obtain ⟨params, sent, rest⟩ := sound.genuine transaction member contract origin guid payload call
      exact ⟨params, same ▸ sent, rest⟩
  · constructor
    case escrow => exact sound.escrow.step advanced
    case linked => exact linked
    case addressed =>
      intro params sent
      rcases next_addressed advanced params sent with earlier | ⟨dstEid, receiver⟩
      · exact sound.addressed params earlier
      · exact ⟨dstEid, receiver.trans sound.linked.1⟩
    case genuine =>
      intro transaction member contract origin guid payload call
      obtain ⟨params, sent, rest⟩ := sound.genuine transaction member contract origin guid payload call
      exact ⟨params, sent_kept advanced sent, rest⟩

/-- Whatever the node answers, what is submitted for a log is genuine. -/
theorem genuine_of_delivery {link : Link} (relay : Relay link) {w : World}
    {event destination destAsset answers} (reach : (Escrow.system link.escrow).Reachable w.escrow)
    (readable : Readable link relay w event destination destAsset)
    {block transactionHash} {pending : Evm.PendingMessage} (nonce : Nat)
    (decoded : Evm.decodeLockedLog relay.decodeData relay.watcher
      (Evm.lockedLog link.escrow event (block + 1) transactionHash) = .ok (some pending)) :
    ∀ transaction ∈
        Soroban.sent (Soroban.deliver relay.delivery answers (pending.withNonce nonce)).log,
      Genuine link w transaction := by
  obtain ⟨params, intent, reported⟩ := Escrow.reported_of_reachable reach event readable.emitted
  obtain ⟨read, tells, found⟩ := Evm.decodeLockedLog_reported reported readable.decodes
    relay.destination block transactionHash
  cases found.symm.trans decoded
  have tells : (pending.withNonce nonce).Tells relay.watcher params := ⟨tells.payload, tells.srcEid⟩
  intro transaction member
  rw [Soroban.deliver_log] at member
  obtain ⟨restoration, call, j, k, parts, -, -, restores, appended⟩ :=
    (Soroban.submit_sends relay.delivery answers (pending.withNonce nonce)).parts
  rw [parts] at member
  rcases List.mem_append.mp member with first | second
  · obtain rfl := List.eq_of_mem_replicate first
    intro contract origin guid payload call
    rw [restores] at call
    cases call
  · obtain rfl := List.eq_of_mem_replicate second
    have some_ : 0 < k := Nat.pos_of_ne_zero (List.mem_replicate.mp second).1
    obtain ⟨bytes, -, operation⟩ := Soroban.appendLzReceiveCall_tells tells (appended some_)
    intro contract origin guid payload call
    rw [operation] at call
    cases call
    exact ⟨params, reported.sent, rfl, relay.source⟩

/-- An inbound message is taken only under the trusted peer, and leaves the peers alone. -/
theorem lzReceiveBytes_peer {d : Settlement.Deployment} {tx : Settlement.Tx} {w w' : Settlement.World}
    {origin payload} (call : tx.call = .lzReceiveBytes origin payload)
    (stepped : Settlement.next d w tx = some w') :
    w.peer origin.srcEid = some origin.sender ∧ w'.peer = w.peer := by
  obtain ⟨-, ran⟩ := Settlement.next_ok.mp stepped
  simp only [Settlement.exec, call, Settlement.Call.run, Settlement.lzReceiveBytes, bind_ok] at ran
  obtain ⟨_, authorized, _, -, applied⟩ := ran
  have trusted : w.peer origin.srcEid = some origin.sender := authorizeInbound_peer authorized
  have metered := Settlement.applyInbound_metered applied
  exact ⟨trusted, congrArg Settlement.Governance.peer metered⟩

theorem Relay.sound_step {link : Link} (relay : Relay link) {horizon : Nat} {w w' : Carried}
    {input : Carriage} (sound : w.Sound link) (stepped : relay.next horizon w input = some w') :
    w'.Sound link ∧ (w'.bridge = w.bridge ∨
      ∃ move, Bridge.next link horizon w.bridge move = some w'.bridge) := by
  cases input with
  | bridge input =>
      have moved : ∃ b, Bridge.next link horizon w.bridge input = some b ∧ { w with bridge := b } = w' := by
        cases input with
        | toSettlement => cases stepped
        | escrow | settlement | toEscrow => exact Option.map_eq_some_iff.mp stepped
      obtain ⟨b, advanced, rfl⟩ := moved
      exact ⟨sound.bridge advanced, .inr ⟨input, advanced⟩⟩
  | deliver event destination destAsset block transactionHash nonce answers =>
      simp only [Relay.next] at stepped
      split at stepped
      · rename_i readable
        split at stepped
        · rename_i pending decoded
          cases stepped
          refine ⟨⟨sound.escrow, sound.linked, sound.addressed, ?_⟩, .inl rfl⟩
          intro transaction member
          rcases List.mem_append.mp member with earlier | fresh
          · exact sound.genuine transaction earlier
          · exact genuine_of_delivery relay sound.escrow readable nonce decoded
              transaction fresh
        · cases stepped
      · cases stepped
  | ledger transaction timestamp sequence host =>
      simp only [Relay.next] at stepped
      split at stepped
      · rename_i submitted
        obtain ⟨member, admits⟩ := submitted
        split at stepped
        · cases stepped
          exact ⟨sound, .inl rfl⟩
        · rename_i contract origin guid payload call
          obtain ⟨s, advanced, rfl⟩ := Option.map_eq_some_iff.mp stepped
          obtain ⟨params, sent, rfl, source⟩ :=
            sound.genuine transaction member contract origin guid payload call
          have addressed := sound.addressed params sent
          obtain ⟨trusted, peers⟩ := lzReceiveBytes_peer rfl advanced
          -- under any other sender the call would have been refused
          have named : origin = ⟨link.evmEid, word link.escrow.this, origin.nonce⟩ := by
            rw [source, sound.linked.2] at trusted
            rw [← source, Option.some.inj trusted]
          have moved : Bridge.next link horizon w.bridge
              (.toSettlement params origin.nonce timestamp sequence host) =
                some { w.bridge with settlement := s } := by
            refine next_ok.mpr ⟨⟨admits, sent, addressed⟩, ?_, ?_⟩
            · rw [named] at advanced
              exact Option.map_eq_some_iff.mpr ⟨s, advanced, rfl⟩
            · exact ⟨sound.linked.1, (congrFun peers _).trans sound.linked.2⟩
          exact ⟨sound.bridge moved, .inr ⟨_, moved⟩⟩
      · cases stepped

theorem Start.sound {link : Link} {w : Carried} (start : Start link w.bridge)
    (idle : w.submitted = []) : w.Sound link := by
  constructor
  case escrow => exact start.escrow
  case linked => exact start.linked
  case addressed =>
    intro params sent
    obtain ⟨intent, commissions⟩ := Escrow.commissions_of_reachable start.escrow params sent
    have recorded := commissions.user.symm.trans (start.vacant _)
    exact absurd recorded commissions.owned
  case genuine =>
    intro transaction member
    rw [idle] at member
    cases member

/-! ## Runs -/

theorem relay_refines {link : Link} (relay : Relay link) (horizon : Nat) :
    System.Simulation (relay.system horizon) (system link horizon) Carried.bridge := by
  have sound {w : Carried} (reach : (relay.system horizon).Reachable w) : w.Sound link := by
    refine reach.invariant (P := Carried.Sound link) ?_ ?_
    · intro w init
      exact init.1.sound init.2
    · intro w input w' _ sound stepped
      exact (relay.sound_step sound stepped).1
  constructor
  case start =>
    intro w init
    exact init.1
  case moves =>
    intro w input w' reach stepped
    rcases (relay.sound_step (sound reach) stepped).2 with same | ⟨move, moved⟩
    · rw [same]
      exact System.Later.refl _
    · exact System.Later.of_step moved

namespace Sample

def relay : Relay link where
  watcher := Evm.Sample.config
  decodeData := Evm.Sample.decodeData
  delivery := ⟨js "CSETTLEMENT", none⟩
  source := rfl
  destination := rfl

/-- The node is busy once, and then the transaction gets into a ledger. -/
def answers : Soroban.Answers where
  getAccount := .ok 7
  peer := .returned (some (.bytes (Bytes32.toBytes Settlement.Sample.escrow)))
  outOfRange := .value []
  simulated := .ok (.success (js "resources"))
  restoringAccount := .error (.value [])
  restoring := []
  simulatedAgain := .error (.value [])
  sends := [.ok (.tryAgainLater (js "cafe")), .ok (.taken (js "cafe") [.ok .notFound, .ok .success])]

def carriage : List Carriage := [
  .bridge (.escrow (.tx Escrow.Sample.lockTx)),
  .deliver Evm.Sample.lockedEvent Evm.Sample.destination (js "native") 18999999 (js "0xabc") 1 answers]

def carried : Option Carried :=
  System.replay (relay.next lastSecond) ⟨start, []⟩ carriage

/-- What has been submitted is included, and the intent is registered. -/
example : (carried.bind fun w => do
    let transaction ← w.submitted.head?
    let w ← relay.next lastSecond w (.ledger transaction 1700000200 1200 Settlement.Sample.host)
    w.bridge.settlement.intent Escrow.Sample.intentHash).isSome := by
  decide +kernel

end Sample

end Perihelion.Bridge

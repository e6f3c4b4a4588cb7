import Perihelion.Lib.Transition
import Perihelion.Relayer.LockedLog

/-! # The scan for refunds

After its messages a poll of the escrow's watcher scans for refunds, up to the head itself.  What
a reorg takes away has been passed on by then, and what it brings in is behind the scan.
-/

namespace Perihelion.Relayer.RefundScan

open BigEndian Transition
open Sdk (JsString js)
open Evm (isHexWord isHexWord_text)

/-! ## Logs -/

structure Log where
  /-- `null` while the block is pending. -/
  blockNumber : Option Int
  topics : List JsString
  eventName : Option JsString
  transactionHash : Option JsString
  logIndex : Option Int
  deriving DecidableEq

inductive Kind
  | refunded
  | refundedLocalTimeout
  deriving DecidableEq

structure EvmRefundObservation where
  intentHash : JsString
  kind : Kind
  blockNumber : Int
  transactionHash : JsString
  logIndex : Int
  deriving DecidableEq

/-- `null` is `none`. -/
def decodeRefundLog (log : Log) : Option EvmRefundObservation :=
  match log.blockNumber, log.topics with
  | some blockNumber, _ :: intentHash :: _ =>
      if isHexWord 64 intentHash then
        some {
          intentHash := intentHash
          kind := if log.eventName = some (js "RefundedLocalTimeout") then .refundedLocalTimeout
            else .refunded
          blockNumber := blockNumber
          transactionHash := log.transactionHash.getD (js "0x")
          logIndex := log.logIndex.getD 0 }
      else none
  | _, _ => none

/-- A `Refunded` or `RefundedLocalTimeout` event of the escrow. -/
structure RefundEvent where
  intentHash : Bytes32
  user : BitVec 160
  kind : Kind
  blockNumber : Int
  transactionHash : JsString
  logIndex : Int
  deriving DecidableEq

/-- The two signatures. -/
def Kind.signature : Kind → String
  | .refunded => "Refunded(bytes32,address,uint256,uint8)"
  | .refundedLocalTimeout => "RefundedLocalTimeout(bytes32,address,uint256)"

def Kind.eventName : Kind → JsString
  | .refunded => js "Refunded"
  | .refundedLocalTimeout => js "RefundedLocalTimeout"

/-- What a node reports for the event. -/
def RefundEvent.log (keccak256 : Bytes → Bytes32) (event : RefundEvent) : Log where
  blockNumber := some event.blockNumber
  topics := [hexText (Bytes32.toBytes (keccak256 (ascii event.kind.signature))),
    hexText (Bytes32.toBytes event.intentHash), hexText (encode 32 event.user.toNat)]
  eventName := some event.kind.eventName
  transactionHash := some event.transactionHash
  logIndex := some event.logIndex

def RefundEvent.observation (event : RefundEvent) : EvmRefundObservation where
  intentHash := hexText (Bytes32.toBytes event.intentHash)
  kind := event.kind
  blockNumber := event.blockNumber
  transactionHash := event.transactionHash
  logIndex := event.logIndex

/-- No log of an event is passed over. -/
theorem decodeRefundLog_log (keccak256 : Bytes → Bytes32) (event : RefundEvent) :
    decodeRefundLog (event.log keccak256) = some event.observation := by
  have usable : isHexWord 64 (hexText (Bytes32.toBytes event.intentHash)) = true :=
    @isHexWord_text _ 32 (Bytes32.toBytes_length event.intentHash)
  have named : (if some event.kind.eventName = some (js "RefundedLocalTimeout") then
      Kind.refundedLocalTimeout else Kind.refunded) = event.kind := by
    cases event.kind with
    | refunded => exact if_neg (by decide)
    | refundedLocalTimeout => exact if_pos rfl
  unfold decodeRefundLog RefundEvent.log RefundEvent.observation
  simp only [usable, if_true, named, Option.getD_some]

/-! ## The chain and the watcher -/

/-- The source chain as it stands. -/
structure Chain where
  head : Int
  refunds : List RefundEvent
  mined : ∀ event ∈ refunds, event.blockNumber ≤ head

/-- The same refunds up to a block. -/
def Chain.Agrees (chain chain' : Chain) (block : Int) : Prop :=
  (∀ event ∈ chain.refunds, event.blockNumber ≤ block → event ∈ chain'.refunds) ∧
    ∀ event ∈ chain'.refunds, event.blockNumber ≤ block → event ∈ chain.refunds

instance (chain chain' : Chain) (block : Int) : Decidable (chain.Agrees chain' block) :=
  inferInstanceAs (Decidable (_ ∧ _))

structure EVMSourceWatcher where
  maxBlockRange : Int
  lastRefundScanBlock : Option Int

/-- Where a poll waits. -/
inductive Phase
  | idle
  /-- The scan for messages, which comes first. -/
  | messages (fromBlock head : Int)
  /-- For `getLogs` of a range that begins at `scanHead`. -/
  | scanning (scanHead head : Int)
  /-- For `onRefund`. -/
  | passing (toBlock head : Int) (logs : List Log)

structure World where
  watcher : EVMSourceWatcher
  phase : Phase
  chain : Chain
  /-- The highest block that has ever had `confirmations` blocks on top of it. -/
  final : Int
  /-- The calls of `onRefund`. -/
  passed : List EvmRefundObservation
  /-- The first `fromBlock`. -/
  first : Option Int
  /-- The head of the last poll that has returned. -/
  lastHead : Option Int
  /-- The ranges of blocks for which `getLogs` has returned. -/
  ranges : List (Int × Int)

section watcher

variable (w : World)

/-- The poll returns. -/
def World.done (head : Int) : World := { w with phase := .idle, lastHead := some head }

/-- The poll rejects.  What has been passed on stays so. -/
def World.fail : World := { w with phase := .idle }

/-- The beginning of `scanRefunds`. -/
def World.scanRefunds (fromBlock head : Int) : World :=
  let start := match w.watcher.lastRefundScanBlock with
    | none => fromBlock
    | some last => max fromBlock (last + 1)
  if head < start then w.done head else { w with phase := .scanning start head }

/-- The end of a range. -/
def World.advance (toBlock head : Int) : World :=
  if toBlock + 1 ≤ head then { w with phase := .scanning (toBlock + 1) head }
  else
    { w with watcher := { w.watcher with lastRefundScanBlock := some head } }.done head

end watcher

/-- The loop over the logs of a range, up to its next call of `onRefund`. -/
def World.pass (w : World) (toBlock head : Int) : List Log → World
  | [] => w.advance toBlock head
  | log :: rest =>
      match decodeRefundLog log with
      | none => w.pass toBlock head rest
      | some observation =>
          { w with
            passed := w.passed ++ [observation]
            phase := .passing toBlock head rest }

inductive Input
  | poll (fromBlock head : Int)
  /-- The scan for messages may have halved the range. -/
  | messagesDone (maxBlockRange : Int)
  | messagesFail (maxBlockRange : Int)
  | logs (logs : List Log)
  | rangeError
  | logsFail
  /-- `onRefund` has returned or thrown. -/
  | passedOn
  | chain (chain : Chain)

/-- `getLogs` gives the logs of a range on the chain as it stands. -/
def World.Answers (keccak256 : Bytes → Bytes32) (w : World) (scanHead toBlock : Int)
    (logs : List Log) : Prop :=
  logs = (w.chain.refunds.filter fun event =>
    scanHead ≤ event.blockNumber ∧ event.blockNumber ≤ toBlock).map (RefundEvent.log keccak256)

instance (keccak256 : Bytes → Bytes32) (w : World) (scanHead toBlock : Int) (logs : List Log) :
    Decidable (w.Answers keccak256 scanHead toBlock logs) :=
  inferInstanceAs (Decidable (_ = _))

/-- A reorg replaces no block that has had `confirmations` blocks on top of it. -/
def next (keccak256 : Bytes → Bytes32) (confirmations : Nat) (w : World) : Input → Option World
  | .poll fromBlock head =>
      match w.phase with
      | .idle =>
          if head ≤ w.chain.head then
            some { w with
              phase := .messages fromBlock head, first := some (w.first.getD fromBlock) }
          else none
      | _ => none
  | .messagesDone maxBlockRange =>
      match w.phase with
      | .messages fromBlock head =>
          some (({ w with
            watcher := { w.watcher with maxBlockRange := maxBlockRange } } : World).scanRefunds
              fromBlock head)
      | _ => none
  | .messagesFail maxBlockRange =>
      match w.phase with
      | .messages _ _ =>
          some { w with watcher := { w.watcher with maxBlockRange := maxBlockRange } }.fail
      | _ => none
  | .logs logs =>
      match w.phase with
      | .scanning scanHead head =>
          let toBlock := min (scanHead + w.watcher.maxBlockRange - 1) head
          if w.Answers keccak256 scanHead toBlock logs then
            some ({ w with ranges := (scanHead, toBlock) :: w.ranges }.pass toBlock head logs)
          else none
      | _ => none
  | .rangeError =>
      match w.phase with
      | .scanning _ _ =>
          if w.watcher.maxBlockRange ≤ 1 then some w.fail
          else
            some { w with
              watcher := { w.watcher with
                maxBlockRange := max 1 (w.watcher.maxBlockRange / 2) } }
      | _ => none
  | .logsFail =>
      match w.phase with
      | .scanning _ _ => some w.fail
      | _ => none
  | .passedOn =>
      match w.phase with
      | .passing toBlock head logs => some (w.pass toBlock head logs)
      | _ => none
  | .chain chain =>
      if w.chain.Agrees chain w.final then
        some { w with chain := chain, final := max w.final (chain.head - confirmations) }
      else none

/-- A watcher that has scanned nothing. -/
def World.start (confirmations : Nat) (maxBlockRange : Option Int) (chain : Chain) : World where
  watcher := ⟨maxBlockRange.getD 2000, none⟩
  phase := .idle
  chain := chain
  final := chain.head - confirmations
  passed := []
  first := none
  lastHead := none
  ranges := []

def system (keccak256 : Bytes → Bytes32) (confirmations : Nat) : System World Input where
  init w := ∃ maxBlockRange chain, w = .start confirmations maxBlockRange chain
  step w input w' := next keccak256 confirmations w input = some w'

/-! ## What has been read -/

/-- `getLogs` has returned for a range with the block. -/
def World.Read (w : World) (block : Int) : Prop :=
  ∃ range ∈ w.ranges, range.1 ≤ block ∧ block ≤ range.2

instance (w : World) (block : Int) : Decidable (w.Read block) :=
  inferInstanceAs (Decidable (∃ _ ∈ _, _))

/-- No block is left out between what has been scanned, or else the first block, and the next
    poll's. -/
def World.Begins (w : World) (fromBlock : Int) : Prop :=
  match w.watcher.lastRefundScanBlock with
  | none => ∀ first ∈ w.first, fromBlock ≤ first
  | some last => fromBlock ≤ last + 1

instance (w : World) (fromBlock : Int) : Decidable (w.Begins fromBlock) := by
  unfold World.Begins
  split <;> infer_instance

/-- A reorg leaves the refunds of the blocks alone that have been read. -/
def Untouched (w : World) : Input → Prop
  | .poll fromBlock _ => w.Begins fromBlock
  | .chain chain =>
      (∀ event ∈ w.chain.refunds, w.Read event.blockNumber → event ∈ chain.refunds) ∧
        ∀ event ∈ chain.refunds, w.Read event.blockNumber → event ∈ w.chain.refunds
  | _ => True

instance (w : World) (input : Input) : Decidable (Untouched w input) :=
  match input with
  | .poll fromBlock _ => inferInstanceAs (Decidable (w.Begins fromBlock))
  | .chain _ => inferInstanceAs (Decidable (_ ∧ _))
  | .messagesDone _ | .messagesFail _ | .logs _ | .rangeError | .logsFail | .passedOn =>
      isTrue trivial

/-- What is passed on has happened, and what has happened deep enough is passed on. -/
structure Reports (confirmations : Nat) (w : World) : Prop where
  sound : ∀ observation ∈ w.passed, ∃ event ∈ w.chain.refunds, event.observation = observation
  complete : ∀ first ∈ w.first, ∀ head ∈ w.lastHead, ∀ event ∈ w.chain.refunds,
    first ≤ event.blockNumber → event.blockNumber + confirmations ≤ head →
      event.observation ∈ w.passed

/-- Every block before one has been read. -/
def World.ReadBefore (w : World) (block : Int) : Prop :=
  ∀ first ∈ w.first, ∀ earlier, first ≤ earlier → earlier < block → w.Read earlier

/-- The block is not scanned yet.  A range of no blocks never gets ahead. -/
def World.Ahead (w : World) (block : Int) : Prop :=
  (∀ last ∈ w.watcher.lastRefundScanBlock, last < block) ∨ w.watcher.maxBlockRange ≤ 0

section read

variable {keccak256 : Bytes → Bytes32} {confirmations : Nat} {w w' : World} {logs : List Log}
  {toBlock head fromBlock scanHead : Int}

/-- A refund that `getLogs` has returned and that is not scanned yet. -/
def World.Fetched (keccak256 : Bytes → Bytes32) (w : World) (log : Log) : Prop :=
  ∃ event ∈ w.chain.refunds, event.log keccak256 = log ∧ w.Read event.blockNumber ∧
    ∀ last ∈ w.watcher.lastRefundScanBlock, last < event.blockNumber

/-- What holds with some logs still to be passed on. -/
structure Core (keccak256 : Bytes → Bytes32) (w : World) (logs : List Log) : Prop where
  sound : ∀ observation ∈ w.passed, ∃ event ∈ w.chain.refunds,
    event.observation = observation ∧ w.Read event.blockNumber
  told : ∀ event ∈ w.chain.refunds, w.Read event.blockNumber →
    event.observation ∈ w.passed ∨ event.log keccak256 ∈ logs
  fetched : ∀ log ∈ logs, w.Fetched keccak256 log
  scanned : ∀ last ∈ w.watcher.lastRefundScanBlock, w.ReadBefore (last + 1)
  ended : ∀ head ∈ w.lastHead, ∀ first ∈ w.first, first ≤ head →
    ∃ last, w.watcher.lastRefundScanBlock = some last ∧ head ≤ last
  begun : w.first = none → w.watcher.lastRefundScanBlock = none ∧ w.lastHead = none

def Phase.pending : Phase → List Log
  | .passing _ _ logs => logs
  | _ => []

def Phase.Sound (w : World) : Phase → Prop
  | .idle => True
  | .messages fromBlock _ => w.first ≠ none ∧ w.Begins fromBlock
  | .scanning scanHead _ => w.first ≠ none ∧ w.ReadBefore scanHead ∧ w.Ahead scanHead
  | .passing toBlock head _ => w.first ≠ none ∧ w.ReadBefore (toBlock + 1) ∧
      (toBlock + 1 ≤ head → w.Ahead (toBlock + 1))

structure Inv (keccak256 : Bytes → Bytes32) (w : World) : Prop where
  core : Core keccak256 w w.phase.pending
  phase : w.phase.Sound w

theorem Inv.reports (inv : Inv keccak256 w) : Reports confirmations w where
  sound observation member := by
    obtain ⟨event, there, same, -⟩ := inv.core.sound observation member
    exact ⟨event, there, same⟩
  complete first begun head ended event there low deep := by
    obtain ⟨last, scanned, high⟩ := inv.core.ended head ended first begun (by omega)
    have read := inv.core.scanned last scanned first begun event.blockNumber low (by omega)
    rcases inv.core.told event there read with passed | pending
    · exact passed
    · obtain ⟨other, -, same, -, later⟩ := inv.core.fetched _ pending
      have block : other.blockNumber = event.blockNumber := by
        have logged := congrArg Log.blockNumber same
        exact Option.some.inj logged
      have above := later last scanned
      omega

/-! ### One step -/

/-- Neither the phase nor the range matters. -/
theorem Core.congr (core : Core keccak256 w logs) (phase : Phase) (maxBlockRange : Int) :
    Core keccak256 { w with
      phase := phase, watcher := { w.watcher with maxBlockRange := maxBlockRange } } logs :=
  ⟨core.sound, core.told, core.fetched, core.scanned, core.ended, core.begun⟩

theorem Core.done (core : Core keccak256 w [])
    (ended : ∀ first ∈ w.first, first ≤ head →
      ∃ last, w.watcher.lastRefundScanBlock = some last ∧ head ≤ last)
    (begun : w.first ≠ none) : Inv keccak256 (w.done head) where
  core := {
    sound := core.sound
    told := core.told
    fetched := core.fetched
    scanned := core.scanned
    ended := by
      intro _ same
      cases same
      exact ended
    begun := fun fresh => absurd fresh begun }
  phase := trivial

theorem Core.advance (core : Core keccak256 w []) (begun : w.first ≠ none)
    (before : w.ReadBefore (toBlock + 1))
    (ahead : toBlock + 1 ≤ head → w.Ahead (toBlock + 1)) :
    Inv keccak256 (w.advance toBlock head) := by
  unfold World.advance
  split
  · rename_i more
    exact ⟨core.congr _ w.watcher.maxBlockRange, begun, before, ahead more⟩
  · constructor
    case phase => trivial
    case core =>
      constructor
      case sound => exact core.sound
      case told => exact core.told
      case fetched => exact fun _ member => by cases member
      case scanned =>
        intro last same first there block low high
        cases same
        exact before first there block low (by omega)
      case ended =>
        intro _ same first there low
        cases same
        exact ⟨head, rfl, Int.le_refl head⟩
      case begun => exact fun fresh => absurd fresh begun

/-- What `getLogs` has returned is passed on one by one. -/
theorem Core.pass (core : Core keccak256 w logs) (begun : w.first ≠ none)
    (before : w.ReadBefore (toBlock + 1))
    (ahead : toBlock + 1 ≤ head → w.Ahead (toBlock + 1)) :
    Inv keccak256 (w.pass toBlock head logs) := by
  cases logs with
  | nil => exact core.advance begun before ahead
  | cons log rest =>
      obtain ⟨event, there, rfl, read, later⟩ := core.fetched log List.mem_cons_self
      rw [World.pass, decodeRefundLog_log]
      constructor
      case phase => exact ⟨begun, before, ahead⟩
      case core =>
        constructor
        case sound =>
          intro observation member
          rcases List.mem_append.mp member with old | new
          · exact core.sound observation old
          · exact ⟨event, there, (List.mem_singleton.mp new).symm, read⟩
        case told =>
          intro other inside read'
          rcases core.told other inside read' with passed | pending
          · exact .inl (List.mem_append_left _ passed)
          · rcases List.mem_cons.mp pending with same | pending
            · have decoded := decodeRefundLog_log keccak256 other
              rw [same, decodeRefundLog_log] at decoded
              rw [← Option.some.inj decoded]
              exact .inl (List.mem_append_right _ List.mem_cons_self)
            · exact .inr pending
        case fetched => exact fun other member => core.fetched other (List.mem_cons_of_mem _ member)
        case scanned => exact core.scanned
        case ended => exact core.ended
        case begun => exact core.begun

theorem Core.scanRefunds (core : Core keccak256 w []) (begun : w.first ≠ none)
    (begins : w.Begins fromBlock) : Inv keccak256 (w.scanRefunds fromBlock head) := by
  unfold World.scanRefunds
  unfold World.Begins at begins
  split at begins
  · rename_i fresh
    simp only
    split
    · refine core.done (fun first there low => ?_) begun
      have early := begins first there
      omega
    · refine ⟨core.congr _ w.watcher.maxBlockRange, begun, ?_, .inl ?_⟩
      · intro first there block low high
        have early := begins first there
        omega
      · intro last scanned
        exact absurd (fresh.symm.trans scanned) (by simp)
  · rename_i last scanned
    have start : max fromBlock (last + 1) = last + 1 := by omega
    simp only [start]
    split
    · exact core.done (fun _ _ _ => ⟨last, scanned, by omega⟩) begun
    · refine ⟨core.congr _ w.watcher.maxBlockRange, begun, core.scanned last scanned, .inl ?_⟩
      intro last' scanned'
      cases scanned.symm.trans scanned'
      exact Int.lt_succ last

/-- A range is read. -/
theorem Core.answered (core : Core keccak256 w []) (begun : w.first ≠ none)
    (before : w.ReadBefore scanHead) (ahead : w.Ahead scanHead)
    (range : toBlock = min (scanHead + w.watcher.maxBlockRange - 1) head)
    (answers : w.Answers keccak256 scanHead toBlock logs) :
    Inv keccak256 (({ w with ranges := (scanHead, toBlock) :: w.ranges } : World).pass toBlock head
      logs) := by
  let answered : World := { w with ranges := (scanHead, toBlock) :: w.ranges }
  have wider {block : Int} (read : w.Read block) : answered.Read block := by
    obtain ⟨range, member, inside⟩ := read
    exact ⟨range, List.mem_cons_of_mem _ member, inside⟩
  have inside {block : Int} (low : scanHead ≤ block) (high : block ≤ toBlock) :
      answered.Read block := ⟨_, List.mem_cons_self, low, high⟩
  have listed {event : RefundEvent} (there : event ∈ w.chain.refunds)
      (low : scanHead ≤ event.blockNumber) (high : event.blockNumber ≤ toBlock) :
      event.log keccak256 ∈ logs := by
    rw [answers]
    exact List.mem_map_of_mem (List.mem_filter.mpr ⟨there, decide_eq_true ⟨low, high⟩⟩)
  have next : Core keccak256 answered logs := by
    constructor
    case sound =>
      intro observation member
      obtain ⟨event, there, same, read⟩ := core.sound observation member
      exact ⟨event, there, same, wider read⟩
    case told =>
      rintro event there ⟨range, member, low, high⟩
      rcases List.mem_cons.mp member with rfl | member
      · exact .inr (listed there low high)
      · rcases core.told event there ⟨range, member, low, high⟩ with passed | pending
        · exact .inl passed
        · cases pending
    case fetched =>
      intro log member
      rw [answers] at member
      obtain ⟨event, found, rfl⟩ := List.mem_map.mp member
      obtain ⟨there, bounds⟩ := List.mem_filter.mp found
      obtain ⟨low, high⟩ := of_decide_eq_true bounds
      refine ⟨event, there, rfl, inside low high, fun last scanned => ?_⟩
      rcases ahead with above | empty
      · have later := above last scanned
        omega
      · omega
    case scanned =>
      exact fun last scanned first there block low high =>
        wider (core.scanned last scanned first there block low high)
    case ended => exact core.ended
    case begun => exact core.begun
  refine next.pass begun ?_ ?_
  · intro first there block low high
    by_cases early : block < scanHead
    · exact wider (before first there block low early)
    · exact inside (by omega) (by omega)
  · intro more
    rcases ahead with above | empty
    · by_cases empty : w.watcher.maxBlockRange ≤ 0
      · exact .inr empty
      · refine .inl fun last scanned => ?_
        have later := above last scanned
        omega
    · exact .inr empty

/-- The chain goes on, and leaves alone what has been read. -/
theorem Core.chain (core : Core keccak256 w logs) {chain : Chain} {final : Int}
    (kept : ∀ event ∈ w.chain.refunds, w.Read event.blockNumber → event ∈ chain.refunds)
    (old : ∀ event ∈ chain.refunds, w.Read event.blockNumber → event ∈ w.chain.refunds) :
    Core keccak256 { w with chain := chain, final := final } logs where
  sound observation member := by
    obtain ⟨event, there, same, read⟩ := core.sound observation member
    exact ⟨event, kept event there read, same, read⟩
  told event there read := core.told event (old event there read) read
  fetched log member := by
    obtain ⟨event, there, same, read, later⟩ := core.fetched log member
    exact ⟨event, kept event there read, same, read, later⟩
  scanned := core.scanned
  ended := core.ended
  begun := core.begun

theorem Phase.Sound.congr {phase : Phase} (sound : phase.Sound w)
    (watcher : w'.watcher = w.watcher) (first : w'.first = w.first) (ranges : w'.ranges = w.ranges) :
    phase.Sound w' := by
  cases phase with
  | idle => trivial
  | messages fromBlock head =>
      simp only [Phase.Sound, World.Begins, watcher, first] at sound ⊢
      exact sound
  | scanning scanHead head =>
      simp only [Phase.Sound, World.ReadBefore, World.Read, World.Ahead, watcher, first, ranges]
        at sound ⊢
      exact sound
  | passing toBlock head logs =>
      simp only [Phase.Sound, World.ReadBefore, World.Read, World.Ahead, watcher, first, ranges]
        at sound ⊢
      exact sound

/-- The first poll sets where the scans begin, the others begin where they may. -/
theorem Core.poll (core : Core keccak256 w []) (begins : w.Begins fromBlock) :
    Inv keccak256 { w with
      phase := .messages fromBlock head, first := some (w.first.getD fromBlock) } := by
  cases first : w.first with
  | none =>
      obtain ⟨unscanned, unended⟩ := core.begun first
      constructor
      case core =>
        constructor
        case sound => exact core.sound
        case told => exact core.told
        case fetched => exact core.fetched
        case scanned =>
          intro last scanned
          exact absurd (unscanned.symm.trans scanned) (by simp)
        case ended =>
          intro head ended
          exact absurd (unended.symm.trans ended) (by simp)
        case begun => exact nofun
      case phase =>
        refine ⟨nofun, ?_⟩
        unfold World.Begins
        simp only [unscanned]
        intro first same
        cases same
        exact Int.le_refl fromBlock
  | some begun =>
      have same : ({ w with
          phase := .messages fromBlock head, first := some begun } : World) =
          { w with phase := .messages fromBlock head } := by rw [← first]
      rw [Option.getD_some, same]
      refine ⟨core.congr _ w.watcher.maxBlockRange, ?_, begins⟩
      rw [first]
      exact nofun

theorem Inv.step {input : Input} (inv : Inv keccak256 w)
    (last : next keccak256 confirmations w input = some w') (untouched : Untouched w input) :
    Inv keccak256 w' := by
  obtain ⟨core, sound⟩ := inv
  unfold next at last
  cases input with
  | poll fromBlock head =>
      simp only at last
      split at last
      · rename_i idle
        split at last
        · cases last
          rw [idle] at core
          exact core.poll untouched
        · cases last
      · cases last
  | messagesDone maxBlockRange =>
      simp only at last
      split at last
      · rename_i fromBlock head waits
        cases last
        rw [waits] at core sound
        exact (core.congr w.phase maxBlockRange).scanRefunds sound.1 sound.2
      · cases last
  | messagesFail maxBlockRange =>
      simp only at last
      split at last
      · rename_i fromBlock head waits
        cases last
        rw [waits] at core
        exact ⟨core.congr .idle maxBlockRange, trivial⟩
      · cases last
  | logs logs =>
      simp only at last
      split at last
      · rename_i scanHead head waits
        rw [waits] at core sound
        split at last
        · rename_i answers
          cases last
          exact core.answered sound.1 sound.2.1 sound.2.2 rfl answers
        · cases last
      · cases last
  | rangeError =>
      simp only at last
      split at last
      · rename_i scanHead head waits
        split at last
        · cases last
          rw [waits] at core
          exact ⟨core.congr .idle w.watcher.maxBlockRange, trivial⟩
        · cases last
          refine ⟨core.congr w.phase _, ?_⟩
          rw [waits] at sound
          simp only [waits]
          obtain ⟨begun, before, ahead⟩ := sound
          refine ⟨begun, before, .inl ?_⟩
          rcases ahead with above | empty
          · exact above
          · omega
      · cases last
  | logsFail =>
      simp only at last
      split at last
      · rename_i scanHead head waits
        cases last
        rw [waits] at core
        exact ⟨core.congr .idle w.watcher.maxBlockRange, trivial⟩
      · cases last
  | passedOn =>
      simp only at last
      split at last
      · rename_i toBlock head logs waits
        cases last
        rw [waits] at core sound
        exact core.pass sound.1 sound.2.1 sound.2.2
      · cases last
  | chain chain =>
      simp only at last
      split at last
      · cases last
        exact ⟨core.chain untouched.1 untouched.2, sound.congr rfl rfl rfl⟩
      · cases last

theorem Inv.start (keccak256 : Bytes → Bytes32) (confirmations : Nat) (maxBlockRange : Option Int)
    (chain : Chain) : Inv keccak256 (.start confirmations maxBlockRange chain) where
  core := {
    sound := fun _ member => by cases member
    told := by
      rintro event - ⟨range, member, -⟩
      cases member
    fetched := fun _ member => by cases member
    scanned := nofun
    ended := nofun
    begun := fun _ => ⟨rfl, rfl⟩ }
  phase := trivial

/-- While no reorg touches what has been read. -/
theorem refunds_reported (reach : ((system keccak256 confirmations).under Untouched).Reachable w) :
    Reports confirmations w := by
  have inv : Inv keccak256 w := by
    refine System.Reachable.invariant (P := Inv keccak256) ?_ ?_ reach
    · rintro w ⟨maxBlockRange, chain, rfl⟩
      exact .start keccak256 confirmations maxBlockRange chain
    · rintro w input w' - inv ⟨last, untouched⟩
      exact inv.step last untouched
  exact inv.reports

end read

namespace Sample

def refund (intentHash : Bytes32) : RefundEvent :=
  ⟨intentHash, 1, .refunded, 10, js "0xaa", 0⟩

/-- A chain whose block 10 refunds an intent. -/
def chainOf (intentHash : Bytes32) (head : Int) (high : 10 ≤ head) : Chain where
  head := head
  refunds := [refund intentHash]
  mined event member := by
    cases List.mem_singleton.mp member
    exact high

def keccak256 (_ : Bytes) : Bytes32 := 0

def fresh : World := .start 2 none (chainOf 1 10 (by decide))

theorem fresh_init : (system keccak256 2).init fresh := ⟨none, chainOf 1 10 (by decide), rfl⟩

/-- The head is scanned, the chain goes on, and the new head is scanned. -/
def scans (chain : Chain) : List Input :=
  [.poll 10 10, .messagesDone 2000, .logs [(refund 1).log keccak256], .passedOn, .chain chain,
    .poll 11 12, .messagesDone 2000, .logs []]

def kept : World :=
  (System.replay (fun w input => if Untouched w input then next keccak256 2 w input else none) fresh
    (scans (chainOf 1 12 (by decide)))).get (by decide +kernel)

theorem kept_reachable : ((system keccak256 2).under Untouched).Reachable kept :=
  System.Reachable.later (.init fresh_init)
    (System.Later.of_get_under (S := system keccak256 2) (fun _ _ _ stepped => stepped) _)

/-- Block 10 is replaced by one with another refund. -/
def reorged : World :=
  (System.replay (next keccak256 2) fresh (scans (chainOf 2 12 (by decide)))).get (by decide +kernel)

theorem reorged_reachable : (system keccak256 2).Reachable reorged :=
  System.Reachable.later (.init fresh_init)
    (System.Later.of_get (S := system keccak256 2) (fun _ _ _ stepped => stepped) _)

end Sample

theorem refunds_reported_sample : Reports 2 Sample.kept ∧
    Sample.kept.passed = [(Sample.refund 1).observation] :=
  ⟨refunds_reported Sample.kept_reachable, by decide +kernel⟩

/-- The refund of a block that one reorg has replaced is passed on, and the one that has come in its
    place is not. -/
theorem reorg_misreported : (system Sample.keccak256 2).Reachable Sample.reorged ∧
    Sample.reorged.passed = [(Sample.refund 1).observation] ∧
    Sample.reorged.chain.refunds = [Sample.refund 2] ∧ ¬ Reports 2 Sample.reorged := by
  have passed : Sample.reorged.passed = [(Sample.refund 1).observation] := by decide +kernel
  have refunds : Sample.reorged.chain.refunds = [Sample.refund 2] := by decide +kernel
  refine ⟨Sample.reorged_reachable, passed, refunds, fun reports => ?_⟩
  obtain ⟨event, there, same⟩ := reports.sound _ (passed ▸ List.mem_cons_self)
  rw [refunds, List.mem_singleton] at there
  subst there
  have apart : (Sample.refund 2).observation ≠ (Sample.refund 1).observation := by decide +kernel
  exact apart same

end Perihelion.Relayer.RefundScan

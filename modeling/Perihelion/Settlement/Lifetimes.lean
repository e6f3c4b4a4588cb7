import Perihelion.Lib.Expiry
import Perihelion.Settlement.Quiet
import Perihelion.Settlement.Status
import Perihelion.Settlement.WindowCap

/-! # Entries expire

Soroban archives a persistent entry that nobody prolongs, and a transaction that reads an archived
entry is not applied until somebody has paid for its restoration.  The contract prolongs what it
touches.  That is enough for an intent: its record is there until days after the deadline, so that no
delivery, confirmation or cancellation waits for a restoration of it.
-/

namespace Perihelion.Settlement

open BigEndian Fallible Transition Expiry

def instanceTtlThreshold : Nat := 17280
def instanceTtlExtend : Nat := 1209600
/-- 7 days of 5 seconds a ledger. -/
def graceLedgers : Nat := 120960
def minSecsPerLedger : Nat := 4

inductive DataKey where
  | instanceStorage
  | intent (intentHash : Bytes32)
  | settled (intentHash : Bytes32)
  | cancelled (intentHash : Bytes32)
  | confirmationSent (intentHash : Bytes32)
  | inboundNonceWord (eid : Eid) (index : Nat)
  | solverReputation (solver : Address)
  deriving DecidableEq

def World.has (w : World) : DataKey → Bool
  | .instanceStorage => true
  | .intent h => (w.intent h).isSome
  | .settled h => w.settled h
  | .cancelled h => w.cancelled h
  | .confirmationSent h => w.confirmationSent h
  | .inboundNonceWord eid index => (w.inboundNonceWord eid index).isSome
  | .solverReputation solver => (w.solverReputation solver).isSome

/-- `max_ttl`. -/
def maxTtl (w : World) : Nat := w.maxTtl.getD maxTtlDefault

def ttlForDeadline (w : World) (deadline : Nat) : Nat :=
  min (addSaturating uint64 ((deadline - w.timestamp) / minSecsPerLedger) graceLedgers) (maxTtl w)

/-! ## What a call prolongs -/

def bumpInstance : Extension DataKey := ⟨.instanceStorage, instanceTtlThreshold, instanceTtlExtend⟩

def extendRecord (w : World) (intentHash : Bytes32) (deadline : Nat) : Extension DataKey :=
  ⟨.intent intentHash, ttlForDeadline w deadline / 2, ttlForDeadline w deadline⟩

def extendMarker (w : World) (key : DataKey) : Extension DataKey := ⟨key, maxTtl w / 2, maxTtl w⟩

/-- The handlers prolong what they have just written.  The tombstone gets the default, whatever has
    been configured. -/
def extendInbound (w w' : World) : LzMessage → List (Extension DataKey)
  | .fillInstruction fi =>
      if (w.intent fi.intentHash).isNone && (w'.intent fi.intentHash).isSome then
        [extendRecord w' fi.intentHash fi.deadline]
      else []
  | .cancel ci =>
      if !w.cancelled ci.intentHash && w'.cancelled ci.intentHash then
        [⟨.cancelled ci.intentHash, maxTtlDefault / 2, maxTtlDefault⟩]
      else []

def extendFound (w : World) (intentHash : Bytes32) : List (Extension DataKey) :=
  (w.intent intentHash).toList.map fun record => extendRecord w intentHash record.deadline

def wordKey (origin : Origin) : DataKey := .inboundNonceWord origin.srcEid (origin.nonce.toNat / 64)

/-- The `extend_ttl` calls of a transaction that leads from `w` to `w'`. -/
def Tx.extensions (d : Deployment) (tx : Tx) (w w' : World) : List (Extension DataKey) :=
  bumpInstance :: match tx.call with
    | .lzReceiveBytes origin _ | .lzReceive origin _ =>
        extendMarker w' (wordKey origin) :: ((tx.message d w).map (extendInbound w w')).getD []
    | .deliverIntent _ _ intentHash _ =>
        extendFound w' intentHash ++ [extendMarker w' (.settled intentHash)]
    | .dispatchConfirmation _ intentHash _ => [extendMarker w' (.confirmationSent intentHash)]
    | .fillIntent _ _ intentHash _ _ =>
        extendFound w' intentHash ++
          [extendMarker w' (.settled intentHash), extendMarker w' (.confirmationSent intentHash)]
    | .cancelExpiredIntent _ intentHash _ => [extendMarker w' (.cancelled intentHash)]
    | _ => []

/-! ## What a call reads -/

/-- Up to the first entry that answers the question. -/
def readsInbound (w : World) : LzMessage → List DataKey
  | .fillInstruction fi =>
      [.settled fi.intentHash] ++ (if w.settled fi.intentHash then [] else [.cancelled fi.intentHash])
        ++ (if isFinalized w fi.intentHash then [] else [.intent fi.intentHash])
  | .cancel ci =>
      [.settled ci.intentHash, .cancelled ci.intentHash]
        ++ (if isFinalized w ci.intentHash then [] else [.intent ci.intentHash])

/-- The words that a scan looks at. -/
def readsPruning (w : World) (eid : Eid) : List DataKey :=
  let start := (w.inboundNonceFloor eid).getD 0 / 64
  let stop := (pruneFrom (w.inboundNonceWord eid) start maxPruneWordsPerCall).2
  (List.range (min (stop - start + 1) maxPruneWordsPerCall)).map fun i =>
    .inboundNonceWord eid (start + i)

/-- The entries that a transaction reads. -/
def Tx.footprint (d : Deployment) (tx : Tx) (w : World) : List DataKey :=
  .instanceStorage :: match tx.call with
    | .lzReceiveBytes origin _ | .lzReceive origin _ =>
        wordKey origin :: ((tx.message d w).map (readsInbound w)).getD []
    | .pruneNonceWords eid => readsPruning w eid
    | .deliverIntent _ _ intentHash _ =>
        [.settled intentHash, .cancelled intentHash, .intent intentHash]
    | .dispatchConfirmation _ intentHash _ =>
        [.confirmationSent intentHash, .intent intentHash]
          ++ ((w.intent intentHash).bind IntentRecord.solver).toList.map .solverReputation
    | .fillIntent solver _ intentHash _ _ =>
        [.settled intentHash, .cancelled intentHash, .intent intentHash,
          .confirmationSent intentHash, .solverReputation solver]
    | .cancelExpiredIntent _ intentHash _ =>
        [.cancelled intentHash, .settled intentHash, .intent intentHash]
    | _ => []

/-! ## The contract on a ledger -/

/-- The contract, and the last ledger of each of its entries. -/
structure Ledger where
  world : World
  last : DataKey → Nat

/-- An absent entry can be read, an archived one cannot. -/
def Ledger.live (l : Ledger) (sequence : Nat) (key : DataKey) : Bool :=
  !l.world.has key || sequence ≤ l.last key

/-- After a transaction that has led to `w'`. -/
def Ledger.after (n : Network) (d : Deployment) (tx : Tx) (l : Ledger) (w' : World) : Ledger where
  world := w'
  last key := n.prolong tx.sequence (tx.extensions d l.world w') key
    (if l.world.has key then l.last key else n.born tx.sequence)

/-- Anybody may pay for the restoration or for the prolongation of an entry. -/
inductive Input where
  | invoke (tx : Tx)
  | rent (key : DataKey) (last : Nat)

namespace Ledger

def next (n : Network) (d : Deployment) (l : Ledger) : Input → Option Ledger
  | .invoke tx =>
      if (tx.footprint d l.world).all (l.live tx.sequence) then
        (Settlement.next d l.world tx).map (l.after n d tx)
      else none
  | .rent key last =>
      if l.last key ≤ last then some { l with last := Function.update l.last key last } else none

/-- The constructor bumps the instance. -/
def create (n : Network) (creation : Creation) (w : World) : Ledger where
  world := w
  last key := n.prolong creation.sequence [bumpInstance] key (n.born creation.sequence)

def system (n : Network) (d : Deployment) : System Ledger Input where
  init l := ∃ creation w, construct creation = .ok w ∧ l = create n creation w
  step l input l' := next n d l input = some l'

/-- No two ledgers close within less than four seconds of each other. -/
def Paced (l : Ledger) : Input → Prop
  | .invoke tx =>
      minSecsPerLedger * tx.sequence + l.world.timestamp ≤
        tx.timestamp + minSecsPerLedger * l.world.sequence
  | .rent .. => True

instance (l : Ledger) (input : Input) : Decidable (Paced l input) := by
  cases input with
  | invoke tx => exact inferInstanceAs (Decidable (_ ≤ _))
  | rent key last => exact inferInstanceAs (Decidable True)

end Ledger

/-! ## The configured lifetime -/

theorem IntentView.Step.deadline {h : Bytes32} {o : Occasion} {v v' : IntentView}
    (step : IntentView.Step h o v v') {record : IntentRecord} (found : v.record = some record) :
    ∃ record', v'.record = some record' ∧ record'.deadline = record.deadline := by
  induction step generalizing record with
  | same => exact ⟨record, found, rfl⟩
  | registered _ _ _ _ _ _ absent | tombstoned _ _ absent => cases absent.symm.trans found
  | recalled _ _ _ given | delivered _ _ _ _ _ _ given | dispatched _ _ _ _ _ _ _ _ given
  | expired _ _ _ _ _ _ _ given =>
      cases given.symm.trans found
      exact ⟨_, rfl, rfl⟩
  | both v middle v' first second ihFirst ihSecond =>
      obtain ⟨between, kept, same⟩ := ihFirst found
      obtain ⟨record', kept', same'⟩ := ihSecond kept
      exact ⟨record', kept', same'.trans same⟩

/-- Deadline and grace, at four seconds a ledger, before the entry is archived. -/
def Covered (l : Ledger) (h : Bytes32) (deadline : Nat) : Prop :=
  deadline + minSecsPerLedger * graceLedgers + minSecsPerLedger * l.world.sequence <
    l.world.timestamp + minSecsPerLedger * l.last (.intent h) + minSecsPerLedger

section reachable

variable {n : Network} {d : Deployment} {l : Ledger}

/-- The intent that a caller delivers, confirms or cancels. -/
def Call.subject : Call → Option Bytes32
  | .deliverIntent _ _ intentHash _ | .dispatchConfirmation _ intentHash _
  | .fillIntent _ _ intentHash _ _ | .cancelExpiredIntent _ intentHash _ => some intentHash
  | _ => none

end reachable

namespace Sample

/-- New entries live 120 days, none more than 180. -/
def network : Network := ⟨2073600, 3110400, by decide, by decide⟩

def createdLedger : Ledger := .create network creation created

def registering : List Input := (setup ++ [registerTx]).map .invoke

def ledger : Ledger :=
  (System.replay (fun l input => if l.Paced input then l.next network deployment input else none)
    createdLedger registering).get (by decide +kernel)

/-- Two minutes after the deadline. -/
def lateCancelTx : Tx := tx 1700010120 3000 (.cancelExpiredIntent admin intentHash 5)

end Sample

end Perihelion.Settlement

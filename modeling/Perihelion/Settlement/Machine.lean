import Perihelion.Settlement.Admin
import Perihelion.Settlement.Inbound
import Perihelion.Settlement.Fill
import Perihelion.Lib.Transition

/-! # The settlement contract as a transition system

One transaction is one invocation that returned; a failed one leaves no trace.
Ledger time and sequence number never run back.
-/

namespace Perihelion.Settlement

open BigEndian Fallible Transition

inductive Call where
  | setEndpoint (newEndpoint : Address)
  | proposeEndpoint (newEndpoint : Address)
  | confirmEndpoint
  | cancelPendingEndpoint
  | proposePeer (eid : Eid) (newPeer : Bytes32) (delay : Nat)
  | confirmPeer (eid : Eid)
  | cancelPendingPeer (eid : Eid)
  | setAdmin (newAdmin : Address)
  | acceptAdmin
  | setPaused (paused : Bool)
  | setPausedEid (eid : Eid) (paused : Bool)
  | setKeeperReward (reward : I128)
  | setDispatchKeeperReward (reward : I128)
  | setDestTokenAllowed (token : Address) (allowed : Bool)
  | setMaxIntentAmount (maxAmount : I128)
  | setRollingWindowCap (duration : Nat) (cap : I128)
  | resetRollingWindowCap
  | setNativeToken (nativeToken : Address)
  | setMaxTtl (maxTtl : Nat)
  | pruneNonceWords (eid : Eid)
  | lzReceiveBytes (origin : Origin) (message : Bytes)
  | lzReceive (origin : Origin) (message : LzMessage)
  | deliverIntent (solver : Address) (solverEvm intentHash : Bytes32) (fillAmount : I128)
  | dispatchConfirmation (caller : Address) (intentHash : Bytes32) (lzFee : I128)
  | fillIntent (solver : Address) (solverEvm intentHash : Bytes32) (fillAmount lzFee : I128)
  | cancelExpiredIntent (caller : Address) (intentHash : Bytes32) (lzFee : I128)
  deriving DecidableEq

namespace Call

def run (c : Context) (w : World) : Call → Except Failure World
  | .setEndpoint newEndpoint => Settlement.setEndpoint c newEndpoint w
  | .proposeEndpoint newEndpoint => Settlement.proposeEndpoint c newEndpoint w
  | .confirmEndpoint => Settlement.confirmEndpoint c w
  | .cancelPendingEndpoint => Settlement.cancelPendingEndpoint c w
  | .proposePeer eid newPeer delay => Settlement.proposePeer c eid newPeer delay w
  | .confirmPeer eid => Settlement.confirmPeer c eid w
  | .cancelPendingPeer eid => Settlement.cancelPendingPeer c eid w
  | .setAdmin newAdmin => Settlement.setAdmin c newAdmin w
  | .acceptAdmin => Settlement.acceptAdmin c w
  | .setPaused paused => Settlement.setPaused c paused w
  | .setPausedEid eid paused => Settlement.setPausedEid c eid paused w
  | .setKeeperReward reward => Settlement.setKeeperReward c reward w
  | .setDispatchKeeperReward reward => Settlement.setDispatchKeeperReward c reward w
  | .setDestTokenAllowed token allowed => Settlement.setDestTokenAllowed c token allowed w
  | .setMaxIntentAmount maxAmount => Settlement.setMaxIntentAmount c maxAmount w
  | .setRollingWindowCap duration cap => Settlement.setRollingWindowCap c duration cap w
  | .resetRollingWindowCap => Settlement.resetRollingWindowCap c w
  | .setNativeToken nativeToken => Settlement.setNativeToken c nativeToken w
  | .setMaxTtl maxTtl => Settlement.setMaxTtl c maxTtl w
  | .pruneNonceWords eid => Settlement.pruneNonceWords eid w
  | .lzReceiveBytes origin message => Settlement.lzReceiveBytes c origin message w
  | .lzReceive origin message => Settlement.lzReceive c origin message w
  | .deliverIntent solver solverEvm intentHash fillAmount =>
      Settlement.deliverIntent c solver solverEvm intentHash fillAmount w
  | .dispatchConfirmation caller intentHash lzFee =>
      Settlement.dispatchConfirmation c caller intentHash lzFee w
  | .fillIntent solver solverEvm intentHash fillAmount lzFee =>
      Settlement.fillIntent c solver solverEvm intentHash fillAmount lzFee w
  | .cancelExpiredIntent caller intentHash lzFee =>
      Settlement.cancelExpiredIntent c caller intentHash lzFee w

end Call

structure Tx where
  timestamp : Nat
  sequence : Nat
  host : Host
  call : Call

def Tx.context (tx : Tx) (d : Deployment) : Context :=
  { toDeployment := d, toHost := tx.host }

/-- The state a call body starts from. -/
def World.enter (w : World) (tx : Tx) : World :=
  { w with timestamp := tx.timestamp, sequence := tx.sequence }

def exec (d : Deployment) (tx : Tx) (w : World) : Except Failure World :=
  tx.call.run (tx.context d) (w.enter tx)

/-- What the constructor is given, and the ledger of the deployment. -/
structure Creation where
  admin : Address
  endpoint : Address
  nativeToken : Address
  timestamp : Nat
  sequence : Nat
  timestamp_lt : timestamp < uint64
  sequence_lt : sequence < 2 ^ 32

def construct (creation : Creation) : Except Failure World := do
  require (creation.admin ≠ creation.endpoint) .adminEndpointCollision
  let w : World := {
    admin := some creation.admin
    pendingAdmin := none
    endpoint := some creation.endpoint
    paused := some false
    peer := fun _ => none
    pendingPeer := fun _ => none
    pendingPeerTime := fun _ => none
    pendingPeerDelay := fun _ => none
    pausedEid := fun _ => none
    nativeToken := some creation.nativeToken
    keeperReward := some 0
    dispatchKeeperReward := some 0
    maxTtl := none
    maxIntentAmount := none
    rollingWindowDuration := none
    rollingWindowCap := none
    rollingWindowTriggered := none
    rollingWindowResetEarliestAt := none
    rollingWindowBucket := fun _ => none
    latestWindowStart := none
    allowedDestToken := fun _ => false
    intent := fun _ => none
    settled := fun _ => false
    cancelled := fun _ => false
    confirmationSent := fun _ => false
    solverReputation := fun _ => none
    inboundNonceWord := fun _ _ => none
    inboundNonceFloor := fun _ => none
    pendingEndpoint := none
    pendingEndpointTime := none
    timestamp := creation.timestamp
    sequence := creation.sequence
    trace := [] }
  return w.publish (.initialized creation.admin creation.endpoint)

/-- A failed transaction is no step.  Ledger time is a `u64`, the sequence number a `u32`. -/
def next (d : Deployment) (w : World) (tx : Tx) : Option World :=
  if w.timestamp ≤ tx.timestamp ∧ tx.timestamp < uint64 ∧ w.sequence ≤ tx.sequence ∧
      tx.sequence < 2 ^ 32 then
    (exec d tx w).toOption
  else none

def system (d : Deployment) : System World Tx where
  init w := ∃ creation, construct creation = .ok w
  step w tx w' := next d w tx = some w'

/-- All of `txs` in order, if none fails. -/
def replay (d : Deployment) (w : World) (txs : List Tx) : Option World :=
  System.replay (next d) w txs

theorem later_of_replay {d : Deployment} {w w' : World} {txs : List Tx}
    (replayed : replay d w txs = some w') : (system d).Later w w' :=
  System.Later.of_replay (S := system d) (fun _ _ _ stepped => stepped) replayed

theorem next_ok {d : Deployment} {w w' : World} {tx : Tx} :
    next d w tx = some w' ↔
      (w.timestamp ≤ tx.timestamp ∧ tx.timestamp < uint64 ∧ w.sequence ≤ tx.sequence ∧
        tx.sequence < 2 ^ 32) ∧ exec d tx w = .ok w' := by
  unfold next
  cases outcome : exec d tx w with
  | error e => simp [Except.toOption]
  | ok v => simp [Except.toOption]

/-! ## A run

A deployment whose admin lets the one-day delay pass and confirms the escrow on
endpoint id 30101 as peer, and an intent that is registered, delivered by a solver
and confirmed in a separate invocation.
-/

namespace Sample

def admin : Address := .account 0xAD
def endpoint : Address := .contract 0xE2D
def nativeToken : Address := .contract 0x7A71
def solver : Address := .account 0x501
def escrow : Bytes32 := 0xE5C0
def solverEvm : Bytes32 := 0x501

def deployment : Deployment where
  this := .contract 0x57E11A
  stellarAssetContract _ := .contract 0xAC

/-- Everybody signs, every token pays and the endpoint asks for five stroops. -/
def host : Host where
  authorized _ := true
  transfer _ _ _ _ := true
  quote _ _ := some 5
  send _ _ _ _ := true

def intentHash : Bytes32 := 0xc5044497aae50b4712ffbe528161296b43fe3b08ca1944044ff7b251fae53f7e

/-- 90 units of the native token for the account of key 0x0707..07. -/
def fillInstruction : Bytes :=
  [protocolVersion] ++ [msgFillInstruction] ++ Bytes32.toBytes intentHash ++ encode 4 30600
    ++ ascii "GADQOBYHA4DQOBYHA4DQOBYHA4DQOBYHA4DQOBYHA4DQOBYHA4DQOZPI"
    ++ padRight 69 (ascii "native") ++ encode 16 90 ++ encode 8 1700010000
    ++ Bytes32.toBytes solverEvm ++ encode 8 0

def tx (timestamp sequence : Nat) (call : Call) : Tx := { timestamp, sequence, host, call }

def setup : List Tx := [
  tx 1699000000 1000 (.proposePeer 30101 escrow 86400),
  tx 1699086400 1100 (.confirmPeer 30101)]

def registerTx : Tx := tx 1700000200 1200 (.lzReceiveBytes ⟨30101, escrow, 1⟩ fillInstruction)
def deliverTx : Tx := tx 1700000300 1234 (.deliverIntent solver solverEvm intentHash 95)
def dispatchTx : Tx := tx 1700000400 1250 (.dispatchConfirmation admin intentHash 5)

def creation : Creation :=
  ⟨admin, endpoint, nativeToken, 1699000000, 1000, by decide, by decide⟩

def created : World := (construct creation).toOption.get (by decide +kernel)

def ready : World := (replay deployment created setup).get (by decide +kernel)

def registered : World := (replay deployment ready [registerTx]).get (by decide +kernel)

def delivered : World := (replay deployment registered [deliverTx]).get (by decide +kernel)

def dispatched : World := (replay deployment delivered [dispatchTx]).get (by decide +kernel)

example : (dispatched.intent intentHash).map IntentRecord.status = some .confirmationSent := by
  decide +kernel

theorem created_init : (system deployment).init created := ⟨creation, rfl⟩

theorem created_reachable : (system deployment).Reachable created := .init created_init

theorem ready_reachable : (system deployment).Reachable ready :=
  created_reachable.later
    (later_of_replay (show replay deployment created setup = some ready by simp [ready]))

theorem registered_reachable : (system deployment).Reachable registered :=
  ready_reachable.later
    (later_of_replay (show replay deployment ready [registerTx] = some registered by
      simp [registered]))

theorem delivered_reachable : (system deployment).Reachable delivered :=
  registered_reachable.later
    (later_of_replay (show replay deployment registered [deliverTx] = some delivered by
      simp [delivered]))

theorem dispatched_reachable : (system deployment).Reachable dispatched :=
  delivered_reachable.later
    (later_of_replay (show replay deployment delivered [dispatchTx] = some dispatched by
      simp [dispatched]))

end Sample

end Perihelion.Settlement

import Perihelion.Settlement.State

/-! # Administration of the settlement contract

The admin's calls in the order of the contract, and the permissionless pruning of
consumed nonce words.  None of them writes an intent or a marker of one.
-/

namespace Perihelion.Settlement

open Fallible

def setEndpoint (c : Context) (newEndpoint : Address) (w : World) : Except Failure World := do
  authorizeAdmin c w
  return World.publish { w with endpoint := some newEndpoint } (.endpointSet w.endpoint newEndpoint)

def proposeEndpoint (c : Context) (newEndpoint : Address) (w : World) : Except Failure World := do
  authorizeAdmin c w
  let readyAt ← addBelow uint64 .trap w.timestamp minPeerChangeDelay
  return World.publish
    { w with pendingEndpoint := some newEndpoint, pendingEndpointTime := some w.timestamp }
    (.endpointChangeProposed w.endpoint newEndpoint readyAt)

/-- A stale proposal is not removed after all: the failed invocation rolls that back. -/
def confirmEndpoint (c : Context) (w : World) : Except Failure World := do
  authorizeAdmin c w
  let proposedEndpoint ← expect .notPendingEndpointChange w.pendingEndpoint
  let proposedAt ← expect .notPendingEndpointChange w.pendingEndpointTime
  let readyAt ← addBelow uint64 .trap proposedAt minPeerChangeDelay
  require (readyAt ≤ w.timestamp) .endpointChangeNotReady
  let expiresAt ← addBelow uint64 .trap readyAt peerChangeGrace
  require (w.timestamp ≤ expiresAt) .endpointChangeExpired
  let admin ← requireAdmin w
  require (admin ≠ proposedEndpoint) .adminEndpointCollision
  return World.publish
    { w with
      endpoint := some proposedEndpoint
      pendingEndpoint := none
      pendingEndpointTime := none }
    (.endpointSet w.endpoint proposedEndpoint)

def cancelPendingEndpoint (c : Context) (w : World) : Except Failure World := do
  authorizeAdmin c w
  return World.publish { w with pendingEndpoint := none, pendingEndpointTime := none }
    .endpointChangeCancelled

def proposePeer (c : Context) (eid : Eid) (newPeer : Bytes32) (delay : Nat) (w : World) :
    Except Failure World := do
  authorizeAdmin c w
  require (minPeerChangeDelay ≤ delay ∧ delay ≤ maxPeerChangeDelay) .invalidDelay
  require ((w.pendingPeer eid).isNone) .pendingPeerChangeExists
  let readyAt ← addBelow uint64 .trap w.timestamp delay
  return World.publish
    { w with
      pendingPeer := Function.update w.pendingPeer eid (some newPeer)
      pendingPeerTime := Function.update w.pendingPeerTime eid (some w.timestamp)
      pendingPeerDelay := Function.update w.pendingPeerDelay eid (some delay) }
    (.peerChangeProposed eid (w.peer eid) newPeer readyAt)

def World.clearPendingPeer (w : World) (eid : Eid) : World :=
  { w with
    pendingPeer := Function.update w.pendingPeer eid none
    pendingPeerTime := Function.update w.pendingPeerTime eid none
    pendingPeerDelay := Function.update w.pendingPeerDelay eid none }

def confirmPeer (c : Context) (eid : Eid) (w : World) : Except Failure World := do
  authorizeAdmin c w
  let proposedPeer ← expect .notPendingPeerChange (w.pendingPeer eid)
  let proposedAt ← expect .notPendingPeerChange (w.pendingPeerTime eid)
  let delay ← expect .notPendingPeerChange (w.pendingPeerDelay eid)
  let readyAt ← addBelow uint64 .trap proposedAt delay
  require (readyAt ≤ w.timestamp) .peerChangeNotReady
  let expiresAt ← addBelow uint64 .trap readyAt peerChangeGrace
  require (w.timestamp ≤ expiresAt) .peerChangeExpired
  return World.publish
    (World.clearPendingPeer { w with peer := Function.update w.peer eid (some proposedPeer) } eid)
    (.peerSet eid (w.peer eid) proposedPeer)

def cancelPendingPeer (c : Context) (eid : Eid) (w : World) : Except Failure World := do
  authorizeAdmin c w
  return (w.clearPendingPeer eid).publish (.peerChangeCancelled eid)

def setAdmin (c : Context) (newAdmin : Address) (w : World) : Except Failure World := do
  let current ← requireAdmin w
  requireAuth c current
  return World.publish { w with pendingAdmin := some newAdmin } (.adminTransferStarted current newAdmin)

def acceptAdmin (c : Context) (w : World) : Except Failure World := do
  let pending ← expect .notPendingAdmin w.pendingAdmin
  requireAuth c pending
  let old ← requireAdmin w
  return World.publish { w with admin := some pending, pendingAdmin := none }
    (.adminTransferCompleted old pending)

def setPaused (c : Context) (paused : Bool) (w : World) : Except Failure World := do
  authorizeAdmin c w
  return World.publish { w with paused := some paused } (.pausedSet paused)

def setPausedEid (c : Context) (eid : Eid) (paused : Bool) (w : World) : Except Failure World := do
  authorizeAdmin c w
  return World.publish { w with pausedEid := Function.update w.pausedEid eid (some paused) }
    (.pausedEidSet eid paused)

def setKeeperReward (c : Context) (reward : I128) (w : World) : Except Failure World := do
  authorizeAdmin c w
  require (0 ≤ reward.toInt) .invalidAmount
  return World.publish { w with keeperReward := some reward } (.keeperRewardSet reward)

def setDispatchKeeperReward (c : Context) (reward : I128) (w : World) : Except Failure World := do
  authorizeAdmin c w
  require (0 ≤ reward.toInt) .invalidAmount
  return World.publish { w with dispatchKeeperReward := some reward } (.dispatchKeeperRewardSet reward)

def setDestTokenAllowed (c : Context) (token : Address) (allowed : Bool) (w : World) :
    Except Failure World := do
  authorizeAdmin c w
  return World.publish
    { w with allowedDestToken := Function.update w.allowedDestToken token allowed }
    (.destTokenAllowedSet token allowed)

def setMaxIntentAmount (c : Context) (maxAmount : I128) (w : World) : Except Failure World := do
  authorizeAdmin c w
  require (0 ≤ maxAmount.toInt) .invalidAmount
  return World.publish { w with maxIntentAmount := some maxAmount } (.maxIntentAmountSet maxAmount)

def setRollingWindowCap (c : Context) (duration : Nat) (cap : I128) (w : World) :
    Except Failure World := do
  authorizeAdmin c w
  require (0 ≤ cap.toInt) .invalidAmount
  return World.publish { w with rollingWindowDuration := some duration, rollingWindowCap := some cap }
    (.rollingWindowCapSet duration cap)

def resetRollingWindowCap (c : Context) (w : World) : Except Failure World := do
  authorizeAdmin c w
  require (w.rollingWindowResetEarliestAt.all (· ≤ w.timestamp)) .deadlineNotPassed
  let duration := w.rollingWindowDuration.getD 0
  let bucket := match w.latestWindowStart with
    | some windowStart => Function.update w.rollingWindowBucket windowStart none
    | none => w.rollingWindowBucket
  let latest :=
    if 0 < duration then some (w.timestamp / duration * duration) else w.latestWindowStart
  return World.publish
    { w with
      rollingWindowBucket := bucket
      latestWindowStart := latest
      rollingWindowTriggered := some false
      rollingWindowResetEarliestAt := none }
    .rollingWindowCapReset

def setNativeToken (c : Context) (nativeToken : Address) (w : World) : Except Failure World := do
  authorizeAdmin c w
  return World.publish { w with nativeToken := some nativeToken } (.nativeTokenSet nativeToken)

def setMaxTtl (c : Context) (maxTtl : Nat) (w : World) : Except Failure World := do
  authorizeAdmin c w
  require (minMaxTtl ≤ maxTtl ∧ maxTtl ≤ maxTtlCeiling) .invalidAmount
  return World.publish { w with maxTtl := some maxTtl }
    (.maxTtlSet (w.maxTtl.getD maxTtlDefault) maxTtl)

/-- A word all of whose nonces are consumed.  Nonce 0 is invalid, so its bit is never set. -/
def completeMask (word : Nat) : BitVec 64 :=
  if word = 0 then BitVec.allOnes 64 - 1 else BitVec.allOnes 64

/-- The scan: delete complete words from `word` on, at most `scans` of them. -/
def pruneFrom (words : Nat → Option (BitVec 64)) (word : Nat) :
    Nat → (Nat → Option (BitVec 64)) × Nat
  | 0 => (words, word)
  | scans + 1 =>
      if words word = some (completeMask word) then
        pruneFrom (Function.update words word none) (word + 1) scans
      else (words, word)

def pruneNonceWords (eid : Eid) (w : World) : Except Failure World := do
  requireNotPaused w
  let oldFloor := (w.inboundNonceFloor eid).getD 0
  let (words, word) := pruneFrom (w.inboundNonceWord eid) (oldFloor / 64) maxPruneWordsPerCall
  require (word * 64 < uint64) .trap
  let newFloor := word * 64
  let w := { w with inboundNonceWord := Function.update w.inboundNonceWord eid words }
  if oldFloor < newFloor then
    return World.publish
      { w with inboundNonceFloor := Function.update w.inboundNonceFloor eid (some newFloor) }
      (.nonceWordsPruned eid oldFloor newFloor)
  else return w

end Perihelion.Settlement

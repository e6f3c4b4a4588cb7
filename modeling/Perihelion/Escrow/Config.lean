import Perihelion.Escrow.State

/-! # Administration of the escrow

The owner's and guardian's calls in the order of the contract, and the recovery of
surplus.  None of them writes a lock or a liability.
-/

namespace Perihelion.Escrow

open Fallible

def setPeer (c : Context) (peer : Bytes32) (w : World) : Except Revert World := do
  onlyOwner c w
  require (peer ≠ 0) .zeroAddress
  return World.emit { w with stellarPeer := peer } (.peerSet peer)

def setConfirmationGrace (c : Context) (secondsGrace : Nat) (w : World) : Except Revert World := do
  onlyOwner c w
  require (secondsGrace ≤ maxConfirmationGrace) .graceTooLong
  require (minConfirmationGrace ≤ secondsGrace) .graceTooShort
  return World.emit { w with confirmationGrace := secondsGrace }
    (.confirmationGraceSet secondsGrace)

def setGuardian (c : Context) (newGuardian : Address) (w : World) : Except Revert World := do
  onlyOwner c w
  return World.emit { w with guardian := newGuardian } (.guardianSet newGuardian)

def setPaused (c : Context) (paused : Bool) (w : World) : Except Revert World := do
  onlyOwner c w
  return World.emit
    { w with
      paused := paused
      guardianPauseExpiry := 0
      guardianPauseCooldownUntil := if paused then w.guardianPauseCooldownUntil else 0 }
    (.pausedSet paused)

def pause (c : Context) (w : World) : Except Revert World := do
  require (c.sender = w.owner ∨ c.sender = w.guardian) .notAuthorized
  if c.sender = w.guardian then
    require (w.guardianPauseCooldownUntil ≤ w.timestamp) .guardianCooldown
    let expiry ← addBelow uint256 .panic w.timestamp guardianPauseTtl
    return World.emit { w with guardianPauseExpiry := expiry, paused := true } (.pausedSet true)
  else
    return World.emit { w with guardianPauseExpiry := 0, paused := true } (.pausedSet true)

def decayGuardianPause (w : World) : Except Revert World := do
  require (w.guardianPauseExpiry ≠ 0) .pauseNotGuardianInitiated
  require (w.guardianPauseExpiry ≤ w.timestamp) .pauseNotExpired
  let cooldown ← addBelow uint256 .panic w.timestamp guardianPauseTtl
  return World.emit
    { w with guardianPauseCooldownUntil := cooldown, guardianPauseExpiry := 0, paused := false }
    (.pausedSet false)

def setAssetAllowed (c : Context) (asset : Address) (allowed : Bool) (w : World) :
    Except Revert World := do
  onlyOwner c w
  require (allowed → c.codeAt asset) .notAContract
  return World.emit { w with assetAllowed := Function.update w.assetAllowed asset allowed }
    (.assetAllowed asset allowed)

def setMaxIntentAmountPerAsset (c : Context) (asset : Address) (maxAmount : Nat) (w : World) :
    Except Revert World := do
  onlyOwner c w
  return World.emit
    { w with maxIntentAmountPerAsset := Function.update w.maxIntentAmountPerAsset asset maxAmount }
    (.maxIntentAmountPerAssetSet asset maxAmount)

def setMaxIntentAmount (c : Context) (maxAmount : Nat) (w : World) : Except Revert World := do
  onlyOwner c w
  return World.emit { w with maxIntentAmount := maxAmount } (.maxIntentAmountSet maxAmount)

def setRollingWindowCap (c : Context) (windowDuration cap : Nat) (w : World) :
    Except Revert World := do
  onlyOwner c w
  require (0 < cap → windowDuration ≠ 0) .invalidDuration
  require (windowDuration ≤ w.timestamp) .invalidDuration
  return World.emit { w with rollingWindowDuration := windowDuration, rollingWindowCap := cap }
    (.rollingWindowCapSet windowDuration cap)

def setRollingWindowCapForAsset (c : Context) (asset : Address) (windowDuration cap : Nat)
    (w : World) : Except Revert World := do
  onlyOwner c w
  require (w.assetAllowed asset) .assetNotAllowed
  require (0 < cap → windowDuration ≠ 0) .invalidDuration
  require (windowDuration ≤ w.timestamp) .invalidDuration
  return World.emit
    { w with
      rollingWindowDuration := windowDuration
      rollingWindowCapPerAsset := Function.update w.rollingWindowCapPerAsset asset cap }
    (.rollingWindowCapPerAssetSet asset windowDuration cap)

/-- `(block.timestamp / rollingWindowDuration) * rollingWindowDuration`. -/
def windowStart (w : World) : Nat := w.timestamp / w.rollingWindowDuration * w.rollingWindowDuration

/-- `_rollingWindowBuckets[asset][start] = amount`. -/
def World.setBucket (w : World) (asset : Address) (start amount : Nat) : World :=
  { w with
    rollingWindowBuckets := Function.update w.rollingWindowBuckets asset
      (Function.update (w.rollingWindowBuckets asset) start amount) }

def resetRollingWindowCap (c : Context) (w : World) : Except Revert World := do
  onlyOwner c w
  require (w.rollingWindowResetEarliestAt ≤ w.timestamp) .rollingWindowNotYetResettable
  let cleared :=
    if 0 < w.rollingWindowDuration ∧ w.rollingWindowTriggeredAsset ≠ 0 then
      w.setBucket w.rollingWindowTriggeredAsset (windowStart w) 0
    else w
  return World.emit { cleared with rollingWindowTriggered := false, rollingWindowTriggeredAsset := 0 }
    .rollingWindowCapReset

def transferOwnership (c : Context) (newOwner : Address) (w : World) : Except Revert World := do
  onlyOwner c w
  return World.emit { w with pendingOwner := newOwner } (.ownershipTransferStarted w.owner newOwner)

def cancelOwnershipTransfer (c : Context) (w : World) : Except Revert World := do
  onlyOwner c w
  require (w.pendingOwner ≠ 0) .noPendingOwner
  return World.emit { w with pendingOwner := 0 } (.ownershipTransferCancelled w.owner)

def acceptOwnership (c : Context) (w : World) : Except Revert World := do
  require (c.sender = w.pendingOwner) .notPendingOwner
  return World.emit { w with owner := w.pendingOwner, pendingOwner := 0 }
    (.ownershipTransferred w.owner w.pendingOwner)

def skim (c : Context) (token receiver : Address) (amount : Nat) (w : World) :
    Except Revert World := do
  onlyOwner c w
  require (receiver ≠ 0) .zeroAddress
  let bal ← tokenBalance c token w
  let locked := w.totalLocked token
  let surplus := if locked < bal then bal - locked else 0
  require (amount ≤ surplus) .exceedsSurplus
  let w ← safeTransfer c .skim token receiver amount w
  return w.emit (.skimmed token receiver amount)

def skimNative (c : Context) (receiver : Address) (amount : Nat) (w : World) :
    Except Revert World := do
  onlyOwner c w
  require (receiver ≠ 0) .zeroAddress
  require (amount ≤ w.balance) .exceedsSurplus
  let w ← expect .nativeTransferFailed (callWithValue c receiver amount w)
  return w.emit (.nativeSkimmed receiver amount)

end Perihelion.Escrow

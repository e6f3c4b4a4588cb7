import Perihelion.Timelock.State

/-! # Operations of the timelock

The entry points in the order of the contract.  `execute` stops where the external
call is made: what the target does, and whether its call succeeds, is the machine's.
-/

namespace Perihelion.Timelock

open BigEndian Fallible

/-- `_owners` and `isOwner` after one turn of the constructor's loop. -/
def enroll (config : Config) (o : Address) : Except Revert Config := do
  require (o ≠ 0 ∧ config.isOwner o = false) .invalidConfig
  return { config with
    isOwner := Function.update config.isOwner o true
    owners := config.owners ++ [o] }

def construct (owners_ : List Address) (threshold_ delay_ balance timestamp : Nat) :
    Except Revert World := do
  require (owners_.length ≠ 0 ∧ threshold_ ≠ 0 ∧ threshold_ ≤ owners_.length) .invalidConfig
  require (minDelay ≤ delay_ ∧ delay_ ≤ maxDelay) .invalidConfig
  let config ← owners_.foldlM enroll { owners := [], isOwner := fun _ => false, threshold := 0, delay := 0 }
  return {
    toConfig := { config with threshold := threshold_, delay := delay_ }
    operations := fun _ => default
    confirmedBy := fun _ _ => false
    cancelConfirmations := fun _ => 0
    cancelConfirmedBy := fun _ _ => false
    reentrancy := 1
    balance := balance
    timestamp := timestamp
    log := .delaySet delay_ :: .thresholdSet threshold_ :: (owners_.map Event.ownerAdded).reverse }

def _confirm (c : Context) (id : Bytes32) (w : World) : Except Revert World := do
  let op := w.operations id
  require (op.executed = false) .alreadyExecuted
  require (w.confirmedBy id c.sender = false) .alreadyConfirmed
  let w := w.setConfirmedBy id (Function.update (w.confirmedBy id) c.sender true)
  let confirmations ← addBelow uint64 .panic op.confirmations 1
  let op := { op with confirmations := confirmations }
  let w := (w.setOperation id op).emit (.confirmed id c.sender confirmations)
  if op.readyAt = 0 ∧ w.threshold ≤ op.confirmations then
    let ready ← addBelow uint256 .panic w.timestamp w.delay
    -- `uint64(block.timestamp + delay)` drops the high bits.
    let readyAt := ready % uint64
    return (w.setOperation id { op with readyAt := readyAt }).emit (.ready id readyAt)
  else return w

def propose (c : Context) (target : Address) (value : Nat) (data : Bytes) (salt : Bytes32)
    (w : World) : Except Revert World := do
  onlyOwner c w
  let id := hashOperation c.keccak256 target value data salt
  let op := w.operations id
  require (op.exists_ = false) .alreadyExists
  _confirm c id
    ((w.setOperation id { op with exists_ := true }).emit (.proposed id c.sender target value))

def confirm (c : Context) (id : Bytes32) (w : World) : Except Revert World := do
  onlyOwner c w
  require ((w.operations id).exists_) .unknownOperation
  _confirm c id w

def revokeConfirmation (c : Context) (id : Bytes32) (w : World) : Except Revert World := do
  onlyOwner c w
  let op := w.operations id
  require (op.exists_) .unknownOperation
  require (op.executed = false) .alreadyExecuted
  require (w.confirmedBy id c.sender) .notConfirmed
  let w := w.setConfirmedBy id (Function.update (w.confirmedBy id) c.sender false)
  let confirmations ← subChecked .panic op.confirmations 1
  return (w.setOperation id { op with confirmations := confirmations }).emit
    (.confirmationRevoked id c.sender confirmations)

/-- The loop of `execute`: the owners right now who confirm. -/
def validConfirmations (w : World) (id : Bytes32) : Nat :=
  w.owners.foldl (fun valid o => if w.confirmedBy id o then valid + 1 else valid) 0

/-- Up to `target.call{value: value}(data)`; the guard is released when that returns. -/
def execute (c : Context) (target : Address) (value : Nat) (data : Bytes) (salt : Bytes32)
    (w : World) : Except Revert World := do
  onlyOwner c w
  require (w.reentrancy = 1) .reentrancy
  let w := { w with reentrancy := 2 }
  let id := hashOperation c.keccak256 target value data salt
  let op := w.operations id
  require (op.exists_) .unknownOperation
  require (op.executed = false) .alreadyExecuted
  require (w.threshold ≤ validConfirmations w id) .notEnoughConfirmations
  require (op.readyAt ≠ 0 ∧ op.readyAt ≤ w.timestamp) .notReady
  require (w.timestamp ≤ op.readyAt + gracePeriod) .expired
  return (w.setOperation id { op with executed := true }).emit (.executed id)

def cancel (c : Context) (id : Bytes32) (w : World) : Except Revert World := do
  onlyOwner c w
  let op := w.operations id
  require (op.exists_) .unknownOperation
  require (op.executed = false) .alreadyExecuted
  require (w.cancelConfirmedBy id c.sender = false) .alreadyCancelConfirmed
  let w := w.setCancelConfirmedBy id (Function.update (w.cancelConfirmedBy id) c.sender true)
  let count ← addBelow uint256 .panic (w.cancelConfirmations id) 1
  let w := (w.setCancelConfirmations id count).emit (.cancelConfirmed id c.sender count)
  if w.threshold ≤ count then
    let w := (w.setOperation id default).setCancelConfirmations id 0
    let w := w.setConfirmedBy id (Ballot.strike w.owners (w.confirmedBy id))
    let w := w.setCancelConfirmedBy id (Ballot.strike w.owners (w.cancelConfirmedBy id))
    return w.emit (.cancelled id)
  else return w

def addOwner (c : Context) (owner_ : Address) (w : World) : Except Revert World := do
  onlySelf c
  require (owner_ ≠ 0) .invalidConfig
  require (w.isOwner owner_ = false) .alreadyOwner
  return World.emit
    { w with
      isOwner := Function.update w.isOwner owner_ true
      owners := w.owners ++ [owner_] }
    (.ownerAdded owner_)

def removeOwner (c : Context) (owner_ : Address) (w : World) : Except Revert World := do
  onlySelf c
  require (w.isOwner owner_) .notOwner
  let remaining ← subChecked .panic w.owners.length 1
  require (w.threshold ≤ remaining) .invalidConfig
  return World.emit
    { w with
      isOwner := Function.update w.isOwner owner_ false
      owners := Ballot.swapPop owner_ w.owners 0 w.owners.length }
    (.ownerRemoved owner_)

def setThreshold (c : Context) (threshold_ : Nat) (w : World) : Except Revert World := do
  onlySelf c
  require (threshold_ ≠ 0 ∧ threshold_ ≤ w.owners.length) .invalidConfig
  return World.emit { w with threshold := threshold_ } (.thresholdSet threshold_)

def setDelay (c : Context) (delay_ : Nat) (w : World) : Except Revert World := do
  onlySelf c
  require (minDelay ≤ delay_ ∧ delay_ ≤ maxDelay) .invalidConfig
  return World.emit { w with delay := delay_ } (.delaySet delay_)

end Perihelion.Timelock

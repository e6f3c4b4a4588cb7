import Perihelion.Lib.Ballot
import Perihelion.Lib.Fallible
import Perihelion.Wire

/-! # State of the timelock

The storage of `PerihelionTimelock`, and the events it emitted, newest first.  The
owner set, the threshold and the delay administer themselves; everything else is
kept for each operation under the hash of its call.
-/

namespace Perihelion.Timelock

open BigEndian Fallible

abbrev Address := BitVec 160

structure Operation where
  confirmations : Nat
  readyAt : Nat
  executed : Bool
  exists_ : Bool
  deriving DecidableEq

/-- The zero slot of the `operations` mapping. -/
instance : Inhabited Operation := ⟨⟨0, 0, false, false⟩⟩

/-- 14 days. -/
def gracePeriod : Nat := 1209600
/-- 1 day. -/
def minDelay : Nat := 86400
/-- 30 days. -/
def maxDelay : Nat := 2592000

/-- The custom errors, a checked-arithmetic panic, calldata that no function takes and
    value sent to a function that takes none. -/
inductive Revert where
  | notOwner | notSelf | invalidConfig | alreadyOwner | unknownOperation | alreadyExists
  | alreadyConfirmed | notConfirmed | alreadyExecuted | notReady | notEnoughConfirmations
  | callFailed | reentrancy | expired | alreadyCancelConfirmed
  | panic | noFunction | nonPayable
  deriving DecidableEq

inductive Event where
  | proposed (id : Bytes32) (proposer target : Address) (value : Nat)
  | confirmed (id : Bytes32) (owner : Address) (confirmations : Nat)
  | confirmationRevoked (id : Bytes32) (owner : Address) (confirmations : Nat)
  | ready (id : Bytes32) (readyAt : Nat)
  | executed (id : Bytes32)
  | cancelled (id : Bytes32)
  | cancelConfirmed (id : Bytes32) (owner : Address) (cancelConfirmations : Nat)
  | ownerAdded (owner : Address)
  | ownerRemoved (owner : Address)
  | thresholdSet (threshold : Nat)
  | delaySet (delay : Nat)
  deriving DecidableEq

/-- What the timelock administers about itself. -/
structure Config where
  owners : List Address
  isOwner : Address → Bool
  threshold : Nat
  delay : Nat

structure World extends Config where
  operations : Bytes32 → Operation
  confirmedBy : Bytes32 → Address → Bool
  cancelConfirmations : Bytes32 → Nat
  cancelConfirmedBy : Bytes32 → Address → Bool
  reentrancy : Nat
  /-- `address(this).balance`. -/
  balance : Nat
  /-- `block.timestamp` of the transaction in progress, or of the latest one. -/
  timestamp : Nat
  log : List Event

namespace World

def emit (w : World) (event : Event) : World := { w with log := event :: w.log }

def setOperation (w : World) (id : Bytes32) (op : Operation) : World :=
  { w with operations := Function.update w.operations id op }

def setConfirmedBy (w : World) (id : Bytes32) (votes : Address → Bool) : World :=
  { w with confirmedBy := Function.update w.confirmedBy id votes }

def setCancelConfirmations (w : World) (id : Bytes32) (count : Nat) : World :=
  { w with cancelConfirmations := Function.update w.cancelConfirmations id count }

def setCancelConfirmedBy (w : World) (id : Bytes32) (votes : Address → Bool) : World :=
  { w with cancelConfirmedBy := Function.update w.cancelConfirmedBy id votes }

end World

/-- `abi.encode(target, value, data, salt)`. -/
def abiEncode (target : Address) (value : Nat) (data : Bytes) (salt : Bytes32) : Bytes :=
  encode 32 target.toNat ++ encode 32 value ++ encode 32 128 ++ Bytes32.toBytes salt
    ++ encode 32 data.length ++ data ++ List.replicate ((32 - data.length % 32) % 32) 0

/-- One call of the timelock: who calls, at which address it lives and the EVM's hash. -/
structure Context where
  this : Address
  keccak256 : Bytes → Bytes32
  sender : Address

def hashOperation (keccak256 : Bytes → Bytes32) (target : Address) (value : Nat) (data : Bytes)
    (salt : Bytes32) : Bytes32 :=
  keccak256 (abiEncode target value data salt)

def onlyOwner (c : Context) (w : World) : Except Revert Unit := require (w.isOwner c.sender) .notOwner

def onlySelf (c : Context) : Except Revert Unit := require (c.sender = c.this) .notSelf

end Perihelion.Timelock

import Mathlib.Logic.Function.Basic
import Perihelion.Settlement.Address

/-! # State of the settlement contract

The storage of the Soroban contract, one field for each `DataKey` it reads or writes,
the ledger it runs in, and the trace of what its invocations did outside.  An absent
entry is `none`, and an entry that is only ever `true` is a `Bool`.  Entries do not
expire, so the TTL extensions are left out.  The host runs an invocation to the end
or not at all, and it does not let a callee call back in.
-/

namespace Perihelion.Settlement

open BigEndian Fallible

abbrev I128 := BitVec 128

/-- Overflow-checked `i128` arithmetic. -/
def I128.checked (error : ε) (x : Int) : Except ε I128 :=
  if -2 ^ 127 ≤ x ∧ x < 2 ^ 127 then .ok (BitVec.ofInt 128 x) else .error error

def fillInstructionLength : Nat := 227
def fillConfirmedLength : Nat := 90
def cancelIntentLength : Nat := 35

def protocolVersion : UInt8 := 0x01
def msgFillInstruction : UInt8 := 0x01
def msgFillConfirmed : UInt8 := 0x02
def msgCancelIntent : UInt8 := 0x03

def cancelReasonExpired : UInt8 := 0x00
def cancelReasonAdmin : UInt8 := 0x01
def cancelReasonInvalid : UInt8 := 0x02

def maxTtlDefault : Nat := 3110400
def minMaxTtl : Nat := maxTtlDefault
def maxTtlCeiling : Nat := 6312000
def maxPruneWordsPerCall : Nat := 256
/-- 7 days. -/
def maxDeadlineHorizon : Nat := 604800
/-- 30 minutes, after the escrow's `MIN_CONFIRMATION_GRACE`. -/
def minDispatchWindow : Nat := 1800
def dispatchRewardGraceLedgers : Nat := 360
/-- 1 day. -/
def minPeerChangeDelay : Nat := 86400
/-- 14 days. -/
def peerChangeGrace : Nat := 1209600
/-- 30 days. -/
def maxPeerChangeDelay : Nat := 2592000

inductive IntentStatus where
  | locked
  | filled
  | confirmationSent
  | cancelled
  deriving DecidableEq

structure IntentRecord where
  intentHash : Bytes32
  srcEid : Eid
  recipient : Address
  destAsset : Address
  minDestAmount : I128
  deadline : Nat
  preferredSolver : Option Address
  reservationExpires : Nat
  status : IntentStatus
  solver : Option Address
  solverEvm : Option Bytes32
  fillAmount : I128
  fillLedger : Nat
  deriving DecidableEq

structure SolverReputationRecord where
  fillCount : Nat
  successCount : Nat
  ewmaLatency : I128
  deriving DecidableEq

structure Origin where
  srcEid : Eid
  sender : Bytes32
  nonce : UInt64
  deriving DecidableEq

structure FillInstruction where
  intentHash : Bytes32
  srcEid : Eid
  recipient : Address
  destAsset : Address
  minDestAmount : I128
  deadline : Nat
  preferredSolver : Option Address
  lockedSolver : Option Bytes32
  reservationWindow : Nat
  deriving DecidableEq

structure CancelInstruction where
  intentHash : Bytes32
  reason : Nat
  deriving DecidableEq

inductive LzMessage where
  | fillInstruction (fi : FillInstruction)
  | cancel (ci : CancelInstruction)
  deriving DecidableEq

structure MessagingParams where
  dstEid : Eid
  receiver : Bytes32
  message : Bytes
  options : Bytes
  payInLzToken : Bool
  deriving DecidableEq

/-- The variants of `PerihelionError` that occur, a missing authorization and a trap
    of the host or of a callee. -/
inductive Failure where
  | notInitialized | contractPaused | reservedForSolver | notPendingAdmin
  | adminEndpointCollision | notPendingPeerChange | peerChangeNotReady | peerChangeExpired
  | notPendingEndpointChange | endpointChangeNotReady | intentNotFound | intentFinalized
  | intentExpired | deadlineNotPassed | insufficientFillAmount | invalidAmount | alreadyFilled
  | deadlineTooFar | exceedsMaxIntentAmount | rollingWindowCapTriggered | endpointChangeExpired
  | invalidDelay | pendingPeerChangeExists | malformedPayload | unknownMessageType | staleNonce
  | untrustedPeer | insufficientLzFee | invalidSolverEvm | unsupportedDestAsset
  | invalidDestAsset | arithmeticError
  | auth | trap
  deriving DecidableEq

inductive Event where
  | initialized (admin endpoint : Address)
  | endpointSet (old : Option Address) (new : Address)
  | endpointChangeProposed (old : Option Address) (new : Address) (readyAt : Nat)
  | endpointChangeCancelled
  | peerSet (eid : Eid) (old : Option Bytes32) (new : Bytes32)
  | peerChangeProposed (eid : Eid) (old : Option Bytes32) (new : Bytes32) (readyAt : Nat)
  | peerChangeCancelled (eid : Eid)
  | adminTransferStarted (old new : Address)
  | adminTransferCompleted (old new : Address)
  | pausedSet (paused : Bool)
  | pausedEidSet (eid : Eid) (paused : Bool)
  | nativeTokenSet (nativeToken : Address)
  | keeperRewardSet (reward : I128)
  | dispatchKeeperRewardSet (reward : I128)
  | keeperRewardPaid (intentHash : Bytes32) (caller : Address) (reward : I128)
  | keeperRewardSkipped (intentHash : Bytes32) (caller : Address) (reward : I128)
  | destTokenAllowedSet (token : Address) (allowed : Bool)
  | maxIntentAmountSet (maxAmount : I128)
  | maxTtlSet (old new : Nat)
  | rollingWindowCapSet (duration : Nat) (cap : I128)
  | rollingWindowCapTriggered (windowStart : Nat) (accumulated : I128)
  | rollingWindowCapReset
  | registered (intentHash : Bytes32) (srcEid : Eid) (deadline : Nat)
  | filled (intentHash : Bytes32) (solver destAsset : Address) (fillAmount : I128) (srcEid : Eid)
  | confirmationSent (intentHash : Bytes32) (solver : Address)
  | cancelled (intentHash : Bytes32) (srcEid : Eid) (deadline : Nat)
  | cancelledInbound (intentHash : Bytes32) (srcEid : Eid)
  | cancelledBeforeRegistration (intentHash : Bytes32) (srcEid : Eid)
  | cancelIgnored (intentHash : Bytes32) (status : IntentStatus)
  | nonceWordsPruned (eid : Eid) (oldFloor newFloor : Nat)
  deriving DecidableEq

/-- Which path of the contract a token transfer comes from.  A ghost label: the token
    call carries only the parties and the amount. -/
inductive Purpose where
  | fill (intentHash : Bytes32)
  | dispatchReward (intentHash : Bytes32)
  | cancelReward (intentHash : Bytes32)
  deriving DecidableEq

inductive Effect where
  | transfer (purpose : Purpose) (token sender receiver : Address) (amount : I128)
  | send (endpoint : Address) (params : MessagingParams) (refundAddress : Address)
      (nativeFee : I128)
  | publish (event : Event)
  deriving DecidableEq

/-- An effect and the ledger it happened in. -/
structure Entry where
  timestamp : Nat
  sequence : Nat
  effect : Effect
  deriving DecidableEq

structure World where
  admin : Option Address
  pendingAdmin : Option Address
  endpoint : Option Address
  paused : Option Bool
  peer : Eid → Option Bytes32
  pendingPeer : Eid → Option Bytes32
  pendingPeerTime : Eid → Option Nat
  pendingPeerDelay : Eid → Option Nat
  pausedEid : Eid → Option Bool
  nativeToken : Option Address
  keeperReward : Option I128
  dispatchKeeperReward : Option I128
  maxTtl : Option Nat
  maxIntentAmount : Option I128
  rollingWindowDuration : Option Nat
  rollingWindowCap : Option I128
  rollingWindowTriggered : Option Bool
  rollingWindowResetEarliestAt : Option Nat
  rollingWindowBucket : Nat → Option I128
  latestWindowStart : Option Nat
  allowedDestToken : Address → Bool
  intent : Bytes32 → Option IntentRecord
  settled : Bytes32 → Bool
  cancelled : Bytes32 → Bool
  confirmationSent : Bytes32 → Bool
  solverReputation : Address → Option SolverReputationRecord
  inboundNonceWord : Eid → Nat → Option (BitVec 64)
  inboundNonceFloor : Eid → Option Nat
  pendingEndpoint : Option Address
  pendingEndpointTime : Option Nat
  /-- `env.ledger().timestamp()` of the invocation in progress, or of the latest one. -/
  timestamp : Nat
  /-- `env.ledger().sequence()`. -/
  sequence : Nat
  trace : List Entry

/-- What is fixed for the life of the contract: its address, and the host's derivation
    of a classic asset's token contract. -/
structure Deployment where
  this : Address
  stellarAssetContract : Bytes → Address

/-- The replies of the surroundings during one invocation; a refusal traps. -/
structure Host where
  /-- `address.require_auth()`. -/
  authorized : Address → Bool
  transfer : Address → Address → Address → I128 → Bool
  quote : Address → MessagingParams → Option I128
  send : Address → MessagingParams → Address → I128 → Bool

structure Context extends Deployment, Host

namespace World

def log (w : World) (effect : Effect) : World :=
  { w with trace := w.trace ++ [⟨w.timestamp, w.sequence, effect⟩] }

def publish (w : World) (event : Event) : World := w.log (.publish event)

end World

def requireAuth (c : Context) (account : Address) : Except Failure Unit :=
  require (c.authorized account) .auth

/-- `TokenClient::transfer`. -/
def transfer (c : Context) (purpose : Purpose) (token sender receiver : Address) (amount : I128)
    (w : World) : Except Failure World := do
  require (c.transfer token sender receiver amount) .trap
  return w.log (.transfer purpose token sender receiver amount)

def requireAdmin (w : World) : Except Failure Address := expect .notInitialized w.admin

/-- `Self::require_admin(&env)?.require_auth()`. -/
def authorizeAdmin (c : Context) (w : World) : Except Failure Unit := do
  let admin ← requireAdmin w
  requireAuth c admin

def requireEndpoint (w : World) : Except Failure Address := expect .notInitialized w.endpoint

def requireNotPaused (w : World) : Except Failure Unit :=
  require (w.paused.getD false = false) .contractPaused

def requireEidNotPaused (eid : Eid) (w : World) : Except Failure Unit := do
  requireNotPaused w
  require ((w.pausedEid eid).getD false = false) .contractPaused

def isFinalized (w : World) (intentHash : Bytes32) : Bool :=
  w.settled intentHash || w.cancelled intentHash

end Perihelion.Settlement

import Mathlib.Logic.Function.Basic
import Perihelion.Lib.Fallible
import Perihelion.Wire

/-! # State of the escrow

The storage of `PerihelionEscrow`, the balances the chain keeps for it, and the
trace of what its calls did outside.  Everything the contract asks of another
account during one call (code, signatures, token and endpoint replies) is answered
by a `Host`.  Tokens are non-rebasing ERC-20s: the escrow's balance of a token
moves only when the escrow pulls or transfers it, or when somebody sends it more.
-/

namespace Perihelion.Escrow

open BigEndian Fallible

abbrev Address := BitVec 160

structure Intent where
  user : Address
  destination : Bytes
  sourceChainId : Nat
  sourceAsset : Address
  sourceAmount : Nat
  destAsset : Bytes
  minDestAmount : Nat
  deadline : Nat
  nonce : Nat
  preferredSolver : Address
  deriving DecidableEq

structure Lock where
  solver : Address
  user : Address
  asset : Address
  amount : Nat
  minDestAmount : Nat
  deadline : Nat
  released : Bool
  refunded : Bool
  deriving DecidableEq

/-- The zero slot of the `locks` mapping. -/
instance : Inhabited Lock := ⟨⟨0, 0, 0, 0, 0, 0, false, false⟩⟩

structure MessagingParams where
  dstEid : Eid
  receiver : Bytes32
  message : Bytes
  options : Bytes
  payInLzToken : Bool
  deriving DecidableEq

structure Origin where
  srcEid : Eid
  sender : Bytes32
  nonce : UInt64
  deriving DecidableEq

def fillInstructionLength : Nat := 227
def fillConfirmedLength : Nat := 90
def cancelIntentLength : Nat := 35

def cancelReasonExpired : Nat := 0x00
def cancelReasonAdmin : Nat := 0x01
def cancelReasonInvalid : Nat := 0x02
def ignoreUnknownLock : Nat := 0x01
def ignoreAlreadyFinalized : Nat := 0x02

def protocolVersion : UInt8 := 0x01
def msgFillInstruction : UInt8 := 0x01
def msgFillConfirmed : UInt8 := 0x02
def msgCancelIntent : UInt8 := 0x03

/-- 7 days. -/
def maxConfirmationGrace : Nat := 604800
/-- 30 minutes. -/
def minConfirmationGrace : Nat := 1800
/-- 72 hours. -/
def guardianPauseTtl : Nat := 259200
def maxDestinationLen : Nat := 56
def maxDestAssetLen : Nat := 69

def secp256k1HalfOrder : Nat :=
  0x7FFFFFFFFFFFFFFFFFFFFFFFFFFFFFFF5D576E7357A4501DDFE92F46681B20A0

/-- The custom errors, a checked-arithmetic panic, a malformed ABI reply and the
    revert of a callee that bubbles up. -/
inductive Revert where
  | alreadyLocked | notLocked | invalidSignature | intentExpired | wrongChain | notEndpoint
  | untrustedPeer | reservedForSolver | alreadyFinalized | deadlineNotPassed | transferFailed
  | nothingReceived | malformedPayload | unknownVersion | unknownMessageType | staleNonce
  | notOwner | notPendingOwner | noPendingOwner | notAContract | notAuthorized | reentrancy
  | enforcedPause | graceTooLong | graceTooShort | feeTooLow | zeroAddress | stringFieldEmpty
  | stringFieldTooLong | guardianCooldown | pauseNotGuardianInitiated | pauseNotExpired
  | exceedsMaxIntentAmount | rollingWindowCapAlreadyTriggered | rollingWindowNotYetResettable
  | invalidDuration | nativeTransferFailed | exceedsSurplus | assetNotAllowed
  | assetCapNotConfigured | underDelivered | amountTooLarge
  | panic | malformedAbi | callee | nonPayable
  deriving DecidableEq

inductive Event where
  | locked (intentHash : Bytes32) (solver user asset : Address) (amount : Nat)
      (destination destAsset : Bytes) (minDestAmount deadline : Nat)
  | released (intentHash : Bytes32) (solver : Address)
      (amount fillAmount fillLedger minDestAmount : Nat)
  | refunded (intentHash : Bytes32) (user : Address) (amount reason : Nat)
  | refundedLocalTimeout (intentHash : Bytes32) (user : Address) (amount : Nat)
  | cancelIgnored (intentHash : Bytes32) (reason : Nat)
  | peerSet (peer : Bytes32)
  | confirmationGraceSet (secondsGrace : Nat)
  | guardianSet (guardian : Address)
  | pausedSet (paused : Bool)
  | ownershipTransferStarted (previousOwner newOwner : Address)
  | ownershipTransferred (previousOwner newOwner : Address)
  | ownershipTransferCancelled (previousOwner : Address)
  | skimmed (token receiver : Address) (amount : Nat)
  | nativeSkimmed (receiver : Address) (amount : Nat)
  | assetAllowed (asset : Address) (allowed : Bool)
  | maxIntentAmountPerAssetSet (asset : Address) (maxAmount : Nat)
  | maxIntentAmountSet (maxAmount : Nat)
  | rollingWindowCapSet (duration cap : Nat)
  | rollingWindowCapPerAssetSet (asset : Address) (duration cap : Nat)
  | rollingWindowCapTriggered (windowStart accumulated : Nat)
  | rollingWindowCapReset
  deriving DecidableEq

/-- Which path of the contract a token transfer comes from.  A ghost label: the
    ERC-20 call carries only the recipient and the amount. -/
inductive Purpose where
  | release (intentHash : Bytes32)
  | refund (intentHash : Bytes32)
  | skim
  deriving DecidableEq

inductive Effect where
  | transfer (purpose : Purpose) (token receiver : Address) (amount : Nat)
  | transferFrom (token user : Address) (amount received : Nat)
  | send (params : MessagingParams) (nativeFee : Nat) (refundAddress : Address)
  | pay (receiver : Address) (value : Nat)
  | setDelegate (delegate : Address)
  | emit (event : Event)
  deriving DecidableEq

structure World where
  owner : Address
  pendingOwner : Address
  guardian : Address
  stellarPeer : Bytes32
  confirmationGrace : Nat
  paused : Bool
  guardianPauseExpiry : Nat
  guardianPauseCooldownUntil : Nat
  assetAllowed : Address → Bool
  maxIntentAmountPerAsset : Address → Nat
  maxIntentAmount : Nat
  rollingWindowDuration : Nat
  rollingWindowCap : Nat
  rollingWindowCapPerAsset : Address → Nat
  rollingWindowTriggered : Bool
  rollingWindowTriggeredAsset : Address
  rollingWindowResetEarliestAt : Nat
  locks : Bytes32 → Lock
  totalLocked : Address → Nat
  rollingWindowBuckets : Address → Nat → Nat
  latestWindowStart : Address → Nat
  inboundNonce : Eid → UInt64
  inboundNonceBitmap : Eid → Nat → BitVec 256
  reentrancy : Nat
  /-- `IERC20(token).balanceOf(address(this))`. -/
  balanceOf : Address → Nat
  /-- `address(this).balance`. -/
  balance : Nat
  /-- `block.timestamp` of the call in progress, or of the latest one. -/
  timestamp : Nat
  trace : List Effect

/-- What is fixed for the life of the contract: its address and immutables, the
    chain it is deployed on, and the EVM's hash and signature primitives. -/
structure Deployment where
  this : Address
  endpoint : Address
  stellarEid : Eid
  chainid : Nat
  keccak256 : Bytes → Bytes32
  ecrecover : Bytes32 → Nat → Nat → Nat → Address

/-- The replies of other accounts during one call; `none` is a revert.  Who is handed control may
    force native value into this contract before the call comes back: that is what `send` and
    `acceptsNative` answer. -/
structure Host where
  hasCode : Address → Bool
  isValidSignature : Address → Bytes32 → Bytes → Option Bytes
  /-- Return data of `token.transfer(to, amount)`. -/
  transfer : Address → Address → Nat → Option Bytes
  /-- Return data of `token.transferFrom(user, this, amount)` and what arrived. -/
  transferFrom : Address → Address → Nat → Option (Bytes × Nat)
  quote : MessagingParams → Address → Option Nat
  send : MessagingParams → Nat → Address → Option Nat
  /-- It may depend on what the contract has done before. -/
  acceptsNative : List Effect → Address → Nat → Option Nat

structure Context extends Deployment, Host where
  sender : Address
  value : Nat

namespace World

def log (w : World) (effect : Effect) : World := { w with trace := w.trace ++ [effect] }

def emit (w : World) (event : Event) : World := w.log (.emit event)

end World

namespace Context

/-- `account.code.length > 0`.  The zero address has no code, this contract has. -/
def codeAt (c : Context) (account : Address) : Bool :=
  account == c.this || (account != 0 && c.hasCode account)

end Context

/-- `abi.decode(data, (bool))`. -/
def decodeBool (data : Bytes) : Except Revert Bool :=
  if data.length < 32 then .error .malformedAbi
  else match decode (data.take 32) with
    | 0 => .ok false
    | 1 => .ok true
    | _ => .error .malformedAbi

/-- `data.length == 0 || abi.decode(data, (bool))`. -/
def tokenSucceeded (data : Bytes) : Except Revert Bool :=
  if data = [] then .ok true else decodeBool data

/-- `IERC20(token).balanceOf(address(this))`: reverts where no code answers, and this
    contract has no such function. -/
def tokenBalance (c : Context) (token : Address) (w : World) : Except Revert Nat := do
  require (c.codeAt token ∧ token ≠ c.this) .callee
  return w.balanceOf token

def safeTransfer (c : Context) (purpose : Purpose) (token receiver : Address) (amount : Nat)
    (w : World) : Except Revert World := do
  require (c.codeAt token) .transferFailed
  -- A token pays out at most what it holds for the escrow.
  require (token ≠ c.this ∧ amount ≤ w.balanceOf token) .transferFailed
  let data ← expect .transferFailed (c.transfer token receiver amount)
  let succeeded ← tokenSucceeded data
  require succeeded .transferFailed
  let debit := if receiver = c.this then 0 else amount
  return { w with
    balanceOf := Function.update w.balanceOf token (w.balanceOf token - debit)
    trace := w.trace ++ [.transfer purpose token receiver amount] }

/-- `_safeTransferFrom(token, user, address(this), amount)`. -/
def safeTransferFrom (c : Context) (token user : Address) (amount : Nat) (w : World) :
    Except Revert World := do
  require (c.codeAt token) .transferFailed
  require (token ≠ c.this) .transferFailed
  let (data, received) ← expect .transferFailed (c.transferFrom token user amount)
  let succeeded ← tokenSucceeded data
  require succeeded .transferFailed
  return { w with
    balanceOf := Function.update w.balanceOf token (w.balanceOf token + received)
    trace := w.trace ++ [.transferFrom token user amount received] }

/-- `to.call{value: value}("")`; this contract has no `receive` function. -/
def callWithValue (c : Context) (receiver : Address) (value : Nat) (w : World) : Option World :=
  if value ≤ w.balance ∧ receiver ≠ c.this then
    (c.acceptsNative w.trace receiver value).map fun arrived => { w with
      balance := w.balance - value + arrived
      trace := w.trace ++ [.pay receiver value] }
  else none

def nonReentrant (w : World) (body : World → Except Revert World) : Except Revert World := do
  require (w.reentrancy = 1) .reentrancy
  let w ← body { w with reentrancy := 2 }
  return { w with reentrancy := 1 }

def onlyOwner (c : Context) (w : World) : Except Revert Unit := require (c.sender = w.owner) .notOwner

end Perihelion.Escrow

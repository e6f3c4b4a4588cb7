import Perihelion.Escrow.Codec
import Perihelion.Escrow.Config

/-! # Locking an intent

`lock` is four helpers in a row.  The source text of two of them is damaged by a
merge: `_pullFunds` lacks its closing brace and `_dispatchFillInstruction` its
header, which `lock` itself still calls.  Both are read here as `lock` uses them.
The bare `return;` of `_pullFunds` leaves its named result `received` at zero.
-/

namespace Perihelion.Escrow

open BigEndian Fallible

/-- `IERC1271.isValidSignature.selector`. -/
def erc1271Selector : Bytes := [0x16, 0x26, 0xba, 0x7e]

/-- The ECDSA half of `_verify`. -/
def verifyEcdsa (d : Deployment) (digest : Bytes32) (signer : Address) (signature : Bytes) : Bool :=
  if signature.length ≠ 65 then false
  else
    let r := decode (field signature 0 32)
    let s := decode (field signature 32 32)
    let v := decode (field signature 64 1)
    let v := if v < 27 then v + 27 else v
    if v ≠ 27 ∧ v ≠ 28 then false
    else if secp256k1HalfOrder < s then false
    else
      let recovered := d.ecrecover digest v r s
      recovered != 0 && recovered == signer

/-- `_verify`.  The escrow itself has no `isValidSignature`, and a `bytes4` with
    dirty low bytes does not decode. -/
def verify (c : Context) (digest : Bytes32) (signer : Address) (signature : Bytes) :
    Except Revert Bool :=
  if c.codeAt signer then
    match if signer = c.this then none else c.isValidSignature signer digest signature with
    | none => .ok false
    | some reply =>
        if reply.length < 32 then .ok false
        else if decode (field reply 4 28) ≠ 0 then .error .malformedAbi
        else .ok (reply.take 4 == erc1271Selector)
  else .ok (verifyEcdsa c.toDeployment digest signer signature)

def validateIntent (c : Context) (intent : Intent) (signature : Bytes) (w : World) :
    Except Revert Bytes32 := do
  require (w.timestamp < intent.deadline) .intentExpired
  require (intent.sourceChainId = c.chainid) .wrongChain
  require (intent.preferredSolver = 0 ∨ intent.preferredSolver = c.sender) .reservedForSolver
  require (intent.destination.length ≠ 0) .stringFieldEmpty
  require (intent.destination.length ≤ maxDestinationLen) .stringFieldTooLong
  require (intent.destAsset.length ≠ 0) .stringFieldEmpty
  require (intent.destAsset.length ≤ maxDestAssetLen) .stringFieldTooLong
  require (w.assetAllowed intent.sourceAsset) .assetNotAllowed
  require (intent.minDestAmount ≤ (uint128 - 1) / 2) .amountTooLarge
  require (intent.sourceAmount ≤ uint128 - 1) .amountTooLarge
  require (intent.deadline ≤ uint64 - 1) .amountTooLarge
  let intentHash := hashIntent c.toDeployment intent
  require ((w.locks intentHash).user = 0) .alreadyLocked
  let valid ← verify c intentHash intent.user signature
  require valid .invalidSignature
  return intentHash

def rollingCapEnabled (w : World) (asset : Address) : Prop :=
  0 < w.rollingWindowDuration ∧ 0 < w.rollingWindowCapPerAsset asset

instance (w : World) (asset : Address) : Decidable (rollingCapEnabled w asset) :=
  inferInstanceAs (Decidable (_ ∧ _))

/-- `windowStart > _latestWindowStart[asset] ? 0 : _rollingWindowBuckets[asset][windowStart]`. -/
def currentBucket (w : World) (asset : Address) : Nat :=
  if w.latestWindowStart asset < windowStart w then 0
  else w.rollingWindowBuckets asset (windowStart w)

/-- `false` is a breach: the latch and its event persist. -/
def checkValueCaps (sourceAmount : Nat) (asset : Address) (w : World) :
    Except Revert (World × Bool) := do
  require (w.maxIntentAmountPerAsset asset ≠ 0) .assetCapNotConfigured
  require (sourceAmount ≤ w.maxIntentAmountPerAsset asset) .exceedsMaxIntentAmount
  require (¬ w.rollingWindowTriggered) .rollingWindowCapAlreadyTriggered
  if rollingCapEnabled w asset then
    let projected ← addBelow uint256 .panic (currentBucket w asset) sourceAmount
    if w.rollingWindowCapPerAsset asset < projected then
      let earliest ← addBelow uint256 .panic w.timestamp w.rollingWindowDuration
      let latched := World.emit
        { w with
          rollingWindowTriggered := true
          rollingWindowTriggeredAsset := asset
          rollingWindowResetEarliestAt := earliest }
        (.rollingWindowCapTriggered (windowStart w) projected)
      return (latched, false)
    else return (w, true)
  else return (w, true)

def commitValueCaps (asset : Address) (receivedAmount : Nat) (w : World) : Except Revert World :=
  if rollingCapEnabled w asset then do
    let start := windowStart w
    let bucket ← addBelow uint256 .panic (w.rollingWindowBuckets asset start) receivedAmount
    let latest := if w.latestWindowStart asset < start then start else w.latestWindowStart asset
    return World.setBucket
      { w with latestWindowStart := Function.update w.latestWindowStart asset latest }
      asset start bucket
  else return w

/-- `if (amount > 0) msg.sender.call{value: amount}("")`, which must succeed. -/
def refundSender (c : Context) (amount : Nat) (w : World) : Except Revert World :=
  if 0 < amount then expect .nativeTransferFailed (callWithValue c c.sender amount w) else return w

def pullFunds (c : Context) (intent : Intent) (w : World) : Except Revert (World × Nat) := do
  let (w, admitted) ← checkValueCaps intent.sourceAmount intent.sourceAsset w
  if admitted then
    let balBefore ← tokenBalance c intent.sourceAsset w
    let w ← safeTransferFrom c intent.sourceAsset intent.user intent.sourceAmount w
    let balAfter ← tokenBalance c intent.sourceAsset w
    let received ← subChecked .panic balAfter balBefore
    require (received ≠ 0) .nothingReceived
    let w ← commitValueCaps intent.sourceAsset received w
    return (w, received)
  else
    let w ← refundSender c c.value w
    return (w, 0)

def newLock (c : Context) (intent : Intent) (received : Nat) : Lock where
  solver := c.sender
  user := intent.user
  asset := intent.sourceAsset
  amount := received
  minDestAmount := intent.minDestAmount % uint128
  deadline := intent.deadline % uint64
  released := false
  refunded := false

def recordLock (c : Context) (intentHash : Bytes32) (intent : Intent) (received : Nat) (w : World) :
    Except Revert World := do
  let lock := newLock c intent received
  let liability ← addBelow uint256 .panic (w.totalLocked intent.sourceAsset) received
  return World.emit
    { w with
      locks := Function.update w.locks intentHash lock
      totalLocked := Function.update w.totalLocked intent.sourceAsset liability }
    (.locked intentHash c.sender intent.user intent.sourceAsset received intent.destination
      intent.destAsset lock.minDestAmount lock.deadline)

def fillInstructionParams (c : Context) (intentHash : Bytes32) (intent : Intent) (w : World) :
    MessagingParams :=
  buildMessagingParams c.toDeployment w
    (encodeFillInstruction c.toDeployment intentHash intent c.sender)

def dispatchFillInstruction (c : Context) (intentHash : Bytes32) (intent : Intent) (w : World) :
    Except Revert World := do
  let params := fillInstructionParams c intentHash intent w
  let quoted ← expect .callee (c.quote params c.sender)
  require (quoted ≤ c.value) .feeTooLow
  let refundAmount := c.value - quoted
  require (quoted ≤ w.balance) .callee
  let arrived ← expect .callee (c.send params quoted c.sender)
  let w := { w with
    balance := w.balance - quoted + arrived
    trace := w.trace ++ [.send params quoted c.sender] }
  refundSender c refundAmount w

def lock (c : Context) (intent : Intent) (signature : Bytes) (w : World) : Except Revert World :=
  nonReentrant w fun w => do
    require (¬ w.paused) .enforcedPause
    require (w.stellarPeer ≠ 0) .zeroAddress
    let intentHash ← validateIntent c intent signature w
    let (w, received) ← pullFunds c intent w
    let w ← recordLock c intentHash intent received w
    dispatchFillInstruction c intentHash intent w

end Perihelion.Escrow

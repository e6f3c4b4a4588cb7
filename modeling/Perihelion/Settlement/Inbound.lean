import Perihelion.Settlement.Messages

/-! # Inbound messages of the settlement contract

Both receive hooks authenticate the endpoint and the peer, consume the nonce and
hand the message to one of two handlers.  The typed hook exists only in test builds
and under the feature `typed-inbound`.
-/

namespace Perihelion.Settlement

open BigEndian Fallible

def authorizeInbound (c : Context) (origin : Origin) (w : World) : Except Failure Unit := do
  let endpoint ← requireEndpoint w
  requireAuth c endpoint
  let expected ← expect .untrustedPeer (w.peer origin.srcEid)
  require (expected = origin.sender) .untrustedPeer

def resolveDestAssetId (c : Context) (assetId : Bytes) (w : World) : Except Failure Address := do
  require (assetId.length ≤ maxDestAssetLen) .invalidDestAsset
  let asset ← expect .invalidDestAsset (DestAsset.parse assetId)
  match asset with
  | .native => expect .notInitialized w.nativeToken
  | .classic code issuer => return c.stellarAssetContract (classicAssetXdr code issuer)
  | .contract =>
      let token ← expect .trap (Address.fromStringBytes assetId)
      require (w.allowedDestToken token) .unsupportedDestAsset
      return token

def acceptNonce (eid : Eid) (nonce : UInt64) (w : World) : Except Failure World := do
  require (nonce ≠ 0) .staleNonce
  let floor := (w.inboundNonceFloor eid).getD 0
  require (floor ≤ nonce.toNat) .staleNonce
  let wordIndex := nonce.toNat / 64
  let bit := 1#64 <<< (nonce.toNat % 64)
  let word := (w.inboundNonceWord eid wordIndex).getD 0
  require (word &&& bit = 0#64) .staleNonce
  return { w with
    inboundNonceWord := Function.update w.inboundNonceWord eid
      (Function.update (w.inboundNonceWord eid) wordIndex (some (word ||| bit))) }

/-- Move the memoized window forward and drop the bucket it leaves. -/
def World.advanceWindow (w : World) (windowStart : Nat) : World :=
  let latestWindowStart := w.latestWindowStart.getD 0
  if latestWindowStart < windowStart then
    { w with
      latestWindowStart := some windowStart
      rollingWindowBucket := Function.update w.rollingWindowBucket latestWindowStart none }
  else w

/-- `false` is a breach: the latch must survive, so it is not an error. -/
def enforceValueCaps (amount : I128) (w : World) : Except Failure (World × Bool) := do
  require (w.maxIntentAmount.all fun maxAmount =>
    ¬ (0 < maxAmount.toInt ∧ maxAmount.toInt < amount.toInt)) .exceedsMaxIntentAmount
  let duration := w.rollingWindowDuration.getD 0
  let cap := w.rollingWindowCap.getD 0
  if 0 < duration ∧ 0 < cap.toInt then
    require (w.rollingWindowTriggered.getD false = false) .rollingWindowCapTriggered
    let windowStart := w.timestamp / duration * duration
    let w := w.advanceWindow windowStart
    let current := (w.rollingWindowBucket windowStart).getD 0
    let accumulated ← I128.checked .arithmeticError (current.toInt + amount.toInt)
    let w := { w with
      rollingWindowBucket := Function.update w.rollingWindowBucket windowStart (some accumulated) }
    if cap.toInt < accumulated.toInt then
      let resetAt ← addBelow uint64 .arithmeticError w.timestamp duration
      let latched := World.publish
        { w with
          rollingWindowTriggered := some true
          rollingWindowResetEarliestAt := some resetAt }
        (.rollingWindowCapTriggered windowStart accumulated)
      return (latched, false)
    else return (w, true)
  else return (w, true)

/-- The record of a registration at time `now`. -/
def FillInstruction.record (fi : FillInstruction) (transportSrcEid : Eid) (now : Nat) :
    IntentRecord where
  intentHash := fi.intentHash
  srcEid := transportSrcEid
  recipient := fi.recipient
  destAsset := fi.destAsset
  minDestAmount := fi.minDestAmount
  deadline := fi.deadline
  preferredSolver := fi.preferredSolver
  reservationExpires :=
    if 0 < fi.reservationWindow then min (addSaturating uint64 now fi.reservationWindow) fi.deadline
    else fi.deadline
  status := .locked
  solver := none
  solverEvm := fi.lockedSolver
  fillAmount := 0
  fillLedger := 0

def onFillInstruction (transportSrcEid : Eid) (fi : FillInstruction) (w : World) :
    Except Failure World :=
  if isFinalized w fi.intentHash ∨ (w.intent fi.intentHash).isSome then .ok w
  else do
    require (0 < fi.minDestAmount.toInt) .invalidAmount
    require (fi.deadline ≤ addSaturating uint64 w.timestamp maxDeadlineHorizon) .deadlineTooFar
    require ((w.peer transportSrcEid).isSome) .untrustedPeer
    let (w, admitted) ← enforceValueCaps fi.minDestAmount w
    if admitted then
      return World.publish
        { w with
          intent := Function.update w.intent fi.intentHash
            (some (fi.record transportSrcEid w.timestamp)) }
        (.registered fi.intentHash transportSrcEid fi.deadline)
    else return w

def onCancelInbound (srcEid : Eid) (ci : CancelInstruction) (w : World) : World :=
  if isFinalized w ci.intentHash then
    w.publish (.cancelIgnored ci.intentHash
      (if w.cancelled ci.intentHash then .cancelled else .confirmationSent))
  else match w.intent ci.intentHash with
    | none =>
        -- The cancel overtook its FillInstruction: a tombstone keeps that one out.
        World.publish { w with cancelled := Function.update w.cancelled ci.intentHash true }
          (.cancelledBeforeRegistration ci.intentHash srcEid)
    | some record =>
        if record.status = .locked then
          World.publish
            { w with
              intent := Function.update w.intent ci.intentHash
                (some { record with status := .cancelled })
              cancelled := Function.update w.cancelled ci.intentHash true }
            (.cancelledInbound ci.intentHash record.srcEid)
        else w.publish (.cancelIgnored ci.intentHash record.status)

/-- Pause gate, nonce guard, handler.  Only registrations can be paused. -/
def applyInbound (origin : Origin) (message : LzMessage) (w : World) : Except Failure World := do
  match message with
  | .fillInstruction fi =>
      requireEidNotPaused origin.srcEid w
      let w ← acceptNonce origin.srcEid origin.nonce w
      onFillInstruction origin.srcEid fi w
  | .cancel ci =>
      let w ← acceptNonce origin.srcEid origin.nonce w
      return onCancelInbound origin.srcEid ci w

/-- The typed message behind the raw bytes. -/
def parseMessage (c : Context) (message : Bytes) (w : World) : Except Failure LzMessage := do
  let (msgType, fillInstruction, cancelInstruction) ← decodeMessage message
  if msgType = msgFillInstruction then
    require (fillInstruction.lockedSolver.isSome) .malformedPayload
    let destAsset ← resolveDestAssetId c fillInstruction.destAsset w
    return .fillInstruction (fillInstruction.intoFillInstruction destAsset)
  else
    let ci ← expect .malformedPayload cancelInstruction
    return .cancel ci

def lzReceiveBytes (c : Context) (origin : Origin) (message : Bytes) (w : World) :
    Except Failure World := do
  authorizeInbound c origin w
  let parsed ← parseMessage c message w
  applyInbound origin parsed w

def lzReceive (c : Context) (origin : Origin) (message : LzMessage) (w : World) :
    Except Failure World := do
  authorizeInbound c origin w
  applyInbound origin message w

end Perihelion.Settlement

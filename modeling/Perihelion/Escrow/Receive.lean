import Perihelion.Escrow.Codec

/-! # Settling a lock

The inbound messages of the Stellar side and the local refund.  The three terminal
paths end alike: one flag is set, the liability falls by the amount and the amount
is paid.
-/

namespace Perihelion.Escrow

open BigEndian Fallible

def isNonceConsumed (w : World) (srcEid : Eid) (nonce : UInt64) : Bool :=
  (w.inboundNonceBitmap srcEid (nonce / 256).toNat >>> (nonce % 256).toNat) &&& 1#256 == 1#256

def consumeNonce (srcEid : Eid) (nonce : UInt64) (w : World) : World :=
  let word := w.inboundNonceBitmap srcEid (nonce / 256).toNat ||| (1#256 <<< (nonce % 256).toNat)
  { w with
    inboundNonceBitmap := Function.update w.inboundNonceBitmap srcEid
      (Function.update (w.inboundNonceBitmap srcEid) (nonce / 256).toNat word)
    inboundNonce :=
      if w.inboundNonce srcEid < nonce then Function.update w.inboundNonce srcEid nonce
      else w.inboundNonce }

/-- The common tail: `mark` sets the terminal flag before the token is called. -/
def settle (c : Context) (purpose : Purpose) (intentHash : Bytes32) (mark : Lock → Lock)
    (receiver : Address) (w : World) : Except Revert World := do
  let l := w.locks intentHash
  let liability ← subChecked .panic (w.totalLocked l.asset) l.amount
  safeTransfer c purpose l.asset receiver l.amount
    { w with
      locks := Function.update w.locks intentHash (mark l)
      totalLocked := Function.update w.totalLocked l.asset liability }

def Lock.finalized (l : Lock) : Bool := l.released || l.refunded

def Lock.release (l : Lock) : Lock := { l with released := true }

def Lock.refund (l : Lock) : Lock := { l with refunded := true }

def onFillConfirmed (c : Context) (message : Bytes) (w : World) : Except Revert World := do
  let m ← decodeFillConfirmed message
  let l := w.locks m.intentHash
  require (l.user ≠ 0) .notLocked
  -- Before the deadline only the locking solver may be paid.
  require (m.solverEvm = l.solver ∨ l.deadline ≤ w.timestamp) .reservedForSolver
  require (¬ l.finalized) .alreadyFinalized
  require (l.minDestAmount ≤ m.fillAmount) .underDelivered
  let w ← settle c (.release m.intentHash) m.intentHash Lock.release m.solverEvm w
  return w.emit
    (.released m.intentHash m.solverEvm l.amount m.fillAmount m.fillLedger l.minDestAmount)

def onCancelIntent (c : Context) (message : Bytes) (w : World) : Except Revert World := do
  let m ← decodeCancelIntent message
  let l := w.locks m.intentHash
  if l.user = 0 then return w.emit (.cancelIgnored m.intentHash ignoreUnknownLock)
  else if l.finalized then return w.emit (.cancelIgnored m.intentHash ignoreAlreadyFinalized)
  else
    let w ← settle c (.refund m.intentHash) m.intentHash Lock.refund l.user w
    return w.emit (.refunded m.intentHash l.user l.amount m.reason)

/-- The part of `lzReceive` after the nonce has been consumed. -/
def handleMessage (c : Context) (message : Bytes) (w : World) : Except Revert World :=
  match message with
  | version :: msgType :: _ => do
      require (version = protocolVersion) .unknownVersion
      if msgType = msgFillConfirmed then onFillConfirmed c message w
      else if msgType = msgCancelIntent then onCancelIntent c message w
      else .error .unknownMessageType
  | _ => .error .malformedPayload

def lzReceive (c : Context) (origin : Origin) (message : Bytes) (w : World) :
    Except Revert World :=
  nonReentrant w fun w => do
    require (c.sender = c.endpoint) .notEndpoint
    require (origin.sender = w.stellarPeer) .untrustedPeer
    require (¬ (origin.nonce = 0 ∨ isNonceConsumed w origin.srcEid origin.nonce)) .staleNonce
    handleMessage c message (consumeNonce origin.srcEid origin.nonce w)

def cancelExpired (c : Context) (intentHash : Bytes32) (w : World) : Except Revert World :=
  nonReentrant w fun w => do
    let l := w.locks intentHash
    require (l.user ≠ 0) .notLocked
    require (¬ l.finalized) .alreadyFinalized
    let opens ← addBelow uint256 .panic l.deadline w.confirmationGrace
    require (opens ≤ w.timestamp) .deadlineNotPassed
    let w ← settle c (.refund intentHash) intentHash Lock.refund l.user w
    return w.emit (.refundedLocalTimeout intentHash l.user l.amount)

end Perihelion.Escrow

import Perihelion.Settlement.Messages

/-! # Filling and unwinding an intent

A solver pays the recipient, by `deliver_intent` or `fill_intent`, and the source
chain is told so, by `dispatch_confirmation` or within `fill_intent`.  An intent
nobody filled is cancelled by `cancel_expired_intent`.
-/

namespace Perihelion.Settlement

open BigEndian Fallible

/-! ## Outbound messages -/

def outboundParams (dstEid : Eid) (receiver : Bytes32) (message : Bytes) : MessagingParams where
  dstEid := dstEid
  receiver := receiver
  message := message
  options := []
  payInLzToken := false

def dispatch (c : Context) (payer : Address) (dstEid : Eid) (message : Bytes) (lzFee : I128)
    (w : World) : Except Failure World := do
  let receiver ← expect .untrustedPeer (w.peer dstEid)
  let endpoint ← requireEndpoint w
  let params := outboundParams dstEid receiver message
  let required ← expect .trap (c.quote endpoint params)
  require (required.toInt ≤ lzFee.toInt) .insufficientLzFee
  require (c.send endpoint params payer lzFee) .trap
  return w.log (.send endpoint params payer lzFee)

def sendFillConfirmed (c : Context) (payer : Address) (record : IntentRecord) (solverEvm : Bytes32)
    (lzFee : I128) (w : World) : Except Failure World :=
  dispatch c payer record.srcEid
    (encodeFillConfirmed record.intentHash solverEvm record.fillAmount record.fillLedger) lzFee w

def sendCancel (c : Context) (payer : Address) (record : IntentRecord) (reason : UInt8)
    (lzFee : I128) (w : World) : Except Failure World :=
  dispatch c payer record.srcEid (encodeCancelIntent record.intentHash reason) lzFee w

/-! ## Bookkeeping -/

/-- `(9 * old + latency) / 10`, or the latency itself where there is no average yet. -/
def ewma (old : I128) (latency : Nat) : Except Failure I128 :=
  if old = 0 then .ok (BitVec.ofNat 128 latency)
  else do
    let weighted ← I128.checked .trap (old.toInt * 9)
    let sum ← I128.checked .trap (weighted.toInt + latency)
    return BitVec.ofInt 128 (sum.toInt.tdiv 10)

def updateSolverReputation (solver : Address) (fillLatencyLedgers : Nat) (w : World) :
    Except Failure World := do
  let rep := (w.solverReputation solver).getD ⟨0, 0, 0⟩
  let ewmaLatency ← ewma rep.ewmaLatency fillLatencyLedgers
  return { w with
    solverReputation := Function.update w.solverReputation solver (some
      { fillCount := addSaturating uint64 rep.fillCount 1
        successCount := addSaturating uint64 rep.successCount 1
        ewmaLatency }) }

/-- The payout of either keeper reward where one is due, or the event that says why
    there is none. -/
def payKeeperReward (c : Context) (purpose : Purpose) (intentHash : Bytes32) (caller : Address)
    (reward : I128) (eligible : Bool) (w : World) : Except Failure World :=
  if 0 < reward.toInt ∧ eligible then
    match w.nativeToken with
    | some nativeToken => do
        let w ← transfer c purpose nativeToken c.this caller reward w
        return w.publish (.keeperRewardPaid intentHash caller reward)
    | none => .ok (w.publish (.keeperRewardSkipped intentHash caller reward))
  else .ok w

/-! ## Filling -/

/-- An EVM address: twelve zero bytes and then not only zeros. -/
def isSolverEvm (solverEvm : Bytes32) : Bool :=
  let raw := Bytes32.toBytes solverEvm
  (raw.take 12).all (· == 0) && (raw.drop 12).any (· != 0)

def validateAndStageFill (solver : Address) (solverEvm intentHash : Bytes32) (fillAmount : I128)
    (w : World) : Except Failure IntentRecord := do
  require (isSolverEvm solverEvm) .invalidSolverEvm
  require (¬ isFinalized w intentHash) .intentFinalized
  let record ← expect .intentNotFound (w.intent intentHash)
  require (record.status = .locked) .alreadyFilled
  let now := w.timestamp
  require (addSaturating uint64 now minDispatchWindow ≤ record.deadline) .intentExpired
  require (record.preferredSolver.all fun preferred =>
    ¬ (preferred ≠ solver ∧ now < record.reservationExpires)) .reservedForSolver
  require (record.solverEvm.all fun lockedSolver =>
    ¬ (lockedSolver ≠ solverEvm ∧ now < record.reservationExpires)) .reservedForSolver
  require (0 < fillAmount.toInt) .invalidAmount
  require (record.minDestAmount.toInt ≤ fillAmount.toInt) .insufficientFillAmount
  return record

/-- The record once `solver` has delivered. -/
def IntentRecord.fill (record : IntentRecord) (solver : Address) (solverEvm : Bytes32)
    (fillAmount : I128) (fillLedger : Nat) : IntentRecord :=
  { record with
    status := .filled
    solver := some solver
    solverEvm := some solverEvm
    fillAmount := fillAmount
    fillLedger := fillLedger }

def deliverIntent (c : Context) (solver : Address) (solverEvm intentHash : Bytes32)
    (fillAmount : I128) (w : World) : Except Failure World := do
  requireAuth c solver
  requireNotPaused w
  let record ← validateAndStageFill solver solverEvm intentHash fillAmount w
  let filled := record.fill solver solverEvm fillAmount w.sequence
  let w := { w with
    intent := Function.update w.intent intentHash (some filled)
    settled := Function.update w.settled intentHash true }
  let w ← transfer c (.fill intentHash) record.destAsset solver record.recipient fillAmount w
  return w.publish (.filled intentHash solver record.destAsset fillAmount record.srcEid)

/-- An exit path: no pause keeps it from running. -/
def dispatchConfirmation (c : Context) (caller : Address) (intentHash : Bytes32) (lzFee : I128)
    (w : World) : Except Failure World := do
  requireAuth c caller
  require (¬ w.confirmationSent intentHash) .intentFinalized
  let record ← expect .intentNotFound (w.intent intentHash)
  require (record.status = .filled) .alreadyFilled
  require (w.timestamp ≤ addSaturating uint64 record.deadline minDispatchWindow) .intentExpired
  let solver ← expect .intentNotFound record.solver
  let solverEvm ← expect .intentNotFound record.solverEvm
  let w ← sendFillConfirmed c solver record solverEvm lzFee w
  let w := { w with
    confirmationSent := Function.update w.confirmationSent intentHash true
    intent := Function.update w.intent intentHash
      (some { record with status := .confirmationSent }) }
  let fillLatency := w.sequence - record.fillLedger
  let w ← updateSolverReputation solver fillLatency w
  let dispatchReward := w.dispatchKeeperReward.getD 0
  -- Only a stalled confirmation that somebody else pushes through earns the reward.
  let rewardEligible := caller ≠ solver && dispatchRewardGraceLedgers ≤ fillLatency
  let w ← payKeeperReward c (.dispatchReward intentHash) intentHash caller dispatchReward
    rewardEligible w
  return w.publish (.confirmationSent intentHash solver)

def fillIntent (c : Context) (solver : Address) (solverEvm intentHash : Bytes32)
    (fillAmount lzFee : I128) (w : World) : Except Failure World := do
  requireAuth c solver
  requireNotPaused w
  let record ← validateAndStageFill solver solverEvm intentHash fillAmount w
  let filled := record.fill solver solverEvm fillAmount w.sequence
  let w := { w with settled := Function.update w.settled intentHash true }
  let w ← transfer c (.fill intentHash) record.destAsset solver record.recipient fillAmount w
  let w ← sendFillConfirmed c solver filled solverEvm lzFee w
  let w := { w with
    intent := Function.update w.intent intentHash
      (some { filled with status := .confirmationSent })
    confirmationSent := Function.update w.confirmationSent intentHash true }
  let w ← updateSolverReputation solver (w.sequence - filled.fillLedger) w
  let w := w.publish (.filled intentHash solver record.destAsset fillAmount record.srcEid)
  return w.publish (.confirmationSent intentHash solver)

/-! ## Cancelling -/

def cancelExpiredIntent (c : Context) (caller : Address) (intentHash : Bytes32) (lzFee : I128)
    (w : World) : Except Failure World := do
  requireAuth c caller
  require (¬ w.cancelled intentHash) .intentFinalized
  require (¬ w.settled intentHash) .alreadyFilled
  let record ← expect .intentNotFound (w.intent intentHash)
  require (record.status = .locked)
    (if record.status = .cancelled then .intentFinalized else .alreadyFilled)
  require (record.deadline ≤ w.timestamp) .deadlineNotPassed
  let cancelled := { record with status := .cancelled }
  let w := { w with
    intent := Function.update w.intent intentHash (some cancelled)
    cancelled := Function.update w.cancelled intentHash true }
  let w ← sendCancel c caller cancelled cancelReasonExpired lzFee w
  let keeperReward := w.keeperReward.getD 0
  let w ← payKeeperReward c (.cancelReward intentHash) intentHash caller keeperReward true w
  return w.publish (.cancelled intentHash record.srcEid record.deadline)

/-! ## Views -/

/-- The markers first, since they outlive the record. -/
def status (w : World) (intentHash : Bytes32) : Option IntentStatus :=
  if w.confirmationSent intentHash then some .confirmationSent
  else if w.settled intentHash then some .filled
  else if w.cancelled intentHash then some .cancelled
  else (w.intent intentHash).map IntentRecord.status

def listUndispatchedIntents (w : World) (intentHashes : List Bytes32) : List Bytes32 :=
  intentHashes.filter fun h => w.settled h && !w.confirmationSent h

end Perihelion.Settlement

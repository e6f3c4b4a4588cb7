import Perihelion.Escrow.Funds

/-! # Every transaction is a move of the funds -/

namespace Perihelion.Escrow

open BigEndian Fallible Transition

theorem nonReentrant_ok {w w' : World} {body : World → Except Revert World} :
    nonReentrant w body = .ok w' ↔
      w.reentrancy = 1 ∧ ∃ v, body { w with reentrancy := 2 } = .ok v ∧
        { v with reentrancy := 1 } = w' := by
  simp only [nonReentrant, bind_ok, require_ok, exists_const, pure_ok]

/-! ## Locking -/

theorem verifyEcdsa_signer {d : Deployment} {digest signer signature}
    (valid : verifyEcdsa d digest signer signature = true) : signer ≠ 0 := by
  unfold verifyEcdsa at valid
  grind

theorem verify_signer {c : Context} {digest signer signature}
    (valid : verify c digest signer signature = .ok true) : signer ≠ 0 := by
  unfold verify at valid
  split at valid
  · rename_i code
    rintro rfl
    -- Only the escrow's own address could be zero and still have code, and it refuses.
    have own : (0 : Address) = c.this := by simpa [Context.codeAt] using code
    rw [if_pos own] at valid
    cases valid
  · exact verifyEcdsa_signer (Except.ok.inj valid)

/-- The checks of `_validateIntent` that look at nothing but the signed fields and the clock. -/
structure StaticChecks (intent : Intent) (now : Nat) : Prop where
  early : now < intent.deadline
  destination : intent.destination.length ≠ 0 ∧ intent.destination.length ≤ maxDestinationLen
  destAsset : intent.destAsset.length ≠ 0 ∧ intent.destAsset.length ≤ maxDestAssetLen
  minDestAmount : intent.minDestAmount ≤ (uint128 - 1) / 2
  sourceAmount : intent.sourceAmount ≤ uint128 - 1
  deadline : intent.deadline ≤ uint64 - 1

theorem validateIntent_iff {c : Context} {intent signature} {w : World} {intentHash} :
    validateIntent c intent signature w = .ok intentHash ↔
      StaticChecks intent w.timestamp ∧ intent.sourceChainId = c.chainid ∧
        (intent.preferredSolver = 0 ∨ intent.preferredSolver = c.sender) ∧
        w.assetAllowed intent.sourceAsset = true ∧
        (w.locks (hashIntent c.toDeployment intent)).user = 0 ∧
        verify c (hashIntent c.toDeployment intent) intent.user signature = .ok true ∧
        hashIntent c.toDeployment intent = intentHash := by
  simp only [validateIntent, bind_ok, require_ok, exists_const, pure_ok]
  constructor
  · intro given
    obtain ⟨early, chain, reserved, destination, destinationLen, destAsset, destAssetLen, allowed,
      minimum, amount, deadline, vacant, _, verified, rfl, same⟩ := given
    exact ⟨⟨early, ⟨destination, destinationLen⟩, ⟨destAsset, destAssetLen⟩, minimum, amount,
      deadline⟩, chain, reserved, allowed, vacant, verified, same⟩
  · intro given
    obtain ⟨checks, chain, reserved, allowed, vacant, verified, same⟩ := given
    exact ⟨checks.early, chain, reserved, checks.destination.1, checks.destination.2,
      checks.destAsset.1, checks.destAsset.2, allowed, checks.minDestAmount, checks.sourceAmount,
      checks.deadline, vacant, true, verified, rfl, same⟩

theorem validateIntent_ok {c : Context} {intent signature} {w : World} {intentHash}
    (valid : validateIntent c intent signature w = .ok intentHash) :
    intentHash = hashIntent c.toDeployment intent ∧ (w.locks intentHash).user = 0 ∧
      intent.user ≠ 0 ∧ w.timestamp < intent.deadline ∧ intent.deadline < uint64 ∧
      intent.minDestAmount < uint128 := by
  obtain ⟨checks, -, -, -, vacant, verified, same⟩ := validateIntent_iff.mp valid
  have deadline := checks.deadline
  have minimum := checks.minDestAmount
  refine ⟨same.symm, same ▸ vacant, verify_signer verified, checks.early, ?_, ?_⟩
  · unfold uint64 at *
    omega
  · unfold uint128 at *
    omega

/-- `_pullFunds` after an admitted check: the token answers, and what arrived is committed. -/
structure Pulled (c : Context) (intent : Intent) (received : Nat) (w w' : World) : Prop where
  unlatched : ¬ w.rollingWindowTriggered
  within : rollingCapEnabled w intent.sourceAsset →
    currentBucket w intent.sourceAsset + intent.sourceAmount ≤
      w.rollingWindowCapPerAsset intent.sourceAsset
  answered : ∃ data,
    c.transferFrom intent.sourceAsset intent.user intent.sourceAmount = some (data, received)
  positive : received ≠ 0
  committed : commitValueCaps intent.sourceAsset received
    { w with
      balanceOf := Function.update w.balanceOf intent.sourceAsset
        (w.balanceOf intent.sourceAsset + received)
      trace := w.trace ++
        [.transferFrom intent.sourceAsset intent.user intent.sourceAmount received] } = .ok w'

theorem Pulled.not_breached {c : Context} {intent received} {w w' : World}
    (pulled : Pulled c intent received w w') :
    ¬ CapBreached intent.sourceAmount intent.sourceAsset w := by
  intro breach
  exact absurd breach.exceeds (Nat.not_lt.mpr (pulled.within breach.enabled))

/-- A breach comes back as zero received, with the breaker latched and the sender refunded. -/
theorem pullFunds_cases {c : Context} {intent} {w w' : World} {received}
    (ran : pullFunds c intent w = .ok (w', received)) :
    Pulled c intent received w w' ∨
      (CapBreached intent.sourceAmount intent.sourceAsset w ∧ received = 0 ∧
        (0 < c.value → c.value ≤ w.balance ∧ c.sender ≠ c.this ∧
          (c.acceptsNative (w.latch intent.sourceAmount intent.sourceAsset).trace c.sender
            c.value).isSome) ∧
        w' = (w.latch intent.sourceAmount intent.sourceAsset).sendBack c c.value) := by
  simp only [pullFunds, bind_ok, Prod.exists] at ran
  obtain ⟨v, admitted, caps, ran⟩ := ran
  cases admitted with
  | true =>
      obtain ⟨rfl, unlatched, within⟩ := checkValueCaps_admitted caps
      simp only [if_true, bind_ok, require_ok, exists_const, subChecked_ok, pure_ok,
        Prod.mk.injEq] at ran
      obtain ⟨before, readBefore, pulled, pull, after, readAfter, delta, ⟨-, measured⟩, positive,
        committed, commit, rfl, rfl⟩ := ran
      obtain ⟨data, arrived, answered, rfl⟩ := safeTransferFrom_ok pull
      have exact : delta = arrived := by
        rw [tokenBalance_ok readBefore, tokenBalance_ok readAfter] at measured
        simp only [Function.update_self] at measured
        omega
      subst exact
      exact Or.inl ⟨unlatched, within, ⟨data, answered⟩, positive, commit⟩
  | false =>
      obtain ⟨breach, rfl⟩ := checkValueCaps_breached.mp caps
      simp only [Bool.false_eq_true, if_false, bind_ok, pure_ok, Prod.mk.injEq] at ran
      obtain ⟨refunded, refund, rfl, rfl⟩ := ran
      exact Or.inr ⟨breach, rfl, refundSender_ok.mp refund⟩

theorem Pulled.frame {c : Context} {intent received} {w w' : World}
    (pulled : Pulled c intent received w w') :
    w'.funds = w.funds.arrive intent.sourceAsset received ∧ w'.core = w.core ∧ w'.sent = w.sent := by
  obtain ⟨funds, core, sent⟩ := commitValueCaps_silent pulled.committed
  refine ⟨?_, core, ?_⟩
  · rw [funds]
    simp [World.funds, Funds.arrive, Effect.payment]
  · rw [sent]
    simp [World.sent, Effect.sent]

theorem Funds.arrive_zero (f : Funds) (token : Address) : f.arrive token 0 = f := by
  simp [Funds.arrive]

theorem pullFunds_frame {c : Context} {intent} {w w' : World} {received}
    (ran : pullFunds c intent w = .ok (w', received)) :
    w'.funds = w.funds.arrive intent.sourceAsset received ∧ w'.core = w.core ∧ w'.sent = w.sent := by
  rcases pullFunds_cases ran with pulled | ⟨-, rfl, -, rfl⟩
  · exact pulled.frame
  · obtain ⟨funds, core, sent⟩ := (World.latch_silent w _ _).trans (World.sendBack_silent _ c c.value)
    exact ⟨by rw [Funds.arrive_zero, funds], core, sent⟩

/-- The state with the lock written and its liability added. -/
def World.recorded (w : World) (c : Context) (intentHash : Bytes32) (intent : Intent)
    (received : Nat) : World :=
  World.emit
    { w with
      locks := Function.update w.locks intentHash (newLock c intent received)
      totalLocked := Function.update w.totalLocked intent.sourceAsset
        (w.totalLocked intent.sourceAsset + received) }
    (.locked intentHash c.sender intent.user intent.sourceAsset received intent.destination
      intent.destAsset (newLock c intent received).minDestAmount (newLock c intent received).deadline)

theorem recordLock_ok {c : Context} {intentHash intent received} {w w' : World} :
    recordLock c intentHash intent received w = .ok w' ↔
      w.totalLocked intent.sourceAsset + received < uint256 ∧
        w' = w.recorded c intentHash intent received := by
  simp only [recordLock, bind_ok, addBelow_ok, pure_ok]
  constructor
  · intro given
    obtain ⟨_, ⟨fits, liability⟩, same⟩ := given
    subst liability
    exact ⟨fits, same.symm⟩
  · intro given
    obtain ⟨fits, same⟩ := given
    exact ⟨_, ⟨fits, rfl⟩, same.symm⟩

theorem World.recorded_frame (w : World) (c : Context) (intentHash intent received) :
    (w.recorded c intentHash intent received).funds =
        w.funds.record intentHash (newLock c intent received) ∧
      (w.recorded c intentHash intent received).core = w.core ∧
      (w.recorded c intentHash intent received).sent = w.sent ∧
      (w.recorded c intentHash intent received).balance = w.balance := by
  unfold World.recorded
  refine ⟨?_, rfl, ?_, rfl⟩
  · rw [World.emit_funds]
    rfl
  · rw [World.emit_sent]
    rfl

theorem fillInstructionParams_congr {c : Context} {intentHash intent} {w w' : World}
    (peer : w'.stellarPeer = w.stellarPeer) :
    fillInstructionParams c intentHash intent w' = fillInstructionParams c intentHash intent w := by
  simp only [fillInstructionParams, buildMessagingParams, peer]

theorem CapBreached.guarded {amount asset} {w : World} {n : Nat} :
    CapBreached amount asset { w with reentrancy := n } ↔ CapBreached amount asset w :=
  ⟨fun b => ⟨b.configured, b.perIntent, b.unlatched, b.enabled, b.fits, b.exceeds, b.clock⟩,
    fun b => ⟨b.configured, b.perIntent, b.unlatched, b.enabled, b.fits, b.exceeds, b.clock⟩⟩

/-- Both ways through `lock`: the measured pull, and the breach that records a lock of
    zero and dispatches it all the same. -/
theorem lock_ok {c : Context} {intent signature} {w w' : World}
    (ran : lock c intent signature w = .ok w') :
    w.reentrancy = 1 ∧ ∃ intentHash received,
      validateIntent c intent signature w = .ok intentHash ∧
      (received = 0 ↔ CapBreached intent.sourceAmount intent.sourceAsset w) ∧
      w.totalLocked intent.sourceAsset + received < uint256 ∧
      w'.funds = (w.funds.arrive intent.sourceAsset received).record intentHash
        (newLock c intent received) ∧
      w'.core = w.core ∧
      w'.sent = w.sent ++ [fillInstructionParams c intentHash intent w] := by
  simp only [lock, nonReentrant_ok, bind_ok, require_ok, exists_const, Prod.exists] at ran
  obtain ⟨idle, v, ⟨-, -, intentHash, valid, pulled, received, pull, recorded, record, dispatch⟩,
    rfl⟩ := ran
  obtain ⟨pullFunds, pullCore, pullSent⟩ := pullFunds_frame pull
  obtain ⟨fits, rfl⟩ := recordLock_ok.mp record
  obtain ⟨recordFunds, recordCore, recordSent, -⟩ :=
    World.recorded_frame pulled c intentHash intent received
  obtain ⟨funds, core, sent⟩ := dispatchFillInstruction_ok dispatch
  have peer : (pulled.recorded c intentHash intent received).stellarPeer = w.stellarPeer :=
    (congrArg Core.stellarPeer recordCore).trans (congrArg Core.stellarPeer pullCore)
  have liability : pulled.totalLocked = w.totalLocked := congrArg Funds.totalLocked pullFunds
  refine ⟨idle, intentHash, received, valid, ?_, liability ▸ fits, ?_, ?_, ?_⟩
  · rcases pullFunds_cases pull with pulled | ⟨breach, rfl, -⟩
    · exact ⟨fun zero => absurd zero pulled.positive,
        fun breach => absurd (CapBreached.guarded.mpr breach) pulled.not_breached⟩
    · exact ⟨fun _ => CapBreached.guarded.mp breach, fun _ => rfl⟩
  · have back : ({ v with reentrancy := 1 } : World).funds = v.funds := rfl
    rw [back, funds, recordFunds, pullFunds]
    rfl
  · have back : ({ v with reentrancy := 1 } : World).core = { v.core with reentrancy := 1 } := rfl
    rw [back, core, recordCore, pullCore, ← idle]
    rfl
  · have back : ({ v with reentrancy := 1 } : World).sent = v.sent := rfl
    rw [back, sent, recordSent, pullSent, fillInstructionParams_congr peer]
    rfl

/-! ## Settling -/

/-- The state after the common tail of the three terminal paths. -/
def World.settled (w : World) (c : Context) (purpose : Purpose) (intentHash : Bytes32)
    (mark : Lock → Lock) (receiver : Address) : World :=
  let l := w.locks intentHash
  World.pay
    { w with
      locks := Function.update w.locks intentHash (mark l)
      totalLocked := Function.update w.totalLocked l.asset (w.totalLocked l.asset - l.amount) }
    c ⟨purpose, l.asset, receiver, l.amount⟩

theorem settle_ok {c : Context} {purpose intentHash mark receiver} {w w' : World} :
    settle c purpose intentHash mark receiver w = .ok w' ↔
      (w.locks intentHash).amount ≤ w.totalLocked (w.locks intentHash).asset ∧
      TransferAccepted c (w.locks intentHash).asset receiver (w.locks intentHash).amount ∧
      (w.locks intentHash).amount ≤ w.balanceOf (w.locks intentHash).asset ∧
      w' = w.settled c purpose intentHash mark receiver := by
  simp only [settle, bind_ok, subChecked_ok, safeTransfer_ok]
  constructor
  · intro given
    obtain ⟨_, ⟨owed, rfl⟩, accepted, held, rfl⟩ := given
    exact ⟨owed, accepted, held, rfl⟩
  · intro given
    obtain ⟨owed, accepted, held, rfl⟩ := given
    exact ⟨_, ⟨owed, rfl⟩, accepted, held, rfl⟩

theorem World.settled_funds (w : World) (c : Context) (purpose intentHash mark receiver) :
    (w.settled c purpose intentHash mark receiver).funds =
      (w.funds.discharge intentHash mark).pay
        ⟨purpose, (w.locks intentHash).asset, receiver, (w.locks intentHash).amount⟩
        (debitFor c receiver (w.locks intentHash).amount) := by
  simp [World.funds, World.settled, World.pay, Funds.pay, Funds.discharge, Effect.payment]

theorem World.settled_sent (w : World) (c : Context) (purpose intentHash mark receiver) :
    (w.settled c purpose intentHash mark receiver).sent = w.sent := by
  simp [World.sent, World.settled, World.pay, Effect.sent]

/-- The state in which a lock is released or refunded. -/
structure Settles (c : Context) (intentHash : Bytes32) (receiver : Address) (w : World) : Prop where
  opened : w.funds.Open intentHash
  accepted :
    TransferAccepted c (w.locks intentHash).asset receiver (w.locks intentHash).amount

theorem onFillConfirmed_ok {c : Context} {message} {w w' : World} :
    onFillConfirmed c message w = .ok w' ↔
      ∃ m, decodeFillConfirmed message = .ok m ∧ Settles c m.intentHash m.solverEvm w ∧
        (m.solverEvm = (w.locks m.intentHash).solver ∨
          (w.locks m.intentHash).deadline ≤ w.timestamp) ∧
        (w.locks m.intentHash).minDestAmount ≤ m.fillAmount ∧
        w' = (w.settled c (.release m.intentHash) m.intentHash Lock.release m.solverEvm).emit
          (.released m.intentHash m.solverEvm (w.locks m.intentHash).amount m.fillAmount
            m.fillLedger (w.locks m.intentHash).minDestAmount) := by
  simp only [onFillConfirmed, bind_ok, require_ok, exists_const, pure_ok, settle_ok,
    Bool.not_eq_true]
  constructor
  · intro given
    obtain ⟨m, decoded, locked, exclusive, live, delivered, _, ⟨owed, accepted, held, rfl⟩,
      rfl⟩ := given
    exact ⟨m, decoded, ⟨⟨locked, live, owed, held⟩, accepted⟩, exclusive, delivered, rfl⟩
  · intro given
    obtain ⟨m, decoded, ⟨⟨locked, live, owed, held⟩, accepted⟩, exclusive, delivered, rfl⟩ := given
    exact ⟨m, decoded, locked, exclusive, live, delivered, _, ⟨owed, accepted, held, rfl⟩, rfl⟩

theorem onCancelIntent_ok {c : Context} {message} {w w' : World} :
    onCancelIntent c message w = .ok w' ↔
      ∃ m, decodeCancelIntent message = .ok m ∧
        (((w.locks m.intentHash).user = 0 ∧
            w' = w.emit (.cancelIgnored m.intentHash ignoreUnknownLock)) ∨
          ((w.locks m.intentHash).user ≠ 0 ∧ (w.locks m.intentHash).finalized = true ∧
            w' = w.emit (.cancelIgnored m.intentHash ignoreAlreadyFinalized)) ∨
          (Settles c m.intentHash (w.locks m.intentHash).user w ∧
            w' = (w.settled c (.refund m.intentHash) m.intentHash Lock.refund
                (w.locks m.intentHash).user).emit
              (.refunded m.intentHash (w.locks m.intentHash).user (w.locks m.intentHash).amount
                m.reason))) := by
  simp only [onCancelIntent, bind_ok]
  refine exists_congr fun m => and_congr_right fun _ => ?_
  by_cases unknown : (w.locks m.intentHash).user = 0
  · simp only [unknown, if_true, pure_ok]
    constructor
    · rintro rfl
      exact Or.inl ⟨trivial, rfl⟩
    · intro given
      rcases given with ⟨-, rfl⟩ | ⟨known, -⟩ | ⟨settles, -⟩
      · rfl
      · exact absurd rfl known
      · exact absurd unknown settles.opened.locked
  · by_cases final : (w.locks m.intentHash).finalized = true
    · rw [if_neg unknown, if_pos final]
      simp only [pure_ok]
      constructor
      · rintro rfl
        exact Or.inr (Or.inl ⟨unknown, final, rfl⟩)
      · intro given
        rcases given with ⟨absent, -⟩ | ⟨-, -, rfl⟩ | ⟨settles, -⟩
        · exact absurd absent unknown
        · rfl
        · have live := settles.opened.live
          rw [show (w.funds.locks m.intentHash) = w.locks m.intentHash from rfl, final] at live
          cases live
    · rw [if_neg unknown, if_neg final]
      simp only [bind_ok, settle_ok, pure_ok]
      constructor
      · intro given
        obtain ⟨_, ⟨owed, accepted, held, rfl⟩, rfl⟩ := given
        exact Or.inr (Or.inr ⟨⟨⟨unknown, Bool.eq_false_of_not_eq_true final, owed, held⟩,
          accepted⟩, rfl⟩)
      · intro given
        rcases given with ⟨absent, -⟩ | ⟨-, finalized, -⟩ | ⟨settles, rfl⟩
        · exact absurd absent unknown
        · exact absurd finalized final
        · exact ⟨_, ⟨settles.opened.owed, settles.accepted, settles.opened.held, rfl⟩, rfl⟩

theorem handleMessage_ok {c : Context} {message} {w w' : World} :
    handleMessage c message w = .ok w' ↔
      (∃ rest, message = protocolVersion :: msgFillConfirmed :: rest ∧
        onFillConfirmed c message w = .ok w') ∨
      (∃ rest, message = protocolVersion :: msgCancelIntent :: rest ∧
        onCancelIntent c message w = .ok w') := by
  unfold handleMessage
  split
  · rename_i version msgType rest
    simp only [bind_ok, require_ok, exists_const, List.cons.injEq]
    by_cases fill : msgType = msgFillConfirmed
    · subst fill
      simp [msgFillConfirmed, msgCancelIntent]
    · rw [if_neg fill]
      by_cases cancel : msgType = msgCancelIntent
      · subst cancel
        simp [msgFillConfirmed, msgCancelIntent]
      · rw [if_neg cancel]
        simp [fill, cancel]
  · rename_i short
    constructor
    · rintro ⟨⟩
    · intro given
      rcases given with ⟨rest, rfl, -⟩ | ⟨rest, rfl, -⟩
      · exact absurd rfl (short _ _ _)
      · exact absurd rfl (short _ _ _)

theorem lzReceive_ok {c : Context} {origin message} {w w' : World} :
    lzReceive c origin message w = .ok w' ↔
      w.reentrancy = 1 ∧ c.sender = c.endpoint ∧ origin.sender = w.stellarPeer ∧
        ¬ (origin.nonce = 0 ∨ isNonceConsumed w origin.srcEid origin.nonce) ∧
        ∃ v, handleMessage c message
            (consumeNonce origin.srcEid origin.nonce { w with reentrancy := 2 }) = .ok v ∧
          { v with reentrancy := 1 } = w' := by
  simp only [lzReceive, nonReentrant_ok, bind_ok, require_ok, exists_const]
  constructor
  · intro given
    obtain ⟨idle, v, ⟨endpoint, peer, fresh, handled⟩, rfl⟩ := given
    exact ⟨idle, endpoint, peer, fresh, v, handled, rfl⟩
  · intro given
    obtain ⟨idle, endpoint, peer, fresh, v, handled, rfl⟩ := given
    exact ⟨idle, v, ⟨endpoint, peer, fresh, handled⟩, rfl⟩

/-- What no settlement, event, nonce or guard is part of stays the same under a message. -/
theorem lzReceive_view {β : Type u} {view : World → β}
    (settled : ∀ (w : World) c purpose intentHash mark receiver,
      view (w.settled c purpose intentHash mark receiver) = view w)
    (emit : ∀ (w : World) event, view (w.emit event) = view w)
    (guard : ∀ (w : World) n, view { w with reentrancy := n } = view w)
    (nonce : ∀ w srcEid n, view (consumeNonce srcEid n w) = view w)
    {c : Context} {origin message} {w w' : World} (ran : lzReceive c origin message w = .ok w') :
    view w' = view w := by
  obtain ⟨-, -, -, -, v, handled, rfl⟩ := lzReceive_ok.mp ran
  rcases handleMessage_ok.mp handled with ⟨-, -, ran⟩ | ⟨-, -, ran⟩
  · obtain ⟨m, -, -, -, -, rfl⟩ := onFillConfirmed_ok.mp ran
    simp only [settled, emit, guard, nonce]
  · obtain ⟨m, -, (⟨-, rfl⟩ | ⟨-, -, rfl⟩ | ⟨-, rfl⟩)⟩ := onCancelIntent_ok.mp ran
    · simp only [emit, guard, nonce]
    · simp only [emit, guard, nonce]
    · simp only [settled, emit, guard, nonce]

theorem cancelExpired_ok {c : Context} {intentHash} {w w' : World} :
    cancelExpired c intentHash w = .ok w' ↔
      w.reentrancy = 1 ∧ Settles c intentHash (w.locks intentHash).user w ∧
        (w.locks intentHash).deadline + w.confirmationGrace < uint256 ∧
        (w.locks intentHash).deadline + w.confirmationGrace ≤ w.timestamp ∧
        { (w.settled c (.refund intentHash) intentHash Lock.refund
            (w.locks intentHash).user).emit
          (.refundedLocalTimeout intentHash (w.locks intentHash).user
            (w.locks intentHash).amount) with reentrancy := 1 } = w' := by
  simp only [cancelExpired, nonReentrant_ok, bind_ok, require_ok, exists_const, addBelow_ok,
    pure_ok, settle_ok, Bool.not_eq_true]
  constructor
  · intro given
    obtain ⟨idle, _, ⟨locked, live, _, ⟨fits, rfl⟩, late, _, ⟨owed, accepted, held, rfl⟩, rfl⟩,
      rfl⟩ := given
    exact ⟨idle, ⟨⟨locked, live, owed, held⟩, accepted⟩, fits, late, rfl⟩
  · intro given
    obtain ⟨idle, ⟨⟨locked, live, owed, held⟩, accepted⟩, fits, late, rfl⟩ := given
    exact ⟨idle, _, ⟨locked, live, _, ⟨fits, rfl⟩, late, _, ⟨owed, accepted, held, rfl⟩, rfl⟩, rfl⟩

/-! ## Administration -/

/-- What the owner's and guardian's calls leave alone; the grace stays in its bounds. -/
structure AdminFrame (w w' : World) : Prop where
  funds : w'.funds = w.funds
  sent : w'.sent = w.sent
  reentrancy : w'.reentrancy = w.reentrancy
  timestamp : w'.timestamp = w.timestamp
  inboundNonceBitmap : w'.inboundNonceBitmap = w.inboundNonceBitmap
  grace : w'.confirmationGrace = w.confirmationGrace ∨
    minConfirmationGrace ≤ w'.confirmationGrace ∧ w'.confirmationGrace ≤ maxConfirmationGrace

def Call.admin : Call → Bool
  | .skim .. | .lock .. | .lzReceive .. | .cancelExpired .. => false
  | _ => true

theorem AdminFrame.emit {w v : World} (frame : AdminFrame w v) (event : Event) :
    AdminFrame w (v.emit event) where
  funds := by rw [World.emit_funds, frame.funds]
  sent := by rw [World.emit_sent, frame.sent]
  reentrancy := frame.reentrancy
  timestamp := frame.timestamp
  inboundNonceBitmap := frame.inboundNonceBitmap
  grace := frame.grace

/-- The effects of the administration: events of its own, and ether that is skimmed. -/
def Effect.administrative : Effect → Bool
  | .emit (.locked ..) | .send .. | .transfer .. | .transferFrom .. => false
  | _ => true

/-- What else a call of the administration writes; only a reset touches the window. -/
structure AdminWrite (call : Call) (w w' : World) : Prop extends AdminFrame w w' where
  trace : ∃ effects, w'.trace = w.trace ++ effects ∧
    ∀ effect ∈ effects, effect.administrative = true
  window : call = .resetRollingWindowCap ∨
    w'.rollingWindowTriggered = w.rollingWindowTriggered ∧
      w'.rollingWindowBuckets = w.rollingWindowBuckets ∧ w'.latestWindowStart = w.latestWindowStart

theorem AdminWrite.config {call : Call} {w v : World} (frame : AdminFrame w v)
    (trace : v.trace = w.trace) (window : call = .resetRollingWindowCap ∨
      v.rollingWindowTriggered = w.rollingWindowTriggered ∧
        v.rollingWindowBuckets = w.rollingWindowBuckets ∧
        v.latestWindowStart = w.latestWindowStart) : AdminWrite call w v where
  toAdminFrame := frame
  trace := ⟨[], by rw [trace, List.append_nil], by simp⟩
  window := window

theorem AdminWrite.emit {call : Call} {w v : World} {event : Event}
    (own : (Effect.emit event).administrative = true) (write : AdminWrite call w v) :
    AdminWrite call w (v.emit event) where
  toAdminFrame := write.toAdminFrame.emit event
  trace := by
    obtain ⟨effects, trace, each⟩ := write.trace
    refine ⟨effects ++ [.emit event], ?_, ?_⟩
    · simp [World.emit, World.log, trace]
    · intro effect member
      rcases List.mem_append.mp member with member | member
      · exact each effect member
      · rw [List.mem_singleton.mp member]
        exact own
  window := write.window

/-- The one case analysis of the administration: what its calls write. -/
theorem Call.run_write {c : Context} {call : Call} {w w' : World} (admin : call.admin = true)
    (ran : call.run c w = .ok w') : AdminWrite call w w' := by
  cases call with
  | setPeer | setAssetAllowed | cancelOwnershipTransfer =>
      simp only [Call.run, Escrow.setPeer, Escrow.setAssetAllowed,
        Escrow.cancelOwnershipTransfer, onlyOwner, bind_ok, require_ok, exists_const, pure_ok] at ran
      obtain ⟨-, -, rfl⟩ := ran
      apply AdminWrite.emit rfl
      exact .config ⟨rfl, rfl, rfl, rfl, rfl, Or.inl rfl⟩ rfl (Or.inr ⟨rfl, rfl, rfl⟩)
  | setGuardian | setPaused | setMaxIntentAmountPerAsset | setMaxIntentAmount
  | transferOwnership | acceptOwnership =>
      simp only [Call.run, Escrow.setGuardian, Escrow.setPaused,
        Escrow.setMaxIntentAmountPerAsset, Escrow.setMaxIntentAmount, Escrow.transferOwnership,
        Escrow.acceptOwnership, onlyOwner, bind_ok, require_ok, exists_const, pure_ok] at ran
      obtain ⟨-, rfl⟩ := ran
      apply AdminWrite.emit rfl
      exact .config ⟨rfl, rfl, rfl, rfl, rfl, Or.inl rfl⟩ rfl (Or.inr ⟨rfl, rfl, rfl⟩)
  | setConfirmationGrace secondsGrace =>
      simp only [Call.run, Escrow.setConfirmationGrace, onlyOwner, bind_ok, require_ok,
        exists_const, pure_ok] at ran
      obtain ⟨-, atMost, atLeast, rfl⟩ := ran
      apply AdminWrite.emit rfl
      exact .config ⟨rfl, rfl, rfl, rfl, rfl, Or.inr ⟨atLeast, atMost⟩⟩ rfl (Or.inr ⟨rfl, rfl, rfl⟩)
  | pause =>
      simp only [Call.run, Escrow.pause, bind_ok, require_ok, exists_const] at ran
      obtain ⟨-, ran⟩ := ran
      split at ran
      · simp only [bind_ok, require_ok, exists_const, pure_ok] at ran
        obtain ⟨-, _, -, rfl⟩ := ran
        apply AdminWrite.emit rfl
        exact .config ⟨rfl, rfl, rfl, rfl, rfl, Or.inl rfl⟩ rfl (Or.inr ⟨rfl, rfl, rfl⟩)
      · cases ran
        apply AdminWrite.emit rfl
        exact .config ⟨rfl, rfl, rfl, rfl, rfl, Or.inl rfl⟩ rfl (Or.inr ⟨rfl, rfl, rfl⟩)
  | decayGuardianPause =>
      simp only [Call.run, Escrow.decayGuardianPause, bind_ok, require_ok, exists_const,
        pure_ok] at ran
      obtain ⟨-, -, _, -, rfl⟩ := ran
      apply AdminWrite.emit rfl
      exact .config ⟨rfl, rfl, rfl, rfl, rfl, Or.inl rfl⟩ rfl (Or.inr ⟨rfl, rfl, rfl⟩)
  | setRollingWindowCap windowDuration cap =>
      simp only [Call.run, Escrow.setRollingWindowCap, onlyOwner, bind_ok, require_ok,
        exists_const, pure_ok] at ran
      obtain ⟨-, -, -, rfl⟩ := ran
      apply AdminWrite.emit rfl
      exact .config ⟨rfl, rfl, rfl, rfl, rfl, Or.inl rfl⟩ rfl (Or.inr ⟨rfl, rfl, rfl⟩)
  | setRollingWindowCapForAsset asset windowDuration cap =>
      simp only [Call.run, Escrow.setRollingWindowCapForAsset, onlyOwner, bind_ok, require_ok,
        exists_const, pure_ok] at ran
      obtain ⟨-, -, -, -, rfl⟩ := ran
      apply AdminWrite.emit rfl
      exact .config ⟨rfl, rfl, rfl, rfl, rfl, Or.inl rfl⟩ rfl (Or.inr ⟨rfl, rfl, rfl⟩)
  | resetRollingWindowCap =>
      simp only [Call.run, Escrow.resetRollingWindowCap, onlyOwner, bind_ok, require_ok,
        exists_const, pure_ok] at ran
      obtain ⟨-, -, rfl⟩ := ran
      apply AdminWrite.emit rfl
      split
      · exact .config ⟨rfl, rfl, rfl, rfl, rfl, Or.inl rfl⟩ rfl (Or.inl rfl)
      · exact .config ⟨rfl, rfl, rfl, rfl, rfl, Or.inl rfl⟩ rfl (Or.inl rfl)
  | skimNative receiver amount =>
      simp only [Call.run, Escrow.skimNative, onlyOwner, bind_ok, require_ok, exists_const,
        expect_ok, callWithValue_some, pure_ok] at ran
      obtain ⟨-, -, -, _, ⟨-, rfl⟩, rfl⟩ := ran
      apply AdminWrite.emit rfl
      refine ⟨⟨?_, ?_, rfl, rfl, rfl, Or.inl rfl⟩, ⟨[.pay receiver amount], rfl, ?_⟩,
        Or.inr ⟨rfl, rfl, rfl⟩⟩
      · simp [World.funds, Effect.payment]
      · simp [World.sent, Effect.sent]
      · simp [Effect.administrative]
  | skim | lock | lzReceive | cancelExpired => cases admin

theorem Call.run_admin {c : Context} {call : Call} {w w' : World} (admin : call.admin = true)
    (ran : call.run c w = .ok w') : AdminFrame w w' :=
  (Call.run_write admin ran).toAdminFrame

theorem skim_ok {c : Context} {token receiver amount} {w w' : World}
    (ran : skim c token receiver amount w = .ok w') :
    (amount = 0 ∨ w.totalLocked token + amount ≤ w.balanceOf token) ∧
      w'.funds = w.funds.pay ⟨.skim, token, receiver, amount⟩ (debitFor c receiver amount) ∧
      w'.core = w.core ∧ w'.sent = w.sent := by
  simp only [skim, onlyOwner, bind_ok, require_ok, exists_const, safeTransfer_ok, pure_ok] at ran
  obtain ⟨-, -, bal, read, surplus, _, ⟨-, -, rfl⟩, rfl⟩ := ran
  rw [tokenBalance_ok read] at surplus
  refine ⟨?_, ?_, rfl, ?_⟩
  · split at surplus <;> omega
  · simp [World.emit, World.log, World.funds, World.pay, Funds.pay, Effect.payment]
  · simp [World.sent, World.emit, World.log, World.pay, Effect.sent]

/-! ## All transactions -/

/-- The transaction behind a move: a release answers a FillConfirmed, a new lock an
    intent of that hash. -/
def Funds.Move.CausedBy (d : Deployment) (tx : Tx) : Funds.Move → Prop
  | .locked intentHash _ =>
      ∃ intent signature, tx.call = .lock intent signature ∧ hashIntent d intent = intentHash
  | .released m timestamp _ =>
      timestamp = tx.timestamp ∧ ∃ origin message, tx.call = .lzReceive origin message ∧
        decodeFillConfirmed message = .ok m
  | _ => True

theorem exec_ok {d : Deployment} {tx : Tx} {w w' : World} :
    exec d tx w = .ok w' ↔
      (tx.value = 0 ∨ tx.call.payable) ∧ tx.call.run (tx.context d) (w.enter tx) = .ok w' := by
  simp only [exec, bind_ok, require_ok, exists_const]

theorem onFillConfirmed_move {c : Context} {message} {w w' : World}
    (ran : onFillConfirmed c message w = .ok w') :
    ∃ m debit, decodeFillConfirmed message = .ok m ∧
      Funds.Step w.funds (.released m w.timestamp debit) w'.funds := by
  obtain ⟨m, decoded, settles, exclusive, delivered, rfl⟩ := onFillConfirmed_ok.mp ran
  refine ⟨m, debitFor c m.solverEvm (w.locks m.intentHash).amount, decoded, ?_⟩
  rw [World.emit_funds, World.settled_funds]
  refine Funds.Step.released m w.timestamp _ settles.opened delivered ?_ (debitFor_le _ _ _)
  intro early
  exact exclusive.resolve_right (Nat.not_le.mpr early)

theorem onCancelIntent_move {c : Context} {message} {w w' : World}
    (ran : onCancelIntent c message w = .ok w') :
    w'.funds = w.funds ∨
      ∃ intentHash debit, Funds.Step w.funds (.refunded intentHash debit) w'.funds := by
  obtain ⟨m, -, (⟨-, rfl⟩ | ⟨-, -, rfl⟩ | ⟨settles, rfl⟩)⟩ := onCancelIntent_ok.mp ran
  · exact Or.inl (World.emit_funds _ _)
  · exact Or.inl (World.emit_funds _ _)
  · right
    use m.intentHash, debitFor c (w.locks m.intentHash).user (w.locks m.intentHash).amount
    rw [World.emit_funds, World.settled_funds]
    exact Funds.Step.refunded m.intentHash _ settles.opened (debitFor_le _ _ _)

theorem exec_move {d : Deployment} {tx : Tx} {w w' : World} (ran : exec d tx w = .ok w') :
    ∃ move, Funds.Step w.funds move w'.funds ∧ move.CausedBy d tx := by
  obtain ⟨-, ran⟩ := exec_ok.mp ran
  cases call : tx.call with
  | lock intent signature =>
      rw [call] at ran
      obtain ⟨-, intentHash, received, valid, -, fits, funds, -⟩ := lock_ok ran
      obtain ⟨rfl, vacant, owned, -, -, -⟩ := validateIntent_ok valid
      refine ⟨.locked _ (newLock (tx.context d) intent received), ?_, intent, signature, call, rfl⟩
      rw [funds]
      exact Funds.Step.locked _ _ vacant owned ⟨rfl, rfl⟩ (Nat.mod_lt _ (by decide)) fits
  | lzReceive origin message =>
      rw [call] at ran
      obtain ⟨-, -, -, -, v, handled, rfl⟩ := lzReceive_ok.mp ran
      rcases handleMessage_ok.mp handled with ⟨-, -, ran⟩ | ⟨-, -, ran⟩
      · obtain ⟨m, debit, decoded, step⟩ := onFillConfirmed_move ran
        exact ⟨_, step, rfl, origin, message, call, decoded⟩
      · rcases onCancelIntent_move ran with same | ⟨intentHash, debit, step⟩
        · exact ⟨.same, same ▸ .same, trivial⟩
        · exact ⟨_, step, trivial⟩
  | cancelExpired intentHash =>
      rw [call] at ran
      obtain ⟨-, settles, -, -, rfl⟩ := cancelExpired_ok.mp ran
      have funds := World.settled_funds (w.enter tx) (tx.context d) (.refund intentHash) intentHash
        Lock.refund ((w.enter tx).locks intentHash).user
      rw [← World.emit_funds] at funds
      exact ⟨.refunded intentHash _,
        funds ▸ Funds.Step.refunded intentHash _ settles.opened (debitFor_le _ _ _), trivial⟩
  | skim token receiver amount =>
      rw [call] at ran
      obtain ⟨surplus, funds, -, -⟩ := skim_ok ran
      exact ⟨.skimmed token receiver amount _,
        funds ▸ Funds.Step.skimmed token receiver amount _ surplus (debitFor_le _ _ _), trivial⟩
  | _ =>
      have frame := Call.run_admin (by rw [call]; rfl) ran
      exact ⟨.same, frame.funds ▸ .same, trivial⟩

theorem handleMessage_core {c : Context} {message} {w w' : World}
    (ran : handleMessage c message w = .ok w') : w'.core = w.core ∧ w'.sent = w.sent := by
  rcases handleMessage_ok.mp ran with ⟨-, -, ran⟩ | ⟨-, -, ran⟩
  · obtain ⟨m, -, -, -, -, rfl⟩ := onFillConfirmed_ok.mp ran
    exact ⟨rfl, by rw [World.emit_sent, World.settled_sent]⟩
  · obtain ⟨m, -, (⟨-, rfl⟩ | ⟨-, -, rfl⟩ | ⟨-, rfl⟩)⟩ := onCancelIntent_ok.mp ran
    · exact ⟨rfl, World.emit_sent _ _⟩
    · exact ⟨rfl, World.emit_sent _ _⟩
    · exact ⟨rfl, by rw [World.emit_sent, World.settled_sent]⟩

/-- Between transactions the reentrancy sentinel is down and the grace within its bounds. -/
structure Steady (w : World) : Prop where
  idle : w.reentrancy = 1
  graceMin : minConfirmationGrace ≤ w.confirmationGrace
  graceMax : w.confirmationGrace ≤ maxConfirmationGrace

theorem Steady.of_core {w w' : World} (steady : Steady w) (idle : w'.reentrancy = 1)
    (grace : w'.confirmationGrace = w.confirmationGrace) : Steady w' where
  idle := idle
  graceMin := grace ▸ steady.graceMin
  graceMax := grace ▸ steady.graceMax

theorem Steady.exec {d : Deployment} {tx : Tx} {w w' : World} (steady : Steady w)
    (ran : exec d tx w = .ok w') : Steady w' := by
  obtain ⟨-, ran⟩ := exec_ok.mp ran
  cases call : tx.call with
  | lock intent signature =>
      rw [call] at ran
      obtain ⟨idle, -, -, -, -, -, -, core, -⟩ := lock_ok ran
      exact steady.of_core ((congrArg Core.reentrancy core).trans idle)
        (congrArg Core.confirmationGrace core)
  | lzReceive origin message =>
      rw [call] at ran
      obtain ⟨-, -, -, -, v, handled, rfl⟩ := lzReceive_ok.mp ran
      exact steady.of_core rfl (congrArg Core.confirmationGrace (handleMessage_core handled).1)
  | cancelExpired intentHash =>
      rw [call] at ran
      obtain ⟨-, -, -, -, rfl⟩ := cancelExpired_ok.mp ran
      exact steady.of_core rfl rfl
  | skim token receiver amount =>
      rw [call] at ran
      obtain ⟨-, -, core, -⟩ := skim_ok ran
      exact steady.of_core ((congrArg Core.reentrancy core).trans steady.idle)
        (congrArg Core.confirmationGrace core)
  | _ =>
      have frame := Call.run_admin (by rw [call]; rfl) ran
      have idle : w'.reentrancy = 1 := frame.reentrancy.trans steady.idle
      rcases frame.grace with same | ⟨atLeast, atMost⟩
      · exact steady.of_core idle same
      · exact ⟨idle, atLeast, atMost⟩

/-- One input is one move, whoever sends it. -/
theorem next_move {d : Deployment} {input : Input} {w w' : World}
    (stepped : next d w input = some w') : ∃ move, Funds.Step w.funds move w'.funds := by
  cases input with
  | tx tx =>
      obtain ⟨move, step, -⟩ := exec_move (next_tx.mp stepped).2
      exact ⟨move, step⟩
  | tokenArrives token amount =>
      cases stepped
      exact ⟨_, Funds.Step.arrived token amount⟩
  | nativeArrives amount =>
      cases stepped
      exact ⟨_, Funds.Step.same⟩

theorem construct_ok {d : Deployment} {creation} {w : World} (ran : construct d creation = .ok w) :
    w.funds = ⟨fun _ => default, fun _ => 0, creation.balanceOf, []⟩ ∧ w.sent = [] ∧
      w.reentrancy = 1 ∧ w.confirmationGrace = 7200 ∧ w.inboundNonceBitmap = fun _ _ => 0 := by
  simp only [construct, bind_ok, require_ok, exists_const, pure_ok] at ran
  obtain ⟨-, rfl⟩ := ran
  exact ⟨rfl, rfl, rfl, rfl, rfl⟩

/-- What holds of fresh funds and survives every move holds of every reachable state. -/
theorem funds_invariant {d : Deployment} {P : Funds → Prop}
    (start : ∀ balanceOf, P ⟨fun _ => default, fun _ => 0, balanceOf, []⟩)
    (kept : ∀ f move f', P f → Funds.Step f move f' → P f')
    {w : World} (reach : (system d).Reachable w) : P w.funds := by
  refine reach.invariant (P := fun w => P w.funds) ?_ ?_
  · intro w given
    obtain ⟨creation, made⟩ := given
    rw [(construct_ok made).1]
    exact start creation.balanceOf
  · intro w input w' _ holds stepped
    obtain ⟨move, step⟩ := next_move stepped
    exact kept _ _ _ holds step

theorem steady_of_reachable {d : Deployment} {w : World} (reach : (system d).Reachable w) :
    Steady w := by
  refine reach.invariant (P := Steady) ?_ ?_
  · intro w given
    obtain ⟨creation, made⟩ := given
    obtain ⟨-, -, idle, grace, -⟩ := construct_ok made
    exact ⟨idle, by rw [grace]; decide, by rw [grace]; decide⟩
  · intro w input w' _ steady stepped
    cases input with
    | tx tx => exact steady.exec (next_tx.mp stepped).2
    | tokenArrives token amount =>
        cases stepped
        exact steady.of_core steady.idle rfl
    | nativeArrives amount =>
        cases stepped
        exact steady.of_core steady.idle rfl

end Perihelion.Escrow

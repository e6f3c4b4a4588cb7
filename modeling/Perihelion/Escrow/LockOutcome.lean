import Perihelion.Escrow.Solvency

/-! # Outcomes of a lock call

A lock call should revert, or record a lock, or latch the breaker and give the
value back.  The breach is reported by returning from one of the helpers, and the
helpers after it run on: a fourth outcome records a lock of zero, sends its
FillInstruction and pays for it out of the contract's own native balance, to which
the sender may add while it is paid back.
-/

namespace Perihelion.Escrow

open BigEndian Fallible Transition

def ExactlyOne (a b c : Prop) : Prop := (a ∧ ¬ b ∧ ¬ c) ∨ (¬ a ∧ b ∧ ¬ c) ∨ (¬ a ∧ ¬ b ∧ c)

def Reverts (outcome : Except Revert World) : Prop := ∃ e, outcome = .error e

/-- A lock of the measured positive delta is recorded and one FillInstruction is sent. -/
def RecordsLock (d : Deployment) (tx : Tx) (intent : Intent) (w : World)
    (outcome : Except Revert World) : Prop :=
  ∃ w' received, outcome = .ok w' ∧ 0 < received ∧
    w'.balanceOf = Function.update w.balanceOf intent.sourceAsset
      (w.balanceOf intent.sourceAsset + received) ∧
    w'.locks = Function.update w.locks (hashIntent d intent)
      (newLock (tx.context d) intent received) ∧
    w'.totalLocked = Function.update w.totalLocked intent.sourceAsset
      (w.totalLocked intent.sourceAsset + received) ∧
    w'.sent = w.sent ++ [fillInstructionParams (tx.context d) (hashIntent d intent) intent w]

/-- The cap is breached: the breaker is latched, the value goes back once, and the
    state is otherwise what the call found. -/
def LatchesOnly (d : Deployment) (tx : Tx) (intent : Intent) (w : World)
    (outcome : Except Revert World) : Prop :=
  CapBreached intent.sourceAmount intent.sourceAsset (w.enter tx) ∧
    outcome = .ok (((w.enter tx).latch intent.sourceAmount intent.sourceAsset).sendBack
      (tx.context d) tx.value)

theorem LatchesOnly.quiet {d : Deployment} {tx : Tx} {intent : Intent} {w w' : World}
    (latches : LatchesOnly d tx intent w (.ok w')) :
    w'.funds = w.funds ∧ w'.sent = w.sent ∧ w.balance ≤ w'.balance := by
  obtain ⟨-, same⟩ := latches
  obtain rfl := Except.ok.inj same
  have silent := (World.latch_silent (w.enter tx) intent.sourceAmount intent.sourceAsset).trans
    (World.sendBack_silent _ (tx.context d) tx.value)
  refine ⟨silent.funds, silent.sent, ?_⟩
  have own : w.balance + tx.value - tx.value = w.balance := Nat.add_sub_cancel w.balance tx.value
  rw [World.sendBack_balance]
  exact own.ge.trans (Nat.le_add_right _ _)

/-- The state `_pullFunds` leaves after a breach. -/
def paidBack (d : Deployment) (tx : Tx) (intent : Intent) (w : World) : World :=
  (({ w.enter tx with reentrancy := 2 } : World).latch intent.sourceAmount
    intent.sourceAsset).sendBack (tx.context d) tx.value

/-- The state `_dispatchFillInstruction` finds then. -/
def afterBreach (d : Deployment) (tx : Tx) (intent : Intent) (w : World) : World :=
  (paidBack d tx intent w).recorded (tx.context d) (hashIntent d intent) intent 0

/-- The contract's own native balance after a breach: what it was, and what the sender has forced
    into the contract while the value was paid back. -/
def ownFunds (d : Deployment) (tx : Tx) (intent : Intent) (w : World) : Nat :=
  w.balance + ((w.enter tx).latch intent.sourceAmount intent.sourceAsset).forced (tx.context d) tx.value

/-- The breach branch is taken and every later step goes through: the sender takes the
    value, the endpoint quotes no more than it, and the contract's own native balance
    covers the fee and the second refund. -/
structure BreachCarriedOn (d : Deployment) (tx : Tx) (intent : Intent) (signature : Bytes)
    (w : World) : Prop where
  unpaused : ¬ w.paused
  peer : w.stellarPeer ≠ 0
  valid : validateIntent (tx.context d) intent signature (w.enter tx) = .ok (hashIntent d intent)
  breach : CapBreached intent.sourceAmount intent.sourceAsset (w.enter tx)
  accepts : 0 < tx.value → tx.sender ≠ d.this ∧
    (tx.host.acceptsNative ((w.enter tx).latch intent.sourceAmount intent.sourceAsset).trace
      tx.sender tx.value).isSome
  dispatched : ∃ quoted arrived,
    let params := fillInstructionParams (tx.context d) (hashIntent d intent) intent w
    tx.host.quote params tx.sender = some quoted ∧ quoted ≤ tx.value ∧
      quoted ≤ ownFunds d tx intent w ∧ tx.host.send params quoted tx.sender = some arrived ∧
      (quoted < tx.value → tx.value ≤ ownFunds d tx intent w + arrived ∧ tx.sender ≠ d.this ∧
        (tx.host.acceptsNative ((afterBreach d tx intent w).trace ++ [.send params quoted tx.sender])
          tx.sender (tx.value - quoted)).isSome)

theorem totalLocked_lt {d : Deployment} {w : World} (reach : (system d).Reachable w)
    (token : Address) : w.totalLocked token < uint256 := by
  refine funds_invariant (P := fun f => ∀ token, f.totalLocked token < uint256) ?_ ?_ reach token
  · intro _ _
    exact Nat.two_pow_pos 256
  · intro f move f' bounded step t
    have lowered (asset : Address) (amount : Nat) :
        Function.update f.totalLocked asset (f.totalLocked asset - amount) t < uint256 := by
      have small := bounded asset
      by_cases here : t = asset
      · subst here
        rw [Function.update_self]
        omega
      · rw [Function.update_of_ne here]
        exact bounded t
    cases step with
    | same | arrived | skimmed => exact bounded t
    | locked key lock vacant owned live deadline fits =>
        by_cases here : t = lock.asset
        · subst here
          simpa [Funds.record, Funds.arrive] using fits
        · simpa [Funds.record, Funds.arrive, here] using bounded t
    | released m timestamp debit => exact lowered _ _
    | refunded key debit => exact lowered _ _

theorem dispatchFillInstruction_runs {c : Context} {intentHash intent} {w : World} :
    (∃ w', dispatchFillInstruction c intentHash intent w = .ok w') ↔
      ∃ quoted arrived, c.quote (fillInstructionParams c intentHash intent w) c.sender = some quoted ∧
        quoted ≤ c.value ∧ quoted ≤ w.balance ∧
        c.send (fillInstructionParams c intentHash intent w) quoted c.sender = some arrived ∧
        (0 < c.value - quoted → c.value - quoted ≤ w.balance - quoted + arrived ∧ c.sender ≠ c.this ∧
          (c.acceptsNative
            (w.trace ++ [.send (fillInstructionParams c intentHash intent w) quoted c.sender])
            c.sender (c.value - quoted)).isSome) := by
  simp only [dispatchFillInstruction, bind_ok, require_ok, exists_const, expect_ok, refundSender_ok]
  constructor
  · intro given
    obtain ⟨w', quoted, asked, atMost, covered, arrived, sent, accepts, _⟩ := given
    exact ⟨quoted, arrived, asked, atMost, covered, sent, accepts⟩
  · intro given
    obtain ⟨quoted, arrived, asked, atMost, covered, sent, accepts⟩ := given
    exact ⟨_, quoted, asked, atMost, covered, arrived, sent, accepts, rfl⟩

theorem afterBreach_balance (d : Deployment) (tx : Tx) (intent : Intent) (w : World) :
    (afterBreach d tx intent w).balance = ownFunds d tx intent w := by
  have own : w.balance + tx.value - tx.value = w.balance := Nat.add_sub_cancel w.balance tx.value
  obtain ⟨-, -, -, balance⟩ := World.recorded_frame (paidBack d tx intent w) (tx.context d)
    (hashIntent d intent) intent 0
  refine balance.trans ((World.sendBack_balance _ _ _).trans ?_)
  exact congrArg (· + ((w.enter tx).latch intent.sourceAmount intent.sourceAsset).forced
    (tx.context d) tx.value) own

theorem paidBack_silent (d : Deployment) (tx : Tx) (intent : Intent) (w : World) :
    Silent ({ w.enter tx with reentrancy := 2 } : World) (paidBack d tx intent w) :=
  (World.latch_silent _ intent.sourceAmount intent.sourceAsset).trans
    (World.sendBack_silent _ (tx.context d) tx.value)

theorem afterBreach_peer (d : Deployment) (tx : Tx) (intent : Intent) (w : World) :
    (afterBreach d tx intent w).stellarPeer = w.stellarPeer := by
  obtain ⟨-, core, -, -⟩ := World.recorded_frame (paidBack d tx intent w) (tx.context d)
    (hashIntent d intent) intent 0
  exact (congrArg Core.stellarPeer core).trans
    (congrArg Core.stellarPeer (paidBack_silent d tx intent w).core)

theorem pullFunds_breached {d : Deployment} {tx : Tx} {intent} {w w' : World} {received}
    (breach : CapBreached intent.sourceAmount intent.sourceAsset (w.enter tx)) :
    pullFunds (tx.context d) intent { w.enter tx with reentrancy := 2 } = .ok (w', received) ↔
      received = 0 ∧
        (0 < tx.value → tx.sender ≠ d.this ∧
          (tx.host.acceptsNative ((w.enter tx).latch intent.sourceAmount intent.sourceAsset).trace
            tx.sender tx.value).isSome) ∧
        w' = paidBack d tx intent w := by
  constructor
  · intro ran
    rcases pullFunds_cases ran with pulled | ⟨-, zero, accepts, same⟩
    · exact absurd (CapBreached.guarded.mpr breach) pulled.not_breached
    · exact ⟨zero, fun positive => (accepts positive).2, same⟩
  · intro given
    obtain ⟨zero, accepts, same⟩ := given
    subst zero same
    simp only [pullFunds, bind_ok, Prod.exists]
    refine ⟨_, false, checkValueCaps_breached.mpr ⟨CapBreached.guarded.mpr breach, rfl⟩, ?_⟩
    simp only [Bool.false_eq_true, if_false, bind_ok, pure_ok]
    refine ⟨_, refundSender_ok.mpr ⟨fun positive => ⟨?_, accepts positive⟩, rfl⟩, rfl⟩
    exact Nat.le_add_left tx.value w.balance

theorem recordLock_breached {d : Deployment} {tx : Tx} {intent} {w w' : World}
    (fits : w.totalLocked intent.sourceAsset < uint256) :
    recordLock (tx.context d) (hashIntent d intent) intent 0 (paidBack d tx intent w) = .ok w' ↔
      w' = afterBreach d tx intent w := by
  have liability : (paidBack d tx intent w).totalLocked = w.totalLocked :=
    congrArg Funds.totalLocked (paidBack_silent d tx intent w).funds
  rw [recordLock_ok, liability]
  exact ⟨fun both => both.2, fun same => ⟨fits, same⟩⟩

/-- After a breach the refund, the record and the dispatch are all that can still revert. -/
theorem lock_breached_iff {d : Deployment} {tx : Tx} {intent signature} {w : World}
    (idle : w.reentrancy = 1) (fits : w.totalLocked intent.sourceAsset < uint256)
    (breach : CapBreached intent.sourceAmount intent.sourceAsset (w.enter tx)) :
    (∃ w', lock (tx.context d) intent signature (w.enter tx) = .ok w') ↔
      BreachCarriedOn d tx intent signature w := by
  -- What `_dispatchFillInstruction` reads of the state it finds.
  have params := @fillInstructionParams_congr (tx.context d) (hashIntent d intent) intent _ _
    (afterBreach_peer d tx intent w)
  have dispatch := @dispatchFillInstruction_runs (tx.context d) (hashIntent d intent) intent
    (afterBreach d tx intent w)
  rw [params, afterBreach_balance] at dispatch
  simp only [lock, nonReentrant_ok, bind_ok, require_ok, exists_const, Prod.exists]
  constructor
  · intro given
    obtain ⟨_, _, v, ⟨unpaused, peerSet, intentHash, valid, pulled, received, pull, recorded,
      record, dispatched⟩, _⟩ := given
    have hash : intentHash = hashIntent d intent := (validateIntent_ok valid).1
    subst hash
    obtain ⟨rfl, accepts, rfl⟩ := (pullFunds_breached breach).mp pull
    obtain rfl := (recordLock_breached fits).mp record
    obtain ⟨quoted, arrived, asked, atMost, covered, sent, returned⟩ := dispatch.mp ⟨v, dispatched⟩
    refine ⟨unpaused, peerSet, valid, breach, accepts, quoted, arrived, asked, atMost, covered, sent,
      fun less => ?_⟩
    obtain ⟨rest, taken⟩ := returned (Nat.sub_pos_of_lt less)
    have all : tx.value - quoted ≤ ownFunds d tx intent w - quoted + arrived := rest
    exact ⟨by omega, taken⟩
  · intro carried
    obtain ⟨quoted, arrived, asked, atMost, covered, sent, returned⟩ := carried.dispatched
    obtain ⟨v, dispatched⟩ := dispatch.mpr ⟨quoted, arrived, asked, atMost, covered, sent, fun positive => by
      have all := returned (Nat.lt_of_sub_pos positive)
      exact ⟨show tx.value - quoted ≤ _ by omega, all.2⟩⟩
    exact ⟨_, idle, v, ⟨carried.unpaused, carried.peer, _, carried.valid, _, 0,
      (pullFunds_breached carried.breach).mpr ⟨rfl, carried.accepts, rfl⟩, _,
      (recordLock_breached fits).mpr rfl, dispatched⟩, rfl⟩

theorem exec_lock {d : Deployment} {tx : Tx} {intent signature} {w w' : World}
    (call : tx.call = .lock intent signature) :
    exec d tx w = .ok w' ↔ lock (tx.context d) intent signature (w.enter tx) = .ok w' := by
  rw [exec_ok, call]
  exact ⟨fun both => both.2, fun ran => ⟨Or.inr rfl, ran⟩⟩

theorem not_exactlyOne {a b c : Prop} (notA : ¬ a) (notB : ¬ b) (notC : ¬ c) : ¬ ExactlyOne a b c := by
  intro outcome
  rcases outcome with ⟨first, -, -⟩ | ⟨-, second, -⟩ | ⟨-, -, third⟩
  · exact notA first
  · exact notB second
  · exact notC third

/-- A breach that is carried on with is none of the three outcomes. -/
theorem BreachCarriedOn.fourth {d : Deployment} {tx : Tx} {intent signature} {w : World}
    (carried : BreachCarriedOn d tx intent signature w) (idle : w.reentrancy = 1)
    (fits : w.totalLocked intent.sourceAsset < uint256) (call : tx.call = .lock intent signature) :
    ¬ ExactlyOne (Reverts (exec d tx w)) (RecordsLock d tx intent w (exec d tx w))
      (LatchesOnly d tx intent w (exec d tx w)) := by
  obtain ⟨w', ran⟩ := (lock_breached_iff idle fits carried.breach).mpr carried
  obtain ⟨-, intentHash, received, valid, breached, -, funds, -, sent⟩ := lock_ok ran
  have hash : intentHash = hashIntent d intent := (validateIntent_ok valid).1
  have zero : received = 0 := breached.mpr carried.breach
  subst hash zero
  rw [(exec_lock call).mpr ran]
  apply not_exactlyOne
  · intro given
    obtain ⟨e, failed⟩ := given
    cases failed
  · intro given
    obtain ⟨v, received, same, positive, _, locks, _⟩ := given
    obtain rfl := Except.ok.inj same
    have recorded : w'.locks = Function.update w.locks (hashIntent d intent)
        (newLock (tx.context d) intent 0) := congrArg Funds.locks funds
    have amount := congrArg (fun locks => (locks (hashIntent d intent)).amount)
      (locks.symm.trans recorded)
    simp only [Function.update_self, newLock] at amount
    omega
  · intro latches
    have unsent : w'.sent = w.sent := latches.quiet.2.1
    rw [sent] at unsent
    exact absurd (congrArg List.length unsent) (by simp [World.sent, World.enter])

/-- The three outcomes cover a lock call exactly when it is not a breach whose
    remaining steps all go through. -/
theorem lock_outcomes {d : Deployment} {tx : Tx} {intent signature} {w : World}
    (reach : (system d).Reachable w) (call : tx.call = .lock intent signature) :
    ExactlyOne (Reverts (exec d tx w)) (RecordsLock d tx intent w (exec d tx w))
        (LatchesOnly d tx intent w (exec d tx w)) ↔
      ¬ BreachCarriedOn d tx intent signature w := by
  have idle := (steady_of_reachable reach).idle
  have fits := totalLocked_lt reach intent.sourceAsset
  constructor
  · intro outcome carried
    exact carried.fourth idle fits call outcome
  · intro stopped
    cases run : exec d tx w with
    | error e =>
        refine Or.inl ⟨⟨e, rfl⟩, ?_, ?_⟩
        · intro given
          obtain ⟨_, _, same, _⟩ := given
          cases same
        · intro given
          obtain ⟨_, same⟩ := given
          cases same
    | ok w' =>
        have ran := (exec_lock call).mp run
        obtain ⟨-, intentHash, received, valid, breached, -, funds, -, sent⟩ := lock_ok ran
        have hash : intentHash = hashIntent d intent := (validateIntent_ok valid).1
        subst hash
        have within : ¬ CapBreached intent.sourceAmount intent.sourceAsset (w.enter tx) :=
          fun breach => stopped ((lock_breached_iff idle fits breach).mp ⟨w', ran⟩)
        have positive : received ≠ 0 := fun zero => within (breached.mp zero)
        refine Or.inr (Or.inl ⟨?_, ?_, ?_⟩)
        · intro given
          obtain ⟨_, same⟩ := given
          cases same
        · exact ⟨w', received, rfl, Nat.pos_of_ne_zero positive, congrArg Funds.balanceOf funds,
            congrArg Funds.locks funds, congrArg Funds.totalLocked funds, sent⟩
        · intro latches
          exact within latches.1

theorem lock_outcomes_sample :
    ExactlyOne (Reverts (exec Sample.deployment Sample.lockTx Sample.ready))
      (RecordsLock Sample.deployment Sample.lockTx Sample.intent Sample.ready
        (exec Sample.deployment Sample.lockTx Sample.ready))
      (LatchesOnly Sample.deployment Sample.lockTx Sample.intent Sample.ready
        (exec Sample.deployment Sample.lockTx Sample.ready)) :=
  (lock_outcomes Sample.ready_reachable rfl).mpr fun carried =>
    absurd carried.breach.enabled (by decide +kernel)

namespace Sample

def capTx : Tx := tx owner 0 1700000050 (.setRollingWindowCapForAsset token 86400 50)

/-- The asset's daily cap is below the intent's amount. -/
def capped : World := (replay deployment ready [.tx capTx]).get (by decide +kernel)

theorem capped_reachable : (system deployment).Reachable capped :=
  ready_reachable.later
    (later_of_replay (show replay deployment ready [.tx capTx] = some capped by simp [capped]))

theorem capped_carried : BreachCarriedOn deployment lockTx intent [] capped where
  unpaused := by decide +kernel
  peer := by decide +kernel
  valid := by decide +kernel
  breach := by
    constructor <;> decide +kernel
  accepts := by decide +kernel
  dispatched := ⟨5, 0, by decide +kernel⟩

end Sample

/-- A breach with eight wei sent and ten of its own: the escrow refunds the eight,
    records a lock of zero, sends its FillInstruction for five and refunds three more. -/
theorem lock_breach_carried_on :
    (system Sample.deployment).Reachable Sample.capped ∧
      ¬ ExactlyOne (Reverts (exec Sample.deployment Sample.lockTx Sample.capped))
        (RecordsLock Sample.deployment Sample.lockTx Sample.intent Sample.capped
          (exec Sample.deployment Sample.lockTx Sample.capped))
        (LatchesOnly Sample.deployment Sample.lockTx Sample.intent Sample.capped
          (exec Sample.deployment Sample.lockTx Sample.capped)) ∧
      ((exec Sample.deployment Sample.lockTx Sample.capped).toOption.map fun w =>
        (w.balance, (w.locks Sample.intentHash).amount, w.sent.length)) = some (2, 0, 1) :=
  ⟨Sample.capped_reachable,
    Sample.capped_carried.fourth (steady_of_reachable Sample.capped_reachable).idle
      (totalLocked_lt Sample.capped_reachable Sample.token) rfl,
    by decide +kernel⟩

end Perihelion.Escrow

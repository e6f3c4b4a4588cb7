import Perihelion.Escrow.Machine

/-! # What a transaction can do to the funds

The locks, the liabilities, the token balances and the payments made so far, and
the six ways in which they move.  Every transaction of the escrow is one of them;
whatever holds of these moves therefore holds of the contract.
-/

namespace Perihelion.Escrow

open BigEndian Fallible

structure Payment where
  purpose : Purpose
  token : Address
  receiver : Address
  amount : Nat
  deriving DecidableEq

def Effect.payment : Effect → Option Payment
  | .transfer purpose token receiver amount => some ⟨purpose, token, receiver, amount⟩
  | _ => none

def Effect.sent : Effect → Option MessagingParams
  | .send params _ _ => some params
  | _ => none

structure Funds where
  locks : Bytes32 → Lock
  totalLocked : Address → Nat
  balanceOf : Address → Nat
  payments : List Payment

def World.funds (w : World) : Funds where
  locks := w.locks
  totalLocked := w.totalLocked
  balanceOf := w.balanceOf
  payments := w.trace.filterMap Effect.payment

/-- The messages handed to the endpoint. -/
def World.sent (w : World) : List MessagingParams := w.trace.filterMap Effect.sent

/-- What is neither funds nor trace and yet decides whether a lock can be settled. -/
structure Core where
  reentrancy : Nat
  timestamp : Nat
  stellarPeer : Bytes32
  confirmationGrace : Nat
  inboundNonceBitmap : Eid → Nat → BitVec 256

def World.core (w : World) : Core where
  reentrancy := w.reentrancy
  timestamp := w.timestamp
  stellarPeer := w.stellarPeer
  confirmationGrace := w.confirmationGrace
  inboundNonceBitmap := w.inboundNonceBitmap

namespace Funds

inductive Move where
  | same
  | arrived (token : Address) (amount : Nat)
  | locked (intentHash : Bytes32) (lock : Lock)
  | released (confirmed : FillConfirmed) (timestamp debit : Nat)
  | refunded (intentHash : Bytes32) (debit : Nat)
  | skimmed (token receiver : Address) (amount debit : Nat)

def arrive (f : Funds) (token : Address) (amount : Nat) : Funds :=
  { f with balanceOf := Function.update f.balanceOf token (f.balanceOf token + amount) }

def pay (f : Funds) (payment : Payment) (debit : Nat) : Funds :=
  { f with
    balanceOf := Function.update f.balanceOf payment.token (f.balanceOf payment.token - debit)
    payments := f.payments ++ [payment] }

def record (f : Funds) (intentHash : Bytes32) (lock : Lock) : Funds :=
  { f with
    locks := Function.update f.locks intentHash lock
    totalLocked := Function.update f.totalLocked lock.asset (f.totalLocked lock.asset + lock.amount) }

/-- Mark a lock terminal and take its amount off the liabilities. -/
def discharge (f : Funds) (intentHash : Bytes32) (mark : Lock → Lock) : Funds :=
  let l := f.locks intentHash
  { f with
    locks := Function.update f.locks intentHash (mark l)
    totalLocked := Function.update f.totalLocked l.asset (f.totalLocked l.asset - l.amount) }

/-- What the three terminal paths check of a lock and its liability. -/
structure Open (f : Funds) (intentHash : Bytes32) : Prop where
  locked : (f.locks intentHash).user ≠ 0
  live : (f.locks intentHash).finalized = false
  owed : (f.locks intentHash).amount ≤ f.totalLocked (f.locks intentHash).asset
  held : (f.locks intentHash).amount ≤ f.balanceOf (f.locks intentHash).asset

inductive Step (f : Funds) : Move → Funds → Prop
  | same : Step f .same f
  | arrived (token amount) : Step f (.arrived token amount) (f.arrive token amount)
  | locked (intentHash lock) (vacant : (f.locks intentHash).user = 0) (owned : lock.user ≠ 0)
      (live : lock.released = false ∧ lock.refunded = false) (deadline : lock.deadline < uint64)
      (fits : f.totalLocked lock.asset + lock.amount < uint256) :
      Step f (.locked intentHash lock) ((f.arrive lock.asset lock.amount).record intentHash lock)
  | released (m : FillConfirmed) (timestamp debit) (found : f.Open m.intentHash)
      (delivered : (f.locks m.intentHash).minDestAmount ≤ m.fillAmount)
      (exclusive : timestamp < (f.locks m.intentHash).deadline →
        m.solverEvm = (f.locks m.intentHash).solver)
      (atMost : debit ≤ (f.locks m.intentHash).amount) :
      Step f (.released m timestamp debit)
        ((f.discharge m.intentHash Lock.release).pay
          ⟨.release m.intentHash, (f.locks m.intentHash).asset, m.solverEvm,
            (f.locks m.intentHash).amount⟩ debit)
  | refunded (intentHash debit) (found : f.Open intentHash)
      (atMost : debit ≤ (f.locks intentHash).amount) :
      Step f (.refunded intentHash debit)
        ((f.discharge intentHash Lock.refund).pay
          ⟨.refund intentHash, (f.locks intentHash).asset, (f.locks intentHash).user,
            (f.locks intentHash).amount⟩ debit)
  | skimmed (token receiver amount debit)
      (surplus : amount = 0 ∨ f.totalLocked token + amount ≤ f.balanceOf token)
      (atMost : debit ≤ amount) :
      Step f (.skimmed token receiver amount debit)
        (f.pay ⟨.skim, token, receiver, amount⟩ debit)

end Funds

/-! ## One lemma for each helper -/

/-- No funds moved, nothing sent, nothing settled differently. -/
structure Silent (w w' : World) : Prop where
  funds : w'.funds = w.funds
  core : w'.core = w.core
  sent : w'.sent = w.sent

theorem Silent.trans {w v w' : World} (first : Silent w v) (second : Silent v w') : Silent w w' where
  funds := second.funds.trans first.funds
  core := second.core.trans first.core
  sent := second.sent.trans first.sent

@[simp] theorem World.emit_funds (w : World) (event : Event) : (w.emit event).funds = w.funds := by
  simp [World.funds, World.emit, World.log, Effect.payment]

@[simp] theorem World.emit_core (w : World) (event : Event) : (w.emit event).core = w.core := rfl

@[simp] theorem World.emit_sent (w : World) (event : Event) : (w.emit event).sent = w.sent := by
  simp [World.sent, World.emit, World.log, Effect.sent]

theorem Silent.emit {w v : World} (event : Event) (silent : Silent w v) :
    Silent w (v.emit event) :=
  silent.trans ⟨v.emit_funds event, v.emit_core event, v.emit_sent event⟩

/-- The token call itself succeeds. -/
def TransferAccepted (c : Context) (token receiver : Address) (amount : Nat) : Prop :=
  c.codeAt token ∧ token ≠ c.this ∧
    ∃ data, c.transfer token receiver amount = some data ∧ tokenSucceeded data = .ok true

/-- What the token takes off the escrow's balance: nothing if it is its own receiver. -/
def debitFor (c : Context) (receiver : Address) (amount : Nat) : Nat :=
  if receiver = c.this then 0 else amount

def World.pay (w : World) (c : Context) (payment : Payment) : World :=
  { w with
    balanceOf := Function.update w.balanceOf payment.token
      (w.balanceOf payment.token - debitFor c payment.receiver payment.amount)
    trace := w.trace ++
      [.transfer payment.purpose payment.token payment.receiver payment.amount] }

theorem debitFor_le (c : Context) (receiver : Address) (amount : Nat) :
    debitFor c receiver amount ≤ amount := by
  unfold debitFor
  split <;> omega

theorem safeTransfer_ok {c : Context} {purpose token receiver amount} {w w' : World} :
    safeTransfer c purpose token receiver amount w = .ok w' ↔
      TransferAccepted c token receiver amount ∧ amount ≤ w.balanceOf token ∧
        w' = w.pay c ⟨purpose, token, receiver, amount⟩ := by
  simp only [safeTransfer, bind_ok, require_ok, exists_const, expect_ok, pure_ok, TransferAccepted]
  constructor
  · intro given
    obtain ⟨code, ⟨other, covers⟩, data, answered, succeeded, decoded, accepted, rfl⟩ := given
    subst accepted
    exact ⟨⟨code, other, data, answered, decoded⟩, covers, rfl⟩
  · intro given
    obtain ⟨⟨code, other, data, answered, decoded⟩, covers, rfl⟩ := given
    exact ⟨code, ⟨other, covers⟩, data, answered, true, decoded, rfl, rfl⟩

theorem safeTransferFrom_ok {c : Context} {token user amount} {w w' : World}
    (ran : safeTransferFrom c token user amount w = .ok w') :
    ∃ data received, c.transferFrom token user amount = some (data, received) ∧ w' = { w with
      balanceOf := Function.update w.balanceOf token (w.balanceOf token + received)
      trace := w.trace ++ [.transferFrom token user amount received] } := by
  simp only [safeTransferFrom, bind_ok, require_ok, exists_const, expect_ok, pure_ok, Prod.exists]
    at ran
  obtain ⟨-, -, data, received, answered, _, -, -, rfl⟩ := ran
  exact ⟨data, received, answered, rfl⟩

theorem tokenBalance_ok {c : Context} {token n} {w : World} (ran : tokenBalance c token w = .ok n) :
    n = w.balanceOf token := by
  simp only [tokenBalance, bind_ok, require_ok, exists_const, pure_ok] at ran
  exact ran.2.symm

theorem callWithValue_some {c : Context} {receiver value} {w w' : World} :
    callWithValue c receiver value w = some w' ↔
      (value ≤ w.balance ∧ receiver ≠ c.this ∧ (c.acceptsNative w.trace receiver value).isSome) ∧
        w' = { w with
          balance := w.balance - value + (c.acceptsNative w.trace receiver value).getD 0
          trace := w.trace ++ [.pay receiver value] } := by
  unfold callWithValue
  split
  · rename_i payable
    cases c.acceptsNative w.trace receiver value with
    | none => simp
    | some arrived =>
        simp only [Option.map_some, Option.some.injEq, Option.isSome_some, Option.getD_some, and_true]
        exact ⟨fun same => ⟨payable, same.symm⟩, fun both => both.2.symm⟩
  · rename_i refused
    exact ⟨fun absent => absurd absent (by simp), fun same => absurd ⟨same.1.1, same.1.2.1⟩ refused⟩

/-- The lock would take the asset's window over its cap: `_checkValueCaps` returns `false`. -/
structure CapBreached (amount : Nat) (asset : Address) (w : World) : Prop where
  configured : w.maxIntentAmountPerAsset asset ≠ 0
  perIntent : amount ≤ w.maxIntentAmountPerAsset asset
  unlatched : ¬ w.rollingWindowTriggered
  enabled : rollingCapEnabled w asset
  fits : currentBucket w asset + amount < uint256
  exceeds : w.rollingWindowCapPerAsset asset < currentBucket w asset + amount
  clock : w.timestamp + w.rollingWindowDuration < uint256

/-- The breaker fields and the diagnostic event. -/
def World.latch (w : World) (amount : Nat) (asset : Address) : World :=
  World.emit
    { w with
      rollingWindowTriggered := true
      rollingWindowTriggeredAsset := asset
      rollingWindowResetEarliestAt := w.timestamp + w.rollingWindowDuration }
    (.rollingWindowCapTriggered (windowStart w) (currentBucket w asset + amount))

theorem checkValueCaps_admitted {amount asset} {w w' : World}
    (ran : checkValueCaps amount asset w = .ok (w', true)) :
    w' = w ∧ ¬ w.rollingWindowTriggered ∧
      (rollingCapEnabled w asset → currentBucket w asset + amount ≤ w.rollingWindowCapPerAsset asset) := by
  simp only [checkValueCaps, bind_ok, require_ok, exists_const] at ran
  obtain ⟨-, -, unlatched, ran⟩ := ran
  split at ran
  · simp only [bind_ok, addBelow_ok] at ran
    obtain ⟨projected, ⟨-, rfl⟩, ran⟩ := ran
    split at ran
    · simp only [bind_ok, pure_ok, Prod.mk.injEq, Bool.false_eq_true, and_false, exists_false] at ran
    · rename_i within
      simp only [pure_ok, Prod.mk.injEq, and_true] at ran
      exact ⟨ran.symm, unlatched, fun _ => Nat.not_lt.mp within⟩
  · rename_i disabled
    simp only [pure_ok, Prod.mk.injEq, and_true] at ran
    exact ⟨ran.symm, unlatched, fun enabled => absurd enabled disabled⟩

theorem checkValueCaps_breached {amount asset} {w w' : World} :
    checkValueCaps amount asset w = .ok (w', false) ↔
      CapBreached amount asset w ∧ w' = w.latch amount asset := by
  simp only [checkValueCaps, bind_ok, require_ok, exists_const]
  constructor
  · intro given
    obtain ⟨configured, perIntent, unlatched, ran⟩ := given
    split at ran
    · rename_i enabled
      simp only [bind_ok, addBelow_ok] at ran
      obtain ⟨projected, ⟨fits, rfl⟩, ran⟩ := ran
      split at ran
      · rename_i exceeds
        simp only [bind_ok, addBelow_ok, pure_ok, Prod.mk.injEq, and_true] at ran
        obtain ⟨earliest, ⟨clock, rfl⟩, rfl⟩ := ran
        exact ⟨⟨configured, perIntent, unlatched, enabled, fits, exceeds, clock⟩, rfl⟩
      · simp only [pure_ok, Prod.mk.injEq, Bool.true_eq_false, and_false] at ran
    · simp only [pure_ok, Prod.mk.injEq, Bool.true_eq_false, and_false] at ran
  · intro given
    obtain ⟨breach, rfl⟩ := given
    refine ⟨breach.configured, breach.perIntent, breach.unlatched, ?_⟩
    rw [if_pos breach.enabled]
    simp only [bind_ok, addBelow_ok]
    refine ⟨_, ⟨breach.fits, rfl⟩, ?_⟩
    rw [if_pos breach.exceeds]
    simp only [bind_ok, addBelow_ok, pure_ok]
    exact ⟨_, ⟨breach.clock, rfl⟩, rfl⟩

theorem World.latch_silent (w : World) (amount : Nat) (asset : Address) :
    Silent w (w.latch amount asset) := by
  unfold World.latch
  apply Silent.emit
  exact ⟨rfl, rfl, rfl⟩

theorem commitValueCaps_silent {asset received} {w w' : World}
    (ran : commitValueCaps asset received w = .ok w') : Silent w w' := by
  unfold commitValueCaps at ran
  split at ran
  · simp only [bind_ok, pure_ok] at ran
    obtain ⟨_, -, rfl⟩ := ran
    exact ⟨rfl, rfl, rfl⟩
  · cases ran
    exact ⟨rfl, rfl, rfl⟩

/-- What is left after paying `amount` back to the sender. -/
def World.sendBack (w : World) (c : Context) (amount : Nat) : World :=
  if 0 < amount then
    { w with
      balance := w.balance - amount + (c.acceptsNative w.trace c.sender amount).getD 0
      trace := w.trace ++ [.pay c.sender amount] }
  else w

theorem refundSender_ok {c : Context} {amount} {w w' : World} :
    refundSender c amount w = .ok w' ↔
      (0 < amount → amount ≤ w.balance ∧ c.sender ≠ c.this ∧
        (c.acceptsNative w.trace c.sender amount).isSome) ∧
        w' = w.sendBack c amount := by
  unfold refundSender World.sendBack
  split
  · rename_i positive
    simp only [expect_ok, callWithValue_some, positive, true_implies]
  · rename_i zero
    rw [pure_ok]
    exact ⟨fun same => ⟨fun positive => absurd positive zero, same.symm⟩, fun both => both.2.symm⟩

/-- What the sender forces into the contract while `amount` is paid back. -/
def World.forced (w : World) (c : Context) (amount : Nat) : Nat :=
  if 0 < amount then (c.acceptsNative w.trace c.sender amount).getD 0 else 0

theorem World.sendBack_balance (w : World) (c : Context) (amount : Nat) :
    (w.sendBack c amount).balance = w.balance - amount + w.forced c amount := by
  unfold World.sendBack World.forced
  split
  · rfl
  · omega

theorem World.sendBack_silent (w : World) (c : Context) (amount : Nat) :
    Silent w (w.sendBack c amount) := by
  unfold World.sendBack
  split
  · refine ⟨?_, rfl, ?_⟩
    · simp [World.funds, Effect.payment]
    · simp [World.sent, Effect.sent]
  · exact ⟨rfl, rfl, rfl⟩

/-- After the message has gone out for `quoted`. -/
def World.paidFee (w : World) (c : Context) (intentHash : Bytes32) (intent : Intent)
    (quoted arrived : Nat) : World :=
  { w with
    balance := w.balance - quoted + arrived
    trace := w.trace ++ [.send (fillInstructionParams c intentHash intent w) quoted c.sender] }

theorem dispatchFillInstruction_paid {c : Context} {intentHash intent} {w w' : World}
    (ran : dispatchFillInstruction c intentHash intent w = .ok w') :
    ∃ quoted arrived,
      w' = (w.paidFee c intentHash intent quoted arrived).sendBack c (c.value - quoted) := by
  simp only [dispatchFillInstruction, bind_ok, require_ok, exists_const, expect_ok] at ran
  obtain ⟨quoted, -, -, -, arrived, -, ran⟩ := ran
  exact ⟨quoted, arrived, (refundSender_ok.mp ran).2⟩

theorem dispatchFillInstruction_ok {c : Context} {intentHash intent} {w w' : World}
    (ran : dispatchFillInstruction c intentHash intent w = .ok w') :
    w'.funds = w.funds ∧ w'.core = w.core ∧
      w'.sent = w.sent ++ [fillInstructionParams c intentHash intent w] := by
  obtain ⟨quoted, arrived, rfl⟩ := dispatchFillInstruction_paid ran
  obtain ⟨funds, core, sent⟩ := World.sendBack_silent
    (w.paidFee c intentHash intent quoted arrived) c (c.value - quoted)
  refine ⟨?_, core, ?_⟩
  · rw [funds]
    simp [World.paidFee, World.funds, Effect.payment]
  · rw [sent]
    simp [World.paidFee, World.sent, Effect.sent]

end Perihelion.Escrow

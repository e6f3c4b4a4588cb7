import Perihelion.Escrow.Refund
import Perihelion.Settlement.Dispatch

/-! # The two time guards

Both contracts read one clock.  The settlement contract stops dispatching a
confirmation after `deadline + MIN_DISPATCH_WINDOW`; the escrow refunds from
`deadline + confirmationGrace` on, and the smallest grace it accepts is just as long.
Neither comparison is strict against the other, so at the smallest grace they share
one second.
-/

namespace Perihelion.Bridge

open Fallible Transition

/-- The settlement contract sends a FillConfirmed about `h` in this invocation. -/
def Dispatches (d : Settlement.Deployment) (tx : Settlement.Tx) (h : Bytes32)
    (s : Settlement.World) : Prop :=
  ((∃ caller lzFee, tx.call = .dispatchConfirmation caller h lzFee) ∨
      ∃ solver solverEvm fillAmount lzFee,
        tx.call = .fillIntent solver solverEvm h fillAmount lzFee) ∧
    ∃ s', Settlement.next d s tx = some s'

/-- The escrow refunds the lock `h` in this transaction. -/
def Refunds (d : Escrow.Deployment) (tx : Escrow.Tx) (h : Bytes32) (e : Escrow.World) : Prop :=
  tx.call = .cancelExpired h ∧ ∃ e', Escrow.next d e (.tx tx) = some e'

/-- At no instant, whoever calls and whatever tokens and endpoints reply, would both succeed. -/
def NoOverlap (dS : Settlement.Deployment) (dE : Escrow.Deployment) (h : Bytes32)
    (s : Settlement.World) (e : Escrow.World) : Prop :=
  ∀ txS txE, txS.timestamp = txE.timestamp →
    ¬ (Dispatches dS txS h s ∧ Refunds dE txE h e)

/-- The state in which the two guards meet. -/
structure Meets (dE : Escrow.Deployment) (h : Bytes32) (record : Settlement.IntentRecord)
    (s : Settlement.World) (e : Escrow.World) : Prop where
  filled : record.status = .filled
  grace : e.confirmationGrace = Escrow.minConfirmationGrace
  fits : record.deadline + Settlement.minDispatchWindow < uint64
  settlementClock : s.timestamp ≤ record.deadline + Settlement.minDispatchWindow
  escrowClock : e.timestamp ≤ record.deadline + Settlement.minDispatchWindow
  /-- A token can be at the address. -/
  asset : (e.locks h).asset ≠ 0 ∧ (e.locks h).asset ≠ dE.this

/-- When the escrow refunds: the guards that depend on the clock and the asset. -/
theorem Refunds.late {d : Escrow.Deployment} {tx : Escrow.Tx} {h : Bytes32} {e : Escrow.World}
    (refunds : Refunds d tx h e) : e.timestamp ≤ tx.timestamp ∧
      (e.locks h).deadline + e.confirmationGrace ≤ tx.timestamp ∧
      (e.locks h).asset ≠ 0 ∧ (e.locks h).asset ≠ d.this := by
  obtain ⟨call, e', stepped⟩ := refunds
  obtain ⟨clock, ran⟩ := Escrow.next_tx.mp stepped
  have called := (Escrow.exec_ok.mp ran).2
  rw [call] at called
  obtain ⟨-, settles, -, late, -⟩ := Escrow.cancelExpired_ok.mp called
  obtain ⟨code, other, -⟩ := settles.accepted
  refine ⟨clock, late, ?_, other⟩
  intro zero
  have code : (tx.context d).codeAt (e.locks h).asset = true := code
  have own : (0 : Escrow.Address) = d.this := by
    simpa [Escrow.Context.codeAt, zero, Escrow.Tx.context] using code
  exact other (zero.trans own)

/-- When the settlement contract dispatches: in time for a filled intent, and well before
    the deadline for one that is filled by the same call. -/
theorem Dispatches.window {d : Settlement.Deployment} {tx : Settlement.Tx} {h : Bytes32}
    {s : Settlement.World} (dispatches : Dispatches d tx h s) {record : Settlement.IntentRecord}
    (found : s.intent h = some record) :
    s.timestamp ≤ tx.timestamp ∧ tx.timestamp < uint64 ∧
      ((record.status = .filled ∧
          tx.timestamp ≤ addSaturating uint64 record.deadline Settlement.minDispatchWindow) ∨
        addSaturating uint64 tx.timestamp Settlement.minDispatchWindow ≤ record.deadline) := by
  obtain ⟨kind, s', stepped⟩ := dispatches
  obtain ⟨⟨clock, bounded, -⟩, ran⟩ := Settlement.next_ok.mp stepped
  refine ⟨clock, bounded, ?_⟩
  have entered : (s.enter tx).intent h = some record := found
  unfold Settlement.exec at ran
  rcases kind with ⟨caller, lzFee, call⟩ | ⟨solver, solverEvm, fillAmount, lzFee, call⟩
  · rw [call] at ran
    obtain ⟨record', found', filled, inTime⟩ := Settlement.dispatchConfirmation_ok ran
    obtain rfl : record' = record := Option.some.inj (found'.symm.trans entered)
    exact Or.inl ⟨filled, inTime⟩
  · rw [call] at ran
    obtain ⟨record', -, found', fillable⟩ := Settlement.fillIntent_ok ran
    obtain rfl : record' = record := Option.some.inj (found'.symm.trans entered)
    exact Or.inr fillable.early

/-- Surroundings in which every call succeeds that the contracts themselves allow. -/
def obligingSettlement : Settlement.Host where
  authorized _ := true
  transfer _ _ _ _ := true
  quote _ _ := some 0
  send _ _ _ _ := true

def obligingEscrow : Escrow.Host where
  hasCode _ := true
  isValidSignature _ _ _ := none
  transfer _ _ _ := some []
  transferFrom _ _ amount := some ([], amount)
  quote _ _ := some 0
  send _ _ _ := some 0
  acceptsNative _ _ _ := some 0

theorem obligingSettlement_obliging : Settlement.Obliging obligingSettlement 0 where
  authorized _ := rfl
  transfer _ _ _ _ := rfl
  quote _ _ := ⟨0, rfl, Int.le_refl _⟩
  send _ _ _ _ := rfl

/-- In the second `deadline + 1800` both calls succeed. -/
theorem Meets.overlap {dS : Settlement.Deployment} {dE : Escrow.Deployment}
    {s : Settlement.World} {e : Escrow.World} (reachS : (Settlement.system dS).Reachable s)
    (reachE : (Escrow.system dE).Reachable e) {h : Bytes32} {record : Settlement.IntentRecord}
    (found : s.intent h = some record) (recorded : (e.locks h).user ≠ 0)
    (live : (e.locks h).finalized = false) (deadline : record.deadline = (e.locks h).deadline)
    (meets : Meets dE h record s e) : ∃ txS txE, txS.timestamp = txE.timestamp ∧
      Dispatches dS txS h s ∧ Refunds dE txE h e := by
  let now := record.deadline + Settlement.minDispatchWindow
  let txS : Settlement.Tx := {
    timestamp := now
    sequence := s.sequence
    host := obligingSettlement
    call := .dispatchConfirmation (.account 0) h 0 }
  let txE : Escrow.Tx := {
    sender := 0
    value := 0
    timestamp := now
    host := obligingEscrow
    call := .cancelExpired h }
  have sequence := (Settlement.connected_of_reachable reachS).ledger.2
  have fits := meets.fits
  have inTime : now ≤ addSaturating uint64 record.deadline Settlement.minDispatchWindow := by
    unfold addSaturating
    omega
  obtain ⟨s', dispatched⟩ := @Settlement.dispatchConfirmation_available dS s reachS h record found
    meets.filled txS _ _ rfl inTime sequence obligingSettlement_obliging
  have late : (e.locks h).deadline + e.confirmationGrace ≤ now := by
    rw [meets.grace, ← deadline]
    exact Nat.le_refl _
  have code : (txE.context dE).codeAt (e.locks h).asset = true := by
    have nonzero : ((e.locks h).asset != 0) = true := bne_iff_ne.mpr meets.asset.1
    simp only [Escrow.Context.codeAt, nonzero, Bool.true_and, Bool.or_eq_true]
    exact Or.inr rfl
  obtain ⟨e', refunded, -⟩ := @Escrow.cancelExpired_of_late dE e reachE h recorded live txE rfl rfl
    late ⟨code, meets.asset.2, [], rfl, rfl⟩
  refine ⟨txS, txE, rfl, ⟨Or.inl ⟨_, _, rfl⟩, s', ?_⟩, rfl, e', ?_⟩
  · exact Settlement.next_ok.mpr
      ⟨⟨meets.settlementClock, meets.fits, Nat.le_refl _, sequence⟩, dispatched⟩
  · exact Escrow.next_tx.mpr ⟨meets.escrowClock, refunded⟩

/-- For a record and an open lock of one intent, the two guards are disjoint unless they
    meet in the second `deadline + 1800`. -/
theorem noOverlap_iff {dS : Settlement.Deployment} {dE : Escrow.Deployment}
    {s : Settlement.World} {e : Escrow.World} (reachS : (Settlement.system dS).Reachable s)
    (reachE : (Escrow.system dE).Reachable e) {h : Bytes32} {record : Settlement.IntentRecord}
    (found : s.intent h = some record) (recorded : (e.locks h).user ≠ 0)
    (live : (e.locks h).finalized = false) (deadline : record.deadline = (e.locks h).deadline) :
    NoOverlap dS dE h s e ↔ ¬ Meets dE h record s e := by
  have graceMin := (Escrow.steady_of_reachable reachE).graceMin
  have bounded := Escrow.deadline_lt reachE h
  constructor
  · intro disjoint meets
    obtain ⟨txS, txE, same, both⟩ := meets.overlap reachS reachE found recorded live deadline
    exact disjoint txS txE same both
  · intro apart txS txE same both
    obtain ⟨dispatches, refunds⟩ := both
    obtain ⟨escrowClock, late, asset⟩ := refunds.late
    obtain ⟨settlementClock, inside, window⟩ := dispatches.window found
    unfold addSaturating Settlement.minDispatchWindow uint64 at window
    unfold uint64 at inside bounded
    unfold Escrow.minConfirmationGrace at graceMin
    rcases window with ⟨filled, inTime⟩ | early
    · refine apart ⟨filled, ?_, ?_, ?_, ?_, asset⟩
      · unfold Escrow.minConfirmationGrace
        omega
      · unfold Settlement.minDispatchWindow uint64
        omega
      · unfold Settlement.minDispatchWindow
        omega
      · unfold Settlement.minDispatchWindow
        omega
    · omega

namespace Sample

/-- The escrow's run with the smallest grace the owner may set. -/
def graceTx : Escrow.Tx :=
  Escrow.Sample.tx Escrow.Sample.owner 0 1700000100 (.setConfirmationGrace 1800)

def locked : Escrow.World :=
  (Escrow.replay Escrow.Sample.deployment Escrow.Sample.locked [.tx graceTx]).get
    (by decide +kernel)

/-- Both at 1700011800, which is `deadline + 1800`. -/
def dispatchTx : Settlement.Tx :=
  Settlement.Sample.tx 1700011800 1300
    (.dispatchConfirmation Settlement.Sample.admin Settlement.Sample.intentHash 5)

def refundTx : Escrow.Tx :=
  Escrow.Sample.tx 0xB0B 0 1700011800 (.cancelExpired Escrow.Sample.intentHash)

theorem locked_reachable : (Escrow.system Escrow.Sample.deployment).Reachable locked :=
  Escrow.Sample.locked_reachable.later (Escrow.later_of_replay
    (show Escrow.replay Escrow.Sample.deployment Escrow.Sample.locked [.tx graceTx] = some locked by
      simp [locked]))

end Sample

/-- At the default grace of two hours the sample intent is safe, filled as it is. -/
theorem noOverlap_iff_sample :
    NoOverlap Settlement.Sample.deployment Escrow.Sample.deployment Escrow.Sample.intentHash
      Settlement.Sample.delivered Escrow.Sample.locked := by
  have found : ∃ record, Settlement.Sample.delivered.intent Escrow.Sample.intentHash = some record ∧
      record.deadline = (Escrow.Sample.locked.locks Escrow.Sample.intentHash).deadline := by
    refine ⟨(Settlement.Sample.delivered.intent Escrow.Sample.intentHash).get (by decide +kernel),
      by simp, by decide +kernel⟩
  obtain ⟨record, found, deadline⟩ := found
  refine (noOverlap_iff Settlement.Sample.delivered_reachable Escrow.Sample.locked_reachable found
    (by decide +kernel) (by decide +kernel) deadline).mpr ?_
  intro meets
  exact absurd meets.grace (by decide +kernel)

/-- The FillInstruction of the lock is the one the settlement contract registered, a
    solver has delivered, and at `deadline + 1800` both the confirmation can be
    dispatched and the user be refunded. -/
theorem guards_overlap :
    (Escrow.system Escrow.Sample.deployment).Reachable Sample.locked ∧
      (Settlement.system Settlement.Sample.deployment).Reachable Settlement.Sample.delivered ∧
      Sample.locked.sent.map Escrow.MessagingParams.message = [Settlement.Sample.fillInstruction] ∧
      ¬ NoOverlap Settlement.Sample.deployment Escrow.Sample.deployment Escrow.Sample.intentHash
        Settlement.Sample.delivered Sample.locked := by
  refine ⟨Sample.locked_reachable, Settlement.Sample.delivered_reachable, by decide +kernel, ?_⟩
  intro disjoint
  have dispatched : (Settlement.next Settlement.Sample.deployment Settlement.Sample.delivered
      Sample.dispatchTx).isSome = true := by
    decide +kernel
  have refunded : (Escrow.next Escrow.Sample.deployment Sample.locked
      (.tx Sample.refundTx)).isSome = true := by
    decide +kernel
  refine disjoint Sample.dispatchTx Sample.refundTx rfl
    ⟨⟨Or.inl ⟨_, _, rfl⟩, ?_⟩, rfl, ?_⟩
  · exact Option.isSome_iff_exists.mp dispatched
  · exact Option.isSome_iff_exists.mp refunded

end Perihelion.Bridge

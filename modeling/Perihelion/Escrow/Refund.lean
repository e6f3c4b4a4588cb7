import Perihelion.Escrow.Solvency

/-! # The local refund is always available

Once the longest admissible grace has passed, nothing the owner or anybody else has
done can keep an open lock from being refunded: the grace is bounded, the sentinel
is down between calls, and the liability and the balance cover the amount.
-/

namespace Perihelion.Escrow

open BigEndian Fallible Transition

theorem open_funds {d : Deployment} {w : World} (reach : (system d).Reachable w)
    {intentHash : Bytes32} (recorded : (w.locks intentHash).user ≠ 0)
    (live : (w.locks intentHash).finalized = false) : w.funds.Open intentHash where
  locked := recorded
  live := live
  owed := open_owed reach recorded live
  held := (open_owed reach recorded live).trans ((book_sound reach).covered _)

/-- From `deadline + confirmationGrace` on, with the grace that is set. -/
theorem cancelExpired_of_late {d : Deployment} {w : World} (reach : (system d).Reachable w)
    {intentHash : Bytes32} (recorded : (w.locks intentHash).user ≠ 0)
    (live : (w.locks intentHash).finalized = false) {tx : Tx}
    (call : tx.call = .cancelExpired intentHash) (noValue : tx.value = 0)
    (late : (w.locks intentHash).deadline + w.confirmationGrace ≤ tx.timestamp)
    (accepted : TransferAccepted (tx.context d) (w.locks intentHash).asset
      (w.locks intentHash).user (w.locks intentHash).amount) :
    ∃ w', exec d tx w = .ok w' ∧
      w'.locks = Function.update w.locks intentHash (w.locks intentHash).refund ∧
      w'.funds.payments = w.funds.payments ++
        [⟨.refund intentHash, (w.locks intentHash).asset, (w.locks intentHash).user,
          (w.locks intentHash).amount⟩] := by
  have steady := steady_of_reachable reach
  have settles : Settles (tx.context d) intentHash (w.locks intentHash).user (w.enter tx) :=
    ⟨open_funds reach recorded live, accepted⟩
  have deadline := deadline_lt reach intentHash
  have grace := steady.graceMax
  have room : uint64 + maxConfirmationGrace < uint256 := by decide
  have fits : (w.locks intentHash).deadline + w.confirmationGrace < uint256 := by omega
  have ran := (@cancelExpired_ok (tx.context d) intentHash (w.enter tx) _).mpr
    ⟨steady.idle, settles, fits, late, rfl⟩
  have done := (@exec_ok d tx w _).mpr
    ⟨Or.inl noValue, (congrArg (Call.run (tx.context d) (w.enter tx)) call).trans ran⟩
  have funds := World.settled_funds (w.enter tx) (tx.context d) (.refund intentHash) intentHash
    Lock.refund (w.locks intentHash).user
  rw [← World.emit_funds] at funds
  exact ⟨_, done, rfl, congrArg Funds.payments funds⟩

/-- After `deadline + MAX_CONFIRMATION_GRACE` anybody can have the lock refunded in
    full, provided the token accepts the transfer. -/
theorem cancelExpired_available {d : Deployment} {w : World} (reach : (system d).Reachable w)
    {intentHash : Bytes32} (recorded : (w.locks intentHash).user ≠ 0)
    (unreleased : (w.locks intentHash).released = false)
    (unrefunded : (w.locks intentHash).refunded = false) {tx : Tx}
    (call : tx.call = .cancelExpired intentHash) (noValue : tx.value = 0)
    (late : (w.locks intentHash).deadline + maxConfirmationGrace ≤ tx.timestamp)
    (accepted : TransferAccepted (tx.context d) (w.locks intentHash).asset
      (w.locks intentHash).user (w.locks intentHash).amount) :
    ∃ w', exec d tx w = .ok w' ∧
      w'.locks = Function.update w.locks intentHash (w.locks intentHash).refund ∧
      w'.funds.payments = w.funds.payments ++
        [⟨.refund intentHash, (w.locks intentHash).asset, (w.locks intentHash).user,
          (w.locks intentHash).amount⟩] := by
  have live : (w.locks intentHash).finalized = false := by
    simp [Lock.finalized, unreleased, unrefunded]
  have grace := (steady_of_reachable reach).graceMax
  exact cancelExpired_of_late reach recorded live call noValue (by omega) accepted

def Sample.lateTx : Tx := Sample.tx 0xB0B 0 1700614800 (.cancelExpired Sample.intentHash)

theorem cancelExpired_available_sample :
    ∃ w', exec Sample.deployment Sample.lateTx Sample.locked = .ok w' ∧
      w'.locks = Function.update Sample.locked.locks Sample.intentHash
        (Sample.locked.locks Sample.intentHash).refund ∧
      w'.funds.payments = Sample.locked.funds.payments ++
        [⟨.refund Sample.intentHash, (Sample.locked.locks Sample.intentHash).asset,
          (Sample.locked.locks Sample.intentHash).user,
          (Sample.locked.locks Sample.intentHash).amount⟩] :=
  cancelExpired_available Sample.locked_reachable (by decide +kernel) (by decide +kernel)
    (by decide +kernel) rfl rfl (by decide +kernel)
    ⟨by decide +kernel, by decide +kernel, encode 32 1, rfl, by decide +kernel⟩

end Perihelion.Escrow

import Perihelion.Settlement.Dispatch

/-! # The exits stay open

An intent that nobody filled can be cancelled from its deadline on, and one that was filled can
be confirmed until half an hour after it.  No pause, cap or earlier call of the admin's closes
either way.
-/

namespace Perihelion.Settlement

open BigEndian Fallible Transition

theorem cancelExpiredIntent_served {d : Deployment} {w : World}
    (reach : (system d).Reachable w) {h : Bytes32} {record : IntentRecord}
    (found : w.intent h = some record) (locked : record.status = .locked) {tx : Tx} {caller lzFee}
    (call : tx.call = .cancelExpiredIntent caller h lzFee)
    (late : record.deadline ≤ tx.timestamp) (authorized : tx.host.authorized caller = true)
    (carries : Carries tx.host w caller record.srcEid
      (encodeCancelIntent record.intentHash cancelReasonExpired) lzFee)
    (funded : Funded (tx.context d) w caller (w.keeperReward.getD 0)) :
    ∃ w', exec d tx w = .ok w' ∧ w'.intent h = some { record with status := .cancelled } := by
  have connected := connected_of_reachable reach
  have view := (stage_of_reachable reach h).of_locked found locked
  have unsettled : (w.enter tx).settled h = false := congrArg IntentView.settled view
  have uncancelled : (w.enter tx).cancelled h = false := congrArg IntentView.cancelled view
  have entered : Carries (tx.context d).toHost
      { w.enter tx with
        intent := Function.update w.intent h (some { record with status := .cancelled })
        cancelled := Function.update w.cancelled h true } caller record.srcEid
      (encodeCancelIntent record.intentHash cancelReasonExpired) lzFee :=
    ⟨carries.quote, carries.send⟩
  obtain ⟨endpoint, params, sending⟩ := entered.dispatch connected.endpoint
    (connected.peer h record found)
  have reward : Funded (tx.context d)
      (World.log { w.enter tx with
        intent := Function.update w.intent h (some { record with status := .cancelled })
        cancelled := Function.update w.cancelled h true } (.send endpoint params caller lzFee))
      caller (w.keeperReward.getD 0) := funded
  obtain ⟨rewarded, rewarding⟩ := reward.pays (.cancelReward h) h true
  have paid := payKeeperReward_silent (fun h => by simp) rewarding
  have written : rewarded.intent h = some { record with status := .cancelled } :=
    (congrArg IntentView.record (paid.view h)).trans (Function.update_self _ _ _)
  refine ⟨rewarded.publish (.cancelled h record.srcEid record.deadline), ?_, written⟩
  simp only [exec, call, Call.run, cancelExpiredIntent, requireAuth, bind_ok, require_ok,
    exists_const, expect_ok, sendCancel, pure_ok]
  exact ⟨authorized, by simpa using uncancelled, by simpa using unsettled, record, found, locked,
    late, _, sending, rewarded, rewarding, rfl⟩

/-- The ledger of a transaction is no earlier than that of the state. -/
structure Tx.Later (tx : Tx) (w : World) : Prop where
  timestamp : w.timestamp ≤ tx.timestamp ∧ tx.timestamp < uint64
  sequence : w.sequence ≤ tx.sequence ∧ tx.sequence < 2 ^ 32

/-- No registered intent is ever stranded. -/
theorem exits_open {d : Deployment} {w : World} (reach : (system d).Reachable w) {h : Bytes32}
    {record : IntentRecord} (found : w.intent h = some record) {tx : Tx} (later : tx.Later w)
    {caller : Address} (authorized : tx.host.authorized caller = true) (lzFee : I128) :
    (record.status = .locked → record.deadline ≤ tx.timestamp →
      tx.call = .cancelExpiredIntent caller h lzFee →
      Carries tx.host w caller record.srcEid
        (encodeCancelIntent record.intentHash cancelReasonExpired) lzFee →
      Funded (tx.context d) w caller (w.keeperReward.getD 0) →
      ∃ w', next d w tx = some w' ∧ w'.intent h = some { record with status := .cancelled }) ∧
    (record.status = .filled → tx.timestamp ≤ record.deadline + minDispatchWindow →
      tx.call = .dispatchConfirmation caller h lzFee →
      (∀ solver solverEvm, record.solver = some solver → record.solverEvm = some solverEvm →
        Carries tx.host w solver record.srcEid
          (encodeFillConfirmed record.intentHash solverEvm record.fillAmount record.fillLedger)
          lzFee) →
      Funded (tx.context d) w caller (w.dispatchKeeperReward.getD 0) →
      ∃ w', next d w tx = some w' ∧
        w'.intent h = some { record with status := .confirmationSent }) := by
  have ledger := And.intro later.timestamp.1 (And.intro later.timestamp.2 later.sequence)
  constructor
  · intro locked late call carries funded
    obtain ⟨w', ran, written⟩ := cancelExpiredIntent_served reach found locked call late authorized
      carries funded
    exact ⟨w', next_ok.mpr ⟨ledger, ran⟩, written⟩
  · intro filled inTime call carries funded
    have saturated : tx.timestamp ≤ addSaturating uint64 record.deadline minDispatchWindow := by
      have clock := later.timestamp.2
      unfold addSaturating
      omega
    obtain ⟨w', ran, written⟩ := dispatchConfirmation_served reach found filled call saturated
      later.sequence.2 authorized carries funded
    exact ⟨w', next_ok.mpr ⟨ledger, ran⟩, written⟩

namespace Sample

def cancelTx : Tx := tx 1700010000 1300 (.cancelExpiredIntent admin intentHash 5)

theorem carries (w : World) (payer : Address) (srcEid : Eid) (message : Bytes) :
    Carries host w payer srcEid message 5 :=
  ⟨fun _ _ _ _ => ⟨5, rfl, by decide⟩, fun _ _ _ _ => rfl⟩

end Sample

/-- The admin confirms the delivered sample intent, or cancels it at its deadline where nobody
    has filled it. -/
theorem exits_open_sample :
    (∃ w', next Sample.deployment Sample.delivered Sample.dispatchTx = some w' ∧
      (w'.intent Sample.intentHash).map IntentRecord.status = some .confirmationSent) ∧
    ∃ w', next Sample.deployment Sample.registered Sample.cancelTx = some w' ∧
      (w'.intent Sample.intentHash).map IntentRecord.status = some .cancelled := by
  constructor
  · have recorded : (Sample.delivered.intent Sample.intentHash).map
        (fun record => (record.status, record.deadline)) = some (.filled, 1700010000) := by
      decide +kernel
    obtain ⟨record, found, same⟩ := Option.map_eq_some_iff.mp recorded
    obtain ⟨filled, deadline⟩ := Prod.mk.inj same
    obtain ⟨w', ran, written⟩ := (@exits_open Sample.deployment Sample.delivered
      Sample.delivered_reachable Sample.intentHash record found Sample.dispatchTx
      ⟨by decide +kernel, by decide +kernel⟩ Sample.admin rfl 5).2 filled (by rw [deadline]; decide) rfl
      (fun _ _ _ _ => Sample.carries _ _ _ _) (fun _ _ _ => rfl)
    exact ⟨w', ran, by rw [written]; rfl⟩
  · have recorded : (Sample.registered.intent Sample.intentHash).map
        (fun record => (record.status, record.deadline)) = some (.locked, 1700010000) := by
      decide +kernel
    obtain ⟨record, found, same⟩ := Option.map_eq_some_iff.mp recorded
    obtain ⟨locked, deadline⟩ := Prod.mk.inj same
    obtain ⟨w', ran, written⟩ := (@exits_open Sample.deployment Sample.registered
      Sample.registered_reachable Sample.intentHash record found Sample.cancelTx
      ⟨by decide +kernel, by decide +kernel⟩ Sample.admin rfl 5).1 locked (by rw [deadline]; decide) rfl
      (Sample.carries _ _ _ _) (fun _ _ _ => rfl)
    exact ⟨w', ran, by rw [written]; rfl⟩

end Perihelion.Settlement

import Perihelion.Settlement.Exits

/-! # Where an excess fee returns

The endpoint returns what a message did not need to the address that came with it.  A fill and a
cancellation name the caller, who signed for the fee; a confirmation names the solver of the
intent, whoever called.
-/

namespace Perihelion.Settlement

open BigEndian Fallible Transition

/-- The address that a message left with the endpoint for its excess fee. -/
def Entry.refund (entry : Entry) : Option Address :=
  match entry.effect with
  | .send _ _ refundAddress _ => some refundAddress
  | _ => none

def World.refunds (w : World) : List Address := w.trace.filterMap Entry.refund

/-- Who signs a call that sends a message, and pays for it. -/
def Call.feePayer : Call → Option Address
  | .fillIntent solver _ _ _ _ => some solver
  | .dispatchConfirmation caller _ _ => some caller
  | .cancelExpiredIntent caller _ _ => some caller
  | _ => none

/-- Not a confirmation that somebody other than the intent's solver pushes through. -/
def Call.sendsOwn (w : World) : Call → Prop
  | .dispatchConfirmation caller intentHash _ =>
      (w.intent intentHash).bind IntentRecord.solver = some caller
  | _ => True

/-! ## What is logged -/

theorem World.refunds_log (w : World) (effect : Effect) :
    (w.log effect).refunds = w.refunds ++ (Entry.refund ⟨w.timestamp, w.sequence, effect⟩).toList := by
  unfold World.refunds World.log
  rw [List.filterMap_append]
  cases logged : Entry.refund ⟨w.timestamp, w.sequence, effect⟩ with
  | none => simp [logged]
  | some refundAddress => simp [logged]

@[simp] theorem World.refunds_publish (w : World) (event : Event) :
    (w.publish event).refunds = w.refunds :=
  (w.refunds_log _).trans (List.append_nil _)

@[simp] theorem World.refunds_transfer (w : World) (purpose token sender receiver amount) :
    (w.log (.transfer purpose token sender receiver amount)).refunds = w.refunds :=
  (w.refunds_log _).trans (List.append_nil _)

section

variable {c : Context} {w w' : World}

theorem payKeeperReward_refunds {purpose intentHash caller reward eligible}
    (ran : payKeeperReward c purpose intentHash caller reward eligible w = .ok w') :
    w'.refunds = w.refunds := by
  unfold payKeeperReward at ran
  split at ran
  · split at ran
    · simp only [bind_ok, transfer_ok, pure_ok] at ran
      obtain ⟨_, ⟨-, rfl⟩, rfl⟩ := ran
      simp
    · cases ran
      simp
  · cases ran
    rfl

theorem dispatch_refunds {payer dstEid message lzFee}
    (ran : dispatch c payer dstEid message lzFee w = .ok w') : w'.refunds = w.refunds ++ [payer] := by
  obtain ⟨endpoint, receiver, -, rfl⟩ := dispatch_sends ran
  exact w.refunds_log _

theorem updateSolverReputation_refunds {solver latency}
    (ran : updateSolverReputation solver latency w = .ok w') : w'.refunds = w.refunds := by
  obtain ⟨rep, rfl, -⟩ := updateSolverReputation_ok ran
  rfl

theorem fillIntent_refunds {solver solverEvm intentHash fillAmount lzFee}
    (ran : fillIntent c solver solverEvm intentHash fillAmount lzFee w = .ok w') :
    w'.refunds = w.refunds ++ [solver] := by
  simp only [fillIntent, requireAuth, requireNotPaused, bind_ok, require_ok, exists_const,
    transfer_ok, sendFillConfirmed, pure_ok] at ran
  obtain ⟨-, -, record, -, _, ⟨-, rfl⟩, sent, sending, marked, marking, rfl⟩ := ran
  have reputed := updateSolverReputation_refunds marking
  have paid := dispatch_refunds sending
  rw [World.refunds_transfer] at paid
  rw [World.refunds_publish, World.refunds_publish]
  exact reputed.trans paid

theorem cancelExpiredIntent_refunds {caller intentHash lzFee}
    (ran : cancelExpiredIntent c caller intentHash lzFee w = .ok w') :
    w'.refunds = w.refunds ++ [caller] := by
  simp only [cancelExpiredIntent, requireAuth, bind_ok, require_ok, exists_const, expect_ok,
    sendCancel, pure_ok] at ran
  obtain ⟨-, -, -, record, -, -, -, sent, sending, rewarded, rewarding, rfl⟩ := ran
  have paid := dispatch_refunds sending
  rw [World.refunds_publish, payKeeperReward_refunds rewarding]
  exact paid

/-- The confirmation returns its excess to the solver on record. -/
theorem dispatchConfirmation_refunds {caller intentHash lzFee}
    (ran : dispatchConfirmation c caller intentHash lzFee w = .ok w') :
    ∃ solver, (w.intent intentHash).bind IntentRecord.solver = some solver ∧
      w'.refunds = w.refunds ++ [solver] := by
  simp only [dispatchConfirmation, requireAuth, bind_ok, require_ok, exists_const, expect_ok,
    sendFillConfirmed, pure_ok] at ran
  obtain ⟨-, -, record, found, -, -, solver, bySolver, solverEvm, -, sent, sending, marked, marking,
    rewarded, rewarding, rfl⟩ := ran
  have reputed := updateSolverReputation_refunds marking
  have paid := dispatch_refunds sending
  refine ⟨solver, by rw [found]; exact bySolver, ?_⟩
  rw [World.refunds_publish, payKeeperReward_refunds rewarding]
  exact reputed.trans paid

end

/-- A call that sends a message names its own payer for the excess fee, unless it confirms
    another solver's fill. -/
theorem refunds_payer_iff {d : Deployment} {w w' : World} {tx : Tx} {payer : Address}
    (signs : tx.call.feePayer = some payer) (step : next d w tx = some w') :
    w'.refunds = w.refunds ++ [payer] ↔ tx.call.sendsOwn w := by
  obtain ⟨-, ran⟩ := next_ok.mp step
  unfold exec at ran
  generalize tx.call = call at signs ran
  cases call with
  | fillIntent solver solverEvm intentHash fillAmount lzFee =>
      obtain rfl := Option.some.inj signs
      have named : w'.refunds = (w.enter tx).refunds ++ [solver] := fillIntent_refunds ran
      exact iff_of_true named trivial
  | cancelExpiredIntent caller intentHash lzFee =>
      obtain rfl := Option.some.inj signs
      have named : w'.refunds = (w.enter tx).refunds ++ [caller] := cancelExpiredIntent_refunds ran
      exact iff_of_true named trivial
  | dispatchConfirmation caller intentHash lzFee =>
      obtain rfl := Option.some.inj signs
      obtain ⟨solver, bySolver, named⟩ := dispatchConfirmation_refunds ran
      have named : w'.refunds = w.refunds ++ [solver] := named
      have bySolver : (w.intent intentHash).bind IntentRecord.solver = some solver := bySolver
      rw [named, Call.sendsOwn, bySolver, Option.some.injEq, List.append_cancel_left_eq,
        List.singleton_inj]
  | _ => cases signs

/-- The sample intent is cancelled, and the excess returns to who paid. -/
theorem refunds_payer_sample :
    ∃ w', next Sample.deployment Sample.registered Sample.cancelTx = some w' ∧
      w'.refunds = Sample.registered.refunds ++ [Sample.admin] := by
  have runs : (next Sample.deployment Sample.registered Sample.cancelTx).isSome = true := by
    decide +kernel
  obtain ⟨w', step⟩ := Option.isSome_iff_exists.mp runs
  exact ⟨w', step, (@refunds_payer_iff _ _ _ _ Sample.admin rfl step).mpr trivial⟩

/-- The admin pays for the confirmation of the sample intent, and its solver gets the excess. -/
theorem refunds_solver :
    Sample.dispatchTx.call.feePayer = some Sample.admin ∧
    Sample.dispatchTx.host.authorized Sample.admin = true ∧
    replay Sample.deployment Sample.delivered [Sample.dispatchTx] = some Sample.dispatched ∧
    (Sample.delivered.refunds, Sample.dispatched.refunds) = ([], [Sample.solver]) ∧
    Sample.solver ≠ Sample.admin := by
  refine ⟨rfl, rfl, by simp [Sample.dispatched], by decide +kernel, by decide⟩

end Perihelion.Settlement

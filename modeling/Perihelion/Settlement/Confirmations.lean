import Perihelion.Settlement.Outbound
import Perihelion.Settlement.Sent

/-! # When a confirmation is sent

`fill_intent` and `dispatch_confirmation` alone set the marker, each for its own intent and
in time.  The entry that hands the message to the endpoint carries the time of that call.
-/

namespace Perihelion.Settlement

open BigEndian Fallible Transition

/-- The calls that end in a FillConfirmed about `h`. -/
def Call.confirms (h : Bytes32) : Call → Prop
  | .dispatchConfirmation _ intentHash _ => intentHash = h
  | .fillIntent _ _ intentHash _ _ => intentHash = h
  | _ => False

theorem confirmationSent_of_view {w w' : World} (same : ∀ h, w'.view h = w.view h) :
    w'.confirmationSent = w.confirmationSent :=
  funext fun h => congrArg IntentView.confirmationSent (same h)

theorem onCancelInbound_confirmationSent (eid : Eid) (ci : CancelInstruction) (w : World) :
    (onCancelInbound eid ci w).confirmationSent = w.confirmationSent := by
  unfold onCancelInbound
  split
  · rfl
  · split
    · rfl
    · split <;> rfl

theorem applyInbound_confirmationSent {origin message} {w w' : World}
    (ran : applyInbound origin message w = .ok w') :
    w'.confirmationSent = w.confirmationSent := by
  cases message with
  | fillInstruction fi =>
      obtain ⟨-, v, accepted, handled⟩ := applyInbound_fill.mp ran
      rw [← confirmationSent_of_view (acceptNonce_silent accepted).view]
      cases onFillInstruction_arrival handled with
      | known => rfl
      | refused _ _ _ _ caps => exact confirmationSent_of_view (enforceValueCaps_silent caps).view
      | registered u _ _ _ caps =>
          have same : u.confirmationSent = v.confirmationSent :=
            confirmationSent_of_view (enforceValueCaps_silent caps).view
          exact same
  | cancel ci =>
      obtain ⟨v, accepted, rfl⟩ := applyInbound_cancel.mp ran
      rw [onCancelInbound_confirmationSent]
      exact confirmationSent_of_view (acceptNonce_silent accepted).view

theorem updateSolverReputation_confirmationSent {solver latency} {w w' : World}
    (ran : updateSolverReputation solver latency w = .ok w') :
    w'.confirmationSent = w.confirmationSent := by
  obtain ⟨rep, rfl, -⟩ := updateSolverReputation_ok ran
  rfl

theorem dispatch_confirmationSent {c : Context} {payer dstEid message lzFee} {w w' : World}
    (ran : dispatch c payer dstEid message lzFee w = .ok w') :
    w'.confirmationSent = w.confirmationSent := by
  obtain ⟨endpoint, receiver, -, rfl⟩ := dispatch_sends ran
  rfl

/-- The marker of an intent changes by a call that confirms this intent. -/
theorem exec_confirmationSent {d : Deployment} {tx : Tx} {w w' : World}
    (ran : exec d tx w = .ok w') (h : Bytes32) :
    w'.confirmationSent h = w.confirmationSent h ∨ tx.call.confirms h := by
  have entered : (w.enter tx).confirmationSent = w.confirmationSent := rfl
  unfold exec at ran
  rw [← entered]
  cases call : tx.call with
  | lzReceiveBytes origin message =>
      rw [call] at ran
      simp only [Call.run, lzReceiveBytes, bind_ok] at ran
      obtain ⟨_, -, parsed, -, applied⟩ := ran
      exact Or.inl (congrFun (applyInbound_confirmationSent applied) h)
  | lzReceive origin message =>
      rw [call] at ran
      simp only [Call.run, lzReceive, bind_ok] at ran
      obtain ⟨_, -, applied⟩ := ran
      exact Or.inl (congrFun (applyInbound_confirmationSent applied) h)
  | deliverIntent solver solverEvm intentHash fillAmount =>
      rw [call] at ran
      obtain ⟨record, -, -, -, rfl⟩ := deliverIntent_ok ran
      exact Or.inl rfl
  | dispatchConfirmation caller intentHash lzFee =>
      by_cases here : intentHash = h
      · exact Or.inr here
      · rw [call] at ran
        simp only [Call.run, dispatchConfirmation, requireAuth, bind_ok, require_ok, exists_const,
          expect_ok, sendFillConfirmed, pure_ok] at ran
        obtain ⟨-, -, record, -, -, -, solver, -, solverEvm, -, sent, sending, marked, marking,
          rewarded, rewarding, rfl⟩ := ran
        have paid := payKeeperReward_silent (fun h => by simp) rewarding
        have same : rewarded.confirmationSent h = sent.confirmationSent h := by
          rw [confirmationSent_of_view paid.view, updateSolverReputation_confirmationSent marking]
          exact Function.update_of_ne (Ne.symm here) _ _
        exact Or.inl (same.trans (congrFun (dispatch_confirmationSent sending) h))
  | fillIntent solver solverEvm intentHash fillAmount lzFee =>
      by_cases here : intentHash = h
      · exact Or.inr here
      · rw [call] at ran
        simp only [Call.run, fillIntent, requireAuth, requireNotPaused, bind_ok, require_ok,
          exists_const, transfer_ok, sendFillConfirmed, pure_ok] at ran
        obtain ⟨-, -, record, -, _, ⟨-, rfl⟩, sent, sending, marked, marking, rfl⟩ := ran
        have same : marked.confirmationSent h = sent.confirmationSent h := by
          rw [updateSolverReputation_confirmationSent marking]
          exact Function.update_of_ne (Ne.symm here) _ _
        exact Or.inl (same.trans (congrFun (dispatch_confirmationSent sending) h))
  | cancelExpiredIntent caller intentHash lzFee =>
      rw [call] at ran
      simp only [Call.run, cancelExpiredIntent, requireAuth, bind_ok, require_ok, exists_const,
        expect_ok, sendCancel, pure_ok] at ran
      obtain ⟨-, -, -, record, -, -, -, sent, sending, rewarded, rewarding, rfl⟩ := ran
      have paid := payKeeperReward_silent (fun h => by simp) rewarding
      have same : rewarded.confirmationSent = sent.confirmationSent :=
        confirmationSent_of_view paid.view
      exact Or.inl (congrFun (same.trans (dispatch_confirmationSent sending)) h)
  | _ =>
      have frame := Call.run_admin (by rw [call]; rfl) ran
      exact Or.inl (congrFun (confirmationSent_of_view frame.view) h)

/-- A call that confirms an intent comes in time for the record that was there before. -/
theorem exec_confirms_inTime {d : Deployment} {tx : Tx} {w w' : World} {h : Bytes32}
    (ran : exec d tx w = .ok w') (confirms : tx.call.confirms h) (clock : tx.timestamp < uint64) :
    ∃ record, w.intent h = some record ∧ tx.timestamp ≤ record.deadline + minDispatchWindow := by
  unfold exec at ran
  cases call : tx.call with
  | dispatchConfirmation caller intentHash lzFee =>
      rw [call] at ran confirms
      obtain rfl : intentHash = h := confirms
      obtain ⟨record, found, -, inTime⟩ := dispatchConfirmation_ok ran
      refine ⟨record, found, ?_⟩
      have inTime : tx.timestamp ≤ addSaturating uint64 record.deadline minDispatchWindow := inTime
      unfold addSaturating at inTime
      omega
  | fillIntent solver solverEvm intentHash fillAmount lzFee =>
      rw [call] at ran confirms
      obtain rfl : intentHash = h := confirms
      obtain ⟨record, -, found, fillable⟩ := fillIntent_ok ran
      refine ⟨record, found, ?_⟩
      have early : addSaturating uint64 tx.timestamp minDispatchWindow ≤ record.deadline :=
        fillable.early
      unfold addSaturating at early
      omega
  | _ =>
      rw [call] at confirms
      cases confirms

/-- What a move adds to the history carries the time of the move. -/
theorem IntentView.Step.fresh {h o v v'} (step : IntentView.Step h o v v') :
    ∃ fresh, v'.history = v.history ++ fresh ∧ ∀ entry ∈ fresh, entry.timestamp = o.timestamp := by
  induction step with
  | same | registered | tombstoned | recalled => exact ⟨[], (List.append_nil _).symm, by simp⟩
  | delivered | dispatched | expired =>
      refine ⟨_, rfl, ?_⟩
      intro entry member
      obtain rfl := List.mem_singleton.mp member
      rfl
  | both v middle v' first second ihFirst ihSecond =>
      obtain ⟨before, grown, early⟩ := ihFirst
      obtain ⟨after, grown', late⟩ := ihSecond
      refine ⟨before ++ after, by rw [grown', grown, List.append_assoc], ?_⟩
      intro entry member
      rcases List.mem_append.mp member with member | member
      · exact early entry member
      · exact late entry member

end Perihelion.Settlement

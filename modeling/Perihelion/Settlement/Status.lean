import Perihelion.Settlement.Steps

/-! # The status only advances

An intent that is unknown may be registered or cancelled, a locked one filled or cancelled, a
filled one confirmed.  Nothing leads back.
-/

namespace Perihelion.Settlement

open BigEndian Fallible Transition

/-- The status of an intent, read off its entries. -/
def IntentView.status (v : IntentView) : Option IntentStatus :=
  if v.confirmationSent then some .confirmationSent
  else if v.settled then some .filled
  else if v.cancelled then some .cancelled
  else v.record.map IntentRecord.status

theorem status_view (w : World) (h : Bytes32) : status w h = (w.view h).status := rfl

/-- `some` later status may follow on another. -/
def Advances : Option IntentStatus → Option IntentStatus → Prop
  | none, _ => True
  | some .locked, later => later ≠ none
  | some .filled, later => later = some .filled ∨ later = some .confirmationSent
  | some .confirmationSent, later => later = some .confirmationSent
  | some .cancelled, later => later = some .cancelled

namespace Advances

variable {a b c : Option IntentStatus}

@[refl] theorem refl (a : Option IntentStatus) : Advances a a := by
  cases a with
  | none => trivial
  | some status => cases status <;> simp [Advances]

theorem trans (first : Advances a b) (second : Advances b c) : Advances a c := by
  cases a with
  | none => trivial
  | some status =>
      cases status with
      | locked =>
          rintro rfl
          cases b with
          | none => exact first rfl
          | some status => cases status <;> simp [Advances] at second
      | filled =>
          rcases first with rfl | rfl
          · exact second
          · exact .inr second
      | confirmationSent | cancelled =>
          obtain rfl := first
          exact second

end Advances

theorem IntentView.Step.advances {h : Bytes32} {o : Occasion} {v v' : IntentView}
    (step : IntentView.Step h o v v') (named : IntentView.Named h v) (stage : Stage h v) :
    Advances v.status v'.status := by
  induction step with
  | same => exact .refl _
  | registered v eid fi arrives matching live absent =>
      rw [stage.of_absent live absent]
      trivial
  | tombstoned v live absent =>
      rw [stage.of_absent live absent]
      trivial
  | recalled v record live found locked | expired v record _ _ _ _ live found locked =>
      rw [stage.of_locked found locked]
      simp [IntentView.status, IntentView.append, locked, Advances]
  | delivered v record solver solverEvm fillAmount live found fillable =>
      rw [stage.of_locked found fillable.locked]
      simp [IntentView.status, IntentView.append, fillable.locked, Advances]
  | dispatched v record solver solverEvm endpoint receiver payer lzFee found filled =>
      obtain ⟨delivery, solver', solverEvm', delivers, rfl⟩ := stage.of_filled found filled
      simp [IntentView.status, IntentView.append, Advances]
  | both v middle v' first second ihFirst ihSecond =>
      exact (ihFirst named stage).trans (ihSecond (first.named named) (stage.step first named))

theorem status_advances {d : Deployment} {w w' : World} (reach : (system d).Reachable w)
    (later : (system d).Later w w') (h : Bytes32) : Advances (status w h) (status w' h) := by
  refine System.Later.relates (S := system d) (R := fun w w' => Advances (status w h) (status w' h))
    ?_ ?_ ?_ reach later
  · intro w
    exact .refl _
  · intro w w' w'' first second
    exact first.trans second
  · intro w tx w' reach stepped
    exact (exec_step (named_of_reachable reach) (next_ok.mp stepped).2 h).advances
      (named_of_reachable reach h) (stage_of_reachable reach h)

/-! ## Messages for an intent that is known -/

/-- The message that a transaction hands in. -/
def Tx.message (d : Deployment) (tx : Tx) (w : World) : Option LzMessage :=
  match tx.call with
  | .lzReceiveBytes _ message => (parseMessage (tx.context d) message (w.enter tx)).toOption
  | .lzReceive _ message => some message
  | _ => none

theorem exec_message {d : Deployment} {tx : Tx} {w w' : World} {message : LzMessage}
    (hands : tx.message d w = some message) (ran : exec d tx w = .ok w') :
    ∃ origin, applyInbound origin message (w.enter tx) = .ok w' := by
  unfold Tx.message at hands
  cases call : tx.call with
  | lzReceiveBytes origin bytes =>
      simp only [call] at hands
      simp only [exec, call, Call.run, lzReceiveBytes, bind_ok] at ran
      obtain ⟨_, -, parsed, read, applied⟩ := ran
      rw [read] at hands
      cases hands
      exact ⟨origin, applied⟩
  | lzReceive origin typed =>
      rw [call] at hands
      cases hands
      simp only [exec, call, Call.run, lzReceive, bind_ok] at ran
      obtain ⟨_, -, applied⟩ := ran
      exact ⟨origin, applied⟩
  | _ =>
      rw [call] at hands
      cases hands

theorem acceptNonce_view {eid nonce} {w w' : World} (accepted : acceptNonce eid nonce w = .ok w')
    (h : Bytes32) : w'.view h = w.view h := by
  simp only [acceptNonce, bind_ok, require_ok, exists_const, pure_ok] at accepted
  obtain ⟨-, -, -, rfl⟩ := accepted
  rfl

theorem isFinalized_view {w w' : World} {h : Bytes32} (same : w'.view h = w.view h) :
    isFinalized w' h = isFinalized w h := by
  show ((w'.view h).settled || (w'.view h).cancelled) = ((w.view h).settled || (w.view h).cancelled)
  rw [same]

theorem isFinalized_of_cancelled {w : World} {h : Bytes32} (stage : Stage h (w.view h))
    (cancelled : status w h = some .cancelled) : isFinalized w h = true := by
  rw [status_view] at cancelled
  show (w.view h).finalized = true
  generalize w.view h = v at stage cancelled
  cases stage with
  | unknown => cases cancelled
  | locked record status =>
      simp [IntentView.status, status] at cancelled
  | tombstone | filled | confirmed | recalled | expired => rfl

/-- A FillInstruction for an intent with a status changes nothing about any intent. -/
theorem known_fill_ignored {origin fi} {w w' : World} (stage : Stage fi.intentHash (w.view fi.intentHash))
    (known : status w fi.intentHash ≠ none)
    (ran : applyInbound origin (.fillInstruction fi) w = .ok w') (h : Bytes32) :
    w'.view h = w.view h := by
  obtain ⟨-, v, accepted, handled⟩ := applyInbound_fill.mp ran
  have same := acceptNonce_view accepted
  have unknown (live : isFinalized v fi.intentHash = false) (absent : v.intent fi.intentHash = none) :
      False := by
    rw [isFinalized_view (same _)] at live
    have absent : (w.view fi.intentHash).record = none :=
      (congrArg IntentView.record (same fi.intentHash)).symm.trans absent
    have empty := stage.of_absent live absent
    rw [status_view, empty] at known
    exact known rfl
  cases onFillInstruction_arrival handled with
  | known => exact same h
  | refused _ live absent | registered _ live absent => exact (unknown live absent).elim

/-- A CancelIntent for a finalized intent changes nothing about any intent. -/
theorem final_cancel_ignored {origin ci} {w w' : World}
    (final : isFinalized w ci.intentHash = true)
    (ran : applyInbound origin (.cancel ci) w = .ok w') (h : Bytes32) : w'.view h = w.view h := by
  obtain ⟨v, accepted, rfl⟩ := applyInbound_cancel.mp ran
  have same := acceptNonce_view accepted
  have still := (isFinalized_view (same ci.intentHash)).trans final
  rw [onCancelInbound, if_pos still, World.view_publish]
  exact same h

end Perihelion.Settlement

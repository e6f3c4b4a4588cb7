import Perihelion.Settlement.Lifecycle
import Perihelion.Settlement.Machine

/-! # Every invocation is a move of one intent

The settlement contract simulates the life of each intent.  One lemma for each
helper says what it leaves alone; the entrypoints that touch an intent are then read
off as moves, and all others are silent.
-/

namespace Perihelion.Settlement

open BigEndian Fallible Transition

def World.view (w : World) (h : Bytes32) : IntentView where
  record := w.intent h
  settled := w.settled h
  cancelled := w.cancelled h
  confirmationSent := w.confirmationSent h
  history := w.trace.filter fun entry => entry.effect.concerns h

/-- What besides the intents decides whether a confirmation can be sent. -/
structure Core where
  endpoint : Option Address
  peer : Eid → Option Bytes32
  solverReputation : Address → Option SolverReputationRecord
  timestamp : Nat
  sequence : Nat

def World.core (w : World) : Core where
  endpoint := w.endpoint
  peer := w.peer
  solverReputation := w.solverReputation
  timestamp := w.timestamp
  sequence := w.sequence

/-- No intent moved, nothing about one happened. -/
structure Silent (w w' : World) : Prop where
  view : ∀ h, w'.view h = w.view h
  core : w'.core = w.core

theorem Silent.refl (w : World) : Silent w w := ⟨fun _ => rfl, rfl⟩

/-! ## One lemma for each helper -/

theorem World.view_log (w : World) (effect : Effect) (h : Bytes32) :
    (w.log effect).view h =
      if effect.concerns h then
        { w.view h with history := (w.view h).history ++ [⟨w.timestamp, w.sequence, effect⟩] }
      else w.view h := by
  unfold World.view World.log
  cases about : effect.concerns h <;> simp [about]

theorem Silent.log {w v : World} {effect : Effect} (quiet : ∀ h, effect.concerns h = false)
    (silent : Silent w v) : Silent w (v.log effect) where
  view h := by
    rw [World.view_log, quiet h]
    exact silent.view h
  core := silent.core

theorem Silent.publish {w v : World} (event : Event) (silent : Silent w v) :
    Silent w (v.publish event) :=
  silent.log fun _ => rfl

theorem transfer_ok {c : Context} {purpose token sender receiver amount} {w w' : World} :
    transfer c purpose token sender receiver amount w = .ok w' ↔
      c.transfer token sender receiver amount = true ∧
        w.log (.transfer purpose token sender receiver amount) = w' := by
  simp only [transfer, bind_ok, require_ok, exists_const, pure_ok]

theorem dispatch_ok {c : Context} {payer dstEid message lzFee} {w w' : World} :
    dispatch c payer dstEid message lzFee w = .ok w' ↔
      ∃ receiver endpoint required, w.peer dstEid = some receiver ∧ w.endpoint = some endpoint ∧
        c.quote endpoint (outboundParams dstEid receiver message) = some required ∧
        required.toInt ≤ lzFee.toInt ∧
        c.send endpoint (outboundParams dstEid receiver message) payer lzFee = true ∧
        w.log (.send endpoint (outboundParams dstEid receiver message) payer lzFee) = w' := by
  simp only [dispatch, requireEndpoint, bind_ok, require_ok, exists_const, expect_ok, pure_ok]
  constructor
  · intro given
    obtain ⟨receiver, peer, endpoint, configured, required, quoted, paid, sent, done⟩ := given
    exact ⟨receiver, endpoint, required, peer, configured, quoted, paid, sent, done⟩
  · intro given
    obtain ⟨receiver, endpoint, required, peer, configured, quoted, paid, sent, done⟩ := given
    exact ⟨receiver, peer, endpoint, configured, required, quoted, paid, sent, done⟩

theorem payKeeperReward_silent {c : Context} {purpose intentHash caller reward eligible}
    {w w' : World} (quiet : ∀ h, purpose ≠ .fill h)
    (ran : payKeeperReward c purpose intentHash caller reward eligible w = .ok w') :
    Silent w w' := by
  unfold payKeeperReward at ran
  split at ran
  · split at ran
    · simp only [bind_ok, transfer_ok, pure_ok] at ran
      obtain ⟨_, ⟨-, rfl⟩, rfl⟩ := ran
      apply Silent.publish
      refine (Silent.refl w).log ?_
      intro h
      cases purpose with
      | fill intentHash => exact absurd rfl (quiet intentHash)
      | dispatchReward | cancelReward => rfl
    · cases ran
      exact (Silent.refl w).publish _
  · cases ran
    exact Silent.refl w

theorem updateSolverReputation_ok {solver latency} {w w' : World}
    (ran : updateSolverReputation solver latency w = .ok w') :
    ∃ rep, w' = { w with solverReputation := Function.update w.solverReputation solver (some rep) } ∧
      ewma ((w.solverReputation solver).getD ⟨0, 0, 0⟩).ewmaLatency latency = .ok rep.ewmaLatency := by
  simp only [updateSolverReputation, bind_ok, pure_ok] at ran
  obtain ⟨latency, averaged, rfl⟩ := ran
  exact ⟨_, rfl, averaged⟩

theorem validateAndStageFill_ok {solver solverEvm intentHash fillAmount} {w : World}
    {record : IntentRecord} :
    validateAndStageFill solver solverEvm intentHash fillAmount w = .ok record ↔
      isFinalized w intentHash = false ∧ w.intent intentHash = some record ∧
        Fillable record solver solverEvm fillAmount w.timestamp := by
  simp only [validateAndStageFill, bind_ok, require_ok, exists_const, expect_ok, pure_ok,
    Bool.not_eq_true, Option.all_eq_true, decide_eq_true_eq]
  constructor
  · intro given
    obtain ⟨wellFormed, live, _, found, locked, early, preferred, exclusive, positive, enough,
      rfl⟩ := given
    exact ⟨live, found, wellFormed, locked, early, preferred, exclusive, positive, enough⟩
  · intro given
    obtain ⟨live, found, wellFormed, locked, early, preferred, exclusive, positive, enough⟩ := given
    exact ⟨wellFormed, live, record, found, locked, early, preferred, exclusive, positive, enough,
      rfl⟩

theorem acceptNonce_silent {eid nonce} {w w' : World} (ran : acceptNonce eid nonce w = .ok w') :
    Silent w w' := by
  simp only [acceptNonce, bind_ok, require_ok, exists_const, pure_ok] at ran
  obtain ⟨-, -, -, rfl⟩ := ran
  exact ⟨fun _ => rfl, rfl⟩

theorem World.advanceWindow_silent (w : World) (windowStart : Nat) :
    Silent w (w.advanceWindow windowStart) := by
  unfold World.advanceWindow
  dsimp only
  split
  · exact ⟨fun _ => rfl, rfl⟩
  · exact Silent.refl w

theorem enforceValueCaps_silent {amount} {w w' : World} {admitted}
    (ran : enforceValueCaps amount w = .ok (w', admitted)) : Silent w w' := by
  simp only [enforceValueCaps, bind_ok, require_ok, exists_const] at ran
  obtain ⟨-, ran⟩ := ran
  split at ran
  · simp only [bind_ok, require_ok, exists_const] at ran
    obtain ⟨-, accumulated, -, ran⟩ := ran
    have window := w.advanceWindow_silent
      (w.timestamp / w.rollingWindowDuration.getD 0 * w.rollingWindowDuration.getD 0)
    split at ran
    · simp only [bind_ok, pure_ok, Prod.mk.injEq] at ran
      obtain ⟨_, -, rfl, rfl⟩ := ran
      exact Silent.publish _ ⟨window.view, window.core⟩
    · simp only [pure_ok, Prod.mk.injEq] at ran
      obtain ⟨rfl, rfl⟩ := ran
      exact ⟨window.view, window.core⟩
  · simp only [pure_ok, Prod.mk.injEq] at ran
    obtain ⟨rfl, rfl⟩ := ran
    exact Silent.refl w

/-! ## The entrypoints that touch an intent -/

def World.occasion (w : World) (arrival : Option (Eid × FillInstruction)) (filling : Bool) :
    Occasion where
  timestamp := w.timestamp
  sequence := w.sequence
  peer := w.peer
  arrival := arrival
  filling := filling

/-- Intent `h` makes the move to `v`, and no other intent moves. -/
theorem step_of_touch {o : Occasion} {w w' : World} (intentHash : Bytes32)
    (others : ∀ h, h ≠ intentHash → w'.view h = w.view h)
    (step : IntentView.Step intentHash o (w.view intentHash) (w'.view intentHash)) (h : Bytes32) :
    IntentView.Step h o (w.view h) (w'.view h) := by
  by_cases same : h = intentHash
  · subst same
    exact step
  · rw [others h same]
    exact .same _

theorem Silent.step {o : Occasion} {w w' : World} (silent : Silent w w') (h : Bytes32) :
    IntentView.Step h o (w.view h) (w'.view h) := by
  rw [silent.view h]
  exact .same _

def World.Named (w : World) : Prop := ∀ h, (w.view h).Named h

@[simp] theorem World.view_publish (w : World) (event : Event) (h : Bytes32) :
    (w.publish event).view h = w.view h :=
  (Silent.publish event (Silent.refl w)).view h

theorem applyInbound_fill {origin fi} {w w' : World} :
    applyInbound origin (.fillInstruction fi) w = .ok w' ↔
      requireEidNotPaused origin.srcEid w = .ok () ∧ ∃ v,
        acceptNonce origin.srcEid origin.nonce w = .ok v ∧
          onFillInstruction origin.srcEid fi v = .ok w' := by
  simp only [applyInbound, bind_ok]
  constructor
  · intro given
    obtain ⟨_, unpaused, rest⟩ := given
    exact ⟨unpaused, rest⟩
  · intro given
    exact ⟨(), given⟩

theorem applyInbound_cancel {origin ci} {w w' : World} :
    applyInbound origin (.cancel ci) w = .ok w' ↔
      ∃ v, acceptNonce origin.srcEid origin.nonce w = .ok v ∧
        onCancelInbound origin.srcEid ci v = w' := by
  simp only [applyInbound, bind_ok, pure_ok]

/-- What a FillInstruction does: a known intent stays as it is, of a new one the amount is
    charged, and it is registered if the caps admit it. -/
inductive FillArrival (eid : Eid) (fi : FillInstruction) (w : World) : World → Prop
  | known (seen : isFinalized w fi.intentHash = true ∨ (w.intent fi.intentHash).isSome = true) :
      FillArrival eid fi w w
  | refused (v) (live : isFinalized w fi.intentHash = false) (absent : w.intent fi.intentHash = none)
      (positive : 0 < fi.minDestAmount.toInt)
      (caps : enforceValueCaps fi.minDestAmount w = .ok (v, false)) : FillArrival eid fi w v
  | registered (v) (live : isFinalized w fi.intentHash = false)
      (absent : w.intent fi.intentHash = none) (positive : 0 < fi.minDestAmount.toInt)
      (caps : enforceValueCaps fi.minDestAmount w = .ok (v, true)) :
      FillArrival eid fi w
        (World.publish
          { v with
            intent := Function.update v.intent fi.intentHash (some (fi.record eid v.timestamp)) }
          (.registered fi.intentHash eid fi.deadline))

theorem onFillInstruction_arrival {eid fi} {w w' : World} (ran : onFillInstruction eid fi w = .ok w') :
    FillArrival eid fi w w' := by
  unfold onFillInstruction at ran
  split at ran
  · rename_i seen
    cases ran
    exact .known seen
  · rename_i fresh
    obtain ⟨live, absent⟩ := not_or.mp fresh
    have live := Bool.eq_false_of_not_eq_true live
    have absent := Option.not_isSome_iff_eq_none.mp absent
    simp only [bind_ok, require_ok, exists_const, Prod.exists] at ran
    obtain ⟨positive, -, -, v, admitted, caps, ran⟩ := ran
    cases admitted with
    | true =>
        cases ran
        exact .registered v live absent positive caps
    | false =>
        cases ran
        exact .refused w' live absent positive caps

theorem onFillInstruction_step {eid fi filling} {w w' : World} (ran : onFillInstruction eid fi w = .ok w')
    (h : Bytes32) :
    IntentView.Step h (w.occasion (some (eid, fi)) filling) (w.view h) (w'.view h) := by
  cases onFillInstruction_arrival ran with
  | known => exact .same _
  | refused _ _ _ _ caps => exact (enforceValueCaps_silent caps).step h
  | registered v live absent _ caps =>
      have silent := enforceValueCaps_silent caps
      apply step_of_touch fi.intentHash
      · intro other different
        rw [World.view_publish, ← silent.view other]
        simp [World.view, different]
      · have clock : v.timestamp = w.timestamp := congrArg Core.timestamp silent.core
        have registered : World.view { v with
            intent := Function.update v.intent fi.intentHash (some (fi.record eid v.timestamp)) }
            fi.intentHash =
              { w.view fi.intentHash with record := some (fi.record eid w.timestamp) } := by
          rw [← silent.view, clock]
          simp [World.view]
        rw [World.view_publish, registered]
        exact .registered _ eid fi rfl rfl live absent

theorem onCancelInbound_step {o : Occasion} (eid : Eid) (ci : CancelInstruction) (w : World)
    (h : Bytes32) : IntentView.Step h o (w.view h) ((onCancelInbound eid ci w).view h) := by
  unfold onCancelInbound
  split
  · rw [World.view_publish]
    exact .same _
  · rename_i live
    split
    · rename_i absent
      apply step_of_touch ci.intentHash
      · intro other different
        rw [World.view_publish]
        simp [World.view, different]
      · have tombstoned : World.view
            { w with cancelled := Function.update w.cancelled ci.intentHash true } ci.intentHash =
              { w.view ci.intentHash with cancelled := true } := by
          simp [World.view]
        rw [World.view_publish, tombstoned]
        exact .tombstoned _ (Bool.eq_false_of_not_eq_true live) absent
    · rename_i record found
      split
      · rename_i locked
        apply step_of_touch ci.intentHash
        · intro other different
          rw [World.view_publish]
          simp [World.view, different]
        · have recalled : World.view
              { w with
                intent := Function.update w.intent ci.intentHash
                  (some { record with status := .cancelled })
                cancelled := Function.update w.cancelled ci.intentHash true } ci.intentHash =
                { w.view ci.intentHash with
                  record := some { record with status := .cancelled }
                  cancelled := true } := by
            simp [World.view]
          rw [World.view_publish, recalled]
          exact .recalled _ record (Bool.eq_false_of_not_eq_true live) found locked
      · rw [World.view_publish]
        exact .same _

theorem deliverIntent_ok {c : Context} {solver solverEvm intentHash fillAmount} {w w' : World}
    (ran : deliverIntent c solver solverEvm intentHash fillAmount w = .ok w') :
    ∃ record, isFinalized w intentHash = false ∧ w.intent intentHash = some record ∧
      Fillable record solver solverEvm fillAmount w.timestamp ∧
      w' = (World.log
        { w with
          intent := Function.update w.intent intentHash
            (some (record.fill solver solverEvm fillAmount w.sequence))
          settled := Function.update w.settled intentHash true }
        (.transfer (.fill intentHash) record.destAsset solver record.recipient fillAmount)).publish
        (.filled intentHash solver record.destAsset fillAmount record.srcEid) := by
  simp only [deliverIntent, requireAuth, requireNotPaused, bind_ok, require_ok, exists_const,
    validateAndStageFill_ok, transfer_ok, pure_ok] at ran
  obtain ⟨-, -, record, ⟨live, found, fillable⟩, _, ⟨-, rfl⟩, rfl⟩ := ran
  exact ⟨record, live, found, fillable, rfl⟩

theorem deliverIntent_step {c : Context} {solver solverEvm intentHash fillAmount arrival}
    {w w' : World} (ran : deliverIntent c solver solverEvm intentHash fillAmount w = .ok w')
    (h : Bytes32) : IntentView.Step h (w.occasion arrival true) (w.view h) (w'.view h) := by
  obtain ⟨record, live, found, fillable, rfl⟩ := deliverIntent_ok ran
  apply step_of_touch intentHash
  · intro other different
    rw [World.view_publish, World.view_log]
    simp [World.view, Effect.concerns, different, different.symm]
  · have delivered : (World.log
        { w with
          intent := Function.update w.intent intentHash
            (some (record.fill solver solverEvm fillAmount w.sequence))
          settled := Function.update w.settled intentHash true }
        (.transfer (.fill intentHash) record.destAsset solver record.recipient fillAmount)).view
          intentHash =
        IntentView.append
          { w.view intentHash with
            record := some (record.fill solver solverEvm fillAmount w.sequence)
            settled := true }
          (w.occasion arrival true)
          (.transfer (.fill intentHash) record.destAsset solver record.recipient fillAmount) := by
      rw [World.view_log]
      simp [World.view, Effect.concerns, IntentView.append, World.occasion]
    rw [World.view_publish, delivered]
    exact .delivered _ record solver solverEvm fillAmount live found fillable rfl

theorem dispatch_sends {c : Context} {payer dstEid message lzFee} {w w' : World}
    (ran : dispatch c payer dstEid message lzFee w = .ok w') :
    ∃ endpoint receiver, w.peer dstEid = some receiver ∧
      w' = w.log (.send endpoint (outboundParams dstEid receiver message) payer lzFee) := by
  obtain ⟨receiver, endpoint, _, peer, -, -, -, -, logged⟩ := dispatch_ok.mp ran
  exact ⟨endpoint, receiver, peer, logged.symm⟩

theorem dispatchConfirmation_ok {c : Context} {caller intentHash lzFee} {w w' : World}
    (ran : dispatchConfirmation c caller intentHash lzFee w = .ok w') :
    ∃ record, w.intent intentHash = some record ∧ record.status = .filled ∧
      w.timestamp ≤ addSaturating uint64 record.deadline minDispatchWindow := by
  simp only [dispatchConfirmation, requireAuth, bind_ok, require_ok, exists_const, expect_ok] at ran
  obtain ⟨-, -, record, found, filled, inTime, -⟩ := ran
  exact ⟨record, found, filled, inTime⟩

theorem dispatchConfirmation_step {c : Context} {caller intentHash lzFee arrival filling} {w w' : World}
    (named : w.Named) (ran : dispatchConfirmation c caller intentHash lzFee w = .ok w')
    (h : Bytes32) : IntentView.Step h (w.occasion arrival filling) (w.view h) (w'.view h) := by
  simp only [dispatchConfirmation, requireAuth, bind_ok, require_ok, exists_const, expect_ok,
    sendFillConfirmed, pure_ok] at ran
  obtain ⟨-, -, record, found, filled, -, solver, bySolver, solverEvm, forSolver, sent, sending,
    marked, marking, rewarded, rewarding, rfl⟩ := ran
  obtain ⟨endpoint, receiver, addressed, rfl⟩ := dispatch_sends sending
  obtain ⟨rep, rfl, -⟩ := updateSolverReputation_ok marking
  have paid := payKeeperReward_silent (fun h => by simp) rewarding
  have matching : record.intentHash = intentHash := named intentHash record found
  apply step_of_touch intentHash
  · intro other different
    rw [World.view_publish, paid.view]
    simp [World.view, World.log, Effect.concerns, outboundParams, different, different.symm,
      matching]
  · have dispatched : rewarded.view intentHash = IntentView.append
        { w.view intentHash with
          record := some { record with status := .confirmationSent }
          confirmationSent := true }
        (w.occasion arrival filling)
        (.send endpoint (outboundParams record.srcEid receiver
          (encodeFillConfirmed record.intentHash solverEvm record.fillAmount record.fillLedger))
          solver lzFee) := by
      rw [paid.view]
      simp [World.view, World.log, Effect.concerns, outboundParams, matching, IntentView.append,
        World.occasion]
    rw [World.view_publish, dispatched]
    exact .dispatched _ record solver solverEvm endpoint receiver _ lzFee found filled bySolver
      forSolver addressed

theorem fillIntent_ok {c : Context} {solver solverEvm intentHash fillAmount lzFee} {w w' : World}
    (ran : fillIntent c solver solverEvm intentHash fillAmount lzFee w = .ok w') :
    ∃ record, isFinalized w intentHash = false ∧ w.intent intentHash = some record ∧
      Fillable record solver solverEvm fillAmount w.timestamp := by
  simp only [fillIntent, bind_ok, validateAndStageFill_ok] at ran
  obtain ⟨_, -, _, -, record, staged, -⟩ := ran
  exact ⟨record, staged⟩

theorem fillIntent_step {c : Context} {solver solverEvm intentHash fillAmount lzFee arrival}
    {w w' : World} (named : w.Named)
    (ran : fillIntent c solver solverEvm intentHash fillAmount lzFee w = .ok w') (h : Bytes32) :
    IntentView.Step h (w.occasion arrival true) (w.view h) (w'.view h) := by
  simp only [fillIntent, requireAuth, requireNotPaused, bind_ok, require_ok, exists_const,
    validateAndStageFill_ok, transfer_ok, sendFillConfirmed, pure_ok] at ran
  obtain ⟨-, -, record, ⟨live, found, fillable⟩, _, ⟨-, rfl⟩, sent, sending, marked, marking,
    rfl⟩ := ran
  obtain ⟨endpoint, receiver, addressed, rfl⟩ := dispatch_sends sending
  obtain ⟨rep, rfl, -⟩ := updateSolverReputation_ok marking
  have matching : record.intentHash = intentHash := named intentHash record found
  apply step_of_touch intentHash
  · intro other different
    rw [World.view_publish, World.view_publish]
    simp [World.view, World.log, Effect.concerns, outboundParams, IntentRecord.fill, different,
      different.symm, matching]
  · have delivered := @IntentView.Step.delivered intentHash (w.occasion arrival true) (w.view intentHash)
      record solver solverEvm fillAmount live found fillable rfl
    have completed := IntentView.Step.both _ _ _ delivered
      (.dispatched _ (record.fill solver solverEvm fillAmount w.sequence) solver solverEvm endpoint
        receiver solver lzFee rfl rfl rfl rfl addressed)
    convert completed using 1
    rw [World.view_publish, World.view_publish]
    simp [World.view, World.log, Effect.concerns, outboundParams, IntentRecord.fill, matching,
      IntentView.append, World.occasion]

theorem cancelExpiredIntent_step {c : Context} {caller intentHash lzFee arrival filling} {w w' : World}
    (named : w.Named) (ran : cancelExpiredIntent c caller intentHash lzFee w = .ok w')
    (h : Bytes32) : IntentView.Step h (w.occasion arrival filling) (w.view h) (w'.view h) := by
  simp only [cancelExpiredIntent, requireAuth, bind_ok, require_ok, exists_const, expect_ok,
    sendCancel, pure_ok] at ran
  obtain ⟨-, uncancelled, unsettled, record, found, locked, late, sent, sending, rewarded,
    rewarding, rfl⟩ := ran
  obtain ⟨endpoint, receiver, addressed, rfl⟩ := dispatch_sends sending
  have paid := payKeeperReward_silent (fun h => by simp) rewarding
  have matching : record.intentHash = intentHash := named intentHash record found
  have live : (w.view intentHash).finalized = false := by
    simpa [IntentView.finalized, World.view] using And.intro unsettled uncancelled
  apply step_of_touch intentHash
  · intro other different
    rw [World.view_publish, paid.view]
    simp [World.view, World.log, Effect.concerns, outboundParams, different, different.symm,
      matching]
  · have expired : rewarded.view intentHash = IntentView.append
        { w.view intentHash with
          record := some { record with status := .cancelled }
          cancelled := true }
        (w.occasion arrival filling)
        (.send endpoint (outboundParams record.srcEid receiver
          (encodeCancelIntent record.intentHash cancelReasonExpired)) caller lzFee) := by
      rw [paid.view]
      simp [World.view, World.log, Effect.concerns, outboundParams, matching, IntentView.append,
        World.occasion]
    rw [World.view_publish, expired]
    exact .expired _ record endpoint receiver _ lzFee live found locked late addressed

/-! ## Administration -/

/-- What the calls that touch no intent leave alone: peers and the endpoint may change,
    but never go away. -/
structure AdminFrame (w w' : World) : Prop where
  view : ∀ h, w'.view h = w.view h
  solverReputation : w'.solverReputation = w.solverReputation
  timestamp : w'.timestamp = w.timestamp
  sequence : w'.sequence = w.sequence
  endpoint : w.endpoint.isSome → w'.endpoint.isSome
  peer : ∀ eid, (w.peer eid).isSome → (w'.peer eid).isSome

theorem AdminFrame.publish {w v : World} (frame : AdminFrame w v) (event : Event) :
    AdminFrame w (v.publish event) where
  view h := (World.view_publish v event h).trans (frame.view h)
  solverReputation := frame.solverReputation
  timestamp := frame.timestamp
  sequence := frame.sequence
  endpoint := frame.endpoint
  peer := frame.peer

def Call.admin : Call → Bool
  | .lzReceiveBytes .. | .lzReceive .. | .deliverIntent .. | .dispatchConfirmation ..
  | .fillIntent .. | .cancelExpiredIntent .. => false
  | _ => true

theorem pruneNonceWords_silent {eid} {w w' : World} (ran : pruneNonceWords eid w = .ok w') :
    Silent w w' := by
  simp only [pruneNonceWords, requireNotPaused, bind_ok, require_ok, exists_const] at ran
  obtain ⟨-, -, ran⟩ := ran
  split at ran
  · cases ran
    apply Silent.publish
    exact ⟨fun _ => rfl, rfl⟩
  · cases ran
    exact ⟨fun _ => rfl, rfl⟩

theorem Silent.admin {w w' : World} (silent : Silent w w') : AdminFrame w w' where
  view := silent.view
  solverReputation := congrArg Core.solverReputation silent.core
  timestamp := congrArg Core.timestamp silent.core
  sequence := congrArg Core.sequence silent.core
  endpoint given := by
    rw [show w'.endpoint = w.endpoint from congrArg Core.endpoint silent.core]
    exact given
  peer eid given := by
    rw [show w'.peer = w.peer from congrArg Core.peer silent.core]
    exact given

theorem Call.run_admin {c : Context} {call : Call} {w w' : World} (admin : call.admin = true)
    (ran : call.run c w = .ok w') : AdminFrame w w' := by
  cases call with
  | cancelPendingEndpoint | cancelPendingPeer | setPaused | setPausedEid | setDestTokenAllowed
  | setNativeToken =>
      simp only [Call.run, Settlement.cancelPendingEndpoint, Settlement.cancelPendingPeer,
        Settlement.setPaused, Settlement.setPausedEid, Settlement.setDestTokenAllowed,
        Settlement.setNativeToken, bind_ok, pure_ok] at ran
      obtain ⟨-, -, rfl⟩ := ran
      apply AdminFrame.publish
      exact Silent.admin ⟨fun _ => rfl, rfl⟩
  | setKeeperReward | setDispatchKeeperReward | setMaxIntentAmount | setRollingWindowCap
  | setMaxTtl | resetRollingWindowCap =>
      simp only [Call.run, Settlement.setKeeperReward, Settlement.setDispatchKeeperReward,
        Settlement.setMaxIntentAmount, Settlement.setRollingWindowCap, Settlement.setMaxTtl,
        Settlement.resetRollingWindowCap, bind_ok, require_ok, exists_const, pure_ok] at ran
      obtain ⟨-, -, -, rfl⟩ := ran
      apply AdminFrame.publish
      exact Silent.admin ⟨fun _ => rfl, rfl⟩
  | proposeEndpoint newEndpoint =>
      simp only [Call.run, Settlement.proposeEndpoint, bind_ok, pure_ok] at ran
      obtain ⟨-, -, readyAt, -, rfl⟩ := ran
      apply AdminFrame.publish
      exact Silent.admin ⟨fun _ => rfl, rfl⟩
  | proposePeer eid newPeer delay =>
      simp only [Call.run, Settlement.proposePeer, bind_ok, require_ok, exists_const, pure_ok] at ran
      obtain ⟨-, -, -, -, readyAt, -, rfl⟩ := ran
      apply AdminFrame.publish
      exact Silent.admin ⟨fun _ => rfl, rfl⟩
  | setAdmin newAdmin =>
      simp only [Call.run, Settlement.setAdmin, bind_ok, pure_ok] at ran
      obtain ⟨current, -, -, -, rfl⟩ := ran
      apply AdminFrame.publish
      exact Silent.admin ⟨fun _ => rfl, rfl⟩
  | acceptAdmin =>
      simp only [Call.run, Settlement.acceptAdmin, bind_ok, pure_ok] at ran
      obtain ⟨pending, -, -, -, old, -, rfl⟩ := ran
      apply AdminFrame.publish
      exact Silent.admin ⟨fun _ => rfl, rfl⟩
  | setEndpoint newEndpoint =>
      simp only [Call.run, Settlement.setEndpoint, bind_ok, pure_ok] at ran
      obtain ⟨-, -, rfl⟩ := ran
      apply AdminFrame.publish
      exact ⟨fun _ => rfl, rfl, rfl, rfl, fun _ => rfl, fun _ given => given⟩
  | confirmEndpoint =>
      simp only [Call.run, Settlement.confirmEndpoint, bind_ok, require_ok, exists_const,
        pure_ok] at ran
      obtain ⟨-, -, proposed, -, _, -, _, -, -, _, -, -, _, -, -, rfl⟩ := ran
      apply AdminFrame.publish
      exact ⟨fun _ => rfl, rfl, rfl, rfl, fun _ => rfl, fun _ given => given⟩
  | confirmPeer eid =>
      simp only [Call.run, Settlement.confirmPeer, bind_ok, require_ok, exists_const,
        pure_ok] at ran
      obtain ⟨-, -, proposed, -, _, -, _, -, _, -, -, _, -, -, rfl⟩ := ran
      apply AdminFrame.publish
      refine ⟨fun _ => rfl, rfl, rfl, rfl, fun given => given, ?_⟩
      intro other given
      by_cases same : other = eid
      · simp [World.clearPendingPeer, same]
      · simpa [World.clearPendingPeer, same] using given
  | pruneNonceWords eid => exact (pruneNonceWords_silent ran).admin
  | lzReceiveBytes | lzReceive | deliverIntent | dispatchConfirmation | fillIntent
  | cancelExpiredIntent => cases admin

/-! ## All invocations -/

/-- Both ways for a solver to pay the recipient. -/
def Call.fills : Call → Bool
  | .deliverIntent .. | .fillIntent .. => true
  | _ => false

/-- The FillInstruction a transaction hands in. -/
def Tx.arrival (d : Deployment) (tx : Tx) (w : World) : Option (Eid × FillInstruction) :=
  match tx.call with
  | .lzReceiveBytes origin message =>
      match parseMessage (tx.context d) message (w.enter tx) with
      | .ok (.fillInstruction fi) => some (origin.srcEid, fi)
      | _ => none
  | .lzReceive origin (.fillInstruction fi) => some (origin.srcEid, fi)
  | _ => none

def Tx.occasion (d : Deployment) (tx : Tx) (w : World) : Occasion :=
  (w.enter tx).occasion (tx.arrival d w) tx.call.fills

theorem Silent.occasion {w v : World} (silent : Silent w v) (arrival filling) :
    v.occasion arrival filling = w.occasion arrival filling := by
  have timestamp : v.timestamp = w.timestamp := congrArg Core.timestamp silent.core
  have sequence : v.sequence = w.sequence := congrArg Core.sequence silent.core
  have peer : v.peer = w.peer := congrArg Core.peer silent.core
  simp only [World.occasion, timestamp, sequence, peer]

theorem applyInbound_step {origin message} {w w' : World} {arrival filling}
    (arrives : ∀ fi, message = .fillInstruction fi → arrival = some (origin.srcEid, fi))
    (ran : applyInbound origin message w = .ok w') (h : Bytes32) :
    IntentView.Step h (w.occasion arrival filling) (w.view h) (w'.view h) := by
  cases message with
  | fillInstruction fi =>
      obtain ⟨-, v, accepted, handled⟩ := applyInbound_fill.mp ran
      have silent := acceptNonce_silent accepted
      rw [← silent.view, ← silent.occasion, arrives fi rfl]
      exact onFillInstruction_step handled h
  | cancel ci =>
      obtain ⟨v, accepted, rfl⟩ := applyInbound_cancel.mp ran
      have silent := acceptNonce_silent accepted
      rw [← silent.view]
      exact onCancelInbound_step _ ci v h

theorem exec_step {d : Deployment} {tx : Tx} {w w' : World} (named : w.Named)
    (ran : exec d tx w = .ok w') (h : Bytes32) :
    IntentView.Step h (tx.occasion d w) (w.view h) (w'.view h) := by
  have entered : (w.enter tx).view h = w.view h := rfl
  have named : (w.enter tx).Named := named
  unfold exec at ran
  rw [← entered]
  cases call : tx.call with
  | lzReceiveBytes origin message =>
      rw [call] at ran
      simp only [Call.run, lzReceiveBytes, bind_ok] at ran
      obtain ⟨_, -, parsed, parsing, applied⟩ := ran
      refine applyInbound_step ?_ applied h
      intro fi same
      simp only [Tx.arrival, call, parsing, same]
  | lzReceive origin message =>
      rw [call] at ran
      simp only [Call.run, lzReceive, bind_ok] at ran
      obtain ⟨_, -, applied⟩ := ran
      refine applyInbound_step ?_ applied h
      intro fi same
      simp only [Tx.arrival, call, same]
  | deliverIntent solver solverEvm intentHash fillAmount =>
      have filling : tx.call.fills = true := by rw [call]; rfl
      rw [call] at ran
      rw [Tx.occasion, filling]
      exact deliverIntent_step ran h
  | dispatchConfirmation caller intentHash lzFee =>
      rw [call] at ran
      exact dispatchConfirmation_step named ran h
  | fillIntent solver solverEvm intentHash fillAmount lzFee =>
      have filling : tx.call.fills = true := by rw [call]; rfl
      rw [call] at ran
      rw [Tx.occasion, filling]
      exact fillIntent_step named ran h
  | cancelExpiredIntent caller intentHash lzFee =>
      rw [call] at ran
      exact cancelExpiredIntent_step named ran h
  | _ =>
      have frame := Call.run_admin (by rw [call]; rfl) ran
      rw [frame.view]
      exact .same _

theorem construct_ok {creation} {w : World} (ran : construct creation = .ok w) :
    (∀ h, w.view h = IntentView.empty) ∧ w.endpoint = some creation.endpoint ∧
      (w.solverReputation = fun _ => none) ∧ w.timestamp < uint64 ∧ w.sequence < 2 ^ 32 := by
  simp only [construct, bind_ok, require_ok, exists_const, pure_ok] at ran
  obtain ⟨-, rfl⟩ := ran
  refine ⟨?_, rfl, rfl, creation.timestamp_lt, creation.sequence_lt⟩
  intro h
  rw [World.view_publish]
  rfl

theorem named_of_reachable {d : Deployment} {w : World} (reach : (system d).Reachable w) :
    w.Named := by
  refine reach.invariant (P := World.Named) ?_ ?_
  · intro w given h record found
    obtain ⟨creation, made⟩ := given
    rw [(construct_ok made).1 h] at found
    cases found
  · intro w tx w' _ named stepped h
    exact (exec_step named (next_ok.mp stepped).2 h).named (named h)

/-- Seen by one intent, the contract runs through the life of that intent. -/
theorem lifecycle_simulation (d : Deployment) (h : Bytes32) :
    System.Simulation (system d) (lifecycle h) fun w => w.view h where
  start := by
    intro w given
    obtain ⟨creation, made⟩ := given
    exact (construct_ok made).1 h
  moves := by
    intro w tx w' reach stepped
    exact System.Later.of_step (S := lifecycle h)
      (exec_step (named_of_reachable reach) (next_ok.mp stepped).2 h)

theorem stage_of_reachable {d : Deployment} {w : World} (reach : (system d).Reachable w)
    (h : Bytes32) : Stage h (w.view h) :=
  (stage_of_lifecycle ((lifecycle_simulation d h).reachable reach)).2

end Perihelion.Settlement

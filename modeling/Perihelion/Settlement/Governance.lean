import Perihelion.Settlement.Steps

/-! # What governs the contract

Roles, peers with their pending changes, and the circuit breaker: what each call can do
to them is said once here.  A fill or a cancellation leaves all of it alone, an inbound
message may only move the breaker.
-/

namespace Perihelion.Settlement

open BigEndian Fallible Transition

structure Breaker where
  triggered : Option Bool
  resetEarliestAt : Option Nat
  bucket : Nat → Option I128
  latestWindowStart : Option Nat

structure Governance where
  admin : Option Address
  pendingAdmin : Option Address
  endpoint : Option Address
  peer : Eid → Option Bytes32
  pendingPeer : Eid → Option Bytes32
  pendingPeerTime : Eid → Option Nat
  pendingPeerDelay : Eid → Option Nat
  rollingWindowDuration : Option Nat
  rollingWindowCap : Option I128
  breaker : Breaker

def World.breaker (w : World) : Breaker where
  triggered := w.rollingWindowTriggered
  resetEarliestAt := w.rollingWindowResetEarliestAt
  bucket := w.rollingWindowBucket
  latestWindowStart := w.latestWindowStart

def World.governance (w : World) : Governance where
  admin := w.admin
  pendingAdmin := w.pendingAdmin
  endpoint := w.endpoint
  peer := w.peer
  pendingPeer := w.pendingPeer
  pendingPeerTime := w.pendingPeerTime
  pendingPeerDelay := w.pendingPeerDelay
  rollingWindowDuration := w.rollingWindowDuration
  rollingWindowCap := w.rollingWindowCap
  breaker := w.breaker

@[simp] theorem World.governance_enter (w : World) (tx : Tx) :
    (w.enter tx).governance = w.governance := rfl

/-! ## Fills and cancellations -/

theorem payKeeperReward_governance {c : Context} {purpose intentHash caller reward eligible}
    {w w' : World} (ran : payKeeperReward c purpose intentHash caller reward eligible w = .ok w') :
    w'.governance = w.governance := by
  unfold payKeeperReward at ran
  split at ran
  · split at ran
    · simp only [bind_ok, transfer_ok, pure_ok] at ran
      obtain ⟨_, ⟨-, rfl⟩, rfl⟩ := ran
      rfl
    · cases ran
      rfl
  · cases ran
    rfl

theorem dispatch_governance {c : Context} {payer dstEid message lzFee} {w w' : World}
    (ran : dispatch c payer dstEid message lzFee w = .ok w') : w'.governance = w.governance := by
  obtain ⟨_, _, -, rfl⟩ := dispatch_sends ran
  rfl

theorem deliverIntent_governance {c : Context} {solver solverEvm intentHash fillAmount}
    {w w' : World} (ran : deliverIntent c solver solverEvm intentHash fillAmount w = .ok w') :
    w'.governance = w.governance := by
  obtain ⟨_, -, -, -, rfl⟩ := deliverIntent_ok ran
  rfl

theorem dispatchConfirmation_governance {c : Context} {caller intentHash lzFee} {w w' : World}
    (ran : dispatchConfirmation c caller intentHash lzFee w = .ok w') :
    w'.governance = w.governance := by
  simp only [dispatchConfirmation, bind_ok, sendFillConfirmed, pure_ok] at ran
  obtain ⟨_, -, _, -, record, -, _, -, _, -, solver, -, solverEvm, -, sent, sending, marked, marking,
    rewarded, rewarding, rfl⟩ := ran
  obtain ⟨rep, rfl, -⟩ := updateSolverReputation_ok marking
  have kept := dispatch_governance sending
  exact (payKeeperReward_governance rewarding).trans kept

theorem fillIntent_governance {c : Context} {solver solverEvm intentHash fillAmount lzFee}
    {w w' : World} (ran : fillIntent c solver solverEvm intentHash fillAmount lzFee w = .ok w') :
    w'.governance = w.governance := by
  simp only [fillIntent, bind_ok, transfer_ok, sendFillConfirmed, pure_ok] at ran
  obtain ⟨_, -, _, -, record, -, _, ⟨-, rfl⟩, sent, sending, marked, marking, rfl⟩ := ran
  obtain ⟨rep, rfl, -⟩ := updateSolverReputation_ok marking
  have kept := dispatch_governance sending
  exact kept

theorem cancelExpiredIntent_governance {c : Context} {caller intentHash lzFee} {w w' : World}
    (ran : cancelExpiredIntent c caller intentHash lzFee w = .ok w') :
    w'.governance = w.governance := by
  simp only [cancelExpiredIntent, bind_ok, sendCancel, pure_ok] at ran
  obtain ⟨_, -, _, -, _, -, record, -, _, -, _, -, sent, sending, rewarded, rewarding, rfl⟩ := ran
  have kept := dispatch_governance sending
  exact (payKeeperReward_governance rewarding).trans kept

/-! ## Inbound messages -/

/-- Only the breaker may have moved. -/
def Governance.Metered (g g' : Governance) : Prop := { g' with breaker := g.breaker } = g

theorem acceptNonce_governance {eid nonce} {w w' : World}
    (ran : acceptNonce eid nonce w = .ok w') : w'.governance = w.governance := by
  simp only [acceptNonce, bind_ok, require_ok, exists_const, pure_ok] at ran
  obtain ⟨-, -, -, rfl⟩ := ran
  rfl

theorem World.advanceWindow_metered (w : World) (windowStart : Nat) :
    w.governance.Metered (w.advanceWindow windowStart).governance := by
  unfold World.advanceWindow
  dsimp only
  split <;> rfl

theorem enforceValueCaps_metered {amount} {w w' : World} {admitted}
    (ran : enforceValueCaps amount w = .ok (w', admitted)) :
    w.governance.Metered w'.governance := by
  simp only [enforceValueCaps, bind_ok, require_ok, exists_const] at ran
  obtain ⟨-, ran⟩ := ran
  split at ran
  · simp only [bind_ok, require_ok, exists_const] at ran
    obtain ⟨-, accumulated, -, ran⟩ := ran
    have advanced := w.advanceWindow_metered
      (w.timestamp / w.rollingWindowDuration.getD 0 * w.rollingWindowDuration.getD 0)
    split at ran
    · simp only [bind_ok, pure_ok, Prod.mk.injEq] at ran
      obtain ⟨_, -, rfl, rfl⟩ := ran
      exact advanced
    · simp only [pure_ok, Prod.mk.injEq] at ran
      obtain ⟨rfl, rfl⟩ := ran
      exact advanced
  · simp only [pure_ok, Prod.mk.injEq] at ran
    obtain ⟨rfl, rfl⟩ := ran
    rfl

theorem onFillInstruction_metered {eid fi} {w w' : World}
    (ran : onFillInstruction eid fi w = .ok w') : w.governance.Metered w'.governance := by
  cases onFillInstruction_arrival ran with
  | known => rfl
  | refused _ _ _ _ caps | registered _ _ _ _ caps =>
      have metered := enforceValueCaps_metered caps
      exact metered

theorem onCancelInbound_governance (eid : Eid) (ci : CancelInstruction) (w : World) :
    (onCancelInbound eid ci w).governance = w.governance := by
  unfold onCancelInbound
  split
  · rfl
  · split
    · rfl
    · split <;> rfl

theorem applyInbound_metered {origin message} {w w' : World}
    (ran : applyInbound origin message w = .ok w') : w.governance.Metered w'.governance := by
  cases message with
  | fillInstruction fi =>
      obtain ⟨-, v, accepted, handled⟩ := applyInbound_fill.mp ran
      rw [← acceptNonce_governance accepted]
      exact onFillInstruction_metered handled
  | cancel ci =>
      obtain ⟨v, accepted, rfl⟩ := applyInbound_cancel.mp ran
      rw [onCancelInbound_governance, acceptNonce_governance accepted]
      rfl

/-! ## All calls -/

def Call.governs : Call → Bool
  | .setEndpoint .. | .confirmEndpoint | .proposePeer .. | .confirmPeer .. | .cancelPendingPeer ..
  | .setAdmin .. | .acceptAdmin | .setRollingWindowCap .. | .resetRollingWindowCap => true
  | _ => false

def Call.inbound : Call → Bool
  | .lzReceiveBytes .. | .lzReceive .. => true
  | _ => false

def Breaker.reset (b : Breaker) (now duration : Nat) : Breaker where
  triggered := some false
  resetEarliestAt := none
  bucket :=
    match b.latestWindowStart with
    | some windowStart => Function.update b.bucket windowStart none
    | none => b.bucket
  latestWindowStart :=
    if 0 < duration then some (now / duration * duration) else b.latestWindowStart

def Governance.clearPendingPeer (g : Governance) (eid : Eid) : Governance :=
  { g with
    pendingPeer := Function.update g.pendingPeer eid none
    pendingPeerTime := Function.update g.pendingPeerTime eid none
    pendingPeerDelay := Function.update g.pendingPeerDelay eid none }

/-- What a successful call at time `now` does, and what it has checked. -/
inductive Governed (c : Context) (now : Nat) : Call → Governance → Governance → Prop
  | same (call g) (quiet : call.governs = false) : Governed c now call g g
  | metered (call g breaker) (inbound : call.inbound = true) :
      Governed c now call g { g with breaker }
  | endpointSet (g newEndpoint) :
      Governed c now (.setEndpoint newEndpoint) g { g with endpoint := some newEndpoint }
  | endpointConfirmed (g newEndpoint) (distinct : g.admin ≠ some newEndpoint) :
      Governed c now .confirmEndpoint g { g with endpoint := some newEndpoint }
  | nominated (g newAdmin) :
      Governed c now (.setAdmin newAdmin) g { g with pendingAdmin := some newAdmin }
  | accepted (g nominee) (nominated : g.pendingAdmin = some nominee) :
      Governed c now .acceptAdmin g { g with admin := some nominee, pendingAdmin := none }
  | peerProposed (g eid newPeer delay admin) (byAdmin : g.admin = some admin)
      (authorized : c.authorized admin = true) (long : minPeerChangeDelay ≤ delay)
      (short : delay ≤ maxPeerChangeDelay) (free : g.pendingPeer eid = none) :
      Governed c now (.proposePeer eid newPeer delay) g
        { g with
          pendingPeer := Function.update g.pendingPeer eid (some newPeer)
          pendingPeerTime := Function.update g.pendingPeerTime eid (some now)
          pendingPeerDelay := Function.update g.pendingPeerDelay eid (some delay) }
  | peerConfirmed (g eid newPeer since delay) (proposed : g.pendingPeer eid = some newPeer)
      (made : g.pendingPeerTime eid = some since) (within : g.pendingPeerDelay eid = some delay)
      (ready : since + delay ≤ now) (fresh : now ≤ since + delay + peerChangeGrace) :
      Governed c now (.confirmPeer eid) g
        (Governance.clearPendingPeer { g with peer := Function.update g.peer eid (some newPeer) } eid)
  | peerCancelled (g eid) : Governed c now (.cancelPendingPeer eid) g (g.clearPendingPeer eid)
  | capSet (g duration cap) :
      Governed c now (.setRollingWindowCap duration cap) g
        { g with rollingWindowDuration := some duration, rollingWindowCap := some cap }
  | capReset (g) (ready : ∀ earliest ∈ g.breaker.resetEarliestAt, earliest ≤ now) :
      Governed c now .resetRollingWindowCap g
        { g with breaker := g.breaker.reset now (g.rollingWindowDuration.getD 0) }

theorem pruneNonceWords_governance {eid} {w w' : World} (ran : pruneNonceWords eid w = .ok w') :
    w'.governance = w.governance := by
  simp only [pruneNonceWords, requireNotPaused, bind_ok, require_ok, exists_const] at ran
  obtain ⟨-, -, ran⟩ := ran
  split at ran
  · cases ran
    rfl
  · cases ran
    rfl

theorem Governed.of_same {c : Context} {now call} {g g' : Governance} (quiet : call.governs = false)
    (same : g' = g) : Governed c now call g g' := by
  rw [same]
  exact .same call g quiet

theorem Governed.of_metered {c : Context} {now call} {g g' : Governance}
    (inbound : call.inbound = true) (metered : g.Metered g') : Governed c now call g g' := by
  have moved : g' = { g with breaker := g'.breaker } := by
    unfold Governance.Metered at metered
    rw [← metered]
  rw [moved]
  exact .metered call g _ inbound

theorem Call.run_governed {c : Context} {call : Call} {w w' : World}
    (ran : call.run c w = .ok w') :
    Governed c w.timestamp call w.governance w'.governance := by
  cases call with
  | lzReceiveBytes origin message =>
      simp only [Call.run, Settlement.lzReceiveBytes, bind_ok] at ran
      obtain ⟨_, -, _, -, applied⟩ := ran
      exact .of_metered rfl (applyInbound_metered applied)
  | lzReceive origin message =>
      simp only [Call.run, Settlement.lzReceive, bind_ok] at ran
      obtain ⟨_, -, applied⟩ := ran
      exact .of_metered rfl (applyInbound_metered applied)
  | deliverIntent => exact .of_same rfl (deliverIntent_governance ran)
  | dispatchConfirmation => exact .of_same rfl (dispatchConfirmation_governance ran)
  | fillIntent => exact .of_same rfl (fillIntent_governance ran)
  | cancelExpiredIntent => exact .of_same rfl (cancelExpiredIntent_governance ran)
  | pruneNonceWords eid => exact .of_same rfl (pruneNonceWords_governance ran)
  | cancelPendingEndpoint | setPaused | setPausedEid | setDestTokenAllowed | setNativeToken =>
      simp only [Call.run, Settlement.cancelPendingEndpoint, Settlement.setPaused,
        Settlement.setPausedEid, Settlement.setDestTokenAllowed, Settlement.setNativeToken, bind_ok,
        pure_ok] at ran
      obtain ⟨-, -, rfl⟩ := ran
      exact .same _ _ rfl
  | setKeeperReward | setDispatchKeeperReward | setMaxIntentAmount | setMaxTtl =>
      simp only [Call.run, Settlement.setKeeperReward, Settlement.setDispatchKeeperReward,
        Settlement.setMaxIntentAmount, Settlement.setMaxTtl, bind_ok, require_ok, exists_const,
        pure_ok] at ran
      obtain ⟨-, -, -, rfl⟩ := ran
      exact .same _ _ rfl
  | proposeEndpoint newEndpoint =>
      simp only [Call.run, Settlement.proposeEndpoint, bind_ok, pure_ok] at ran
      obtain ⟨-, -, readyAt, -, rfl⟩ := ran
      exact .same _ _ rfl
  | setEndpoint newEndpoint =>
      simp only [Call.run, Settlement.setEndpoint, bind_ok, pure_ok] at ran
      obtain ⟨-, -, rfl⟩ := ran
      exact .endpointSet _ newEndpoint
  | confirmEndpoint =>
      simp only [Call.run, Settlement.confirmEndpoint, requireAdmin, bind_ok, require_ok,
        exists_const, expect_ok, pure_ok] at ran
      obtain ⟨-, -, proposed, -, _, -, _, -, -, _, -, -, admin, found, distinct, rfl⟩ := ran
      refine .endpointConfirmed _ proposed ?_
      intro same
      exact distinct (Option.some.inj (found.symm.trans same))
  | setAdmin newAdmin =>
      simp only [Call.run, Settlement.setAdmin, bind_ok, pure_ok] at ran
      obtain ⟨current, -, -, -, rfl⟩ := ran
      exact .nominated _ newAdmin
  | acceptAdmin =>
      simp only [Call.run, Settlement.acceptAdmin, bind_ok, expect_ok, pure_ok] at ran
      obtain ⟨pending, nominated, -, -, old, -, rfl⟩ := ran
      exact .accepted _ pending nominated
  | proposePeer eid newPeer delay =>
      simp only [Call.run, Settlement.proposePeer, authorizeAdmin, requireAdmin, requireAuth,
        bind_ok, require_ok, exists_const, expect_ok, pure_ok] at ran
      obtain ⟨⟨admin, byAdmin, authorized⟩, ⟨long, short⟩, free, readyAt, -, rfl⟩ := ran
      exact .peerProposed _ eid newPeer delay admin byAdmin authorized long short
        (Option.isNone_iff_eq_none.mp free)
  | confirmPeer eid =>
      simp only [Call.run, Settlement.confirmPeer, bind_ok, require_ok, exists_const, expect_ok,
        addBelow_ok, pure_ok] at ran
      obtain ⟨-, -, newPeer, proposed, since, made, delay, within, _, ⟨-, rfl⟩, ready, _, ⟨-, rfl⟩,
        fresh, rfl⟩ := ran
      exact .peerConfirmed _ eid newPeer since delay proposed made within ready fresh
  | cancelPendingPeer eid =>
      simp only [Call.run, Settlement.cancelPendingPeer, bind_ok, pure_ok] at ran
      obtain ⟨-, -, rfl⟩ := ran
      exact .peerCancelled _ eid
  | setRollingWindowCap duration cap =>
      simp only [Call.run, Settlement.setRollingWindowCap, bind_ok, require_ok, exists_const,
        pure_ok] at ran
      obtain ⟨-, -, -, rfl⟩ := ran
      exact .capSet _ duration cap
  | resetRollingWindowCap =>
      simp only [Call.run, Settlement.resetRollingWindowCap, bind_ok, require_ok, exists_const,
        pure_ok, Option.all_eq_true, decide_eq_true_eq] at ran
      obtain ⟨-, -, ready, rfl⟩ := ran
      exact .capReset _ ready

theorem exec_governed {d : Deployment} {tx : Tx} {w w' : World} (ran : exec d tx w = .ok w') :
    Governed (tx.context d) tx.timestamp tx.call w.governance w'.governance :=
  Call.run_governed ran

end Perihelion.Settlement

import Perihelion.Settlement.Machine

/-! # Stale proposals

A confirmation that comes too late removes the proposal before it fails, and the host then rolls
the removal back.  `confirmPeer` and `confirmEndpoint` leave both out; here they are written
down as the source has them.
-/

namespace Perihelion.Settlement

open BigEndian Fallible Transition

/-- What an invocation has written when it returns. -/
structure Invocation where
  written : World
  result : Except Failure Unit

namespace Invocation

/-- The host drops the writes of a failed invocation. -/
def commit (before : World) (invocation : Invocation) : World :=
  match invocation.result with
  | .ok _ => invocation.written
  | .error _ => before

def outcome (invocation : Invocation) : Except Failure World :=
  invocation.result.map fun _ => invocation.written

theorem commit_of_failed {before : World} {invocation : Invocation} {e : Failure}
    (failed : invocation.result = .error e) : invocation.commit before = before := by
  unfold commit
  rw [failed]

end Invocation

/-- The proposed peer and the last second to confirm it, from its delay on. -/
def duePeer (c : Context) (eid : Eid) (w : World) : Except Failure (Bytes32 × Nat) := do
  authorizeAdmin c w
  let proposedPeer ← expect .notPendingPeerChange (w.pendingPeer eid)
  let proposedAt ← expect .notPendingPeerChange (w.pendingPeerTime eid)
  let delay ← expect .notPendingPeerChange (w.pendingPeerDelay eid)
  let readyAt ← addBelow uint64 .trap proposedAt delay
  require (readyAt ≤ w.timestamp) .peerChangeNotReady
  let expiresAt ← addBelow uint64 .trap readyAt peerChangeGrace
  return (proposedPeer, expiresAt)

/-- `confirm_peer` up to its return.  The event of the error path is rolled back with the rest. -/
def confirmPeerBody (c : Context) (eid : Eid) (w : World) : Invocation :=
  match duePeer c eid w with
  | .error e => ⟨w, .error e⟩
  | .ok due =>
      if due.2 < w.timestamp then ⟨w.clearPendingPeer eid, .error .peerChangeExpired⟩
      else
        ⟨World.publish
          (World.clearPendingPeer { w with peer := Function.update w.peer eid (some due.1) } eid)
          (.peerSet eid (w.peer eid) due.1), .ok ()⟩

def dueEndpoint (c : Context) (w : World) : Except Failure (Address × Nat) := do
  authorizeAdmin c w
  let proposedEndpoint ← expect .notPendingEndpointChange w.pendingEndpoint
  let proposedAt ← expect .notPendingEndpointChange w.pendingEndpointTime
  let readyAt ← addBelow uint64 .trap proposedAt minPeerChangeDelay
  require (readyAt ≤ w.timestamp) .endpointChangeNotReady
  let expiresAt ← addBelow uint64 .trap readyAt peerChangeGrace
  return (proposedEndpoint, expiresAt)

/-- `confirm_endpoint` up to its return. -/
def confirmEndpointBody (c : Context) (w : World) : Invocation :=
  match dueEndpoint c w with
  | .error e => ⟨w, .error e⟩
  | .ok due =>
      if due.2 < w.timestamp then
        ⟨{ w with pendingEndpoint := none, pendingEndpointTime := none },
          .error .endpointChangeExpired⟩
      else
        match requireAdmin w with
        | .error e => ⟨w, .error e⟩
        | .ok admin =>
            if admin = due.1 then ⟨w, .error .adminEndpointCollision⟩
            else
              ⟨World.publish
                { w with
                  endpoint := some due.1
                  pendingEndpoint := none
                  pendingEndpointTime := none }
                (.endpointSet w.endpoint due.1), .ok ()⟩

/-! ## What the caller sees -/

section bodies

variable {c : Context} {eid : Eid} {w : World}

theorem confirmPeer_eq : confirmPeer c eid w = (confirmPeerBody c eid w).outcome := by
  have split : confirmPeer c eid w = duePeer c eid w >>= fun due =>
      require (w.timestamp ≤ due.2) Failure.peerChangeExpired >>= fun _ =>
        .ok (World.publish
          (World.clearPendingPeer { w with peer := Function.update w.peer eid (some due.1) } eid)
          (.peerSet eid (w.peer eid) due.1)) := by
    simp only [confirmPeer, duePeer, bind_assoc, pure_bind]
    rfl
  rw [split]
  unfold confirmPeerBody
  cases duePeer c eid w with
  | error e => rfl
  | ok due =>
      by_cases late : due.2 < w.timestamp
      · have refused := (require_error (w.timestamp ≤ due.2) Failure.peerChangeExpired _).mpr
          ⟨Nat.not_le.mpr late, rfl⟩
        simp only [if_pos late]
        exact bind_of_error refused _
      · have passed := (require_ok (w.timestamp ≤ due.2) Failure.peerChangeExpired ()).mpr
          (Nat.not_lt.mp late)
        simp only [if_neg late]
        exact bind_of_ok passed _

theorem confirmEndpoint_eq : confirmEndpoint c w = (confirmEndpointBody c w).outcome := by
  have split : confirmEndpoint c w = dueEndpoint c w >>= fun due =>
      require (w.timestamp ≤ due.2) Failure.endpointChangeExpired >>= fun _ =>
        requireAdmin w >>= fun admin =>
          require (admin ≠ due.1) Failure.adminEndpointCollision >>= fun _ =>
            .ok (World.publish
              { w with
                endpoint := some due.1
                pendingEndpoint := none
                pendingEndpointTime := none }
              (.endpointSet w.endpoint due.1)) := by
    simp only [confirmEndpoint, dueEndpoint, bind_assoc, pure_bind]
    rfl
  rw [split]
  unfold confirmEndpointBody
  cases dueEndpoint c w with
  | error e => rfl
  | ok due =>
      by_cases late : due.2 < w.timestamp
      · have refused := (require_error (w.timestamp ≤ due.2) Failure.endpointChangeExpired _).mpr
          ⟨Nat.not_le.mpr late, rfl⟩
        simp only [if_pos late]
        exact bind_of_error refused _
      · have passed := (require_ok (w.timestamp ≤ due.2) Failure.endpointChangeExpired ()).mpr
          (Nat.not_lt.mp late)
        simp only [if_neg late]
        refine (bind_of_ok passed _).trans ?_
        cases requireAdmin w with
        | error e => rfl
        | ok admin =>
            by_cases same : admin = due.1
            · have refused := (require_error (admin ≠ due.1) Failure.adminEndpointCollision _).mpr
                ⟨not_not.mpr same, rfl⟩
              simp only [if_pos same]
              exact bind_of_error refused _
            · have passed := (require_ok (admin ≠ due.1) Failure.adminEndpointCollision ()).mpr same
              simp only [if_neg same]
              exact bind_of_ok passed _

/-- The body of an expired confirmation has removed a proposal that was there. -/
theorem confirmPeerBody_expired
    (reported : (confirmPeerBody c eid w).result = .error .peerChangeExpired) :
    (w.pendingPeer eid).isSome ∧ (confirmPeerBody c eid w).written.pendingPeer eid = none := by
  unfold confirmPeerBody at reported ⊢
  cases due : duePeer c eid w with
  | error e =>
      rw [due] at reported
      cases reported
      simp only [duePeer, authorizeAdmin, requireAdmin, requireAuth, bind_error, require_error,
        expect_error, addBelow_error] at due
      simp [pure, Except.pure] at due
  | ok due' =>
      simp only [due] at reported ⊢
      by_cases late : due'.2 < w.timestamp
      · simp only [if_pos late]
        simp only [duePeer, bind_ok, expect_ok] at due
        obtain ⟨_, _, peer, proposed, _⟩ := due
        exact ⟨by rw [proposed]; rfl, Function.update_self _ _ _⟩
      · rw [if_neg late] at reported
        cases reported

theorem confirmEndpointBody_expired
    (reported : (confirmEndpointBody c w).result = .error .endpointChangeExpired) :
    w.pendingEndpoint.isSome ∧ (confirmEndpointBody c w).written.pendingEndpoint = none := by
  unfold confirmEndpointBody at reported ⊢
  cases due : dueEndpoint c w with
  | error e =>
      rw [due] at reported
      cases reported
      simp only [dueEndpoint, authorizeAdmin, requireAdmin, requireAuth, bind_error, require_error,
        expect_error, addBelow_error] at due
      simp [pure, Except.pure] at due
  | ok due' =>
      simp only [due] at reported ⊢
      by_cases late : due'.2 < w.timestamp
      · simp only [if_pos late]
        simp only [dueEndpoint, bind_ok, expect_ok] at due
        obtain ⟨_, _, endpoint, proposed, _⟩ := due
        exact ⟨by rw [proposed]; rfl, trivial⟩
      · rw [if_neg late] at reported
        cases admin : requireAdmin w with
        | error e =>
            rw [admin] at reported
            simp only [requireAdmin, expect_error] at admin
            cases reported
            simp at admin
        | ok admin' =>
            rw [admin] at reported
            by_cases same : admin' = due'.1
            · simp [same] at reported
            · simp [same] at reported

/-- While a proposal for the eid is pending no other one is taken. -/
theorem proposePeer_pending {newPeer : Bytes32} {delay : Nat} (pending : (w.pendingPeer eid).isSome)
    (w' : World) : proposePeer c eid newPeer delay w ≠ .ok w' := by
  intro ran
  simp only [proposePeer, bind_ok, require_ok] at ran
  obtain ⟨_, _, _, _, _, vacant, _⟩ := ran
  rw [Option.isNone_iff_eq_none.mp vacant] at pending
  cases pending

end bodies

/-- A proposal whose confirmation has been reported expired is always still there: no other one
    can be made for the eid, and an endpoint change stays pending. -/
theorem expired_proposals_stay (d : Deployment) (tx : Tx) (w : World) :
    (∀ eid, (confirmPeerBody (tx.context d) eid (w.enter tx)).result = .error .peerChangeExpired →
      let after := (confirmPeerBody (tx.context d) eid (w.enter tx)).commit w
      after.pendingPeer eid ≠ none ∧
        ∀ tx' newPeer delay, tx'.call = .proposePeer eid newPeer delay →
          ∀ w', exec d tx' after ≠ .ok w') ∧
    ((confirmEndpointBody (tx.context d) (w.enter tx)).result = .error .endpointChangeExpired →
      ((confirmEndpointBody (tx.context d) (w.enter tx)).commit w).pendingEndpoint ≠ none) := by
  constructor
  · intro eid reported after
    have rolledBack : after = w := Invocation.commit_of_failed reported
    have pending : (w.pendingPeer eid).isSome := (confirmPeerBody_expired reported).1
    rw [rolledBack]
    refine ⟨Option.isSome_iff_ne_none.mp pending, ?_⟩
    intro tx' newPeer delay call w'
    have pending' : ((w.enter tx').pendingPeer eid).isSome := pending
    unfold exec
    rw [call]
    exact proposePeer_pending pending' w'
  · intro reported
    rw [Invocation.commit_of_failed reported]
    exact Option.isSome_iff_ne_none.mp (confirmEndpointBody_expired reported).1

namespace Sample

def successor : Address := .contract 0xE2E

/-- A new peer and a new endpoint are proposed. -/
def proposals : List Tx := [
  tx 1699000000 1000 (.proposePeer 30101 escrow 86400),
  tx 1699000000 1000 (.proposeEndpoint successor)]

def proposed : World := (replay deployment created proposals).get (by decide +kernel)

theorem proposed_reachable : (system deployment).Reachable proposed :=
  created_reachable.later
    (later_of_replay (show replay deployment created proposals = some proposed by simp [proposed]))

/-- A second after the day of delay and the 14 days of grace. -/
def stalePeerTx : Tx := tx 1700296001 2000 (.confirmPeer 30101)

def staleEndpointTx : Tx := tx 1700296001 2000 .confirmEndpoint

def reproposeTx : Tx := tx 1700296002 2001 (.proposePeer 30101 escrow 86400)

end Sample

theorem expired_proposals_stay_sample :
    (∀ w', exec Sample.deployment Sample.reproposeTx Sample.proposed ≠ .ok w') ∧
      Sample.proposed.pendingEndpoint ≠ none := by
  have peer : (confirmPeerBody (Sample.stalePeerTx.context Sample.deployment) 30101
      (Sample.proposed.enter Sample.stalePeerTx)).result = .error .peerChangeExpired := by
    decide +kernel
  have endpoint : (confirmEndpointBody (Sample.staleEndpointTx.context Sample.deployment)
      (Sample.proposed.enter Sample.staleEndpointTx)).result = .error .endpointChangeExpired := by
    decide +kernel
  have peers := (expired_proposals_stay Sample.deployment Sample.stalePeerTx Sample.proposed).1 30101 peer
  have endpoints :=
    (expired_proposals_stay Sample.deployment Sample.staleEndpointTx Sample.proposed).2 endpoint
  rw [Invocation.commit_of_failed peer] at peers
  rw [Invocation.commit_of_failed endpoint] at endpoints
  exact ⟨peers.2 Sample.reproposeTx _ _ rfl, endpoints⟩

/-- The expired proposal keeps the admin from making another one, and the expired endpoint stays
    proposed. -/
theorem expired_proposal_blocks : (system Sample.deployment).Reachable Sample.proposed ∧
    (confirmPeerBody (Sample.stalePeerTx.context Sample.deployment) 30101
      (Sample.proposed.enter Sample.stalePeerTx)).result = .error .peerChangeExpired ∧
    (confirmPeerBody (Sample.stalePeerTx.context Sample.deployment) 30101
      (Sample.proposed.enter Sample.stalePeerTx)).written.pendingPeer 30101 = none ∧
    exec Sample.deployment Sample.stalePeerTx Sample.proposed = .error .peerChangeExpired ∧
    exec Sample.deployment Sample.reproposeTx Sample.proposed = .error .pendingPeerChangeExists ∧
    (confirmEndpointBody (Sample.staleEndpointTx.context Sample.deployment)
      (Sample.proposed.enter Sample.staleEndpointTx)).written.pendingEndpoint = none ∧
    exec Sample.deployment Sample.staleEndpointTx Sample.proposed = .error .endpointChangeExpired ∧
    Sample.proposed.pendingEndpoint = some Sample.successor := by
  have expired : (confirmPeerBody (Sample.stalePeerTx.context Sample.deployment) 30101
      (Sample.proposed.enter Sample.stalePeerTx)).result = .error .peerChangeExpired := by
    decide +kernel
  have endpointExpired : (confirmEndpointBody (Sample.staleEndpointTx.context Sample.deployment)
      (Sample.proposed.enter Sample.staleEndpointTx)).result = .error .endpointChangeExpired := by
    decide +kernel
  have refused : (match exec Sample.deployment Sample.reproposeTx Sample.proposed with
      | .error e => some e
      | .ok _ => none) = some .pendingPeerChangeExists := by
    decide +kernel
  refine ⟨Sample.proposed_reachable, expired, (confirmPeerBody_expired expired).2, ?_, ?_,
    (confirmEndpointBody_expired endpointExpired).2, ?_, by decide +kernel⟩
  · show confirmPeer (Sample.stalePeerTx.context Sample.deployment) 30101
      (Sample.proposed.enter Sample.stalePeerTx) = _
    rw [confirmPeer_eq, Invocation.outcome, expired]
    rfl
  · cases ran : exec Sample.deployment Sample.reproposeTx Sample.proposed with
    | ok w' =>
        rw [ran] at refused
        cases refused
    | error e =>
        rw [ran] at refused
        cases refused
        rfl
  · show confirmEndpoint (Sample.staleEndpointTx.context Sample.deployment)
      (Sample.proposed.enter Sample.staleEndpointTx) = _
    rw [confirmEndpoint_eq, Invocation.outcome, endpointExpired]
    rfl

end Perihelion.Settlement

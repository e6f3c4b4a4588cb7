import Perihelion.Lib.DelayedChange
import Perihelion.Settlement.Governance

/-! # Who holds a role, and how a peer changes

The constructor and `confirm_endpoint` keep the admin and the endpoint apart,
`set_endpoint` and `accept_admin` do not look.  A peer only changes by way of a proposal
that waits: the slot of each endpoint id is a `DelayedChange`.
-/

namespace Perihelion.Settlement

open Fallible Transition

/-! ## Roles -/

def Governance.RolesApart (g : Governance) : Prop :=
  ∃ admin endpoint, g.admin = some admin ∧ g.endpoint = some endpoint ∧ admin ≠ endpoint

/-- The check that `set_endpoint` and `accept_admin` leave out. -/
def Call.keepsRolesApart (g : Governance) : Call → Bool
  | .setEndpoint newEndpoint => g.admin != some newEndpoint
  | .acceptAdmin => g.pendingAdmin != g.endpoint
  | _ => true

/-- A successful call keeps the roles apart exactly if it passes the missing check. -/
theorem Governed.rolesApart {c : Context} {now call} {g g' : Governance}
    (governed : Governed c now call g g') (apart : g.RolesApart) :
    g'.RolesApart ↔ call.keepsRolesApart g = true := by
  obtain ⟨admin, endpoint, isAdmin, isEndpoint, distinct⟩ := apart
  cases governed with
  | endpointSet _ newEndpoint =>
      rw [show (Call.setEndpoint newEndpoint).keepsRolesApart g = (g.admin != some newEndpoint) from
        rfl, bne_iff_ne]
      constructor
      · intro kept same
        obtain ⟨admin', endpoint', isAdmin', isEndpoint', distinct'⟩ := kept
        cases isEndpoint'
        exact distinct' (Option.some.inj (isAdmin'.symm.trans same))
      · intro checked
        refine ⟨admin, newEndpoint, isAdmin, rfl, ?_⟩
        intro same
        exact checked (isAdmin.trans (congrArg some same))
  | accepted _ nominee nominated =>
      rw [show Call.acceptAdmin.keepsRolesApart g = (g.pendingAdmin != g.endpoint) from rfl,
        bne_iff_ne]
      constructor
      · intro kept same
        obtain ⟨admin', endpoint', isAdmin', isEndpoint', distinct'⟩ := kept
        cases isAdmin'
        exact distinct' (Option.some.inj (nominated.symm.trans (same.trans isEndpoint')))
      · intro checked
        refine ⟨nominee, endpoint, rfl, isEndpoint, ?_⟩
        intro same
        exact checked (nominated.trans ((congrArg some same).trans isEndpoint.symm))
  | endpointConfirmed _ newEndpoint checked =>
      have kept : ({ g with endpoint := some newEndpoint } : Governance).RolesApart :=
        ⟨admin, newEndpoint, isAdmin, rfl, fun same => checked (isAdmin.trans (congrArg some same))⟩
      exact iff_of_true kept rfl
  | same _ _ quiet =>
      have passes : call.keepsRolesApart g = true := by
        cases call with
        | setEndpoint | acceptAdmin => cases quiet
        | _ => rfl
      exact iff_of_true ⟨admin, endpoint, isAdmin, isEndpoint, distinct⟩ passes
  | metered _ _ breaker inbound =>
      have passes : call.keepsRolesApart g = true := by
        cases call with
        | setEndpoint | acceptAdmin => cases inbound
        | _ => rfl
      exact iff_of_true ⟨admin, endpoint, isAdmin, isEndpoint, distinct⟩ passes
  | nominated | peerProposed | peerConfirmed | peerCancelled | capSet | capReset =>
      exact iff_of_true ⟨admin, endpoint, isAdmin, isEndpoint, distinct⟩ rfl

theorem construct_rolesApart {creation} {w : World} (made : construct creation = .ok w) :
    w.governance.RolesApart := by
  simp only [construct, bind_ok, require_ok, exists_const, pure_ok] at made
  obtain ⟨distinct, rfl⟩ := made
  exact ⟨creation.admin, creation.endpoint, rfl, rfl, distinct⟩

/-- The runs in which every call passes the check. -/
def guardedSystem (d : Deployment) : System World Tx :=
  (system d).under fun w tx => tx.call.keepsRolesApart w.governance = true

/-- In a run whose calls all pass the check the admin and the endpoint are different in
    every state, and the next call keeps them so exactly if it passes too. -/
theorem roles_apart {d : Deployment} {w : World} (reach : (guardedSystem d).Reachable w) :
    (∃ admin endpoint, w.admin = some admin ∧ w.endpoint = some endpoint ∧ admin ≠ endpoint) ∧
      ∀ tx w', next d w tx = some w' →
        ((∃ admin endpoint, w'.admin = some admin ∧ w'.endpoint = some endpoint ∧
          admin ≠ endpoint) ↔ tx.call.keepsRolesApart w.governance = true) := by
  have apart : w.governance.RolesApart := by
    refine reach.invariant (P := fun w => w.governance.RolesApart) ?_ ?_
    · intro w given
      obtain ⟨creation, made⟩ := given
      exact construct_rolesApart made
    · intro w tx w' _ apart stepped
      exact ((exec_governed (next_ok.mp stepped.1).2).rolesApart apart).mpr stepped.2
  refine ⟨apart, ?_⟩
  intro tx w' stepped
  exact (exec_governed (next_ok.mp stepped).2).rolesApart apart

namespace Sample

def newEndpoint : Address := .contract 0xE2D9

/-- The admin role goes to the solver, who moves the endpoint. -/
def handover : List Tx := [
  tx 1699000000 1000 (.setAdmin solver),
  tx 1699000000 1000 .acceptAdmin,
  tx 1699000000 1000 (.setEndpoint newEndpoint)]

end Sample

theorem roles_apart_sample :
    ∃ w, (guardedSystem Sample.deployment).Reachable w ∧ w.admin = some Sample.solver ∧
      ∃ admin endpoint, w.admin = some admin ∧ w.endpoint = some endpoint ∧ admin ≠ endpoint := by
  have replayed : (System.replay (fun w tx =>
      if tx.call.keepsRolesApart w.governance = true then next Sample.deployment w tx else none)
      Sample.created Sample.handover).map World.admin = some (some Sample.solver) := by
    decide +kernel
  obtain ⟨w, run, admin⟩ := Option.map_eq_some_iff.mp replayed
  have later := System.Later.of_replay_under (S := system Sample.deployment)
    (fun _ _ _ stepped => stepped) run
  have reach : (guardedSystem Sample.deployment).Reachable w :=
    System.Reachable.later (.init ⟨Sample.creation, rfl⟩) later
  exact ⟨w, reach, admin, (roles_apart reach).1⟩

/-- One call hands the endpoint role to the admin. -/
theorem roles_collide :
    ∃ w, (system Sample.deployment).Reachable w ∧ w.admin = some Sample.admin ∧
      w.endpoint = some Sample.admin := by
  have replayed : (replay Sample.deployment Sample.created
      [Sample.tx 1699000000 1000 (.setEndpoint Sample.admin)]).map
        (fun w => (w.admin, w.endpoint)) = some (some Sample.admin, some Sample.admin) := by
    decide +kernel
  obtain ⟨w, run, same⟩ := Option.map_eq_some_iff.mp replayed
  obtain ⟨admin, endpoint⟩ := Prod.mk.inj same
  exact ⟨w, Sample.created_reachable.later (later_of_replay run), admin, endpoint⟩

/-! ## Peers -/

def peerPolicy : DelayedChange.Policy where
  minDelay := minPeerChangeDelay
  maxDelay := maxPeerChangeDelay
  grace := peerChangeGrace

/-- The peer of `eid`, with its three pending entries read as one proposal. -/
def Governance.slot (g : Governance) (eid : Eid) : DelayedChange.Slot Bytes32 where
  current := g.peer eid
  pending :=
    (g.pendingPeer eid).bind fun value =>
      (g.pendingPeerTime eid).bind fun since =>
        (g.pendingPeerDelay eid).map fun delay => ⟨value, since, delay⟩

def Call.peerAct (eid : Eid) : Call → DelayedChange.Act Bytes32
  | .proposePeer other newPeer delay => if other = eid then .propose newPeer delay else .other
  | .confirmPeer other => if other = eid then .confirm else .other
  | .cancelPendingPeer other => if other = eid then .cancel else .other
  | _ => .other

theorem Call.peerAct_other {eid : Eid} {call : Call} :
    call.peerAct eid = .other ↔
      (∀ newPeer delay, call ≠ .proposePeer eid newPeer delay) ∧ call ≠ .confirmPeer eid ∧
        call ≠ .cancelPendingPeer eid := by
  cases call with
  | proposePeer other newPeer delay | confirmPeer other | cancelPendingPeer other =>
      by_cases same : other = eid
      · simp [Call.peerAct, same]
      · simp [Call.peerAct, same]
  | _ => simp [Call.peerAct]

theorem Call.peerAct_propose {eid : Eid} {call : Call} {newPeer delay} :
    call.peerAct eid = .propose newPeer delay ↔ call = .proposePeer eid newPeer delay := by
  cases call with
  | proposePeer other newPeer delay | confirmPeer other | cancelPendingPeer other =>
      by_cases same : other = eid
      · simp [Call.peerAct, same]
      · simp [Call.peerAct, same]
  | _ => simp [Call.peerAct]

theorem Governed.slot {c : Context} {now call} {g g' : Governance}
    (governed : Governed c now call g g') (eid : Eid) :
    DelayedChange.Step peerPolicy now (g.slot eid) (call.peerAct eid) (g'.slot eid) := by
  cases governed with
  | same _ _ quiet =>
      have other : call.peerAct eid = .other := by
        cases call with
        | proposePeer | confirmPeer | cancelPendingPeer => cases quiet
        | _ => rfl
      rw [other]
      exact .other _
  | metered _ _ breaker inbound =>
      have other : call.peerAct eid = .other := by
        cases call with
        | proposePeer | confirmPeer | cancelPendingPeer => cases inbound
        | _ => rfl
      rw [other]
      exact .other _
  | endpointSet | endpointConfirmed | nominated | accepted | capSet | capReset => exact .other _
  | peerProposed _ other newPeer delay admin byAdmin authorized long short free =>
      by_cases same : other = eid
      · subst same
        have step : DelayedChange.Step peerPolicy now (g.slot other) (.propose newPeer delay) _ :=
          .propose _ newPeer delay long short (by simp [Governance.slot, free])
        simpa [Call.peerAct, Governance.slot] using step
      · have step : DelayedChange.Step peerPolicy now (g.slot eid) .other _ := .other _
        simpa [Call.peerAct, Governance.slot, same, Ne.symm same] using step
  | peerConfirmed _ other newPeer since delay proposed made within ready fresh =>
      by_cases same : other = eid
      · subst same
        have step : DelayedChange.Step peerPolicy now (g.slot other) .confirm _ :=
          .confirm _ ⟨newPeer, since, delay⟩ (by simp [Governance.slot, proposed, made, within]) ready
            fresh
        simpa [Call.peerAct, Governance.slot, Governance.clearPendingPeer] using step
      · have step : DelayedChange.Step peerPolicy now (g.slot eid) .other _ := .other _
        simpa [Call.peerAct, Governance.slot, Governance.clearPendingPeer, same,
          Ne.symm same] using step
  | peerCancelled _ other =>
      by_cases same : other = eid
      · subst same
        have step : DelayedChange.Step peerPolicy now (g.slot other) .cancel _ := .cancel _
        simpa [Call.peerAct, Governance.slot, Governance.clearPendingPeer] using step
      · have step : DelayedChange.Step peerPolicy now (g.slot eid) .other _ := .other _
        simpa [Call.peerAct, Governance.slot, Governance.clearPendingPeer, same,
          Ne.symm same] using step

/-- Some move of the run is the admin's proposal of `newPeer` for `eid`, with a delay
    within bounds that is over at `time` but not by more than the grace period, and no
    later move touches the proposal. -/
def ProposedInTime (moves : List (World × Tx)) (eid : Eid) (newPeer : Bytes32) (time : Nat) :
    Prop :=
  ∃ before v proposal between delay admin,
    moves = before ++ (v, proposal) :: between ∧
    proposal.call = .proposePeer eid newPeer delay ∧
    v.admin = some admin ∧ proposal.host.authorized admin = true ∧
    minPeerChangeDelay ≤ delay ∧ delay ≤ maxPeerChangeDelay ∧
    proposal.timestamp + delay ≤ time ∧ time ≤ proposal.timestamp + delay + peerChangeGrace ∧
    ∀ m ∈ between, (∀ other delay', m.2.call ≠ .proposePeer eid other delay') ∧
      m.2.call ≠ .confirmPeer eid ∧ m.2.call ≠ .cancelPendingPeer eid

theorem slot_moves {d : Deployment} (eid : Eid) (w : World) (tx : Tx) (w' : World)
    (stepped : (system d).step w tx w') :
    (DelayedChange.system peerPolicy).step (w.governance.slot eid)
      (tx.timestamp, tx.call.peerAct eid) (w'.governance.slot eid) :=
  (exec_governed (next_ok.mp stepped).2).slot eid

theorem construct_slot {creation} {w : World} (made : construct creation = .ok w) (eid : Eid) :
    (w.governance.slot eid).pending = none := by
  simp only [construct, bind_ok, require_ok, exists_const, pure_ok] at made
  obtain ⟨-, rfl⟩ := made
  rfl

theorem peer_change_proposed {d : Deployment} {w₀ w w' : World} {moves : List (World × Tx)}
    {tx : Tx} {eid : Eid} (start : (system d).init w₀) (run : (system d).Run w₀ moves w)
    (stepped : next d w tx = some w') (different : w'.peer eid ≠ w.peer eid) :
    ∃ newPeer, w'.peer eid = some newPeer ∧ ProposedInTime moves eid newPeer tx.timestamp := by
  obtain ⟨creation, made⟩ := start
  -- The run as a run of the slot of `eid`.
  have seen := System.Run.mapped (S := system d) (A := DelayedChange.system peerPolicy)
    (fun w => w.governance.slot eid) (fun _ tx => (tx.timestamp, tx.call.peerAct eid))
    (fun w tx w' _ stepped => slot_moves eid w tx w' stepped) (.init ⟨creation, made⟩) run
  obtain ⟨proposal, standing, applied, ready, fresh⟩ := DelayedChange.changed
    (construct_slot made eid) seen (slot_moves eid w tx w' stepped) different
  obtain ⟨long, short, before, s, between, split, quiet⟩ := standing
  obtain ⟨before', others, rfl, rfl, rest⟩ := List.map_eq_append_iff.mp split
  obtain ⟨⟨v, tx'⟩, between', rfl, same, rfl⟩ := List.map_eq_cons_iff.mp rest
  obtain ⟨-, since, act⟩ : _ ∧ tx'.timestamp = proposal.since ∧ tx'.call.peerAct eid = _ := by
    simpa using same
  -- The state of the proposal names the admin who made it.
  obtain ⟨v', -, proposing, -⟩ := run.cut
  have call := Call.peerAct_propose.mp act
  have governed := exec_governed (next_ok.mp proposing).2
  rw [call] at governed
  refine ⟨proposal.value, applied, before', v, tx', between', proposal.delay, ?_⟩
  generalize after : v'.governance = g at governed
  cases governed with
  | same _ _ quiet => cases quiet
  | metered _ _ _ inbound => cases inbound
  | peerProposed _ _ _ _ admin byAdmin authorized =>
      refine ⟨admin, rfl, call, byAdmin, authorized, long, short, by rwa [since], by rwa [since], ?_⟩
      intro m member
      exact Call.peerAct_other.mp (quiet _ (List.mem_map_of_mem member))

namespace Sample

def proposeTx : Tx := tx 1699000000 1000 (.proposePeer 30101 escrow 86400)
def confirmTx : Tx := tx 1699086400 1100 (.confirmPeer 30101)

end Sample

theorem peer_change_proposed_sample :
    ∃ w, (system Sample.deployment).Run Sample.created [(Sample.created, Sample.proposeTx)] w ∧
      ∃ w' newPeer, next Sample.deployment w Sample.confirmTx = some w' ∧
        w'.peer 30101 = some newPeer ∧
        ProposedInTime [(Sample.created, Sample.proposeTx)] 30101 newPeer 1699086400 := by
  have replayed : ((next Sample.deployment Sample.created Sample.proposeTx).bind fun w =>
      (next Sample.deployment w Sample.confirmTx).map fun w' => (w.peer 30101, w'.peer 30101)) =
        some (none, some Sample.escrow) := by
    decide +kernel
  obtain ⟨w, proposed, rest⟩ := Option.bind_eq_some_iff.mp replayed
  obtain ⟨w', confirmed, same⟩ := Option.map_eq_some_iff.mp rest
  obtain ⟨absent, found⟩ := Prod.mk.inj same
  have run : (system Sample.deployment).Run Sample.created [(Sample.created, Sample.proposeTx)] w :=
    System.Run.snoc .nil proposed
  obtain ⟨newPeer, applied, behind⟩ := peer_change_proposed ⟨Sample.creation, rfl⟩ run confirmed
    (by rw [absent, found]; exact Option.some_ne_none _)
  exact ⟨w, run, w', newPeer, confirmed, applied, behind⟩

end Perihelion.Settlement

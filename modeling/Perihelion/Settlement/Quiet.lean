import Perihelion.Settlement.Steps

/-! # Calls that neither pay nor send

Administration and inbound messages add nothing but events to the trace, and the lifetime that
entries are given is changed by the call for it alone.
-/

namespace Perihelion.Settlement

open BigEndian Fallible

structure Quiet (w w' : World) : Prop where
  told : ∃ after, w'.trace = w.trace ++ after ∧ ∀ entry ∈ after, ∃ event, entry.effect = .publish event
  maxTtl : w'.maxTtl = w.maxTtl ∨ ∃ ttl, minMaxTtl ≤ ttl ∧ w'.maxTtl = some ttl

namespace Quiet

variable {w v w' : World}

theorem of_same (trace : v.trace = w.trace) (maxTtl : v.maxTtl = w.maxTtl) : Quiet w v where
  told := ⟨[], by rw [trace, List.append_nil], fun _ member => absurd member List.not_mem_nil⟩
  maxTtl := Or.inl maxTtl

theorem trans (first : Quiet w v) (second : Quiet v w') : Quiet w w' where
  told := by
    obtain ⟨before, grown, told⟩ := first.told
    obtain ⟨after, grown', told'⟩ := second.told
    refine ⟨before ++ after, by rw [grown', grown, List.append_assoc], ?_⟩
    intro entry member
    rcases List.mem_append.mp member with member | member
    · exact told entry member
    · exact told' entry member
  maxTtl := by
    rcases second.maxTtl with same | set
    · rw [same]
      exact first.maxTtl
    · exact Or.inr set

theorem publish (quiet : Quiet w v) (event : Event) : Quiet w (v.publish event) := by
  refine quiet.trans ⟨⟨[_], rfl, ?_⟩, Or.inl rfl⟩
  intro entry member
  rw [List.mem_singleton.mp member]
  exact ⟨event, rfl⟩

theorem published {event : Event} (trace : v.trace = w.trace) (maxTtl : v.maxTtl = w.maxTtl) :
    Quiet w (v.publish event) :=
  (of_same trace maxTtl).publish event

/-- Whatever looks at no event does not see the difference. -/
theorem filterMap (quiet : Quiet w w') {α : Type} {f : Entry → Option α}
    (blind : ∀ timestamp sequence event, f ⟨timestamp, sequence, .publish event⟩ = none) :
    w'.trace.filterMap f = w.trace.filterMap f := by
  obtain ⟨after, grown, told⟩ := quiet.told
  have nothing : after.filterMap f = [] := by
    rw [List.filterMap_eq_nil_iff]
    intro entry member
    obtain ⟨event, published⟩ := told entry member
    obtain ⟨timestamp, sequence, effect⟩ := entry
    obtain rfl : effect = .publish event := published
    exact blind timestamp sequence event
  rw [grown, List.filterMap_append, nothing, List.append_nil]

end Quiet

section

variable {w w' : World}

theorem enforceValueCaps_quiet {amount admitted}
    (ran : enforceValueCaps amount w = .ok (w', admitted)) : Quiet w w' := by
  have advanced (windowStart : Nat) : Quiet w (w.advanceWindow windowStart) := by
    unfold World.advanceWindow
    dsimp only
    split <;> exact .of_same rfl rfl
  simp only [enforceValueCaps, bind_ok, require_ok, exists_const] at ran
  obtain ⟨-, ran⟩ := ran
  split at ran
  · simp only [bind_ok, require_ok, exists_const] at ran
    obtain ⟨-, accumulated, -, ran⟩ := ran
    split at ran
    · simp only [bind_ok, pure_ok, Prod.mk.injEq] at ran
      obtain ⟨_, -, rfl, rfl⟩ := ran
      apply Quiet.publish
      exact (advanced _).trans (.of_same rfl rfl)
    · simp only [pure_ok, Prod.mk.injEq] at ran
      obtain ⟨rfl, rfl⟩ := ran
      exact (advanced _).trans (.of_same rfl rfl)
  · simp only [pure_ok, Prod.mk.injEq] at ran
    obtain ⟨rfl, rfl⟩ := ran
    exact .of_same rfl rfl

theorem onCancelInbound_quiet (eid : Eid) (ci : CancelInstruction) (w : World) :
    Quiet w (onCancelInbound eid ci w) := by
  unfold onCancelInbound
  split
  · exact .published rfl rfl
  · split
    · exact .published rfl rfl
    · split <;> exact .published rfl rfl

theorem applyInbound_quiet {origin message} (ran : applyInbound origin message w = .ok w') :
    Quiet w w' := by
  have accepts {v : World} (accepted : acceptNonce origin.srcEid origin.nonce w = .ok v) :
      Quiet w v := by
    simp only [acceptNonce, bind_ok, require_ok, exists_const, pure_ok] at accepted
    obtain ⟨-, -, -, rfl⟩ := accepted
    exact .of_same rfl rfl
  cases message with
  | fillInstruction fi =>
      obtain ⟨-, v, accepted, handled⟩ := applyInbound_fill.mp ran
      refine (accepts accepted).trans ?_
      cases onFillInstruction_arrival handled with
      | known => exact .of_same rfl rfl
      | refused _ _ _ _ caps => exact enforceValueCaps_quiet caps
      | registered _ _ _ _ caps =>
          apply Quiet.publish
          exact (enforceValueCaps_quiet caps).trans (.of_same rfl rfl)
  | cancel ci =>
      obtain ⟨v, accepted, rfl⟩ := applyInbound_cancel.mp ran
      exact (accepts accepted).trans (onCancelInbound_quiet _ _ _)

theorem pruneNonceWords_quiet {eid} (ran : pruneNonceWords eid w = .ok w') : Quiet w w' := by
  simp only [pruneNonceWords, requireNotPaused, bind_ok, require_ok, exists_const] at ran
  obtain ⟨-, -, ran⟩ := ran
  split at ran
  · cases ran
    exact .published rfl rfl
  · cases ran
    exact .of_same rfl rfl

/-- The calls that may pay or send. -/
def Call.spends : Call → Bool
  | .deliverIntent .. | .dispatchConfirmation .. | .fillIntent .. | .cancelExpiredIntent .. => true
  | _ => false

theorem Call.run_quiet {c : Context} {call : Call} (frugal : call.spends = false)
    (ran : call.run c w = .ok w') : Quiet w w' := by
  cases call with
  | lzReceiveBytes origin message =>
      simp only [Call.run, Settlement.lzReceiveBytes, bind_ok] at ran
      obtain ⟨_, -, _, -, applied⟩ := ran
      exact applyInbound_quiet applied
  | lzReceive origin message =>
      simp only [Call.run, Settlement.lzReceive, bind_ok] at ran
      obtain ⟨_, -, applied⟩ := ran
      exact applyInbound_quiet applied
  | setMaxTtl ttl =>
      simp only [Call.run, Settlement.setMaxTtl, bind_ok, require_ok, exists_const, pure_ok] at ran
      obtain ⟨-, -, ⟨least, -⟩, rfl⟩ := ran
      apply Quiet.publish
      exact ⟨⟨[], (List.append_nil _).symm, fun _ member => absurd member List.not_mem_nil⟩,
        Or.inr ⟨ttl, least, rfl⟩⟩
  | pruneNonceWords eid => exact pruneNonceWords_quiet ran
  | cancelPendingEndpoint | setPaused | setPausedEid | setDestTokenAllowed | setNativeToken
  | setEndpoint | cancelPendingPeer =>
      simp only [Call.run, Settlement.cancelPendingEndpoint, Settlement.setPaused,
        Settlement.setPausedEid, Settlement.setDestTokenAllowed, Settlement.setNativeToken,
        Settlement.setEndpoint, Settlement.cancelPendingPeer, bind_ok, pure_ok] at ran
      obtain ⟨-, -, rfl⟩ := ran
      exact .published rfl rfl
  | setKeeperReward | setDispatchKeeperReward | setMaxIntentAmount | setRollingWindowCap
  | resetRollingWindowCap =>
      simp only [Call.run, Settlement.setKeeperReward, Settlement.setDispatchKeeperReward,
        Settlement.setMaxIntentAmount, Settlement.setRollingWindowCap,
        Settlement.resetRollingWindowCap, bind_ok, require_ok, exists_const, pure_ok] at ran
      obtain ⟨-, -, -, rfl⟩ := ran
      exact .published rfl rfl
  | proposeEndpoint =>
      simp only [Call.run, Settlement.proposeEndpoint, bind_ok, pure_ok] at ran
      obtain ⟨-, -, readyAt, -, rfl⟩ := ran
      exact .published rfl rfl
  | confirmEndpoint =>
      simp only [Call.run, Settlement.confirmEndpoint, bind_ok, require_ok, exists_const,
        pure_ok] at ran
      obtain ⟨-, -, proposed, -, _, -, _, -, -, _, -, -, admin, -, -, rfl⟩ := ran
      exact .published rfl rfl
  | setAdmin =>
      simp only [Call.run, Settlement.setAdmin, bind_ok, pure_ok] at ran
      obtain ⟨current, -, -, -, rfl⟩ := ran
      exact .published rfl rfl
  | acceptAdmin =>
      simp only [Call.run, Settlement.acceptAdmin, bind_ok, pure_ok] at ran
      obtain ⟨pending, -, -, -, old, -, rfl⟩ := ran
      exact .published rfl rfl
  | proposePeer =>
      simp only [Call.run, Settlement.proposePeer, bind_ok, require_ok, exists_const, pure_ok] at ran
      obtain ⟨-, -, -, -, readyAt, -, rfl⟩ := ran
      exact .published rfl rfl
  | confirmPeer =>
      simp only [Call.run, Settlement.confirmPeer, bind_ok, require_ok, exists_const, pure_ok] at ran
      obtain ⟨-, -, newPeer, -, since, -, delay, -, _, -, -, _, -, -, rfl⟩ := ran
      exact .published rfl rfl
  | deliverIntent | dispatchConfirmation | fillIntent | cancelExpiredIntent => cases frugal

end

end Perihelion.Settlement

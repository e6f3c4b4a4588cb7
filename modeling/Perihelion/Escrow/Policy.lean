import Perihelion.Escrow.Controls

/-! # What the owner decides

The storage that only functions with `onlyOwner` write, the two slots of the handover included, and
what each transaction does to it.
-/

namespace Perihelion.Escrow

open BigEndian Fallible Transition

structure Policy where
  owner : Address
  pendingOwner : Address
  guardian : Address
  stellarPeer : Bytes32
  confirmationGrace : Nat
  assetAllowed : Address → Bool
  maxIntentAmountPerAsset : Address → Nat
  maxIntentAmount : Nat
  rollingWindowDuration : Nat
  rollingWindowCap : Nat
  rollingWindowCapPerAsset : Address → Nat

def World.policy (w : World) : Policy where
  owner := w.owner
  pendingOwner := w.pendingOwner
  guardian := w.guardian
  stellarPeer := w.stellarPeer
  confirmationGrace := w.confirmationGrace
  assetAllowed := w.assetAllowed
  maxIntentAmountPerAsset := w.maxIntentAmountPerAsset
  maxIntentAmount := w.maxIntentAmount
  rollingWindowDuration := w.rollingWindowDuration
  rollingWindowCap := w.rollingWindowCap
  rollingWindowCapPerAsset := w.rollingWindowCapPerAsset

/-- The functions with the modifier `onlyOwner`. -/
def Call.ownerOnly : Call → Bool
  | .pause | .decayGuardianPause | .acceptOwnership | .lock .. | .lzReceive .. | .cancelExpired .. => false
  | _ => true

@[simp] theorem World.emit_policy (w : World) (event : Event) : (w.emit event).policy = w.policy := rfl

@[simp] theorem World.settled_policy (w : World) (c : Context) (purpose intentHash mark receiver) :
    (w.settled c purpose intentHash mark receiver).policy = w.policy := rfl

@[simp] theorem World.sendBack_policy (w : World) (c : Context) (amount : Nat) :
    (w.sendBack c amount).policy = w.policy := by
  unfold World.sendBack
  split <;> rfl

@[simp] theorem World.guard_policy (w : World) (n : Nat) :
    ({ w with reentrancy := n } : World).policy = w.policy := rfl

@[simp] theorem World.enter_policy (w : World) (tx : Tx) : (w.enter tx).policy = w.policy := rfl

@[simp] theorem consumeNonce_policy (w : World) (srcEid nonce) :
    (consumeNonce srcEid nonce w).policy = w.policy := rfl

theorem construct_pending {d : Deployment} {creation} {w : World}
    (ran : construct d creation = .ok w) : w.policy.pendingOwner = 0 := by
  simp only [construct, bind_ok, require_ok, exists_const, pure_ok] at ran
  obtain ⟨-, rfl⟩ := ran
  rfl

theorem lock_policy {c : Context} {intent signature} {w w' : World}
    (ran : lock c intent signature w = .ok w') : w'.policy = w.policy := by
  simp only [lock, nonReentrant_ok, bind_ok, require_ok, exists_const, Prod.exists] at ran
  obtain ⟨-, v, ⟨-, -, intentHash, -, pulled, received, pull, recorded, record, dispatch⟩, rfl⟩ := ran
  obtain ⟨-, rfl⟩ := recordLock_ok.mp record
  have dispatched : v.policy = pulled.policy := by
    obtain ⟨quoted, arrived, rfl⟩ := dispatchFillInstruction_paid dispatch
    rw [World.sendBack_policy]
    rfl
  rw [World.guard_policy, dispatched]
  rcases pullFunds_cases pull with pulled | ⟨-, -, -, rfl⟩
  · have committed := pulled.committed
    unfold commitValueCaps at committed
    split at committed
    · simp only [bind_ok, pure_ok] at committed
      obtain ⟨_, -, rfl⟩ := committed
      rfl
    · cases committed
      rfl
  · exact World.sendBack_policy _ c c.value

theorem lzReceive_policy {c : Context} {origin message} {w w' : World}
    (ran : lzReceive c origin message w = .ok w') : w'.policy = w.policy :=
  lzReceive_view World.settled_policy World.emit_policy World.guard_policy consumeNonce_policy ran

/-- What a transaction does to the policy: the owner sets, or the nominated owner accepts. -/
inductive PolicyMove (tx : Tx) (p : Policy) : Policy → Prop
  | kept : tx.call.ownerOnly = false → PolicyMove tx p p
  | set (q : Policy) : tx.call.ownerOnly = true → tx.sender = p.owner → q.owner = p.owner →
      q.pendingOwner = p.pendingOwner → PolicyMove tx p q
  | nominated (newOwner : Address) : tx.call = .transferOwnership newOwner → tx.sender = p.owner →
      PolicyMove tx p { p with pendingOwner := newOwner }
  | withdrawn : tx.call = .cancelOwnershipTransfer → tx.sender = p.owner →
      PolicyMove tx p { p with pendingOwner := 0 }
  | accepted : tx.call = .acceptOwnership → tx.sender = p.pendingOwner →
      PolicyMove tx p { p with owner := p.pendingOwner, pendingOwner := 0 }

theorem exec_policy {d : Deployment} {tx : Tx} {w w' : World} (ran : exec d tx w = .ok w') :
    PolicyMove tx w.policy w'.policy := by
  obtain ⟨-, ran⟩ := exec_ok.mp ran
  have kept (other : tx.call.ownerOnly = false) (same : w'.policy = w.policy) :
      PolicyMove tx w.policy w'.policy := same ▸ .kept other
  cases call : tx.call with
  | lock intent signature =>
      rw [call] at ran
      exact kept (by rw [call]; rfl) ((lock_policy ran).trans (World.enter_policy w tx))
  | lzReceive origin message =>
      rw [call] at ran
      exact kept (by rw [call]; rfl) ((lzReceive_policy ran).trans (World.enter_policy w tx))
  | cancelExpired intentHash =>
      rw [call] at ran
      obtain ⟨-, -, -, -, rfl⟩ := cancelExpired_ok.mp ran
      exact kept (by rw [call]; rfl) (by simp)
  | skim token receiver amount =>
      rw [call] at ran
      simp only [Call.run, Escrow.skim, onlyOwner, bind_ok, require_ok, exists_const, safeTransfer_ok,
        pure_ok] at ran
      obtain ⟨owner, -, _, -, -, _, ⟨-, -, rfl⟩, rfl⟩ := ran
      exact .set _ (by rw [call]; rfl) owner rfl rfl
  | skimNative receiver amount =>
      rw [call] at ran
      simp only [Call.run, Escrow.skimNative, onlyOwner, bind_ok, require_ok, exists_const,
        expect_ok, callWithValue_some, pure_ok] at ran
      obtain ⟨owner, -, -, _, ⟨-, rfl⟩, rfl⟩ := ran
      exact .set _ (by rw [call]; rfl) owner rfl rfl
  | pause =>
      rw [call] at ran
      simp only [Call.run, Escrow.pause, bind_ok, require_ok, exists_const] at ran
      obtain ⟨-, ran⟩ := ran
      split at ran
      · simp only [bind_ok, require_ok, exists_const, pure_ok] at ran
        obtain ⟨-, _, -, rfl⟩ := ran
        exact kept (by rw [call]; rfl) rfl
      · cases ran
        exact kept (by rw [call]; rfl) rfl
  | decayGuardianPause =>
      rw [call] at ran
      simp only [Call.run, Escrow.decayGuardianPause, bind_ok, require_ok, exists_const,
        pure_ok] at ran
      obtain ⟨-, -, _, -, rfl⟩ := ran
      exact kept (by rw [call]; rfl) rfl
  | acceptOwnership =>
      rw [call] at ran
      simp only [Call.run, Escrow.acceptOwnership, bind_ok, require_ok, exists_const, pure_ok] at ran
      obtain ⟨pending, rfl⟩ := ran
      exact .accepted call pending
  | transferOwnership newOwner =>
      rw [call] at ran
      simp only [Call.run, Escrow.transferOwnership, onlyOwner, bind_ok, require_ok, exists_const,
        pure_ok] at ran
      obtain ⟨owner, rfl⟩ := ran
      exact .nominated newOwner call owner
  | cancelOwnershipTransfer =>
      rw [call] at ran
      simp only [Call.run, Escrow.cancelOwnershipTransfer, onlyOwner, bind_ok, require_ok,
        exists_const, pure_ok] at ran
      obtain ⟨owner, -, rfl⟩ := ran
      exact .withdrawn call owner
  | setPeer | setAssetAllowed =>
      rw [call] at ran
      simp only [Call.run, Escrow.setPeer, Escrow.setAssetAllowed, onlyOwner, bind_ok, require_ok,
        exists_const, pure_ok] at ran
      obtain ⟨owner, -, rfl⟩ := ran
      exact .set _ (by rw [call]; rfl) owner rfl rfl
  | setGuardian | setPaused | setMaxIntentAmount | setMaxIntentAmountPerAsset =>
      rw [call] at ran
      simp only [Call.run, Escrow.setGuardian, Escrow.setPaused, Escrow.setMaxIntentAmount,
        Escrow.setMaxIntentAmountPerAsset, onlyOwner, bind_ok, require_ok, exists_const,
        pure_ok] at ran
      obtain ⟨owner, rfl⟩ := ran
      exact .set _ (by rw [call]; rfl) owner rfl rfl
  | setConfirmationGrace | setRollingWindowCap =>
      rw [call] at ran
      simp only [Call.run, Escrow.setConfirmationGrace, Escrow.setRollingWindowCap, onlyOwner,
        bind_ok, require_ok, exists_const, pure_ok] at ran
      obtain ⟨owner, -, -, rfl⟩ := ran
      exact .set _ (by rw [call]; rfl) owner rfl rfl
  | setRollingWindowCapForAsset =>
      rw [call] at ran
      simp only [Call.run, Escrow.setRollingWindowCapForAsset, onlyOwner, bind_ok, require_ok,
        exists_const, pure_ok] at ran
      obtain ⟨owner, -, -, -, rfl⟩ := ran
      exact .set _ (by rw [call]; rfl) owner rfl rfl
  | resetRollingWindowCap =>
      rw [call] at ran
      simp only [Call.run, Escrow.resetRollingWindowCap, onlyOwner, bind_ok, require_ok,
        exists_const, pure_ok] at ran
      obtain ⟨owner, -, rfl⟩ := ran
      refine .set _ (by rw [call]; rfl) owner ?_ ?_
      · split <;> rfl
      · split <;> rfl

end Perihelion.Escrow

import Perihelion.Escrow.WindowCap

/-! # Who moves the controls of the escrow

Ownership, the pause with its two clocks and the grace are written by administrative
calls only.  The limits of what a lock may bring in are written by their setters only.
-/

namespace Perihelion.Escrow

open BigEndian Fallible Transition

structure Controls where
  owner : Address
  guardian : Address
  paused : Bool
  guardianPauseExpiry : Nat
  guardianPauseCooldownUntil : Nat
  confirmationGrace : Nat

def World.controls (w : World) : Controls :=
  ⟨w.owner, w.guardian, w.paused, w.guardianPauseExpiry, w.guardianPauseCooldownUntil,
    w.confirmationGrace⟩

structure Limits where
  maxIntentAmountPerAsset : Address → Nat
  rollingWindowDuration : Nat
  rollingWindowCapPerAsset : Address → Nat

def World.limits (w : World) : Limits :=
  ⟨w.maxIntentAmountPerAsset, w.rollingWindowDuration, w.rollingWindowCapPerAsset⟩

/-- The settings that only administrative calls write. -/
def World.settings (w : World) : Controls × Limits := (w.controls, w.limits)

@[simp] theorem World.emit_settings (w : World) (event : Event) :
    (w.emit event).settings = w.settings := rfl

@[simp] theorem World.settled_settings (w : World) (c : Context) (purpose intentHash mark receiver) :
    (w.settled c purpose intentHash mark receiver).settings = w.settings := rfl

@[simp] theorem World.sendBack_settings (w : World) (c : Context) (amount : Nat) :
    (w.sendBack c amount).settings = w.settings := by
  unfold World.sendBack
  split <;> rfl

@[simp] theorem World.guard_settings (w : World) (n : Nat) :
    ({ w with reentrancy := n } : World).settings = w.settings := rfl

@[simp] theorem consumeNonce_settings (w : World) (srcEid nonce) :
    (consumeNonce srcEid nonce w).settings = w.settings := rfl

theorem commitValueCaps_settings {asset received} {w w' : World}
    (ran : commitValueCaps asset received w = .ok w') : w'.settings = w.settings := by
  unfold commitValueCaps at ran
  split at ran
  · simp only [bind_ok, pure_ok] at ran
    obtain ⟨_, -, rfl⟩ := ran
    rfl
  · cases ran
    rfl

theorem dispatchFillInstruction_settings {c : Context} {intentHash intent} {w w' : World}
    (ran : dispatchFillInstruction c intentHash intent w = .ok w') : w'.settings = w.settings := by
  obtain ⟨quoted, arrived, rfl⟩ := dispatchFillInstruction_paid ran
  rw [World.sendBack_settings]
  rfl

theorem lock_settings {c : Context} {intent signature} {w w' : World}
    (ran : lock c intent signature w = .ok w') : w'.settings = w.settings := by
  simp only [lock, nonReentrant_ok, bind_ok, require_ok, exists_const, Prod.exists] at ran
  obtain ⟨-, v, ⟨-, -, intentHash, -, pulled, received, pull, recorded, record, dispatch⟩, rfl⟩ := ran
  obtain ⟨-, rfl⟩ := recordLock_ok.mp record
  have dispatched := dispatchFillInstruction_settings dispatch
  rw [World.guard_settings, dispatched]
  rcases pullFunds_cases pull with pulled | ⟨-, -, -, rfl⟩
  · have committed := commitValueCaps_settings pulled.committed
    exact committed
  · exact World.sendBack_settings _ c c.value

theorem lzReceive_settings {c : Context} {origin message} {w w' : World}
    (ran : lzReceive c origin message w = .ok w') : w'.settings = w.settings :=
  lzReceive_view World.settled_settings World.emit_settings World.guard_settings consumeNonce_settings ran

/-- The calls that lock, settle and recover leave every setting alone. -/
theorem Call.run_settings {c : Context} {call : Call} {w w' : World} (other : call.admin = false)
    (ran : call.run c w = .ok w') : w'.settings = w.settings := by
  cases call with
  | lock intent signature => exact lock_settings ran
  | lzReceive origin message => exact lzReceive_settings ran
  | cancelExpired intentHash =>
      obtain ⟨-, -, -, -, rfl⟩ := cancelExpired_ok.mp ran
      simp
  | skim token receiver amount =>
      simp only [Call.run, Escrow.skim, onlyOwner, bind_ok, require_ok, exists_const, safeTransfer_ok,
        pure_ok] at ran
      obtain ⟨-, -, _, -, -, _, ⟨-, -, rfl⟩, rfl⟩ := ran
      rfl
  | _ => cases other

theorem construct_settings {d : Deployment} {creation : Creation} {w : World}
    (made : construct d creation = .ok w) :
    w.settings = (⟨creation.deployer, 0, false, 0, 0, 7200⟩, ⟨fun _ => 0, 0, fun _ => 0⟩) := by
  simp only [construct, bind_ok, require_ok, exists_const, pure_ok] at made
  obtain ⟨-, rfl⟩ := made
  rfl

/-! ## The moves -/

/-- The calls that may write a control. -/
def Call.steers : Call → Bool
  | .acceptOwnership | .setGuardian _ | .setConfirmationGrace _ | .setPaused _ | .pause
  | .decayGuardianPause => true
  | _ => false

/-- The ways in which a transaction moves the controls. -/
inductive ControlMove (tx : Tx) (c : Controls) : Controls → Prop
  | same : tx.call.steers = false → ControlMove tx c c
  | owned (owner : Address) : tx.call = .acceptOwnership → owner = tx.sender →
      ControlMove tx c { c with owner := owner }
  | guarded (guardian : Address) : tx.call = .setGuardian guardian → tx.sender = c.owner →
      ControlMove tx c { c with guardian := guardian }
  | graced (grace : Nat) : tx.call = .setConfirmationGrace grace → tx.sender = c.owner →
      grace ≤ maxConfirmationGrace → ControlMove tx c { c with confirmationGrace := grace }
  | pausedSet (paused : Bool) : tx.call = .setPaused paused → tx.sender = c.owner →
      ControlMove tx c
        { c with
          paused := paused
          guardianPauseExpiry := 0
          guardianPauseCooldownUntil := if paused then c.guardianPauseCooldownUntil else 0 }
  | guardianPaused : tx.call = .pause → tx.sender = c.guardian →
      c.guardianPauseCooldownUntil ≤ tx.timestamp →
      ControlMove tx c
        { c with paused := true, guardianPauseExpiry := tx.timestamp + guardianPauseTtl }
  | ownerPaused : tx.call = .pause → tx.sender = c.owner → tx.sender ≠ c.guardian →
      ControlMove tx c { c with paused := true, guardianPauseExpiry := 0 }
  | decayed : tx.call = .decayGuardianPause → c.guardianPauseExpiry ≠ 0 →
      c.guardianPauseExpiry ≤ tx.timestamp →
      ControlMove tx c
        { c with
          paused := false
          guardianPauseExpiry := 0
          guardianPauseCooldownUntil := tx.timestamp + guardianPauseTtl }

/-- No other call moves the grace. -/
theorem ControlMove.grace_kept {tx : Tx} {c c' : Controls} (move : ControlMove tx c c')
    (other : ∀ grace, tx.call ≠ .setConfirmationGrace grace) :
    c'.confirmationGrace = c.confirmationGrace := by
  cases move with
  | graced grace call => exact absurd call (other grace)
  | same | owned | guarded | pausedSet | guardianPaused | ownerPaused | decayed => rfl

/-- The calls that may write a limit. -/
def Call.limits : Call → Bool
  | .setMaxIntentAmountPerAsset .. | .setRollingWindowCap .. | .setRollingWindowCapForAsset .. => true
  | _ => false

/-- The ways in which a transaction moves the limits. -/
inductive LimitMove (tx : Tx) (l : Limits) : Limits → Prop
  | same : tx.call.limits = false → LimitMove tx l l
  | amount (asset : Address) (maxAmount : Nat) :
      tx.call = .setMaxIntentAmountPerAsset asset maxAmount →
      LimitMove tx l
        { l with
          maxIntentAmountPerAsset := Function.update l.maxIntentAmountPerAsset asset maxAmount }
  | window (windowDuration cap : Nat) : tx.call = .setRollingWindowCap windowDuration cap →
      windowDuration ≤ tx.timestamp → LimitMove tx l { l with rollingWindowDuration := windowDuration }
  | assetWindow (asset : Address) (windowDuration cap : Nat) :
      tx.call = .setRollingWindowCapForAsset asset windowDuration cap →
      windowDuration ≤ tx.timestamp →
      LimitMove tx l
        { l with
          rollingWindowDuration := windowDuration
          rollingWindowCapPerAsset := Function.update l.rollingWindowCapPerAsset asset cap }

/-- A new duration lies within the time that has passed. -/
theorem LimitMove.duration {tx : Tx} {l l' : Limits} (move : LimitMove tx l l') :
    l'.rollingWindowDuration = l.rollingWindowDuration ∨ l'.rollingWindowDuration ≤ tx.timestamp := by
  cases move with
  | same | amount => exact Or.inl rfl
  | window _ _ _ past | assetWindow _ _ _ _ past => exact Or.inr past

theorem LimitMove.unchanged {tx : Tx} {l l' : Limits} (move : LimitMove tx l l')
    (idle : tx.call.limits = false) : l' = l := by
  cases move with
  | same => rfl
  | amount _ _ call | window _ _ call | assetWindow _ _ _ call =>
      rw [call] at idle
      cases idle

/-- The one case analysis of the settings: no call writes both a control and a limit. -/
theorem exec_settings {d : Deployment} {tx : Tx} {w w' : World} (ran : exec d tx w = .ok w') :
    ControlMove tx w.controls w'.controls ∧ LimitMove tx w.limits w'.limits := by
  obtain ⟨-, ran⟩ := exec_ok.mp ran
  have unsteered {l : Limits} (steers : tx.call.steers = false) (move : LimitMove tx w.limits l) :
      ControlMove tx w.controls w.controls ∧ LimitMove tx w.limits l := ⟨.same steers, move⟩
  have unlimited {c : Controls} (limits : tx.call.limits = false) (move : ControlMove tx w.controls c) :
      ControlMove tx w.controls c ∧ LimitMove tx w.limits w.limits := ⟨move, .same limits⟩
  cases call : tx.call with
  | lock | lzReceive | cancelExpired | skim =>
      have kept := Call.run_settings (by rw [call]; rfl) ran
      have controls : w'.controls = w.controls := congrArg Prod.fst kept
      have limits : w'.limits = w.limits := congrArg Prod.snd kept
      rw [controls, limits]
      exact unlimited (by rw [call]; rfl) (.same (by rw [call]; rfl))
  | acceptOwnership =>
      rw [call] at ran
      simp only [Call.run, Escrow.acceptOwnership, bind_ok, require_ok, exists_const, pure_ok] at ran
      obtain ⟨pending, rfl⟩ := ran
      exact unlimited (by rw [call]; rfl) (.owned _ call pending.symm)
  | setGuardian guardian =>
      rw [call] at ran
      simp only [Call.run, Escrow.setGuardian, onlyOwner, bind_ok, require_ok, exists_const,
        pure_ok] at ran
      obtain ⟨owner, rfl⟩ := ran
      exact unlimited (by rw [call]; rfl) (.guarded guardian call owner)
  | setConfirmationGrace grace =>
      rw [call] at ran
      simp only [Call.run, Escrow.setConfirmationGrace, onlyOwner, bind_ok, require_ok, exists_const,
        pure_ok] at ran
      obtain ⟨owner, atMost, -, rfl⟩ := ran
      exact unlimited (by rw [call]; rfl) (.graced grace call owner atMost)
  | setPaused paused =>
      rw [call] at ran
      simp only [Call.run, Escrow.setPaused, onlyOwner, bind_ok, require_ok, exists_const,
        pure_ok] at ran
      obtain ⟨owner, rfl⟩ := ran
      exact unlimited (by rw [call]; rfl) (.pausedSet paused call owner)
  | pause =>
      rw [call] at ran
      simp only [Call.run, Escrow.pause, bind_ok, require_ok, exists_const] at ran
      obtain ⟨authorized, ran⟩ := ran
      split at ran
      · rename_i guardian
        simp only [bind_ok, require_ok, exists_const, addBelow_ok, pure_ok] at ran
        obtain ⟨cooled, _, ⟨-, rfl⟩, rfl⟩ := ran
        exact unlimited (by rw [call]; rfl) (.guardianPaused call guardian cooled)
      · rename_i other
        cases ran
        exact unlimited (by rw [call]; rfl)
          (.ownerPaused call (authorized.resolve_right other) other)
  | decayGuardianPause =>
      rw [call] at ran
      simp only [Call.run, Escrow.decayGuardianPause, bind_ok, require_ok, exists_const, addBelow_ok,
        pure_ok] at ran
      obtain ⟨set, due, _, ⟨-, rfl⟩, rfl⟩ := ran
      exact unlimited (by rw [call]; rfl) (.decayed call set due)
  | setMaxIntentAmountPerAsset asset maxAmount =>
      rw [call] at ran
      simp only [Call.run, Escrow.setMaxIntentAmountPerAsset, onlyOwner, bind_ok, require_ok,
        exists_const, pure_ok] at ran
      obtain ⟨-, rfl⟩ := ran
      exact unsteered (by rw [call]; rfl) (.amount asset maxAmount call)
  | setRollingWindowCap windowDuration cap =>
      rw [call] at ran
      simp only [Call.run, Escrow.setRollingWindowCap, onlyOwner, bind_ok, require_ok, exists_const,
        pure_ok] at ran
      obtain ⟨-, -, past, rfl⟩ := ran
      exact unsteered (by rw [call]; rfl) (.window windowDuration cap call past)
  | setRollingWindowCapForAsset asset windowDuration cap =>
      rw [call] at ran
      simp only [Call.run, Escrow.setRollingWindowCapForAsset, onlyOwner, bind_ok, require_ok,
        exists_const, pure_ok] at ran
      obtain ⟨-, -, -, past, rfl⟩ := ran
      exact unsteered (by rw [call]; rfl) (.assetWindow asset windowDuration cap call past)
  | setPeer | setAssetAllowed | cancelOwnershipTransfer =>
      rw [call] at ran
      simp only [Call.run, Escrow.setPeer, Escrow.setAssetAllowed, Escrow.cancelOwnershipTransfer,
        onlyOwner, bind_ok, require_ok, exists_const, pure_ok] at ran
      obtain ⟨-, -, rfl⟩ := ran
      exact unsteered (by rw [call]; rfl) (.same (by rw [call]; rfl))
  | setMaxIntentAmount | transferOwnership =>
      rw [call] at ran
      simp only [Call.run, Escrow.setMaxIntentAmount, Escrow.transferOwnership, onlyOwner, bind_ok,
        require_ok, exists_const, pure_ok] at ran
      obtain ⟨-, rfl⟩ := ran
      exact unsteered (by rw [call]; rfl) (.same (by rw [call]; rfl))
  | resetRollingWindowCap =>
      rw [call] at ran
      simp only [Call.run, Escrow.resetRollingWindowCap, onlyOwner, bind_ok, require_ok,
        exists_const, pure_ok] at ran
      obtain ⟨-, -, rfl⟩ := ran
      split
      · exact unsteered (by rw [call]; rfl) (.same (by rw [call]; rfl))
      · exact unsteered (by rw [call]; rfl) (.same (by rw [call]; rfl))
  | skimNative receiver amount =>
      rw [call] at ran
      simp only [Call.run, Escrow.skimNative, onlyOwner, bind_ok, require_ok, exists_const,
        expect_ok, callWithValue_some, pure_ok] at ran
      obtain ⟨-, -, -, _, ⟨-, rfl⟩, rfl⟩ := ran
      exact unsteered (by rw [call]; rfl) (.same (by rw [call]; rfl))

theorem exec_controlMove {d : Deployment} {tx : Tx} {w w' : World} (ran : exec d tx w = .ok w') :
    ControlMove tx w.controls w'.controls :=
  (exec_settings ran).1

theorem exec_limitMove {d : Deployment} {tx : Tx} {w w' : World} (ran : exec d tx w = .ok w') :
    LimitMove tx w.limits w'.limits :=
  (exec_settings ran).2

theorem exec_timestamp {d : Deployment} {tx : Tx} {w w' : World} (ran : exec d tx w = .ok w') :
    w'.timestamp = tx.timestamp := by
  cases exec_meterMove ran with
  | other _ kept => exact congrArg Meter.timestamp kept
  | reset _ timestamp => exact timestamp
  | breached _ _ _ _ _ meter => exact congrArg Meter.timestamp meter
  | pulled _ _ _ _ _ _ _ _ meter =>
      have clock := congrArg Meter.timestamp meter
      split at clock
      · exact clock
      · exact clock

/-- Every step moves the controls by a transaction or leaves them. -/
theorem next_controls {d : Deployment} {w w' : World} {input : Input}
    (stepped : next d w input = some w') :
    (∃ tx, input = .tx tx ∧ w.timestamp ≤ tx.timestamp ∧ w'.timestamp = tx.timestamp ∧
        ControlMove tx w.controls w'.controls) ∨
      (∀ tx, input ≠ .tx tx) ∧ w'.timestamp = w.timestamp ∧ w'.controls = w.controls := by
  cases input with
  | tx tx =>
      obtain ⟨later, ran⟩ := next_tx.mp stepped
      exact Or.inl ⟨tx, rfl, later, exec_timestamp ran, exec_controlMove ran⟩
  | tokenArrives | nativeArrives =>
      cases stepped
      exact Or.inr ⟨by simp, rfl, rfl⟩

end Perihelion.Escrow

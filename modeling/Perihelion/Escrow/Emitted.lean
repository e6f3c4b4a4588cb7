import Perihelion.Escrow.Steps

/-! # Locked events

Only a lock call emits one, and it sends one message with it.
-/

namespace Perihelion.Escrow

open BigEndian Fallible

structure LockedEvent where
  intentHash : Bytes32
  solver : Address
  user : Address
  asset : Address
  amount : Nat
  destination : Bytes
  destAsset : Bytes
  minDestAmount : Nat
  deadline : Nat
  deriving DecidableEq

def Effect.locked : Effect → Option LockedEvent
  | .emit (.locked intentHash solver user asset amount destination destAsset minDestAmount deadline) =>
      some ⟨intentHash, solver, user, asset, amount, destination, destAsset, minDestAmount, deadline⟩
  | _ => none

def World.lockedEvents (w : World) : List LockedEvent := w.trace.filterMap Effect.locked

theorem World.lockedEvents_quiet {w v : World} {effect : Effect} (trace : v.trace = w.trace ++ [effect])
    (quiet : effect.locked = none) : v.lockedEvents = w.lockedEvents := by
  simp [World.lockedEvents, trace, quiet]

theorem World.emit_lockedEvents (w : World) (event : Event) (quiet : (Effect.emit event).locked = none) :
    (w.emit event).lockedEvents = w.lockedEvents :=
  World.lockedEvents_quiet rfl quiet

theorem World.guard_lockedEvents (w : World) (n : Nat) :
    ({ w with reentrancy := n } : World).lockedEvents = w.lockedEvents := rfl

theorem consumeNonce_lockedEvents (w : World) (srcEid nonce) :
    (consumeNonce srcEid nonce w).lockedEvents = w.lockedEvents := rfl

theorem World.sendBack_lockedEvents (w : World) (c : Context) (amount : Nat) :
    (w.sendBack c amount).lockedEvents = w.lockedEvents := by
  unfold World.sendBack
  split
  · exact World.lockedEvents_quiet rfl rfl
  · rfl

theorem World.settled_lockedEvents (w : World) (c : Context) (purpose intentHash mark receiver) :
    (w.settled c purpose intentHash mark receiver).lockedEvents = w.lockedEvents :=
  World.lockedEvents_quiet rfl rfl

theorem pullFunds_lockedEvents {c : Context} {intent} {w w' : World} {received}
    (ran : pullFunds c intent w = .ok (w', received)) : w'.lockedEvents = w.lockedEvents := by
  rcases pullFunds_cases ran with pulled | ⟨-, -, -, rfl⟩
  · have committed := pulled.committed
    unfold commitValueCaps at committed
    split at committed
    · simp only [bind_ok, pure_ok] at committed
      obtain ⟨_, -, rfl⟩ := committed
      exact World.lockedEvents_quiet rfl rfl
    · cases committed
      exact World.lockedEvents_quiet rfl rfl
  · rw [World.sendBack_lockedEvents, World.latch, World.emit_lockedEvents _ _ rfl]
    rfl

theorem dispatchFillInstruction_lockedEvents {c : Context} {intentHash intent} {w w' : World}
    (ran : dispatchFillInstruction c intentHash intent w = .ok w') :
    w'.lockedEvents = w.lockedEvents := by
  obtain ⟨quoted, arrived, rfl⟩ := dispatchFillInstruction_paid ran
  rw [World.sendBack_lockedEvents]
  exact World.lockedEvents_quiet rfl rfl

/-- What a lock call reports, with the amount that was received. -/
def lockedEvent (c : Context) (intent : Intent) (received : Nat) : LockedEvent where
  intentHash := hashIntent c.toDeployment intent
  solver := c.sender
  user := intent.user
  asset := intent.sourceAsset
  amount := received
  destination := intent.destination
  destAsset := intent.destAsset
  minDestAmount := intent.minDestAmount % uint128
  deadline := intent.deadline % uint64

/-- One event and one message, of an intent that has passed its checks. -/
theorem lock_emits {c : Context} {intent signature} {w w' : World}
    (ran : lock c intent signature w = .ok w') :
    StaticChecks intent w.timestamp ∧
      w'.sent = w.sent ++ [fillInstructionParams c (hashIntent c.toDeployment intent) intent w] ∧
      ∃ received, w'.lockedEvents = w.lockedEvents ++ [lockedEvent c intent received] := by
  obtain ⟨-, intentHash, _, valid, -, -, -, -, sent⟩ := lock_ok ran
  obtain ⟨checks, -, -, -, -, -, rfl⟩ := validateIntent_iff.mp valid
  refine ⟨checks, sent, ?_⟩
  simp only [lock, nonReentrant_ok, bind_ok, require_ok, exists_const, Prod.exists] at ran
  obtain ⟨-, v, ⟨-, -, intentHash, again, pulled, received, pull, recorded, record, dispatch⟩, rfl⟩ :=
    ran
  obtain ⟨-, rfl⟩ := recordLock_ok.mp record
  have hash : intentHash = hashIntent c.toDeployment intent := (validateIntent_ok again).1
  subst hash
  refine ⟨received, ?_⟩
  have before : pulled.lockedEvents = ({ w with reentrancy := 2 } : World).lockedEvents :=
    pullFunds_lockedEvents pull
  have same : ({ w with reentrancy := 2 } : World).lockedEvents = w.lockedEvents := rfl
  have after : v.lockedEvents = _ := dispatchFillInstruction_lockedEvents dispatch
  rw [show ({ v with reentrancy := 1 } : World).lockedEvents = v.lockedEvents from rfl, after, ← same,
    ← before]
  simp [World.recorded, World.emit, World.log, World.lockedEvents, Effect.locked, lockedEvent, newLock]

theorem Effect.administrative_quiet {effect : Effect} (own : effect.administrative = true) :
    effect.locked = none := by
  cases effect with
  | emit event =>
      cases event with
      | locked => cases own
      | _ => rfl
  | _ => rfl

theorem Call.run_lockedEvents {c : Context} {call : Call} {w w' : World} (admin : call.admin = true)
    (ran : call.run c w = .ok w') : w'.lockedEvents = w.lockedEvents := by
  obtain ⟨effects, trace, own⟩ := (Call.run_write admin ran).trace
  have quiet : effects.filterMap Effect.locked = [] := by
    rw [List.filterMap_eq_nil_iff]
    intro effect member
    exact Effect.administrative_quiet (own effect member)
  rw [World.lockedEvents, trace, List.filterMap_append, quiet, List.append_nil]
  rfl

theorem handleMessage_lockedEvents {c : Context} {message} {w w' : World}
    (ran : handleMessage c message w = .ok w') : w'.lockedEvents = w.lockedEvents := by
  rcases handleMessage_ok.mp ran with ⟨-, -, ran⟩ | ⟨-, -, ran⟩
  · obtain ⟨m, -, -, -, -, rfl⟩ := onFillConfirmed_ok.mp ran
    rw [World.emit_lockedEvents _ _ rfl, World.settled_lockedEvents]
  · obtain ⟨m, -, (⟨-, rfl⟩ | ⟨-, -, rfl⟩ | ⟨-, rfl⟩)⟩ := onCancelIntent_ok.mp ran
    · exact World.emit_lockedEvents _ _ rfl
    · exact World.emit_lockedEvents _ _ rfl
    · rw [World.emit_lockedEvents _ _ rfl, World.settled_lockedEvents]

/-- No other call reports a lock. -/
theorem exec_quiet {d : Deployment} {tx : Tx} {w w' : World} (ran : exec d tx w = .ok w')
    (unlocking : ∀ intent signature, tx.call ≠ .lock intent signature) :
    w'.lockedEvents = w.lockedEvents := by
  obtain ⟨-, ran⟩ := exec_ok.mp ran
  have entered : (w.enter tx).lockedEvents = w.lockedEvents := rfl
  rw [← entered]
  cases call : tx.call with
  | lock intent signature => exact absurd call (unlocking intent signature)
  | lzReceive origin message =>
      rw [call] at ran
      obtain ⟨-, -, -, -, v, handled, rfl⟩ := lzReceive_ok.mp ran
      rw [World.guard_lockedEvents, handleMessage_lockedEvents handled, consumeNonce_lockedEvents,
        World.guard_lockedEvents]
  | cancelExpired intentHash =>
      rw [call] at ran
      obtain ⟨-, -, -, -, rfl⟩ := cancelExpired_ok.mp ran
      rw [World.guard_lockedEvents, World.emit_lockedEvents _ _ rfl, World.settled_lockedEvents]
  | skim token receiver amount =>
      rw [call] at ran
      simp only [Call.run, Escrow.skim, onlyOwner, bind_ok, require_ok, exists_const, safeTransfer_ok,
        pure_ok] at ran
      obtain ⟨-, -, _, -, -, _, ⟨-, -, rfl⟩, rfl⟩ := ran
      rw [World.emit_lockedEvents _ _ rfl]
      exact World.lockedEvents_quiet rfl rfl
  | _ => exact Call.run_lockedEvents (by rw [call]; rfl) ran

end Perihelion.Escrow

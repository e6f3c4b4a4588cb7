import Mathlib.Data.List.Count
import Perihelion.Settlement.WindowCap

/-! # What becomes of a FillInstruction

A call that fails changes nothing, so its message can be delivered again.  One that
succeeds has consumed the nonce, and the intent is then recorded or had been dealt with
before.  The one exception is the message that trips the breaker, and before the next
reset there is no second one.
-/

namespace Perihelion.Settlement

open BigEndian Fallible Transition RollingWindow

/-! ## Nonces -/

def World.nonces (w : World) : (Eid → Nat → Option (BitVec 64)) × (Eid → Option Nat) :=
  (w.inboundNonceWord, w.inboundNonceFloor)

theorem World.nonces_advanceWindow (w : World) (windowStart : Nat) :
    (w.advanceWindow windowStart).nonces = w.nonces := by
  unfold World.advanceWindow
  dsimp only
  split <;> rfl

theorem enforceValueCaps_nonces {amount} {w w' : World} {admitted}
    (ran : enforceValueCaps amount w = .ok (w', admitted)) : w'.nonces = w.nonces := by
  have advanced := w.nonces_advanceWindow (start w.duration w.timestamp)
  obtain ⟨-, outcome⟩ := enforceValueCaps_ok.mp ran
  rcases outcome with ⟨-, rfl, -⟩ | ⟨-, -, accumulated, -, ⟨-, -, rfl⟩ | ⟨-, -, -, rfl⟩⟩
  · rfl
  · exact advanced
  · exact advanced

theorem onFillInstruction_nonces {eid fi} {w w' : World} (ran : onFillInstruction eid fi w = .ok w') :
    w'.nonces = w.nonces := by
  cases onFillInstruction_arrival ran with
  | known => rfl
  | refused _ _ _ _ caps | registered _ _ _ _ caps =>
      have same := enforceValueCaps_nonces caps
      exact same

theorem acceptNonce_error {eid nonce} {w : World} {e : Failure}
    (failed : acceptNonce eid nonce w = .error e) : e = .staleNonce := by
  unfold acceptNonce at failed
  rcases (bind_error _ _ _).mp failed with zero | ⟨_, -, failed⟩
  · exact ((require_error _ _ _).mp zero).2.symm
  rcases (bind_error _ _ _).mp failed with below | ⟨_, -, failed⟩
  · exact ((require_error _ _ _).mp below).2.symm
  rcases (bind_error _ _ _).mp failed with marked | ⟨_, -, failed⟩
  · exact ((require_error _ _ _).mp marked).2.symm
  · cases failed

/-- A nonce that has been accepted is stale from then on. -/
theorem acceptNonce_consumes {eid nonce} {w v w' : World} (accepted : acceptNonce eid nonce w = .ok v)
    (kept : w'.nonces = v.nonces) : acceptNonce eid nonce w' = .error .staleNonce := by
  cases again : acceptNonce eid nonce w' with
  | error e => rw [acceptNonce_error again]
  | ok u =>
      obtain ⟨-, -, -, rfl⟩ := acceptNonce_ok.mp accepted
      obtain ⟨-, -, clear, -⟩ := acceptNonce_ok.mp again
      have words : w'.nonceWord eid = (w.acceptedNonce eid nonce.toNat).nonceWord eid := by
        funext index
        exact congrArg (fun nonces => (nonces.1 eid index).getD 0) kept
      rw [words, nonceWord_acceptedNonce, if_pos rfl, Bitmap.has_add (by decide)] at clear
      simp at clear

/-! ## Messages without a registration -/

/-- The storage after an invocation, which is rolled back if it fails. -/
def attempt (d : Deployment) (w : World) (tx : Tx) : World := (next d w tx).getD w

/-- A FillInstruction is acknowledged and its intent has no record. -/
def unregistered (d : Deployment) (m : World × Tx) : Bool :=
  (m.2.arrival d m.1).any fun arrival =>
    (next d m.1 m.2).any fun w' => (w'.intent arrival.2.intentHash).isNone

/-- Nor is the intent finalized. -/
def lost (d : Deployment) (m : World × Tx) : Bool :=
  (m.2.arrival d m.1).any fun arrival =>
    (next d m.1 m.2).any fun w' =>
      (w'.intent arrival.2.intentHash).isNone && !isFinalized w' arrival.2.intentHash

theorem isFinalized_of_entries {w w' : World} {h : Bytes32} (same : w'.entries h = w.entries h) :
    isFinalized w' h = isFinalized w h := by
  simp only [World.entries, Prod.mk.injEq] at same
  obtain ⟨-, settled, cancelled, -⟩ := same
  simp only [isFinalized, settled, cancelled]

/-- A FillInstruction that is acknowledged for a new intent registers it or trips the breaker. -/
theorem fill_registers_or_trips {d : Deployment} {tx : Tx} {w w' : World} {eid fi}
    (named : w.Named) (ran : exec d tx w = .ok w') (arrives : tx.arrival d w = some (eid, fi)) :
    (w'.intent fi.intentHash).isSome ∨ isFinalized w fi.intentHash = true ∨
      w.breaker.tripped = false ∧ w'.breaker.tripped = true := by
  cases exec_capMove named ran with
  | charged eid' fi' admitted arrives' live absent positive enforced intent =>
      cases arrives.symm.trans arrives'
      cases admitted with
      | true =>
          rw [intent, if_pos rfl, Function.update_self]
          exact Or.inl rfl
      | false =>
          generalize after : w'.breaker = b at enforced
          cases enforced with
          | breached accumulated active ready => exact Or.inr (Or.inr ⟨ready, rfl⟩)
  | other known =>
      obtain ⟨old, same⟩ := known eid fi arrives
      rcases old with finalized | recorded
      · exact Or.inr (Or.inl finalized)
      · rw [show w'.intent fi.intentHash = w.intent fi.intentHash from congrArg Prod.fst same]
        exact Or.inl recorded

theorem finalized_kept {d : Deployment} {tx : Tx} {w w' : World} {eid fi} (named : w.Named)
    (ran : exec d tx w = .ok w') (arrives : tx.arrival d w = some (eid, fi)) :
    isFinalized w' fi.intentHash = isFinalized w fi.intentHash := by
  cases exec_capMove named ran with
  | charged eid' fi' admitted arrives' live absent positive enforced intent markers =>
      exact markers fi.intentHash
  | other known => exact isFinalized_of_entries (known eid fi arrives).2

theorem lost_trips {d : Deployment} {tx : Tx} {w w' : World} (named : w.Named)
    (stepped : next d w tx = some w') (loses : lost d (w, tx) = true) :
    w.breaker.tripped = false ∧ w'.breaker.tripped = true := by
  have ran := (next_ok.mp stepped).2
  unfold lost at loses
  obtain ⟨⟨eid, fi⟩, arrives, loses⟩ := (Option.any_eq_true _ _).mp loses
  obtain ⟨v, stepped', loses⟩ := (Option.any_eq_true _ _).mp loses
  cases stepped.symm.trans stepped'
  rw [Bool.and_eq_true, Option.isNone_iff_eq_none, Bool.not_eq_true'] at loses
  rcases fill_registers_or_trips named ran arrives with recorded | finalized | trips
  · rw [loses.1] at recorded
    cases recorded
  · rw [← finalized_kept named ran arrives, loses.2] at finalized
    cases finalized
  · exact trips

/-- Only a reset clears the latch, whatever the cap is meanwhile. -/
theorem tripped_kept {d : Deployment} {tx : Tx} {w w' : World} (named : w.Named)
    (stepped : next d w tx = some w') (noReset : tx.call ≠ .resetRollingWindowCap)
    (tripped : w.breaker.tripped = true) : w'.breaker.tripped = true := by
  cases exec_capMove named (next_ok.mp stepped).2 with
  | charged eid fi admitted arrives live absent positive enforced =>
      generalize w'.breaker = b at enforced
      cases enforced with
      | off => exact tripped
      | admitted accumulated active ready => cases ready.symm.trans tripped
      | breached accumulated active ready => cases ready.symm.trans tripped
  | other known unregistered breaker =>
      rcases breaker with same | ⟨call, -⟩
      · rw [same]
        exact tripped
      · exact absurd call noReset

theorem lost_le_one {d : Deployment} {w w' : World} {moves : List (World × Tx)}
    (reach : (system d).Reachable w) (run : (system d).Run w moves w')
    (noReset : ∀ m ∈ moves, m.2.call ≠ .resetRollingWindowCap) :
    moves.countP (lost d) ≤ 1 ∧ (0 < moves.countP (lost d) → w'.breaker.tripped = true) := by
  induction run with
  | nil => exact ⟨Nat.zero_le _, fun none => absurd none (Nat.lt_irrefl 0)⟩
  | @snoc moves v tx v' before last ih =>
      obtain ⟨atMost, latched⟩ := ih fun m member => noReset m (List.mem_append_left _ member)
      have named := named_of_reachable (before.reachable reach)
      have call := noReset (v, tx) (List.mem_append_right _ (List.mem_singleton_self _))
      rw [List.countP_append, List.countP_singleton]
      by_cases loses : lost d (v, tx) = true
      · obtain ⟨untripped, tripped⟩ := lost_trips named last loses
        have none : moves.countP (lost d) = 0 := by
          by_contra some
          cases untripped.symm.trans (latched (Nat.pos_of_ne_zero some))
        rw [if_pos loses, none]
        exact ⟨Nat.le_refl 1, fun _ => tripped⟩
      · rw [if_neg loses]
        exact ⟨atMost, fun some => tripped_kept named last call (latched some)⟩

/-- A FillInstruction whose call fails changes nothing.  One whose call succeeds has consumed
    its nonce and left a record, or was about a known or finalized intent, or tripped the
    breaker.  Between two resets at most one is acknowledged for an intent that is neither
    recorded nor finalized. -/
theorem fill_acknowledged {d : Deployment} {w : World} (reach : (system d).Reachable w) :
    (∀ tx origin fi, tx.delivery d w = some (origin, .fillInstruction fi) →
      ((∃ e, exec d tx w = .error e) → attempt d w tx = w) ∧
      ∀ w', next d w tx = some w' →
        attempt d w tx = w' ∧ acceptNonce origin.srcEid origin.nonce w' = .error .staleNonce ∧
        ((w'.intent fi.intentHash).isSome ∨ isFinalized w fi.intentHash = true ∨
          w.breaker.tripped = false ∧ w'.breaker.tripped = true)) ∧
    ∀ moves w', (system d).Run w moves w' → (∀ m ∈ moves, m.2.call ≠ .resetRollingWindowCap) →
      moves.countP (lost d) ≤ 1 := by
  constructor
  · intro tx origin fi delivers
    constructor
    · intro failed
      obtain ⟨e, failed⟩ := failed
      have rolledBack : next d w tx = none := by
        rw [Option.eq_none_iff_forall_ne_some]
        intro w' stepped
        cases failed.symm.trans (next_ok.mp stepped).2
      rw [attempt, rolledBack]
      rfl
    · intro w' stepped
      have ran := (next_ok.mp stepped).2
      have arrives : tx.arrival d w = some (origin.srcEid, fi) :=
        Tx.arrival_eq_some.mpr ⟨origin, delivers, rfl⟩
      refine ⟨by rw [attempt, stepped]; rfl, ?_,
        fill_registers_or_trips (named_of_reachable reach) ran arrives⟩
      have applied := exec_delivery delivers ran
      obtain ⟨-, v, accepted, handled⟩ := applyInbound_fill.mp applied
      exact acceptNonce_consumes accepted (onFillInstruction_nonces handled)
  · intro moves w' run noReset
    exact (lost_le_one reach run noReset).1

/-- 20 units too many trip the breaker and are the one loss; 2^127 - 1 fail. -/
theorem fill_acknowledged_sample :
    attempt Sample.deployment Sample.charged (Sample.fillTx 2 0xAAAA (2 ^ 127 - 1)) = Sample.charged ∧
      ∃ w', (system Sample.deployment).Run Sample.charged
          [(Sample.charged, Sample.fillTx 2 0xAAAA 20)] w' ∧
        acceptNonce 30101 2 w' = .error .staleNonce ∧
        [(Sample.charged, Sample.fillTx 2 0xAAAA 20)].countP (lost Sample.deployment) ≤ 1 := by
  obtain ⟨messages, runs⟩ := fill_acknowledged Sample.charged_reachable
  constructor
  · have fails : (exec Sample.deployment (Sample.fillTx 2 0xAAAA (2 ^ 127 - 1))
        Sample.charged).toOption.isNone := by
      decide +kernel
    refine (messages _ ⟨30101, Sample.escrow, 2⟩ (Sample.instructionOf 0xAAAA (2 ^ 127 - 1))
      (by decide +kernel)).1 ?_
    cases outcome : exec Sample.deployment (Sample.fillTx 2 0xAAAA (2 ^ 127 - 1)) Sample.charged with
    | error e => exact ⟨e, rfl⟩
    | ok w' =>
        rw [outcome] at fails
        cases fails
  · have succeeds : (next Sample.deployment Sample.charged (Sample.fillTx 2 0xAAAA 20)).isSome := by
      decide +kernel
    obtain ⟨w', stepped⟩ := Option.isSome_iff_exists.mp succeeds
    have run : (system Sample.deployment).Run Sample.charged
        [(Sample.charged, Sample.fillTx 2 0xAAAA 20)] w' := System.Run.snoc .nil stepped
    refine ⟨w', run, ?_, runs _ w' run ?_⟩
    · exact ((messages _ ⟨30101, Sample.escrow, 2⟩ (Sample.instructionOf 0xAAAA 20)
        (by decide +kernel)).2 w' stepped).2.1
    · intro m member called
      rw [List.mem_singleton.mp member] at called
      cases called

namespace Sample

def cancelInboundTx (nonce : UInt64) (h : Bytes32) : Tx :=
  tx 1700000250 1205 (.lzReceiveBytes ⟨30101, escrow, nonce⟩
    (encodeCancelIntent h cancelReasonExpired))

end Sample

/-- Two cancels overtake their FillInstructions: both are acknowledged later, and neither
    intent is registered. -/
theorem tombstones_unregistered :
    ∃ w moves w', (system Sample.deployment).Reachable w ∧ (system Sample.deployment).Run w moves w' ∧
      (∀ m ∈ moves, m.2.call ≠ .resetRollingWindowCap) ∧
      moves.countP (unregistered Sample.deployment) = 2 := by
  have replayed : ((replay Sample.deployment Sample.ready
      [Sample.cancelInboundTx 1 0xAAAA, Sample.cancelInboundTx 2 0xBBBB]).bind fun w =>
      (next Sample.deployment w (Sample.fillTx 3 0xAAAA 20)).bind fun v =>
        (next Sample.deployment v (Sample.fillTx 4 0xBBBB 20)).map fun _ =>
          (unregistered Sample.deployment (w, Sample.fillTx 3 0xAAAA 20),
            unregistered Sample.deployment (v, Sample.fillTx 4 0xBBBB 20))) = some (true, true) := by
    decide +kernel
  obtain ⟨w, before, rest⟩ := Option.bind_eq_some_iff.mp replayed
  obtain ⟨v, first, rest⟩ := Option.bind_eq_some_iff.mp rest
  obtain ⟨w', second, same⟩ := Option.map_eq_some_iff.mp rest
  obtain ⟨one, two⟩ := Prod.mk.inj same
  refine ⟨w, [(w, Sample.fillTx 3 0xAAAA 20)] ++ [(v, Sample.fillTx 4 0xBBBB 20)], w',
    Sample.ready_reachable.later (later_of_replay before),
    System.Run.snoc (System.Run.snoc .nil first) second, ?_, ?_⟩
  · intro m member called
    rcases List.mem_append.mp member with earlier | later
    · cases List.mem_singleton.mp earlier
      cases called
    · cases List.mem_singleton.mp later
      cases called
  · rw [List.countP_append, List.countP_singleton, List.countP_singleton, if_pos one, if_pos two]

end Perihelion.Settlement

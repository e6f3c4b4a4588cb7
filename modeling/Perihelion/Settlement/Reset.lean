import Perihelion.Settlement.WindowCap

/-! # What a reset leaves behind

The reset drops the bucket of the memoised window.  A duration that puts the current time into
another window can bring back a bucket that was never dropped, the one that tripped the breaker
among them.
-/

namespace Perihelion.Settlement

open BigEndian Fallible Transition RollingWindow

namespace Breaker

theorem amount_reset_memoised {b : Breaker} {s : Nat} (memoised : b.latestWindowStart = some s)
    (now duration : Nat) : (b.reset now duration).amount s = 0 := by
  simp [amount, reset, memoised]

theorem amount_reset_other {b : Breaker} {s : Nat} (other : b.latestWindowStart ≠ some s)
    (now duration : Nat) : (b.reset now duration).amount s = b.amount s := by
  cases latest : b.latestWindowStart with
  | none => simp only [reset, amount, latest]
  | some windowStart =>
      have different : s ≠ windowStart := by
        rintro rfl
        exact other latest
      simp only [reset, amount, latest, Function.update_of_ne different]

end Breaker

theorem next_reset {d : Deployment} {w u : World} {tx : Tx} (stepped : next d w tx = some u)
    (call : tx.call = .resetRollingWindowCap) : u.breaker = w.breaker.reset tx.timestamp w.duration := by
  have governed := exec_governed (next_ok.mp stepped).2
  rw [call] at governed
  generalize after : u.governance = g at governed
  cases governed with
  | same =>
      rename_i quiet
      cases quiet
  | metered =>
      rename_i inbound
      cases inbound
  | capReset ready => exact congrArg Governance.breaker after

/-- Neither a FillInstruction nor a reset: a change of the cap, for one. -/
def Tx.sparesBreaker (d : Deployment) (tx : Tx) (w : World) : Prop :=
  tx.arrival d w = none ∧ tx.call ≠ .resetRollingWindowCap

theorem breaker_spared {d : Deployment} {u v : World} {moves : List (World × Tx)}
    (run : (system d).Run u moves v) (spared : ∀ m ∈ moves, m.2.sparesBreaker d m.1) :
    v.breaker = u.breaker := by
  induction run with
  | nil => rfl
  | @snoc moves s tx s' before last ih =>
      have earlier := ih fun m member => spared m (List.mem_append_left _ member)
      obtain ⟨empty, noReset⟩ := spared (s, tx)
        (List.mem_append_right _ (List.mem_singleton_self _))
      rcases exec_breaker (next_ok.mp last).2 empty with same | ⟨call, -⟩
      · exact same.trans earlier
      · exact absurd call noReset

/-- An untripped breaker admits what its bucket has room for. -/
theorem enforceValueCaps_admits {amount : I128} {w : World}
    (allowed : ∀ maxAmount ∈ w.maxIntentAmount,
      ¬ (0 < maxAmount.toInt ∧ maxAmount.toInt < amount.toInt))
    (untripped : w.breaker.tripped = false)
    (low : -2 ^ 127 ≤ w.breaker.amount (start w.duration w.timestamp) + amount.toInt)
    (room : w.duration = 0 ∨
      w.breaker.amount (start w.duration w.timestamp) + amount.toInt ≤ w.cap) :
    ∃ w', enforceValueCaps amount w = .ok (w', true) := by
  by_cases active : 0 < w.duration ∧ 0 < w.cap
  · have within := room.resolve_left (Nat.ne_of_gt active.1)
    have bound : w.cap < 2 ^ 127 := (w.rollingWindowCap.getD 0).toInt_lt
    obtain ⟨accumulated, sum⟩ := I128.exists_toInt low (by omega)
    refine ⟨_, enforceValueCaps_ok.mpr ⟨allowed, Or.inr ⟨active, untripped, accumulated, sum,
      Or.inl ⟨?_, rfl, rfl⟩⟩⟩⟩
    rw [sum]
    exact within
  · exact ⟨w, enforceValueCaps_ok.mpr ⟨allowed, Or.inl ⟨active, rfl, rfl⟩⟩⟩

/-- A message that passes the other checks is registered exactly if its window has room for it. -/
theorem Deliverable.registers_iff {d : Deployment} {w : World} (reach : (system d).Reachable w)
    {tx : Tx} {origin fi} (deliverable : Deliverable d w tx origin fi)
    (untripped : w.breaker.tripped = false) (capped : 0 < w.cap) :
    (∃ w', next d w tx = some w' ∧ (w'.intent fi.intentHash).isSome) ↔
      w.duration = 0 ∨
        w.breaker.amount (start w.duration tx.timestamp) + fi.minDestAmount.toInt ≤ w.cap := by
  constructor
  · rintro ⟨w', stepped, registered⟩
    have arrives : tx.arrival d w = some (origin.srcEid, fi) :=
      Tx.arrival_eq_some.mpr ⟨origin, deliverable.delivers, rfl⟩
    cases exec_capMove (named_of_reachable reach) (next_ok.mp stepped).2 with
    | charged eid fi' admitted arrives' live absent positive enforced intent =>
        cases arrives.symm.trans arrives'
        cases admitted with
        | true =>
            generalize w'.breaker = b at enforced
            cases enforced with
            | off inactive => exact Or.inl (by omega)
            | admitted accumulated active ready sum within => exact Or.inr (sum ▸ within)
        | false =>
            rw [intent, if_neg (by simp), absent] at registered
            cases registered
    | other known =>
        rcases (known _ _ arrives).1 with finalized | recorded
        · cases deliverable.live.symm.trans finalized
        · rw [deliverable.absent] at recorded
          cases recorded
  · intro room
    obtain ⟨v, -, governance, now, allowed, reached⟩ := deliverable.reaches
    obtain ⟨breaker, duration, cap⟩ := World.window_of_governance governance
    have nonneg := amounts_nonneg reach (start w.duration tx.timestamp)
    have positive := deliverable.positive
    obtain ⟨u, caps⟩ := @enforceValueCaps_admits fi.minDestAmount v allowed (by rwa [breaker])
      (by rw [breaker, duration, now]; omega) (by rwa [breaker, duration, cap, now])
    have written : (Function.update u.intent fi.intentHash
        (some (fi.record origin.srcEid u.timestamp)) fi.intentHash).isSome := by
      rw [Function.update_self]
      rfl
    exact ⟨_, reached u true caps, written⟩

/-- After a reset and changes of the cap, a message up to the cap is registered unless its window
    still holds too much: only the window memoised at the reset is sure to be empty. -/
theorem registered_after_reset_iff {d : Deployment} {w u v : World} (reach : (system d).Reachable w)
    {reset tx : Tx} (cleared : next d w reset = some u) (call : reset.call = .resetRollingWindowCap)
    {moves : List (World × Tx)} (run : (system d).Run u moves v)
    (spared : ∀ m ∈ moves, m.2.sparesBreaker d m.1) {origin fi}
    (deliverable : Deliverable d v tx origin fi) (within : fi.minDestAmount.toInt ≤ v.cap) :
    (∃ w', next d v tx = some w' ∧ (w'.intent fi.intentHash).isSome) ↔
      v.duration = 0 ∨ w.latestWindowStart = some (start v.duration tx.timestamp) ∨
        w.breaker.amount (start v.duration tx.timestamp) + fi.minDestAmount.toInt ≤ v.cap := by
  have breaker := (breaker_spared run spared).trans (next_reset cleared call)
  have untripped : v.breaker.tripped = false := by
    rw [breaker]
    rfl
  have positive := deliverable.positive
  have reachV := run.reachable (reach.step cleared)
  rw [deliverable.registers_iff reachV untripped (by omega), breaker]
  by_cases memoised : w.latestWindowStart = some (start v.duration tx.timestamp)
  · rw [Breaker.amount_reset_memoised memoised, Int.zero_add]
    simp [memoised, within]
  · rw [Breaker.amount_reset_other memoised]
    simp [memoised]

namespace Sample

/-- 90 units are taken in a window of ten minutes, 120 more break one of an hour that began
    before it. -/
def broken : World :=
  (replay deployment ready
    [tx 1700000100 1150 (.setRollingWindowCap 600 100), registerTx,
      tx 1700000250 1205 (.setRollingWindowCap 3600 100), fillTx 2 0xAAAA 120]).get
    (by decide +kernel)

theorem broken_reachable : (system deployment).Reachable broken :=
  ready_reachable.later
    (later_of_replay (show replay deployment ready
      [tx 1700000100 1150 (.setRollingWindowCap 600 100), registerTx,
        tx 1700000250 1205 (.setRollingWindowCap 3600 100), fillTx 2 0xAAAA 120] = some broken by
        simp [broken]))

def resetTx : Tx := tx 1700004000 1800 .resetRollingWindowCap

def mended : World := (replay deployment broken [resetTx]).get (by decide +kernel)

/-- Two hours: the window of the one that was broken. -/
def longerTx : Tx := tx 1700004100 1810 (.setRollingWindowCap 7200 100)

def reopened : World := (replay deployment mended [longerTx]).get (by decide +kernel)

def lateTx (amount : Nat) : Tx :=
  tx 1700004200 1820 (.lzReceiveBytes ⟨30101, escrow, 3⟩ (fillOf 0xBBBB amount))

theorem deliverable_mended : Deliverable deployment mended (lateTx 100) ⟨30101, escrow, 3⟩
    (instructionOf 0xBBBB 100) := by
  decide +kernel

theorem deliverable_reopened : Deliverable deployment reopened (lateTx 20) ⟨30101, escrow, 3⟩
    (instructionOf 0xBBBB 20) := by
  decide +kernel

end Sample

/-- Right after the reset the whole cap is there to be used. -/
theorem registered_after_reset_sample :
    ∃ w', next Sample.deployment Sample.mended (Sample.lateTx 100) = some w' ∧
      (w'.intent 0xBBBB).isSome := by
  have cleared : next Sample.deployment Sample.broken Sample.resetTx = some Sample.mended := by
    simp [Sample.mended, replay, System.replay]
  obtain ⟨within, begun⟩ :
      (Sample.instructionOf 0xBBBB 100).minDestAmount.toInt ≤ Sample.mended.cap ∧
      (Sample.mended.duration = 0 ∨
        Sample.broken.latestWindowStart =
          some (start Sample.mended.duration (Sample.lateTx 100).timestamp) ∨
        Sample.broken.breaker.amount (start Sample.mended.duration (Sample.lateTx 100).timestamp) +
          (Sample.instructionOf 0xBBBB 100).minDestAmount.toInt ≤ Sample.mended.cap) := by
    decide +kernel
  exact (@registered_after_reset_iff _ _ _ Sample.mended Sample.broken_reachable Sample.resetTx
    (Sample.lateTx 100) cleared rfl [] .nil (by simp) ⟨30101, Sample.escrow, 3⟩
    (Sample.instructionOf 0xBBBB 100) Sample.deliverable_mended within).mpr begun

/-- A longer duration after the reset brings the broken window's bucket back, and a message of
    20 units under a cap of 100 trips the breaker at once. -/
theorem tripped_after_reset :
    (system Sample.deployment).Reachable Sample.broken ∧
    replay Sample.deployment Sample.broken [Sample.resetTx] = some Sample.mended ∧
    replay Sample.deployment Sample.mended [Sample.longerTx] = some Sample.reopened ∧
    Deliverable Sample.deployment Sample.reopened (Sample.lateTx 20) ⟨30101, Sample.escrow, 3⟩
      (Sample.instructionOf 0xBBBB 20) ∧
    (Sample.reopened.cap, Sample.reopened.breaker.tripped) = (100, false) ∧
    ((next Sample.deployment Sample.reopened (Sample.lateTx 20)).map fun w' =>
      (w'.breaker.tripped, (w'.intent 0xBBBB).isSome)) = some (true, false) := by
  refine ⟨Sample.broken_reachable, by simp [Sample.mended], by simp [Sample.reopened],
    Sample.deliverable_reopened, ?_⟩
  decide +kernel

end Perihelion.Settlement

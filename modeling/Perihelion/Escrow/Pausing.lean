import Perihelion.Escrow.Controls
import Perihelion.Lib.DutyCycle

/-! # The guardian's pause and the owner's

One expiry beside the flag tells the two apart: it is set while the guardian's pause
runs and zero while the owner's does.  A second call of `pause` by the guardian writes
it anew, over either pause.
-/

namespace Perihelion.Escrow

open BigEndian Fallible Transition

/-- An expiry is set only during a pause, and at most a whole term ahead. -/
structure Pausing (now : Nat) (c : Controls) : Prop where
  during : c.guardianPauseExpiry ≠ 0 → c.paused = true
  near : c.guardianPauseExpiry ≤ now + guardianPauseTtl

theorem Pausing.move {tx : Tx} {now : Nat} {c c' : Controls} (pausing : Pausing now c)
    (later : now ≤ tx.timestamp) (move : ControlMove tx c c') : Pausing tx.timestamp c' := by
  have near := pausing.near
  cases move with
  | same => exact ⟨pausing.during, by omega⟩
  | owned | guarded | graced => exact ⟨pausing.during, by dsimp only; omega⟩
  | pausedSet => exact ⟨fun set => absurd rfl set, Nat.zero_le _⟩
  | guardianPaused => exact ⟨fun _ => rfl, Nat.le_refl _⟩
  | ownerPaused => exact ⟨fun _ => rfl, Nat.zero_le _⟩
  | decayed => exact ⟨fun set => absurd rfl set, Nat.zero_le _⟩

theorem pausing_of_reachable {d : Deployment} {w : World} (reach : (system d).Reachable w) :
    Pausing w.timestamp w.controls := by
  refine reach.invariant (P := fun w => Pausing w.timestamp w.controls) ?_ ?_
  · intro w given
    obtain ⟨creation, made⟩ := given
    have controls : w.controls = ⟨creation.deployer, 0, false, 0, 0, 7200⟩ :=
      congrArg Prod.fst (construct_settings made)
    rw [controls]
    exact ⟨fun set => absurd rfl set, Nat.zero_le _⟩
  · intro w input w' _ pausing stepped
    rcases next_controls stepped with ⟨tx, -, later, now, move⟩ | ⟨-, now, same⟩
    · rw [now]
      exact pausing.move later move
    · rw [now, same]
      exact pausing

/-! ## The guardian's pause -/

/-- No owner acts, and the guardian is somebody else. -/
def Unattended (w : World) : Input → Prop
  | .tx tx => tx.sender ≠ w.owner ∧ w.guardian ≠ w.owner
  | _ => True

/-- Nobody pauses during a pause, and the clock is far from its last tick. -/
def PausesOnce (w : World) : Input → Prop
  | .tx tx => (tx.call = .pause → w.paused = false) ∧ tx.timestamp + guardianPauseTtl < uint256
  | _ => True

/-- Time does not pass over a moment at which `decayGuardianPause` would succeed. -/
def Prompt (w : World) : Input → Prop
  | .tx tx => ∀ now, w.timestamp ≤ now → now < tx.timestamp →
      ∀ w', decayGuardianPause { w with timestamp := now } ≠ .ok w'
  | _ => True

/-- The time that passes before an input. -/
def Input.wait (w : World) (input : Input) : Nat :=
  match input with
  | .tx t => t.timestamp - w.timestamp
  | _ => 0

/-- How long the moves of a run found the contract paused. -/
def pausedTime (moves : List (World × Input)) : Nat :=
  (moves.map fun m => if m.1.paused then m.2.wait m.1 else 0).sum

theorem decayGuardianPause_ok {w : World} (set : w.guardianPauseExpiry ≠ 0)
    (due : w.guardianPauseExpiry ≤ w.timestamp) (fits : w.timestamp + guardianPauseTtl < uint256) :
    ∃ w', decayGuardianPause w = .ok w' := by
  simp only [decayGuardianPause, bind_ok, require_ok, exists_const, addBelow_ok, pure_ok]
  exact ⟨_, set, due, _, ⟨fits, rfl⟩, rfl⟩

/-- Without the owner a pause stays the pause it is until it decays. -/
theorem ControlMove.unattended {tx : Tx} {c c' : Controls} (move : ControlMove tx c c')
    (others : tx.sender ≠ c.owner) (once : tx.call = .pause → c.paused = false) :
    c'.paused = c.paused ∧ c'.guardianPauseExpiry = c.guardianPauseExpiry ∧
        c'.guardianPauseCooldownUntil = c.guardianPauseCooldownUntil ∨
      c.paused = false ∧ c.guardianPauseCooldownUntil ≤ tx.timestamp ∧ c'.paused = true ∧
        c'.guardianPauseExpiry = tx.timestamp + guardianPauseTtl ∨
      c.guardianPauseExpiry ≠ 0 ∧ c'.paused = false ∧
        c'.guardianPauseCooldownUntil = tx.timestamp + guardianPauseTtl := by
  cases move with
  | same | owned => exact Or.inl ⟨rfl, rfl, rfl⟩
  | guarded _ _ owner | graced _ _ owner | pausedSet _ _ owner => exact absurd owner others
  | ownerPaused _ owner => exact absurd owner others
  | guardianPaused call guardian cooled => exact Or.inr (Or.inl ⟨once call, cooled, rfl, rfl⟩)
  | decayed _ set => exact Or.inr (Or.inr ⟨set, rfl, rfl⟩)

section unattended

variable {d : Deployment} {s v w : World} {moves : List (World × Input)}

/-- While it lasts the expiry of a pause stands. -/
theorem expiry_kept
    (run : ((system d).under fun w input => Unattended w input ∧ PausesOnce w input).Run v moves w)
    (still : ∀ m ∈ moves, m.1.paused = true) (paused : w.paused = true) :
    w.guardianPauseExpiry = v.guardianPauseExpiry := by
  induction run with
  | nil => rfl
  | @snoc moves u input u' _ last ih =>
      have before : u.paused = true := still (u, input) (by simp)
      have kept := ih (fun m member => still m (by simp [member])) before
      obtain ⟨stepped, alone, once⟩ := last
      rcases next_controls stepped with ⟨tx, rfl, -, -, move⟩ | ⟨-, -, same⟩
      · rcases move.unattended alone.1 once.1 with ⟨-, expiry, -⟩ | ⟨off, -⟩ | ⟨-, off, -⟩
        · exact expiry.trans kept
        · exact absurd (before.symm.trans off) (by simp)
        · exact absurd (paused.symm.trans off) (by simp)
      · exact (congrArg Controls.guardianPauseExpiry same).trans kept

/-- What promptness leaves of a pause: it ends at its expiry. -/
theorem Prompt.due {tx : Tx} (prompt : Prompt v (.tx tx)) (set : v.guardianPauseExpiry ≠ 0)
    (fits : tx.timestamp + guardianPauseTtl < uint256) :
    tx.timestamp ≤ max v.guardianPauseExpiry v.timestamp := by
  apply Nat.le_of_not_lt
  intro late
  obtain ⟨w', decays⟩ := @decayGuardianPause_ok
    { v with timestamp := max v.guardianPauseExpiry v.timestamp } set (Nat.le_max_left _ _)
    (by dsimp only; omega)
  exact prompt _ (Nat.le_max_right _ _) late w' decays

/-- The latch of the duty cycle: on while paused, counted from `start`. -/
def World.latchFrom (start spent : Nat) (w : World) : DutyCycle.State where
  phase :=
    if w.paused then .on (max w.guardianPauseExpiry start) else .off w.guardianPauseCooldownUntil
  now := w.timestamp
  spent := spent

theorem latch_fresh (reach : (system d).Reachable s) :
    DutyCycle.Fresh guardianPauseTtl (s.latchFrom s.timestamp 0) := by
  refine ⟨rfl, ?_⟩
  intro due on
  have near : s.guardianPauseExpiry ≤ s.timestamp + guardianPauseTtl := (pausing_of_reachable reach).near
  have phase : (s.latchFrom s.timestamp 0).phase =
      if s.paused then .on (max s.guardianPauseExpiry s.timestamp)
      else .off s.guardianPauseCooldownUntil := rfl
  rw [phase] at on
  split at on
  · cases on
    constructor
    · exact Nat.le_max_right _ _
    · exact Nat.max_le.mpr ⟨near, Nat.le_add_right _ _⟩
  · cases on

theorem pausedTime_snoc (moves : List (World × Input)) (v : World) (input : Input) :
    pausedTime (moves ++ [(v, input)]) = pausedTime moves + if v.paused then input.wait v else 0 := by
  simp [pausedTime]

/-- The wait before a transaction, as a move of the latch. -/
theorem latch_wait (start spent : Nat) {tx : Tx} (later : v.timestamp ≤ tx.timestamp)
    (inTime : v.paused = true → tx.timestamp ≤ max v.guardianPauseExpiry start) :
    DutyCycle.Step guardianPauseTtl (v.latchFrom start spent) (.wait (tx.timestamp - v.timestamp))
      { v.latchFrom start (spent + if v.paused then tx.timestamp - v.timestamp else 0) with
        now := tx.timestamp } := by
  have clock : v.timestamp + (tx.timestamp - v.timestamp) = tx.timestamp := by omega
  unfold World.latchFrom
  cases paused : v.paused with
  | true =>
      have step := @DutyCycle.Step.waitOn guardianPauseTtl (max v.guardianPauseExpiry start)
        v.timestamp spent (tx.timestamp - v.timestamp) (by rw [clock]; exact inTime paused)
      rw [clock] at step
      exact step
  | false =>
      have step := @DutyCycle.Step.waitOff guardianPauseTtl v.guardianPauseCooldownUntil
        v.timestamp spent (tx.timestamp - v.timestamp)
      rw [clock] at step
      exact step

/-- The move of the latch that a transaction makes once its time has come. -/
theorem latch_moves (start spent : Nat) {tx : Tx} {v' : World} (begun : start ≤ tx.timestamp)
    (alone : tx.sender ≠ v.owner) (once : tx.call = .pause → v.paused = false)
    (during : v.guardianPauseExpiry ≠ 0 → v.paused = true) (now : v'.timestamp = tx.timestamp)
    (move : ControlMove tx v.controls v'.controls) :
    (DutyCycle.system guardianPauseTtl).Later
      { v.latchFrom start spent with now := tx.timestamp } (v'.latchFrom start spent) := by
  unfold World.latchFrom
  rw [now]
  rcases move.unattended alone once with ⟨paused, expiry, cooldown⟩ | ⟨off, cooled, on, expiry⟩
      | ⟨set, off, cooldown⟩
  · rw [show v'.paused = v.paused from paused, show v'.guardianPauseExpiry = _ from expiry,
      show v'.guardianPauseCooldownUntil = _ from cooldown]
    exact .refl _
  · have top : max (tx.timestamp + guardianPauseTtl) start = tx.timestamp + guardianPauseTtl :=
      Nat.max_eq_left (by omega)
    rw [show v.paused = false from off, show v'.paused = true from on,
      show v'.guardianPauseExpiry = _ from expiry, top]
    have step := @DutyCycle.Step.set guardianPauseTtl v.guardianPauseCooldownUntil tx.timestamp spent cooled
    have moved := DutyCycle.later_of_step step
    simpa only [if_true, Bool.false_eq_true, if_false] using moved
  · rw [during set, show v'.paused = false from off,
      show v'.guardianPauseCooldownUntil = _ from cooldown]
    have step := @DutyCycle.Step.release guardianPauseTtl (max v.guardianPauseExpiry start) tx.timestamp spent
    have moved := DutyCycle.later_of_step step
    simpa only [if_true, Bool.false_eq_true, if_false] using moved

/-- An unattended run with prompt decays is a run of the latch. -/
theorem latch_run (reach : (system d).Reachable s)
    (own : s.paused = true → s.guardianPauseExpiry ≠ 0)
    (run : ((system d).under fun w input =>
      (Unattended w input ∧ PausesOnce w input) ∧ Prompt w input).Run s moves w) :
    (DutyCycle.system guardianPauseTtl).Later (s.latchFrom s.timestamp 0)
        (w.latchFrom s.timestamp (pausedTime moves)) ∧
      (w.paused = true → w.guardianPauseExpiry ≠ 0) ∧ s.timestamp ≤ w.timestamp := by
  induction run with
  | nil => exact ⟨.refl _, own, Nat.le_refl _⟩
  | @snoc moves u input u' before last ih =>
      obtain ⟨latched, own, begun⟩ := ih
      obtain ⟨stepped, ⟨alone, once⟩, prompt⟩ := last
      have pausing := pausing_of_reachable (reach.later before.later.of_under)
      have bound := DutyCycle.bounded_of_later (latch_fresh reach) latched
      rw [pausedTime_snoc]
      rcases next_controls stepped with ⟨tx, rfl, later, now, move⟩ | ⟨other, now, same⟩
      · have inTime : u.paused = true → tx.timestamp ≤ max u.guardianPauseExpiry s.timestamp := by
          intro paused
          have due := prompt.due (own paused) once.2
          have ahead : u.timestamp ≤ max u.guardianPauseExpiry s.timestamp := by
            simp only [DutyCycle.Bounded, World.latchFrom, paused, if_true] at bound
            exact bound.2
          omega
        have wait := DutyCycle.later_of_step (latch_wait s.timestamp (pausedTime moves) later inTime)
        have moved := latch_moves s.timestamp
          (pausedTime moves + if u.paused then tx.timestamp - u.timestamp else 0)
          (begun.trans later) alone.1 once.1 pausing.during now move
        refine ⟨(latched.trans wait).trans moved, ?_, by omega⟩
        intro paused
        rcases move.unattended alone.1 once.1 with ⟨before, expiry, -⟩ | ⟨-, -, -, expiry⟩ | ⟨-, off, -⟩
        · rw [show u'.guardianPauseExpiry = _ from expiry]
          exact own (before.symm.trans paused)
        · rw [show u'.guardianPauseExpiry = _ from expiry]
          exact Nat.ne_of_gt (Nat.add_pos_right _ (by decide))
        · exact absurd (paused.symm.trans off) (by simp)
      · have idle : (if u.paused then input.wait u else 0) = 0 := by
          cases input with
          | tx tx => exact absurd rfl (other tx)
          | tokenArrives | nativeArrives => simp [Input.wait]
        have paused : u'.paused = u.paused := congrArg Controls.paused same
        have expiry : u'.guardianPauseExpiry = u.guardianPauseExpiry :=
          congrArg Controls.guardianPauseExpiry same
        have cooldown : u'.guardianPauseCooldownUntil = u.guardianPauseCooldownUntil :=
          congrArg Controls.guardianPauseCooldownUntil same
        refine ⟨?_, ?_, now ▸ begun⟩
        · rw [idle, Nat.add_zero]
          simp only [World.latchFrom, paused, expiry, cooldown, now] at latched ⊢
          exact latched
        · rw [paused, expiry]
          exact own

end unattended

/-- Without the owner, and if nobody pauses during a pause, a pause that took effect can be
    ended by anybody once its term has run; and if it always is, the contract is paused for
    at most half of any period, up to half of one term. -/
theorem guardian_pause_bounded {d : Deployment} {s : World} (reach : (system d).Reachable s) :
    (∀ tx v moves w decay, next d s (.tx tx) = some v → Unattended s (.tx tx) →
      s.paused = false → v.paused = true →
      ((system d).under fun w input => Unattended w input ∧ PausesOnce w input).Run v moves w →
      (∀ m ∈ moves, m.1.paused = true) → w.paused = true →
      decay.call = .decayGuardianPause → decay.value = 0 → w.timestamp ≤ decay.timestamp →
      tx.timestamp + guardianPauseTtl ≤ decay.timestamp →
      decay.timestamp + guardianPauseTtl < uint256 → ∃ w', next d w (.tx decay) = some w') ∧
    ∀ moves w, (s.paused = true → s.guardianPauseExpiry ≠ 0) →
      ((system d).under fun w input =>
        (Unattended w input ∧ PausesOnce w input) ∧ Prompt w input).Run s moves w →
      2 * pausedTime moves ≤ w.timestamp - s.timestamp + guardianPauseTtl := by
  constructor
  · intro tx v moves w decay stepped alone off on run still paused called noValue later term fits
    have expiry : v.guardianPauseExpiry = tx.timestamp + guardianPauseTtl := by
      have move := exec_controlMove (next_tx.mp stepped).2
      rcases move.unattended alone.1 (fun _ => off) with ⟨same, -⟩ | ⟨-, -, -, expiry⟩ | ⟨-, same, -⟩
      · exact absurd (on.symm.trans (same.trans off)) (by simp)
      · exact expiry
      · exact absurd (on.symm.trans same) (by simp)
    have kept := (expiry_kept run still paused).trans expiry
    have positive : 0 < guardianPauseTtl := by decide
    obtain ⟨w', decays⟩ := @decayGuardianPause_ok (w.enter decay)
      (show w.guardianPauseExpiry ≠ 0 by omega)
      (show w.guardianPauseExpiry ≤ decay.timestamp by omega) fits
    refine ⟨w', next_tx.mpr ⟨later, exec_ok.mpr ⟨Or.inl noValue, ?_⟩⟩⟩
    rw [called]
    exact decays
  · intro moves w own run
    obtain ⟨latched, -, begun⟩ := latch_run reach own run
    have half := (DutyCycle.bounded_of_later (latch_fresh reach) latched).spent_le
    simp only [World.latchFrom] at half
    omega

namespace Sample

def guardian : Address := 0x6A4D

def pauseTx (timestamp : Nat) : Tx := tx guardian 0 timestamp .pause

def decayTx (timestamp : Nat) : Tx := tx solver 0 timestamp .decayGuardianPause

def guarded : World :=
  (replay deployment created [.tx (tx owner 0 1700000000 (.setGuardian guardian))]).get (by decide +kernel)

def halted : World := (next deployment guarded (.tx (pauseTx 1700000000))).get (by decide +kernel)

def resumed : World := (next deployment halted (.tx (decayTx 1700259200))).get (by decide +kernel)

/-- The guardian pauses again before the term has run. -/
def prolonged : World := (next deployment halted (.tx (pauseTx 1700200000))).get (by decide +kernel)

theorem guarded_reachable : (system deployment).Reachable guarded :=
  created_reachable.later
    (later_of_replay
      (show replay deployment created [.tx (tx owner 0 1700000000 (.setGuardian guardian))]
        = some guarded by simp [guarded]))

theorem halted_next : next deployment guarded (.tx (pauseTx 1700000000)) = some halted := by
  simp [halted]

theorem resumed_next : next deployment halted (.tx (decayTx 1700259200)) = some resumed := by
  simp [resumed]

theorem prolonged_next : next deployment halted (.tx (pauseTx 1700200000)) = some prolonged := by
  simp [prolonged]

end Sample

theorem guardian_pause_bounded_sample :
    (∃ w', next Sample.deployment Sample.halted (.tx (Sample.decayTx 1700259200)) = some w') ∧
      2 * pausedTime [(Sample.guarded, .tx (Sample.pauseTx 1700000000)),
        (Sample.halted, .tx (Sample.decayTx 1700259200))] ≤
        Sample.resumed.timestamp - Sample.guarded.timestamp + guardianPauseTtl := by
  have bounded := guardian_pause_bounded Sample.guarded_reachable
  have alone : Unattended Sample.guarded (.tx (Sample.pauseTx 1700000000)) := by
    constructor
    · decide +kernel
    · decide +kernel
  have aloneAfter : Unattended Sample.halted (.tx (Sample.decayTx 1700259200)) := by
    constructor
    · decide +kernel
    · decide +kernel
  have off : Sample.guarded.paused = false := by decide +kernel
  have on : Sample.halted.paused = true := by decide +kernel
  constructor
  · exact bounded.1 (Sample.pauseTx 1700000000) Sample.halted [] Sample.halted
      (Sample.decayTx 1700259200) Sample.halted_next alone off on .nil (by simp) on rfl rfl
      (by decide +kernel) (by decide) (by decide)
  · have unset : Sample.guarded.guardianPauseExpiry = 0 := by decide +kernel
    have expiry : Sample.halted.guardianPauseExpiry = 1700259200 := by decide +kernel
    have prompt : Prompt Sample.guarded (.tx (Sample.pauseTx 1700000000)) := by
      intro now _ _ w' decays
      simp [decayGuardianPause, unset] at decays
    have promptAfter : Prompt Sample.halted (.tx (Sample.decayTx 1700259200)) := by
      intro now _ early w' decays
      have early : now < 1700259200 := early
      simp only [decayGuardianPause, bind_ok, require_ok, exists_const] at decays
      have due : Sample.halted.guardianPauseExpiry ≤ now := decays.2.1
      omega
    refine bounded.2 _ Sample.resumed (by simp [off]) ?_
    have once : PausesOnce Sample.guarded (.tx (Sample.pauseTx 1700000000)) :=
      ⟨fun _ => off, by decide⟩
    have onceAfter : PausesOnce Sample.halted (.tx (Sample.decayTx 1700259200)) :=
      ⟨fun call => (by cases call), by decide⟩
    have first : ((system Sample.deployment).under fun w input =>
        (Unattended w input ∧ PausesOnce w input) ∧ Prompt w input).Run Sample.guarded
        ([] ++ [(Sample.guarded, .tx (Sample.pauseTx 1700000000))]) Sample.halted :=
      .snoc .nil ⟨Sample.halted_next, ⟨alone, once⟩, prompt⟩
    exact first.snoc ⟨Sample.resumed_next, ⟨aloneAfter, onceAfter⟩, promptAfter⟩

/-- A second call during the pause writes the expiry anew: the term of the pause runs out
    and nobody but the owner can end it. -/
theorem guardian_pause_prolonged :
    ∃ s v w : World, (system Sample.deployment).Reachable s ∧ s.paused = false ∧ v.paused = true ∧
      w.paused = true ∧ next Sample.deployment s (.tx (Sample.pauseTx 1700000000)) = some v ∧
      next Sample.deployment v (.tx (Sample.pauseTx 1700200000)) = some w ∧
      Unattended s (.tx (Sample.pauseTx 1700000000)) ∧
      Unattended v (.tx (Sample.pauseTx 1700200000)) ∧
      next Sample.deployment w (.tx (Sample.decayTx (1700000000 + guardianPauseTtl))) = none := by
  refine ⟨Sample.guarded, Sample.halted, Sample.prolonged, Sample.guarded_reachable,
    by decide +kernel, by decide +kernel, by decide +kernel, Sample.halted_next,
    Sample.prolonged_next, ⟨by decide +kernel, by decide +kernel⟩,
    ⟨by decide +kernel, by decide +kernel⟩, ?_⟩
  have refused : (next Sample.deployment Sample.prolonged
      (.tx (Sample.decayTx (1700000000 + guardianPauseTtl)))).isNone = true := by decide +kernel
  exact Option.isNone_iff_eq_none.mp refused

/-! ## The owner's pause -/

/-- The guardian does not pause and the owner does not resume. -/
def LeavesPaused (w : World) : Input → Prop
  | .tx tx => (tx.call = .pause → tx.sender ≠ w.guardian) ∧ tx.call ≠ .setPaused false
  | _ => True

/-- Under the owner's pause no expiry runs. -/
theorem owner_pause_step {d : Deployment} {v w : World} {input : Input}
    (owned : v.paused = true ∧ v.guardianPauseExpiry = 0) (stepped : next d v input = some w)
    (leaves : LeavesPaused v input) : w.paused = true ∧ w.guardianPauseExpiry = 0 := by
  rcases next_controls stepped with ⟨tx, rfl, -, -, move⟩ | ⟨-, -, same⟩
  · have view : w.controls.paused = true ∧ w.controls.guardianPauseExpiry = 0 := by
      generalize w.controls = c at move
      cases move with
      | same | owned | guarded | graced => exact owned
      | pausedSet paused call =>
          cases paused with
          | true => exact ⟨rfl, rfl⟩
          | false => exact absurd call leaves.2
      | guardianPaused call guardian => exact absurd guardian (leaves.1 call)
      | ownerPaused => exact ⟨rfl, rfl⟩
      | decayed _ set => exact absurd owned.2 set
    exact view
  · exact ⟨(congrArg Controls.paused same).trans owned.1,
      (congrArg Controls.guardianPauseExpiry same).trans owned.2⟩

/-- While the guardian does not pause, the owner's pause stays until the owner resumes: only
    the owner can call `setPaused`, and a `pause` that is not the guardian's is the owner's. -/
theorem owner_pause_stays {d : Deployment} {s v w : World} {tx : Tx}
    (stepped : next d s (.tx tx) = some v)
    (pauses : tx.call = .setPaused true ∨ tx.call = .pause) (leaves : LeavesPaused s (.tx tx))
    (run : ((system d).under LeavesPaused).Later v w) : w.paused = true := by
  have started : v.controls.paused = true ∧ v.controls.guardianPauseExpiry = 0 := by
    have move := exec_controlMove (next_tx.mp stepped).2
    generalize v.controls = c at move
    cases move with
    | same quiet =>
        rcases pauses with call | call
        · rw [call] at quiet
          cases quiet
        · rw [call] at quiet
          cases quiet
    | owned _ call | guarded _ call | graced _ call | decayed call =>
        rw [call] at pauses
        rcases pauses with other | other <;> cases other
    | pausedSet paused call =>
        rw [call] at pauses
        rcases pauses with set | other
        · cases set
          exact ⟨rfl, rfl⟩
        · cases other
    | guardianPaused call guardian => exact absurd guardian (leaves.1 call)
    | ownerPaused => exact ⟨rfl, rfl⟩
  have kept := @System.Later.invariant _ _ ((system d).under LeavesPaused)
    (fun w => w.paused = true ∧ w.guardianPauseExpiry = 0)
    (fun _ _ _ owned moved => owner_pause_step owned moved.1 moved.2) _ _ started run
  exact kept.1

namespace Sample

def ownerPauseTx : Tx := tx owner 0 1700000000 (.setPaused true)

def ownerAgainTx : Tx := tx owner 0 1700300000 .pause

def ownerHalted : World := (next deployment guarded (.tx ownerPauseTx)).get (by decide +kernel)

def ownerAgain : World := (next deployment ownerHalted (.tx ownerAgainTx)).get (by decide +kernel)

/-- The guardian pauses over the owner's pause, and anybody ends it a term later. -/
def override : List Input := [.tx (pauseTx 1700000100), .tx (decayTx 1700259300)]

end Sample

theorem owner_pause_stays_sample : Sample.ownerAgain.paused = true := by
  have first : next Sample.deployment Sample.guarded (.tx Sample.ownerPauseTx) = some Sample.ownerHalted := by
    simp [Sample.ownerHalted]
  have second : next Sample.deployment Sample.ownerHalted (.tx Sample.ownerAgainTx)
      = some Sample.ownerAgain := by
    simp [Sample.ownerAgain]
  have leaves : LeavesPaused Sample.guarded (.tx Sample.ownerPauseTx) :=
    ⟨fun call => (by cases call), by decide⟩
  have leavesAfter : LeavesPaused Sample.ownerHalted (.tx Sample.ownerAgainTx) :=
    ⟨fun _ => (by decide +kernel), by decide⟩
  exact owner_pause_stays first (Or.inl rfl) leaves
    (Relation.ReflTransGen.single ⟨.tx Sample.ownerAgainTx, second, leavesAfter⟩)

/-- The owner's pause is ended without the owner. -/
theorem owner_pause_overridden :
    ∃ v w : World, (system Sample.deployment).Reachable Sample.guarded ∧
      next Sample.deployment Sample.guarded (.tx Sample.ownerPauseTx) = some v ∧
      Sample.ownerPauseTx.sender = Sample.guarded.owner ∧ v.paused = true ∧
      replay Sample.deployment v Sample.override = some w ∧
      (∀ tx, .tx tx ∈ Sample.override → tx.sender ≠ Sample.guarded.owner) ∧ w.paused = false := by
  have first : next Sample.deployment Sample.guarded (.tx Sample.ownerPauseTx) = some Sample.ownerHalted := by
    simp [Sample.ownerHalted]
  have ended : (replay Sample.deployment Sample.ownerHalted Sample.override).map World.paused = some false := by
    decide +kernel
  rw [Option.map_eq_some_iff] at ended
  obtain ⟨w, replayed, resumed⟩ := ended
  refine ⟨Sample.ownerHalted, w, Sample.guarded_reachable, first, by decide +kernel, by decide +kernel, replayed, ?_, resumed⟩
  have owner : Sample.guarded.owner = Sample.owner := by decide +kernel
  intro tx member
  rw [owner]
  simp only [Sample.override, List.mem_cons, Input.tx.injEq, List.not_mem_nil, or_false] at member
  rcases member with rfl | rfl
  · decide
  · decide

end Perihelion.Escrow

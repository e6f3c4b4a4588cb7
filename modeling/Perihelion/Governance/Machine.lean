import Perihelion.Timelock.Notice
import Perihelion.Escrow.Policy

/-! # The timelock as the escrow's owner

Both contracts on one chain, with one clock.  The timelock calls the escrow in one way only: an
open call of `execute` whose target is the escrow runs the function that its calldata names.  If the
open call fails, what the escrow did meanwhile is undone with it.
-/

namespace Perihelion.Governance

open Transition

/-- The two contracts, and which function of the escrow its dispatcher runs for calldata. -/
structure Chain where
  timelock : Timelock.Deployment
  escrow : Escrow.Deployment
  dispatch : BigEndian.Bytes → Option Escrow.Call

structure State where
  timelock : Timelock.State
  escrow : Escrow.World
  /-- The escrow as the open call found it. -/
  before : Escrow.World

namespace State

def timestamp (s : State) : Nat := s.timelock.world.timestamp

end State

inductive Input where
  | timelock (input : Timelock.Input)
  /-- The escrow runs what an open call of the timelock names, and returns. -/
  | governs (host : Escrow.Host)
  | escrow (input : Escrow.Input)

/-- The transaction an open call of the timelock makes the escrow run.  The escrow has no function
    for empty calldata. -/
def Chain.governed (chain : Chain) (s : State) (host : Escrow.Host) : Option Escrow.Tx := do
  let f ← s.timelock.frame
  if f.target = chain.escrow.this then
    let call ← chain.dispatch f.data
    some { sender := chain.timelock.this, value := f.value, timestamp := s.timestamp, host, call }
  else none

/-- Anybody else's transaction, at the time of the chain.  No call comes from the zero address. -/
def Chain.Foreign (chain : Chain) (s : State) : Escrow.Input → Prop
  | .tx tx => tx.sender ≠ chain.timelock.this ∧ tx.sender ≠ 0 ∧ tx.timestamp = s.timestamp
  | _ => True

instance (chain : Chain) (s : State) (input : Escrow.Input) : Decidable (chain.Foreign s input) :=
  match input with
  | .tx tx => inferInstanceAs (Decidable
      (tx.sender ≠ chain.timelock.this ∧ tx.sender ≠ 0 ∧ tx.timestamp = s.timestamp))
  | .tokenArrives _ _ => isTrue trivial
  | .nativeArrives _ => isTrue trivial

/-- The timelock's own step, when an open call to the escrow does not return by it. -/
def advance (chain : Chain) (s : State) (input : Timelock.Input) (escrow : Escrow.World) :
    Option State :=
  (Timelock.next chain.timelock s.timelock input).map fun t =>
    { timelock := t
      escrow
      before := if s.timelock.frame.isSome then s.before else s.escrow }

def next (chain : Chain) (s : State) : Input → Option State
  | .timelock .returns =>
      if ∀ f ∈ s.timelock.frame, f.target ≠ chain.escrow.this then
        advance chain s .returns s.escrow
      else none
  | .timelock .fails => advance chain s .fails s.before
  | .timelock input => advance chain s input s.escrow
  | .governs host => do
      let tx ← chain.governed s host
      let e ← Escrow.next chain.escrow s.escrow (.tx tx)
      advance chain s .returns e
  | .escrow input =>
      if chain.Foreign s input then
        (Escrow.next chain.escrow s.escrow input).map fun e => { s with escrow := e }
      else none

def system (chain : Chain) : System State Input where
  init s := (Timelock.system chain.timelock).init s.timelock ∧
    (Escrow.system chain.escrow).init s.escrow
  step s input s' := next chain s input = some s'

/-- Long before a clock of 64 bits runs over. -/
def Early (s : State) (_ : Input) : Prop := s.timestamp + Timelock.maxDelay < uint64

instance (s : State) (input : Input) : Decidable (Early s input) :=
  inferInstanceAs (Decidable (s.timestamp + Timelock.maxDelay < uint64))

/-- The transaction of the escrow in a step. -/
def Chain.ran (chain : Chain) (s : State) : Input → Option Escrow.Tx
  | .governs host => chain.governed s host
  | .escrow (.tx tx) => some tx
  | _ => none

/-! ## One step -/

/-- A step: one of the timelock's alone, one that lets the escrow run for it, or one of the escrow
    that is somebody else's. -/
inductive Stepped (chain : Chain) (s : State) : Input → State → Prop
  | timelock (input t) : Timelock.next chain.timelock s.timelock input = some t → input ≠ .fails →
      Stepped chain s (.timelock input)
        ⟨t, s.escrow, if s.timelock.frame.isSome then s.before else s.escrow⟩
  | failed (t) : Timelock.next chain.timelock s.timelock .fails = some t →
      Stepped chain s (.timelock .fails)
        ⟨t, s.before, if s.timelock.frame.isSome then s.before else s.escrow⟩
  | governed (host tx e t) : chain.governed s host = some tx →
      Escrow.exec chain.escrow tx s.escrow = .ok e →
      Timelock.next chain.timelock s.timelock .returns = some t →
      Stepped chain s (.governs host)
        ⟨t, e, if s.timelock.frame.isSome then s.before else s.escrow⟩
  | foreign (tx e) : tx.sender ≠ chain.timelock.this → tx.sender ≠ 0 →
      Escrow.exec chain.escrow tx s.escrow = .ok e →
      Stepped chain s (.escrow (.tx tx)) { s with escrow := e }
  | arrived (input e) : (∀ tx, input ≠ .tx tx) → e.policy = s.escrow.policy →
      Stepped chain s (.escrow input) { s with escrow := e }

theorem next_stepped {chain : Chain} {s s' : State} {input : Input}
    (stepped : next chain s input = some s') : Stepped chain s input s' := by
  cases input with
  | timelock input =>
      cases input with
      | returns =>
          simp only [next, advance] at stepped
          split at stepped
          · obtain ⟨t, moved, rfl⟩ := Option.map_eq_some_iff.mp stepped
            exact .timelock _ t moved (by simp)
          · cases stepped
      | fails =>
          obtain ⟨t, moved, rfl⟩ := Option.map_eq_some_iff.mp stepped
          exact .failed t moved
      | call | selfCall | arrives | passes =>
          simp only [next, advance, Option.map_eq_some_iff] at stepped
          obtain ⟨t, moved, rfl⟩ := stepped
          exact .timelock _ t moved (by simp)
  | governs host =>
      simp only [next, Option.bind_eq_bind, Option.bind_eq_some_iff] at stepped
      obtain ⟨tx, governed, e, ran, advanced⟩ := stepped
      obtain ⟨t, moved, rfl⟩ := Option.map_eq_some_iff.mp advanced
      exact .governed host tx e t governed (Escrow.next_tx.mp ran).2 moved
  | escrow input =>
      simp only [next] at stepped
      split at stepped
      · rename_i foreign
        obtain ⟨e, ran, rfl⟩ := Option.map_eq_some_iff.mp stepped
        cases input with
        | tx tx => exact .foreign tx e foreign.1 foreign.2.1 (Escrow.next_tx.mp ran).2
        | tokenArrives token amount | nativeArrives amount =>
            cases ran
            exact .arrived _ _ (by simp) rfl
      · cases stepped

/-- The step of the timelock in a step of both: none of its own is an arrival of nothing. -/
def label (_ : State) : Input → Timelock.Input
  | .timelock input => input
  | .governs _ => .returns
  | .escrow _ => .arrives 0

theorem Stepped.timelock_next {chain : Chain} {s s' : State} {input : Input}
    (stepped : Stepped chain s input s') :
    Timelock.next chain.timelock s.timelock (label s input) = some s'.timelock := by
  cases stepped with
  | timelock input t moved | failed t moved | governed host tx e t governed ran moved => exact moved
  | foreign | arrived => rfl

theorem system_timelock {chain : Chain} {s : State} (reach : (system chain).Reachable s) :
    (Timelock.system chain.timelock).Reachable s.timelock := by
  induction reach with
  | init start => exact .init start.1
  | step _ last ih => exact .step ih (next_stepped last).timelock_next

/-- The run of the timelock inside a run of both. -/
theorem run_timelock {chain : Chain} {s₀ s : State} {moves : List (State × Input)}
    (init : (system chain).init s₀) (run : ((system chain).under Early).Run s₀ moves s) :
    ((Timelock.system chain.timelock).under
      (Timelock.Performs chain.timelock Timelock.ClockFits)).Run s₀.timelock
        (moves.map fun m => (m.1.timelock, label m.1 m.2)) s.timelock := by
  refine System.Run.mapped (S := (system chain).under Early) State.timelock label ?_ (.init init) run
  intro s input s' reach ⟨stepped, early⟩
  refine ⟨(next_stepped stepped).timelock_next, ?_⟩
  intro sender call _
  have valid := Timelock.config_valid (system_timelock reach.of_under)
  exact Nat.lt_of_le_of_lt (Nat.add_le_add_left valid.delay_max _) early

end Perihelion.Governance

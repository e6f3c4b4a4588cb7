import Perihelion.Lib.Transition

/-! # Duty cycles

A latch that must be released within `ttl` of being set, and may be set again no
sooner than `ttl` after its release, is on for at most half of any period, up to
half of one `ttl`.
-/

namespace DutyCycle

open Transition

inductive Phase where
  /-- It may be set from `free` on. -/
  | off (free : Nat)
  /-- It is released by `due`. -/
  | on (due : Nat)

structure State where
  phase : Phase
  now : Nat
  /-- How long it has been on so far. -/
  spent : Nat

inductive Move where
  | wait (span : Nat)
  | set
  | release

inductive Step (ttl : Nat) : State → Move → State → Prop
  | waitOff {free now spent} (span : Nat) :
      Step ttl ⟨.off free, now, spent⟩ (.wait span) ⟨.off free, now + span, spent⟩
  | waitOn {due now spent} (span : Nat) : now + span ≤ due →
      Step ttl ⟨.on due, now, spent⟩ (.wait span) ⟨.on due, now + span, spent + span⟩
  | set {free now spent} : free ≤ now →
      Step ttl ⟨.off free, now, spent⟩ .set ⟨.on (now + ttl), now, spent⟩
  | release {due now spent} :
      Step ttl ⟨.on due, now, spent⟩ .release ⟨.off (now + ttl), now, spent⟩

/-- Nothing spent yet, and what is on falls due within `ttl`. -/
structure Fresh (ttl : Nat) (s : State) : Prop where
  spent : s.spent = 0
  due : ∀ due, s.phase = .on due → s.now ≤ due ∧ due ≤ s.now + ttl

def system (ttl : Nat) : System State Move where
  init := Fresh ttl
  step := Step ttl

/-- Counted from `start`: while on, the time still owed to the off phase is kept in `due`. -/
def Bounded (ttl start : Nat) (s : State) : Prop :=
  match s.phase with
  | .off free => 2 * s.spent + start ≤ max s.now free ∧ 2 * s.spent + start ≤ s.now + ttl
  | .on due => 2 * s.spent + start + due ≤ 2 * s.now + ttl ∧ s.now ≤ due

theorem Fresh.bounded {ttl : Nat} {s : State} (fresh : Fresh ttl s) : Bounded ttl s.now s := by
  obtain ⟨phase, now, spent⟩ := s
  have zero : spent = 0 := fresh.spent
  subst zero
  cases phase with
  | off free =>
      constructor
      · show 2 * 0 + now ≤ max now free
        omega
      · show 2 * 0 + now ≤ now + ttl
        omega
  | on due =>
      obtain ⟨ahead, near⟩ := fresh.due due rfl
      constructor
      · dsimp only at near ⊢
        omega
      · exact ahead

theorem Bounded.step {ttl start : Nat} {s s' : State} {move : Move} (bounded : Bounded ttl start s)
    (stepped : Step ttl s move s') : Bounded ttl start s' := by
  cases stepped with
  | waitOff span =>
      obtain ⟨half, slack⟩ := bounded
      constructor
      · dsimp only at half ⊢
        omega
      · dsimp only at slack ⊢
        omega
  | waitOn span inTime =>
      obtain ⟨half, ahead⟩ := bounded
      constructor
      · dsimp only at half ⊢
        omega
      · exact inTime
  | set free =>
      obtain ⟨half, slack⟩ := bounded
      constructor
      · dsimp only at half ⊢
        omega
      · exact Nat.le_add_right _ _
  | release =>
      obtain ⟨half, ahead⟩ := bounded
      constructor
      · dsimp only at half ahead ⊢
        omega
      · dsimp only at half ahead ⊢
        omega

theorem Bounded.spent_le {ttl start : Nat} {s : State} (bounded : Bounded ttl start s) :
    2 * s.spent + start ≤ s.now + ttl := by
  obtain ⟨phase, now, spent⟩ := s
  cases phase with
  | off free => exact bounded.2
  | on due =>
      obtain ⟨half, ahead⟩ := bounded
      dsimp only at half ahead ⊢
      omega

theorem later_of_step {ttl : Nat} {s s' : State} {move : Move} (step : Step ttl s move s') :
    (system ttl).Later s s' :=
  Relation.ReflTransGen.single ⟨move, step⟩

theorem bounded_of_later {ttl : Nat} {s s' : State} (fresh : Fresh ttl s)
    (run : (system ttl).Later s s') : Bounded ttl s.now s' :=
  System.Later.invariant (fun _ _ _ bounded stepped => bounded.step stepped) fresh.bounded run

end DutyCycle

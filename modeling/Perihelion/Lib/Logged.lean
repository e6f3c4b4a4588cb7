import Mathlib.Tactic.Common

/-! # Logged computations

A call that talks to its surroundings leaves a log.  It returns or fails, or still waits where
the answers end.  What a sequence logs and how it ends is read off its two halves.
-/

namespace Logged

/-- How far a call has got. -/
inductive Ending (φ : Type u) (α : Type v) where
  | returned (a : α)
  | failed (failure : φ)
  | waiting

def Ending.result {φ : Type u} {α : Type v} : Ending φ α → Option α
  | .returned a => some a
  | .failed _ | .waiting => none

theorem Ending.result_eq {φ : Type u} {α : Type v} {ending : Ending φ α} {a : α} :
    ending.result = some a ↔ ending = .returned a := by
  cases ending with
  | returned b => simp [result]
  | failed | waiting => simp [result]

end Logged

structure Logged (ε : Type u) (φ : Type v) (α : Type w) where
  log : List ε
  ending : Logged.Ending φ α

namespace Logged

variable {ε : Type u} {φ : Type v} {α β : Type w}

/-- `events` have been logged, and `next` follows. -/
def after (events : List ε) (next : Logged ε φ α) : Logged ε φ α :=
  ⟨events ++ next.log, next.ending⟩

/-- The second half starts only once the first has returned. -/
def follow (first : Logged ε φ α) (second : α → Logged ε φ β) : Logged ε φ β :=
  match first.ending with
  | .returned a => after first.log (second a)
  | .failed failure => ⟨first.log, .failed failure⟩
  | .waiting => ⟨first.log, .waiting⟩

instance : Monad (Logged ε φ) where
  pure a := ⟨[], .returned a⟩
  bind := follow

def note (event : ε) : Logged ε φ PUnit := ⟨[event], .returned ⟨⟩⟩

def fail (failure : φ) : Logged ε φ α := ⟨[], .failed failure⟩

def wait : Logged ε φ α := ⟨[], .waiting⟩

/-- An answer that is there at once. -/
def ofExcept : Except φ α → Logged ε φ α
  | .ok a => ⟨[], .returned a⟩
  | .error failure => fail failure

@[simp] theorem log_pure (a : α) : (pure a : Logged ε φ α).log = [] := rfl

@[simp] theorem ending_pure (a : α) : (pure a : Logged ε φ α).ending = .returned a := rfl

@[simp] theorem log_note (event : ε) : (note event : Logged ε φ PUnit).log = [event] := rfl

@[simp] theorem ending_note (event : ε) : (note event : Logged ε φ PUnit).ending = .returned ⟨⟩ := rfl

@[simp] theorem log_fail (failure : φ) : (fail failure : Logged ε φ α).log = [] := rfl

@[simp] theorem ending_fail (failure : φ) : (fail failure : Logged ε φ α).ending = .failed failure := rfl

@[simp] theorem log_wait : (wait : Logged ε φ α).log = [] := rfl

@[simp] theorem ending_wait : (wait : Logged ε φ α).ending = .waiting := rfl

@[simp] theorem log_ofExcept (answer : Except φ α) : (ofExcept answer : Logged ε φ α).log = [] := by
  cases answer with
  | ok => rfl
  | error => rfl

@[simp] theorem ofExcept_returned (answer : Except φ α) (a : α) :
    (ofExcept answer : Logged ε φ α).ending = .returned a ↔ answer = .ok a := by
  cases answer with
  | ok => simp [ofExcept]
  | error => simp [ofExcept]

@[simp] theorem ofExcept_failed (answer : Except φ α) (failure : φ) :
    (ofExcept answer : Logged ε φ α).ending = .failed failure ↔ answer = .error failure := by
  cases answer with
  | ok => simp [ofExcept]
  | error => simp [ofExcept]

@[simp] theorem ofExcept_not_waiting (answer : Except φ α) :
    (ofExcept answer : Logged ε φ α).ending ≠ .waiting := by
  cases answer with
  | ok => simp [ofExcept]
  | error => simp [ofExcept]

theorem bind_of_returned {first : Logged ε φ α} {a : α} (ended : first.ending = .returned a)
    (second : α → Logged ε φ β) : first >>= second = after first.log (second a) := by
  show follow first second = _
  unfold follow
  rw [ended]

/-- A half that does not return ends the sequence. -/
theorem bind_of_unreturned {first : Logged ε φ α} (unreturned : ∀ a, first.ending ≠ .returned a)
    (second : α → Logged ε φ α) : first >>= second = first := by
  show follow first second = first
  unfold follow
  split
  · rename_i a ended
    exact absurd ended (unreturned a)
  · rename_i ended
    rw [← ended]
  · rename_i ended
    rw [← ended]

@[simp] theorem log_after (events : List ε) (next : Logged ε φ α) :
    (after events next).log = events ++ next.log := rfl

@[simp] theorem ending_after (events : List ε) (next : Logged ε φ α) :
    (after events next).ending = next.ending := rfl

theorem after_after (events more : List ε) (next : Logged ε φ α) :
    after events (after more next) = after (events ++ more) next := by
  simp [after]

@[simp] theorem note_bind (event : ε) (second : PUnit → Logged ε φ β) :
    note event >>= second = after [event] (second ⟨⟩) := rfl

/-- The second half logs behind the first, where it starts. -/
theorem log_bind (first : Logged ε φ α) (second : α → Logged ε φ β) :
    (first >>= second).log = first.log ∨
      ∃ a, first.ending = .returned a ∧ (first >>= second).log = first.log ++ (second a).log := by
  cases ended : first.ending with
  | returned a =>
      right
      rw [bind_of_returned ended]
      exact ⟨a, rfl, rfl⟩
  | failed | waiting =>
      left
      show (follow first second).log = _
      unfold follow
      rw [ended]

/-- The log of a sequence. -/
theorem mem_log_bind (first : Logged ε φ α) (second : α → Logged ε φ β) (event : ε) :
    event ∈ (first >>= second).log ↔
      event ∈ first.log ∨ ∃ a, first.ending = .returned a ∧ event ∈ (second a).log := by
  show event ∈ (follow first second).log ↔ _
  unfold follow
  cases ended : first.ending with
  | returned a => simp [after]
  | failed => simp
  | waiting => simp

theorem bind_returned (first : Logged ε φ α) (second : α → Logged ε φ β) (b : β) :
    (first >>= second).ending = .returned b ↔
      ∃ a, first.ending = .returned a ∧ (second a).ending = .returned b := by
  show (follow first second).ending = _ ↔ _
  unfold follow
  cases ended : first.ending with
  | returned a => simp [after]
  | failed => simp
  | waiting => simp

end Logged

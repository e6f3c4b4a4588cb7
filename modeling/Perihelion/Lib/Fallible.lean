import Mathlib.Tactic.Common

/-! # Fallible computations

A call either fails with an error, and then nothing it wrote survives, or it
returns.  Guards and bounded arithmetic are the two ways a straight-line program
fails; the lemmas read a successful run back as the list of facts it checked.
-/

namespace Fallible

variable {ε : Type u} {α β : Type v}

/-- Go on only if `condition` holds. -/
def require (condition : Prop) [Decidable condition] (error : ε) : Except ε Unit :=
  if condition then .ok () else .error error

/-- Unsigned addition that fails at `bound`. -/
def addBelow (bound : Nat) (error : ε) (a b : Nat) : Except ε Nat :=
  if a + b < bound then .ok (a + b) else .error error

/-- Unsigned subtraction that fails below zero. -/
def subChecked (error : ε) (a b : Nat) : Except ε Nat :=
  if b ≤ a then .ok (a - b) else .error error

/-- Unsigned addition that stops at the largest value below `bound`. -/
def addSaturating (bound a b : Nat) : Nat := min (a + b) (bound - 1)

/-- An optional answer of the surroundings, a missing one being a failure. -/
def expect (error : ε) : Option α → Except ε α
  | some a => .ok a
  | none => .error error

@[simp] theorem bind_ok (x : Except ε α) (f : α → Except ε β) (b : β) :
    x >>= f = .ok b ↔ ∃ a, x = .ok a ∧ f a = .ok b := by
  cases x with
  | error e => simp [bind, Except.bind]
  | ok a => simp [bind, Except.bind]

@[simp] theorem pure_ok (a b : α) : (pure a : Except ε α) = .ok b ↔ a = b := by
  simp [pure, Except.pure]

@[simp] theorem require_ok (condition : Prop) [Decidable condition] (error : ε) (u : Unit) :
    require condition error = .ok u ↔ condition := by
  by_cases holds : condition <;> simp [require, holds]

@[simp] theorem toOption_some (x : Except ε α) (a : α) : x.toOption = some a ↔ x = .ok a := by
  cases x with
  | error e => simp [Except.toOption]
  | ok b => simp [Except.toOption]

/-- A sequence fails where its first failing step does. -/
theorem bind_error (x : Except ε α) (f : α → Except ε β) (e : ε) :
    x >>= f = .error e ↔ x = .error e ∨ ∃ a, x = .ok a ∧ f a = .error e := by
  cases x with
  | error e' => simp [bind, Except.bind]
  | ok a => simp [bind, Except.bind]

theorem bind_of_ok {x : Except ε α} {a : α} (passed : x = .ok a) (f : α → Except ε β) :
    x >>= f = f a := by
  rw [passed]
  rfl

theorem bind_of_error {x : Except ε α} {e : ε} (failed : x = .error e) (f : α → Except ε β) :
    x >>= f = .error e := by
  rw [failed]
  rfl

theorem require_error (condition : Prop) [Decidable condition] (error e : ε) :
    require condition error = .error e ↔ ¬ condition ∧ error = e := by
  by_cases holds : condition <;> simp [require, holds]

theorem expect_error (error e : ε) (answer : Option α) :
    expect error answer = .error e ↔ answer = none ∧ error = e := by
  cases answer <;> simp [expect]

theorem addBelow_error (bound : Nat) (error e : ε) (a b : Nat) :
    addBelow bound error a b = .error e ↔ bound ≤ a + b ∧ error = e := by
  by_cases fits : a + b < bound
  · simp [addBelow, fits, Nat.not_le.mpr fits]
  · simp [addBelow, fits, Nat.not_lt.mp fits]

theorem subChecked_error (error e : ε) (a b : Nat) :
    subChecked error a b = .error e ↔ a < b ∧ error = e := by
  by_cases covers : b ≤ a
  · simp [subChecked, covers, Nat.not_lt.mpr covers]
  · simp [subChecked, covers, Nat.lt_of_not_le covers]

@[simp] theorem addBelow_ok (bound : Nat) (error : ε) (a b c : Nat) :
    addBelow bound error a b = .ok c ↔ a + b < bound ∧ a + b = c := by
  by_cases fits : a + b < bound <;> simp [addBelow, fits]

@[simp] theorem subChecked_ok (error : ε) (a b c : Nat) :
    subChecked error a b = .ok c ↔ b ≤ a ∧ a - b = c := by
  by_cases covers : b ≤ a <;> simp [subChecked, covers]

@[simp] theorem expect_ok (error : ε) (answer : Option α) (a : α) :
    expect error answer = .ok a ↔ answer = some a := by
  cases answer <;> simp [expect]

/-- A list goes through if each of its items does. -/
theorem mapM_ok {f : α → Except ε β} {items : List α} {results : List β} :
    items.mapM f = .ok results ↔ List.Forall₂ (fun a b => f a = .ok b) items results := by
  induction items generalizing results with
  | nil =>
      rw [List.mapM_nil, pure_ok]
      constructor
      · rintro rfl
        exact .nil
      · rintro ⟨⟩
        rfl
  | cons a rest ih =>
      simp only [List.mapM_cons, bind_ok, pure_ok, ih]
      constructor
      · rintro ⟨b, first, results', others, rfl⟩
        exact .cons first others
      · rintro (_ | ⟨first, others⟩)
        exact ⟨_, first, _, others, rfl⟩

theorem mapM_mem {f : α → Except ε β} {items : List α} {results : List β}
    (passed : items.mapM f = .ok results) {a : α} (member : a ∈ items) :
    ∃ b ∈ results, f a = .ok b := by
  have each := mapM_ok.mp passed
  clear passed
  induction each with
  | nil => cases member
  | cons first _ ih =>
      rcases List.mem_cons.mp member with rfl | later
      · exact ⟨_, List.mem_cons_self, first⟩
      · obtain ⟨b, there, own⟩ := ih later
        exact ⟨b, List.mem_cons_of_mem _ there, own⟩

theorem mapM_exists {f : α → Except ε β} {items : List α} (each : ∀ a ∈ items, ∃ b, f a = .ok b) :
    ∃ results, items.mapM f = .ok results := by
  induction items with
  | nil => exact ⟨[], rfl⟩
  | cons a rest ih =>
      obtain ⟨b, first⟩ := each a List.mem_cons_self
      obtain ⟨results, others⟩ := ih fun other member => each other (List.mem_cons_of_mem a member)
      exact ⟨b :: results, mapM_ok.mpr (.cons first (mapM_ok.mp others))⟩

end Fallible

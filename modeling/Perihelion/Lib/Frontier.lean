import Mathlib.Tactic.Common

/-! # Frontiers

A consumer of a log remembers one position and takes everything before it for done.  That stays
true as long as the position only passes what is done, may fall back at any time, and the log
is not rewritten behind it.
-/

namespace Frontier

variable {α : Type u}

/-- Every item from `start` on and before `cursor` is done. -/
def Covered (item : α → Prop) (position : α → Nat) (done : α → Prop) (start cursor : Nat) : Prop :=
  ∀ x, item x → start ≤ position x → position x < cursor → done x

variable {item item' : α → Prop} {position : α → Nat} {done done' : α → Prop}
  {start cursor cursor' : Nat}

theorem Covered.empty (behind : cursor ≤ start) : Covered item position done start cursor := by
  intro x _ after before
  omega

theorem Covered.mono (covered : Covered item position done start cursor)
    (stays : ∀ x, done x → done' x) : Covered item position done' start cursor := by
  intro x given after before
  exact stays x (covered x given after before)

theorem Covered.retreat (covered : Covered item position done start cursor)
    (back : cursor' ≤ max start cursor) : Covered item position done start cursor' := by
  intro x given after before
  exact covered x given after (by omega)

/-- The log may change from `height + 1` on, as long as the cursor is not past that. -/
theorem Covered.rewrite (covered : Covered item position done start cursor) {height : Nat}
    (within : cursor ≤ max start (height + 1))
    (kept : ∀ x, item' x → position x ≤ height → item x) :
    Covered item' position done start cursor := by
  intro x given after before
  exact covered x (kept x given (by omega)) after before

theorem Covered.advance (covered : Covered item position done start cursor)
    (passed : ∀ x, item x → cursor ≤ position x → position x < cursor' → done x) :
    Covered item position done start (max cursor cursor') := by
  intro x given after before
  by_cases old : position x < cursor
  · exact covered x given after old
  · exact passed x given (by omega) (by omega)

end Frontier

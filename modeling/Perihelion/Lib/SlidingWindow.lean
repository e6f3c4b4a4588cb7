import Mathlib.Data.List.Basic
import Mathlib.Tactic.Common

/-! # Counting over a sliding window

What is admitted is written to a log.  Something more is admitted if not too much of the log is
still recent.  What is not recent may be dropped from the log at any time, since it does not
become recent again.  No stretch whose ends are recent to each other ever holds more than the
limit.
-/

namespace SlidingWindow

variable {α : Type u} [LE α]

/-- What is recent has been recent since it happened. -/
def Fades (recent : α → α → Bool) : Prop :=
  ∀ now later t : α, now ≤ later → recent later t = true → recent now t = true

/-- From `now` on it makes no difference which of the two logs is counted. -/
def Keeps (recent : α → α → Bool) (now : α) (kept log : List α) : Prop :=
  ∀ later, now ≤ later → kept.filter (recent later) = log.filter (recent later)

variable {recent : α → α → Bool} {now : α} {kept log : List α} {limit : Nat}

theorem Keeps.later [Std.IsPreorder α] {next : α} (keeps : Keeps recent now kept log) (ahead : now ≤ next) :
    Keeps recent next kept log :=
  fun last order => keeps last (Std.le_trans ahead order)

theorem Keeps.prune (fades : Fades recent) (keeps : Keeps recent now kept log) :
    Keeps recent now (kept.filter (recent now)) log := by
  intro last order
  rw [List.filter_filter, ← keeps last order]
  apply List.filter_congr
  intro t _
  cases still : recent last t with
  | false => rfl
  | true => rw [fades now last t order still, Bool.and_self]

theorem Keeps.push (keeps : Keeps recent now kept log) (t : α) :
    Keeps recent now (kept ++ [t]) (log ++ [t]) := by
  intro last order
  rw [List.filter_append, List.filter_append, keeps last order]

/-- A log in order, to which nothing has been added while `limit` entries were recent. -/
inductive Spaced (recent : α → α → Bool) (limit : Nat) : List α → Prop
  | nil : Spaced recent limit []
  | snoc {log : List α} {t : α} : Spaced recent limit log → (∀ earlier ∈ log, earlier ≤ t) →
      (log.filter (recent t)).length < limit → Spaced recent limit (log ++ [t])

theorem Spaced.length_filter_le (spaced : Spaced recent limit log) {inside : α → Bool}
    (close : ∀ {earlier t : α}, inside earlier = true → inside t = true → earlier ≤ t →
      recent t earlier = true) :
    (log.filter inside).length ≤ limit := by
  induction spaced with
  | nil => exact Nat.zero_le _
  | @snoc log t spaced order few ih =>
      rw [List.filter_append, List.length_append]
      cases here : inside t with
      | false =>
          rw [List.filter_singleton, here]
          exact ih
      | true =>
          have among : log.countP inside ≤ log.countP (recent t) :=
            List.countP_mono_left fun earlier member there => close there here (order earlier member)
          rw [List.countP_eq_length_filter, List.countP_eq_length_filter] at among
          rw [List.filter_singleton, here]
          exact Nat.succ_le_of_lt (Nat.lt_of_le_of_lt among few)

end SlidingWindow

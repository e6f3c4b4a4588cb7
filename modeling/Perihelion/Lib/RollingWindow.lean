import Mathlib.Algebra.BigOperators.Group.List.Basic
import Mathlib.Algebra.Order.Monoid.Defs
import Mathlib.Tactic.Common

/-! # Sums over fixed windows

Time is cut into windows of one duration, and what is admitted in a window is counted in
the bucket of its start.  The buckets may be dropped and reused in between.  As long as
the bucket of the current window never loses what was admitted in it, and admission keeps
it within a cap, the sum over every window stays within the cap.
-/

namespace RollingWindow

variable {α : Type u} [AddCommMonoid α]

/-- The start of the window that holds `time`. -/
def start (duration time : Nat) : Nat := time / duration * duration

/-- `time` lies in the window from `k * duration` to `(k + 1) * duration`. -/
def During (duration k time : Nat) : Prop := k * duration ≤ time ∧ time < (k + 1) * duration

instance (duration k time : Nat) : Decidable (During duration k time) :=
  inferInstanceAs (Decidable (_ ∧ _))

theorem During.start {duration k time : Nat} (during : During duration k time) :
    start duration time = k * duration := by
  unfold RollingWindow.start
  rw [Nat.div_eq_of_lt_le during.1 during.2]

/-- What the entries of window `k` add up to. -/
def total (duration k : Nat) (entries : List (Nat × α)) : α :=
  ((entries.filter fun e => During duration k e.1).map Prod.snd).sum

theorem total_snoc (duration k : Nat) (entries : List (Nat × α)) (time : Nat) (amount : α) :
    total duration k (entries ++ [(time, amount)]) =
      total duration k entries + if During duration k time then amount else 0 := by
  by_cases during : During duration k time
  · simp [total, during]
  · simp [total, during]

theorem total_of_before {duration k : Nat} {entries : List (Nat × α)}
    (before : ∀ e ∈ entries, e.1 < k * duration) : total duration k entries = 0 := by
  have none : (entries.filter fun e => During duration k e.1) = [] := by
    rw [List.filter_eq_nil_iff]
    intro e member inside
    exact absurd (of_decide_eq_true inside).1 (Nat.not_le.mpr (before e member))
  rw [total, none]
  rfl

variable [PartialOrder α]

/-- At time `now` window `k` is within the cap, and while it lasts its bucket covers it. -/
structure Bounded (duration : Nat) (cap : α) (k now : Nat) (bucket : Nat → α)
    (entries : List (Nat × α)) : Prop where
  past : ∀ e ∈ entries, e.1 ≤ now
  nonneg : ∀ s, 0 ≤ bucket s
  within : total duration k entries ≤ cap
  covered : now < (k + 1) * duration → total duration k entries ≤ bucket (k * duration)

namespace Bounded

variable {duration k now time : Nat} {cap : α} {bucket bucket' : Nat → α} {entries : List (Nat × α)}

theorem empty (nonneg : ∀ s, 0 ≤ bucket s) (positive : 0 ≤ cap) :
    Bounded duration cap k now bucket [] where
  past e member := by cases member
  nonneg := nonneg
  within := positive
  covered _ := nonneg _

/-- Before its start nothing is in the window. -/
theorem early (bounded : Bounded duration cap k now bucket entries) (later : now ≤ time)
    (before : time < k * duration) : total duration k entries = 0 := by
  apply total_of_before
  intro e member
  have past := bounded.past e member
  omega

/-- Time goes on; the bucket of the current window keeps at least what it has. -/
theorem idle (bounded : Bounded duration cap k now bucket entries) (later : now ≤ time)
    (nonneg : ∀ s, 0 ≤ bucket' s)
    (kept : bucket (start duration time) ≤ bucket' (start duration time)) :
    Bounded duration cap k time bucket' entries where
  past e member := (bounded.past e member).trans later
  nonneg := nonneg
  within := bounded.within
  covered := by
    intro lasts
    by_cases begun : k * duration ≤ time
    · rw [During.start ⟨begun, lasts⟩] at kept
      exact (bounded.covered (by omega)).trans kept
    · rw [bounded.early later (by omega)]
      exact nonneg _

/-- Buckets are cleared at a time outside the window. -/
theorem reset (bounded : Bounded duration cap k now bucket entries) (later : now ≤ time)
    (nonneg : ∀ s, 0 ≤ bucket' s) (elsewhere : ¬ During duration k time) :
    Bounded duration cap k time bucket' entries where
  past e member := (bounded.past e member).trans later
  nonneg := nonneg
  within := bounded.within
  covered := by
    intro lasts
    have before : time < k * duration := by
      by_contra begun
      exact elsewhere ⟨by omega, lasts⟩
    rw [bounded.early later before]
    exact nonneg _

/-- An amount of nothing changes nothing. -/
theorem zero (bounded : Bounded duration cap k now bucket entries) :
    Bounded duration cap k now bucket (entries ++ [(now, 0)]) := by
  have same : total duration k (entries ++ [(now, 0)]) = total duration k entries := by
    rw [total_snoc, ite_self, add_zero]
  refine ⟨?_, bounded.nonneg, ?_, ?_⟩
  · intro e member
    rcases List.mem_append.mp member with old | new
    · exact bounded.past e old
    · cases List.mem_singleton.mp new
      exact Nat.le_refl _
  · rw [same]
    exact bounded.within
  · rw [same]
    exact bounded.covered

variable [IsOrderedAddMonoid α] in
/-- An amount is admitted that the bucket of the current window takes within the cap. -/
theorem charge (bounded : Bounded duration cap k now bucket entries) (later : now ≤ time)
    (nonneg : ∀ s, 0 ≤ bucket' s) {amount : α}
    (counted : bucket (start duration time) + amount ≤ bucket' (start duration time))
    (room : bucket' (start duration time) ≤ cap) :
    Bounded duration cap k time bucket' (entries ++ [(time, amount)]) := by
  have past (e : Nat × α) (member : e ∈ entries ++ [(time, amount)]) : e.1 ≤ time := by
    rcases List.mem_append.mp member with old | new
    · exact (bounded.past e old).trans later
    · cases List.mem_singleton.mp new
      exact Nat.le_refl _
  by_cases during : During duration k time
  · have sum : total duration k (entries ++ [(time, amount)]) ≤ bucket' (k * duration) := by
      rw [total_snoc, if_pos during]
      rw [during.start] at counted
      have covered := bounded.covered (Nat.lt_of_le_of_lt later during.2)
      exact (add_le_add_left covered amount).trans counted
    refine ⟨past, nonneg, ?_, fun _ => sum⟩
    rw [during.start] at room
    exact sum.trans room
  · have same : total duration k (entries ++ [(time, amount)]) = total duration k entries := by
      rw [total_snoc, if_neg during, add_zero]
    have kept := bounded.reset later nonneg during
    refine ⟨past, nonneg, ?_, ?_⟩
    · rw [same]
      exact kept.within
    · rw [same]
      exact kept.covered

end Bounded

end RollingWindow

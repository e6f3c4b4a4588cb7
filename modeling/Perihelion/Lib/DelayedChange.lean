import Perihelion.Lib.Transition

/-! # Changes that wait

A value that is changed in two calls: one proposes the new value with a delay, the
other applies it, not before the delay is over and not after a grace period.  One
proposal is pending at a time.  Whatever the order of calls, a change of the value
goes back to one proposal that stayed pending all the way.
-/

namespace DelayedChange

open Transition

structure Policy where
  minDelay : Nat
  maxDelay : Nat
  grace : Nat

structure Proposal (α : Type u) where
  value : α
  since : Nat
  delay : Nat

structure Slot (α : Type u) where
  current : Option α
  pending : Option (Proposal α)

/-- What a call does about the slot. -/
inductive Act (α : Type u) where
  | propose (value : α) (delay : Nat)
  | confirm
  | cancel
  | other

variable {α : Type u} {policy : Policy}

/-- A call at time `now`. -/
inductive Step (policy : Policy) (now : Nat) : Slot α → Act α → Slot α → Prop
  | propose (s value delay) (long : policy.minDelay ≤ delay) (short : delay ≤ policy.maxDelay)
      (free : s.pending = none) :
      Step policy now s (.propose value delay) { s with pending := some ⟨value, now, delay⟩ }
  | confirm (s proposal) (found : s.pending = some proposal)
      (ready : proposal.since + proposal.delay ≤ now)
      (fresh : now ≤ proposal.since + proposal.delay + policy.grace) :
      Step policy now s .confirm ⟨some proposal.value, none⟩
  | cancel (s) : Step policy now s .cancel { s with pending := none }
  | other (s) : Step policy now s .other s

/-- The slots of which nothing is pending at first. -/
def system (policy : Policy) : System (Slot α) (Nat × Act α) where
  init s := s.pending = none
  step s t s' := Step policy t.1 s t.2 s'

/-- `proposal` was made at its time by a move of the run, and nothing has happened to
    the slot since. -/
def Standing (policy : Policy) (moves : List (Slot α × Nat × Act α)) (proposal : Proposal α) :
    Prop :=
  policy.minDelay ≤ proposal.delay ∧ proposal.delay ≤ policy.maxDelay ∧
    ∃ before s between,
      moves = before ++ (s, proposal.since, .propose proposal.value proposal.delay) :: between ∧
        ∀ m ∈ between, m.2.2 = .other

theorem Standing.extended {moves : List (Slot α × Nat × Act α)} {proposal : Proposal α}
    (standing : Standing policy moves proposal) (s : Slot α) (now : Nat) :
    Standing policy (moves ++ [(s, now, .other)]) proposal := by
  obtain ⟨long, short, before, v, between, rfl, quiet⟩ := standing
  refine ⟨long, short, before, v, between ++ [(s, now, .other)], by simp, ?_⟩
  intro m member
  rcases List.mem_append.mp member with old | new
  · exact quiet m old
  · cases List.mem_singleton.mp new
    rfl

/-- What is pending at the end of a run still stands. -/
theorem pending_standing {s s' : Slot α} {moves} (start : s.pending = none)
    (run : (system policy).Run s moves s') : ∀ proposal ∈ s'.pending, Standing policy moves proposal := by
  induction run with
  | nil =>
      intro proposal pending
      rw [start] at pending
      cases pending
  | @snoc moves v t v' before last ih =>
      obtain ⟨now, act⟩ := t
      intro proposal pending
      cases last with
      | propose value delay long short free =>
          cases pending
          refine ⟨long, short, moves, v, [], rfl, ?_⟩
          intro m member
          cases member
      | confirm | cancel => cases pending
      | other => exact (ih proposal pending).extended v now

/-- A change is the confirmation, in time, of a proposal that still stands. -/
theorem changed {s s' s'' : Slot α} {moves now act} (start : s.pending = none)
    (run : (system policy).Run s moves s') (step : Step policy now s' act s'')
    (different : s''.current ≠ s'.current) :
    ∃ proposal, Standing policy moves proposal ∧ s''.current = some proposal.value ∧
      proposal.since + proposal.delay ≤ now ∧
      now ≤ proposal.since + proposal.delay + policy.grace := by
  cases step with
  | propose | cancel | other => exact absurd rfl different
  | confirm proposal found ready fresh =>
      exact ⟨proposal, pending_standing start run proposal found, rfl, ready, fresh⟩

end DelayedChange

import Mathlib.Data.List.Nodup
import Mathlib.Data.List.Perm.Subperm
import Mathlib.Logic.Function.Basic
import Mathlib.Tactic.Common

/-! # Ballots of a changing electorate

A vote is a flag for each voter beside a counter of the flags.  The electorate is
a list whose members come and go: those who left keep their flag, so the counter
and the members who hold a flag can disagree.  Members leave by swap and pop.
-/

namespace Ballot

variable {α : Type u} [DecidableEq α]

/-- Exactly `n` voters hold the flag. -/
def Counted (votes : α → Bool) (n : Nat) : Prop :=
  ∃ holders : List α, holders.Nodup ∧ (∀ a, a ∈ holders ↔ votes a = true) ∧ holders.length = n

/-- How many of the members hold the flag. -/
def live (members : List α) (votes : α → Bool) : Nat := members.countP votes

/-- Take the flag from each of the members. -/
def strike (members : List α) (votes : α → Bool) : α → Bool :=
  members.foldl (fun votes a => Function.update votes a false) votes

/-- From entry `i` on, with `rest` entries left: overwrite the first `x` by the last
    entry, then drop the last one. -/
def swapPop (x : α) (xs : List α) (i : Nat) : Nat → List α
  | 0 => xs
  | rest + 1 =>
      if xs[i]? = some x then (xs.set i (xs.getLast?.getD x)).dropLast
      else swapPop x xs (i + 1) rest

/-! ## Counting -/

namespace Counted

variable {votes : α → Bool} {n : Nat} {a : α}

omit [DecidableEq α] in
theorem none : Counted (fun _ : α => false) 0 :=
  ⟨[], List.nodup_nil, fun a => by simp, rfl⟩

theorem cast (counted : Counted votes n) (fresh : votes a = false) :
    Counted (Function.update votes a true) (n + 1) := by
  obtain ⟨holders, nodup, same, size⟩ := counted
  have new : a ∉ holders := by simp [same, fresh]
  refine ⟨a :: holders, List.nodup_cons.mpr ⟨new, nodup⟩, ?_, by rw [List.length_cons, size]⟩
  intro b
  by_cases h : b = a
  · simp [h]
  · simp [h, same]

theorem withdraw (counted : Counted votes n) (held : votes a = true) :
    Counted (Function.update votes a false) (n - 1) := by
  obtain ⟨holders, nodup, same, size⟩ := counted
  have member : a ∈ holders := (same a).mpr held
  refine ⟨holders.erase a, nodup.erase a, ?_, by rw [List.length_erase_of_mem member, size]⟩
  intro b
  rw [nodup.mem_erase_iff, same]
  by_cases h : b = a
  · simp [h]
  · simp [h]

omit [DecidableEq α] in
/-- Distinct holders are at most as many as the count. -/
theorem length_le (counted : Counted votes n) {xs : List α} (nodup : xs.Nodup)
    (hold : ∀ a ∈ xs, votes a = true) : xs.length ≤ n := by
  obtain ⟨holders, _, same, size⟩ := counted
  rw [← size]
  apply List.Subperm.length_le
  apply List.subperm_of_subset nodup
  intro a member
  exact (same a).mpr (hold a member)

omit [DecidableEq α] in
theorem pos (counted : Counted votes n) (held : votes a = true) : 1 ≤ n :=
  counted.length_le (List.nodup_singleton a) (by simpa using held)

end Counted

theorem held_of_cast {votes : α → Bool} {a b : α} (held : Function.update votes a true b = true) :
    b = a ∨ votes b = true := by
  by_cases same : b = a
  · exact Or.inl same
  · rw [Function.update_of_ne same] at held
    exact Or.inr held

theorem held_of_withdraw {votes : α → Bool} {a b : α}
    (held : Function.update votes a false b = true) : votes b = true := by
  by_cases same : b = a
  · rw [same, Function.update_self] at held
    cases held
  · rwa [Function.update_of_ne same] at held

/-! ## The flags the members hold -/

section live

variable {members : List α} {votes : α → Bool} {a : α}

omit [DecidableEq α] in
/-- The members who hold the flag, as a list of distinct ones. -/
theorem exists_quorum (nodup : members.Nodup) (votes : α → Bool) :
    ∃ quorum : List α, quorum.Nodup ∧ (∀ a ∈ quorum, a ∈ members ∧ votes a = true) ∧
      quorum.length = live members votes := by
  refine ⟨members.filter votes, nodup.filter votes, ?_, ?_⟩
  · intro a member
    exact List.mem_filter.mp member
  · rw [live, List.countP_eq_length_filter]

theorem live_update_of_not_mem (absent : a ∉ members) (b : Bool) :
    live members (Function.update votes a b) = live members votes := by
  apply List.countP_congr
  intro x member
  have other : x ≠ a := fun h => absent (h ▸ member)
  rw [Function.update_of_ne other]

theorem live_cast (nodup : members.Nodup) (member : a ∈ members) (fresh : votes a = false) :
    live members (Function.update votes a true) = live members votes + 1 := by
  induction members with
  | nil => cases member
  | cons x rest ih =>
      obtain ⟨absent, nodup⟩ := List.nodup_cons.mp nodup
      simp only [live, List.countP_cons] at ih ⊢
      rcases List.mem_cons.mp member with rfl | member
      · have others : rest.countP (Function.update votes a true) = rest.countP votes :=
          live_update_of_not_mem absent true
        simp [others, fresh]
      · have other : x ≠ a := fun h => absent (h ▸ member)
        rw [ih nodup member, Function.update_of_ne other]
        omega

theorem live_withdraw (nodup : members.Nodup) (held : votes a = true) :
    live members votes ≤ live members (Function.update votes a false) + 1 := by
  by_cases member : a ∈ members
  · have restored := live_cast nodup member (Function.update_self a false votes)
    rw [Function.update_idem, Function.update_eq_self_iff.mpr held.symm] at restored
    omega
  · rw [live_update_of_not_mem member]
    omega

omit [DecidableEq α] in
theorem live_append (joined : α) : live members votes ≤ live (members ++ [joined]) votes := by
  simp only [live, List.countP_append]
  omega

/-- A member who leaves without a flag takes none along. -/
theorem live_erase (fresh : votes a = false) : live (members.erase a) votes = live members votes := by
  by_cases member : a ∈ members
  · have whole := (List.perm_cons_erase member).countP_eq votes
    rw [List.countP_cons, if_neg (by simp [fresh])] at whole
    exact whole.symm
  · rw [List.erase_of_not_mem member]

omit [DecidableEq α] in
/-- Distinct members who hold the flag are at most all of them. -/
theorem length_le_live {quorum : List α} (nodup : quorum.Nodup)
    (hold : ∀ a ∈ quorum, a ∈ members ∧ votes a = true) : quorum.length ≤ live members votes := by
  rw [live, List.countP_eq_length_filter]
  apply List.Subperm.length_le
  apply List.subperm_of_subset nodup
  intro a member
  exact List.mem_filter.mpr (hold a member)

end live

/-! ## Clearing the flags -/

theorem strike_apply (members : List α) (votes : α → Bool) (a : α) :
    strike members votes a = true ↔ votes a = true ∧ a ∉ members := by
  induction members generalizing votes with
  | nil => simp [strike]
  | cons x rest ih =>
      rw [strike, List.foldl_cons, ← strike, ih]
      by_cases h : a = x
      · simp [h]
      · simp [h]

/-- Where no one outside the members holds the flag, nobody is left with it. -/
theorem strike_all {members : List α} {votes : α → Bool} (inside : ∀ a, votes a = true → a ∈ members)
    (a : α) : strike members votes a = false := by
  cases held : strike members votes a with
  | false => rfl
  | true =>
      obtain ⟨voted, outside⟩ := (strike_apply members votes a).mp held
      exact absurd (inside a voted) outside

/-! ## Leaving the electorate -/

theorem swapPop_perm (x : α) (before after : List α) (absent : x ∉ before) :
    (swapPop x (before ++ after) before.length after.length).Perm (before ++ after.erase x) := by
  induction after generalizing before with
  | nil => simp [swapPop]
  | cons y rest ih =>
      have here : (before ++ y :: rest)[before.length]? = some y := by simp
      rw [List.length_cons, swapPop, here]
      by_cases found : y = x
      · subst found
        rw [if_pos rfl, List.erase_cons_head]
        rcases rest.eq_nil_or_concat with rfl | ⟨others, z, rfl⟩
        · simp
        · have whole : before ++ y :: (others ++ [z]) = (before ++ y :: others) ++ [z] := by simp
          have written : ((before ++ y :: (others ++ [z])).set before.length z).dropLast
              = before ++ z :: others := by
            rw [List.set_append_right _ _ (Nat.le_refl _), Nat.sub_self, List.set_cons_zero,
              ← List.cons_append, ← List.append_assoc, List.dropLast_concat]
          have last : (before ++ y :: (others ++ [z])).getLast? = some z := by
            rw [whole, List.getLast?_concat]
          rw [List.concat_eq_append, last, Option.getD_some, written]
          exact List.Perm.append_left _ (List.perm_append_singleton z others).symm
      · have missed : ¬ some y = some x := by simpa using found
        rw [if_neg missed, List.erase_cons_tail (by simpa using found)]
        have further := ih (before ++ [y]) (by simp [absent, Ne.symm found])
        simpa using further

/-- Swap and pop removes one entry and moves the others only. -/
theorem swapPop_erase (x : α) (xs : List α) : (swapPop x xs 0 xs.length).Perm (xs.erase x) := by
  simpa using swapPop_perm x [] xs (by simp)

end Ballot

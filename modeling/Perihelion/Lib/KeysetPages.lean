import Mathlib.Data.List.Nodup
import Mathlib.Data.List.TakeWhile
import Mathlib.Tactic.Common

/-! # Pages behind a key

A page holds the next few elements of a sequence behind the one that the cursor names, and names
its own last element if there are more.  Whoever follows the cursors of a sequence without
duplicates sees all of it, once and in order.
-/

namespace KeysetPages

variable {α : Type u} {κ : Type v} [DecidableEq κ]

/-- What comes behind the element with the given key. -/
def behind (key : α → κ) : Option κ → List α → List α
  | none, xs => xs
  | some k, xs => (xs.dropWhile fun x => key x ≠ k).tail

def page (key : α → κ) (limit : Nat) (cursor : Option κ) (xs : List α) : List α × Option κ :=
  let rest := behind key cursor xs
  let items := rest.take limit
  (items, if limit < rest.length then items.getLast?.map key else none)

/-- Asking for page after page until one names no cursor, or one that was named before. -/
def follow (ask : Option κ → List α × Option κ) :
    Nat → List κ → Option κ → Option (Except κ (List (List α)))
  | 0, _, _ => none
  | fuel + 1, seen, cursor =>
      match (ask cursor).2 with
      | none => some (.ok [(ask cursor).1])
      | some next =>
          if next ∈ seen then some (.error next)
          else (follow ask fuel (seen ++ [next]) (some next)).map (·.map ((ask cursor).1 :: ·))

section

variable {key : α → κ}

theorem behind_append {done : List α} {last : α} {rest : List α}
    (nodup : ((done ++ last :: rest).map key).Nodup) :
    behind key (some (key last)) (done ++ last :: rest) = rest := by
  have others : ∀ x ∈ done, decide (key x ≠ key last) = true := by
    intro x member
    rw [List.map_append, List.map_cons] at nodup
    have apart := (List.nodup_append.mp nodup).2.2
    exact decide_eq_true (apart (key x) (List.mem_map_of_mem member) (key last) List.mem_cons_self)
  show ((done ++ last :: rest).dropWhile fun x => decide (key x ≠ key last)).tail = rest
  rw [List.dropWhile_append_of_pos others, List.dropWhile_cons_of_neg (by simp)]
  rfl

/-- The last element of a page and what is behind it. -/
theorem split_at_limit {limit : Nat} (one : 1 ≤ limit) {rest : List α} (more : limit < rest.length) :
    ∃ front last, rest.take limit = front ++ [last] ∧
      rest = front ++ last :: rest.drop limit := by
  have filled : rest.take limit ≠ [] := by
    intro empty
    have length := congrArg List.length empty
    rw [List.length_take, List.length_nil] at length
    omega
  have ends := List.dropLast_append_getLast filled
  refine ⟨_, _, ends.symm, ?_⟩
  calc rest = rest.take limit ++ rest.drop limit := (List.take_append_drop limit rest).symm
    _ = ((rest.take limit).dropLast ++ [(rest.take limit).getLast filled]) ++ rest.drop limit := by
        rw [ends]
    _ = _ := by rw [List.append_assoc]; rfl

/-- From any cursor on: what is behind it comes on the pages that follow. -/
theorem follow_rest {limit : Nat} (one : 1 ≤ limit) {xs : List α} (nodup : (xs.map key).Nodup)
    {fuel : Nat} {done rest : List α} (whole : xs = done ++ rest) {cursor : Option κ}
    (here : behind key cursor xs = rest) {seen : List κ} (passed : ∀ k ∈ seen, k ∈ done.map key)
    (enough : rest.length < fuel) :
    ∃ pages, follow (fun cursor => page key limit cursor xs) fuel seen cursor = some (.ok pages) ∧
      pages.flatten = rest := by
  induction fuel generalizing done rest cursor seen with
  | zero => exact absurd enough (Nat.not_lt_zero _)
  | succ fuel ih =>
      unfold follow
      by_cases more : limit < rest.length
      · obtain ⟨front, last, taken, split⟩ := split_at_limit one more
        have next : (page key limit cursor xs).2 = some (key last) := by
          simp [page, here, more, taken]
        have items : (page key limit cursor xs).1 = front ++ [last] := by
          simp [page, here, taken]
        have further : xs = (done ++ front) ++ last :: rest.drop limit := by
          rw [List.append_assoc, ← split, whole]
        have fresh : key last ∉ seen := by
          intro member
          rw [further, List.map_append, List.map_cons] at nodup
          have apart := (List.nodup_append.mp nodup).2.2
          have known : key last ∈ (done ++ front).map key := by
            rw [List.map_append]
            exact List.mem_append_left _ (passed _ member)
          exact apart _ known _ List.mem_cons_self rfl
        obtain ⟨pages, followed, flattened⟩ := @ih (done ++ front ++ [last]) (rest.drop limit)
          (by rw [further]; simp) (some (key last))
          (by rw [further] at nodup ⊢; exact behind_append nodup) (seen ++ [key last])
          (by
            intro k member
            rcases List.mem_append.mp member with earlier | now
            · have known := passed k earlier
              simp only [List.map_append, List.mem_append]
              exact Or.inl (Or.inl known)
            · rw [List.mem_singleton.mp now]
              simp)
          (by rw [List.length_drop]; omega)
        refine ⟨(front ++ [last]) :: pages, ?_, ?_⟩
        · simp only [next, items, if_neg fresh, followed, Option.map_some, Except.map]
        · rw [List.flatten_cons, flattened, ← taken, List.take_append_drop]
      · have next : (page key limit cursor xs).2 = none := by
          simp [page, here, more]
        have items : (page key limit cursor xs).1 = rest := by
          simp [page, here, List.take_of_length_le (Nat.le_of_not_lt more)]
        exact ⟨[rest], by simp only [next, items], by simp⟩

/-- Following the cursors from the first page on ends, and gives the whole sequence. -/
theorem follow_complete {limit : Nat} (one : 1 ≤ limit) {xs : List α} (nodup : (xs.map key).Nodup)
    {fuel : Nat} (enough : xs.length < fuel) :
    ∃ pages, follow (fun cursor => page key limit cursor xs) fuel [] none = some (.ok pages) ∧
      pages.flatten = xs :=
  follow_rest one nodup (List.nil_append xs).symm rfl (by simp) enough

end

end KeysetPages

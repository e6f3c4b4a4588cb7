import Mathlib.Data.List.Perm.Basic
import Mathlib.Tactic.Common

/-! # Scanning a range in chunks

A server is asked for one chunk of a range after the other.  A chunk that is too long for it is
asked for again at half the size, and that size stays.  A chunk of one position that is still
too long ends the scan, and so does any other failure.
-/

namespace ChunkedScan

variable {ε : Type u} {α : Type v}

inductive Reply (ε : Type u)
  | served
  | tooLong (error : ε)
  | failed (error : ε)

structure Request where
  size : Nat
  first : Nat
  last : Nat
  deriving DecidableEq

def request (head size next : Nat) : Request := ⟨size, next, min (next + size - 1) head⟩

/-- The requests of a scan from `next` to `head`, as far as there are replies. -/
def requests (head : Nat) : List (Reply ε) → Nat → Nat → List (Request × Reply ε)
  | [], _, _ => []
  | .served :: replies, size, next =>
      if head < next then []
      else
        (request head size next, .served) ::
          requests head replies size ((request head size next).last + 1)
  | .tooLong error :: replies, size, next =>
      if head < next then []
      else if size ≤ 1 then [(request head size next, .tooLong error)]
      else (request head size next, .tooLong error) :: requests head replies (max 1 (size / 2)) next
  | .failed error :: _, size, next =>
      if head < next then [] else [(request head size next, .failed error)]

/-- The chunks that the server has answered for. -/
def served (asked : List (Request × Reply ε)) : List Request :=
  asked.filterMap fun
    | (r, .served) => some r
    | _ => none

/-- What ended the scan early. -/
def gaveUp (asked : List (Request × Reply ε)) : Option ε :=
  asked.findSome? fun
    | (_, .served) => none
    | (r, .tooLong error) => if r.size ≤ 1 then some error else none
    | (_, .failed error) => some error

/-- Chunks one behind the other, from `first` on and before `next`. -/
inductive Adjoin : Nat → List Request → Nat → Prop
  | nil {first} : Adjoin first [] first
  | cons {r rest next} : r.first ≤ r.last → Adjoin (r.last + 1) rest next →
      Adjoin r.first (r :: rest) next

theorem Adjoin.le {first next : Nat} {chunks : List Request} (adjoin : Adjoin first chunks next) :
    first ≤ next := by
  induction adjoin with
  | nil => exact Nat.le_refl _
  | cons nonempty _ ih => omega

section requests

variable {head size next : Nat}

theorem request_bounds (positive : 1 ≤ size) (inside : next ≤ head) :
    next ≤ (request head size next).last ∧ (request head size next).last ≤ head := by
  simp only [request]
  omega

theorem requests_past (replies : List (Reply ε)) (past : head < next) :
    requests head replies size next = [] := by
  cases replies with
  | nil => rfl
  | cons reply replies =>
      cases reply with
      | served | tooLong error | failed error => rw [requests, if_pos past]

/-- Each reply brings the scan ahead or halves the size. -/
theorem requests_length_le (replies : List (Reply ε)) (positive : 1 ≤ size) :
    (requests head replies size next).length ≤ head + 1 - next + size := by
  fun_induction requests head replies size next with
  | case1 | case2 | case4 | case7 => exact Nat.zero_le _
  | case3 replies size next inside ih =>
      have ahead := request_bounds positive (Nat.le_of_not_lt inside)
      have later := ih positive
      rw [List.length_cons]
      omega
  | case5 error replies size next inside one =>
      rw [List.length_singleton]
      omega
  | case6 error replies size next inside more ih =>
      have later := ih (by omega)
      rw [List.length_cons]
      omega
  | case8 error replies size next inside =>
      rw [List.length_singleton]
      omega

theorem requests_mem {replies : List (Reply ε)} (positive : 1 ≤ size) {r : Request} {reply : Reply ε}
    (member : (r, reply) ∈ requests head replies size next) :
    ∃ size' next', 1 ≤ size' ∧ next' ≤ head ∧ r = request head size' next' := by
  fun_induction requests head replies size next with
  | case1 | case2 | case4 | case7 => cases member
  | case3 replies size next open' ih =>
      rcases List.mem_cons.mp member with first | later
      · cases first
        exact ⟨size, next, positive, Nat.le_of_not_lt open', rfl⟩
      · exact ih positive later
  | case5 error replies size next open' _ | case8 error replies size next open' =>
      cases List.mem_singleton.mp member
      exact ⟨size, next, positive, Nat.le_of_not_lt open', rfl⟩
  | case6 error replies size next open' more ih =>
      rcases List.mem_cons.mp member with first | later
      · cases first
        exact ⟨size, next, positive, Nat.le_of_not_lt open', rfl⟩
      · exact ih (by omega) later

/-- A chunk of size one is one position. -/
theorem requests_single {replies : List (Reply ε)} (positive : 1 ≤ size) {r : Request} {reply : Reply ε}
    (member : (r, reply) ∈ requests head replies size next) (one : r.size ≤ 1) : r.first = r.last := by
  obtain ⟨size', next', positive', inside, rfl⟩ := requests_mem positive member
  simp only [request] at one ⊢
  omega

/-- Whatever the replies, the chunks that are answered for leave nothing out. -/
theorem requests_adjoin (replies : List (Reply ε)) (positive : 1 ≤ size) (inside : next ≤ head + 1) :
    ∃ reached ≤ head + 1, Adjoin next (served (requests head replies size next)) reached := by
  fun_induction requests head replies size next with
  | case1 | case2 | case4 | case5 | case7 | case8 => exact ⟨_, inside, .nil⟩
  | case3 replies size next open' ih =>
      have ahead := request_bounds positive (Nat.le_of_not_lt open')
      obtain ⟨reached, bound, adjoin⟩ := ih positive (by omega)
      exact ⟨reached, bound, .cons ahead.1 adjoin⟩
  | case6 error replies size next open' more ih => exact ih (by omega) inside

theorem gaveUp_eq_none {asked : List (Request × Reply ε)} :
    gaveUp asked = none ↔
      (∀ r error, (r, .failed error) ∉ asked) ∧ ∀ r error, (r, .tooLong error) ∈ asked → 1 < r.size := by
  rw [gaveUp, List.findSome?_eq_none_iff]
  constructor
  · intro through
    constructor
    · intro r error member
      cases through _ member
    · intro r error member
      have more := through _ member
      by_contra one
      dsimp only at more
      rw [if_pos (by omega)] at more
      cases more
  · rintro ⟨failed, refused⟩ ⟨r, reply⟩ member
    cases reply with
    | served => rfl
    | tooLong error => exact if_neg (Nat.not_le_of_lt (refused r error member))
    | failed error => exact absurd member (failed r error)

/-- The last request is the one that is given up on. -/
theorem gaveUp_refused {replies : List (Reply ε)} {r : Request} {error : ε}
    (member : (r, .tooLong error) ∈ requests head replies size next) (one : r.size ≤ 1) :
    gaveUp (requests head replies size next) = some error := by
  fun_induction requests head replies size next with
  | case1 | case2 | case4 | case7 => cases member
  | case3 replies size next open' ih =>
      rcases List.mem_cons.mp member with first | later
      · cases first
      · exact ih later
  | case5 error' replies size next open' one' =>
      cases List.mem_singleton.mp member
      simp [gaveUp, one]
  | case6 error' replies size next open' more ih =>
      rcases List.mem_cons.mp member with first | later
      · cases first
        exact absurd one more
      · have rest := ih later
        have kept : gaveUp ((request head size next, .tooLong error') ::
            requests head replies (max 1 (size / 2)) next) =
            gaveUp (requests head replies (max 1 (size / 2)) next) := by
          simp [gaveUp, request, more]
        rw [kept, rest]
  | case8 error' replies size next open' => cases List.mem_singleton.mp member

/-- With replies enough the scan gives up or gets to the end. -/
theorem requests_complete {replies : List (Reply ε)} (positive : 1 ≤ size) (inside : next ≤ head + 1)
    (enough : head + 1 - next + size ≤ replies.length)
    (through : gaveUp (requests head replies size next) = none) :
    Adjoin next (served (requests head replies size next)) (head + 1) := by
  fun_induction requests head replies size next with
  | case1 size next =>
      rw [List.length_nil] at enough
      omega
  | case2 _ size next past | case4 _ _ size next past | case7 _ _ size next past =>
      have ended : next = head + 1 := by omega
      rw [ended]
      exact .nil
  | case3 replies size next open' ih =>
      have ahead := request_bounds positive (Nat.le_of_not_lt open')
      rw [List.length_cons] at enough
      exact .cons ahead.1 (ih positive (by omega) (by omega) through)
  | case5 error replies size next open' one => simp [gaveUp, request, one] at through
  | case6 error replies size next open' more ih =>
      have rest : gaveUp (requests head replies (max 1 (size / 2)) next) = none := by
        simpa [gaveUp, request, more] using through
      rw [List.length_cons] at enough
      exact ih (by omega) inside (by omega) rest
  | case8 => cases through

end requests

/-- Of a log each chunk has what lies in it, and all of them have what lies in the range. -/
theorem Adjoin.perm {first next : Nat} {chunks : List Request} (adjoin : Adjoin first chunks next)
    (log : List α) (position : α → Option Nat) :
    (chunks.flatMap fun r => log.filter fun entry =>
      (position entry).any fun spot => r.first ≤ spot && spot ≤ r.last).Perm
      (log.filter fun entry => (position entry).any fun spot => first ≤ spot && spot < next) := by
  induction adjoin with
  | nil =>
      rw [List.flatMap_nil, List.filter_eq_nil_iff.mpr]
      intro entry _ inside
      obtain ⟨spot, -, bounds⟩ := (Option.any_eq_true _ _).mp inside
      simp at bounds
      omega
  | @cons r rest next nonempty later ih =>
      have ended := later.le
      rw [List.flatMap_cons]
      refine (ih.append_left _).trans ?_
      have split := List.filter_append_perm (fun entry => (position entry).any (· ≤ r.last))
        (log.filter fun entry => (position entry).any fun spot => r.first ≤ spot && spot < next)
      rw [List.filter_filter, List.filter_filter] at split
      refine .trans (.of_eq ?_) split
      congr 1
      all_goals
        apply List.filter_congr
        intro entry _
        cases position entry with
        | none => rfl
        | some spot =>
            simp only [Option.any_some]
            grind

end ChunkedScan

import Mathlib.Data.List.Basic
import Mathlib.Tactic.Common

/-! # Reading an ordered log in windows

The entries of a log have positions that never fall.  A reader takes one window of positions
after the other, and of each window at most a page.  It misses nothing exactly if no page
cuts off an entry that stands for something.
-/

namespace LogWindows

variable {α : Type u} {β : Type v}

/-- The entries from `first` on and before `last`. -/
def between (position : α → Int) (first last : Int) (log : List α) : List α :=
  log.filter fun entry => first ≤ position entry ∧ position entry < last

variable {position : α → Int}

theorem between_of_le {first last : Int} (log : List α) (reversed : last ≤ first) :
    between position first last log = [] := by
  rw [between, List.filter_eq_nil_iff]
  intro entry _ inside
  have bounds := of_decide_eq_true inside
  omega

theorem between_cons (first last : Int) (entry : α) (log : List α) :
    between position first last (entry :: log) =
      if first ≤ position entry ∧ position entry < last then
        entry :: between position first last log
      else between position first last log := by
  simp [between, List.filter_cons]

/-- Two windows in a row are one. -/
theorem between_append {first middle last : Int} {log : List α}
    (ordered : log.Pairwise fun a b => position a ≤ position b) (early : first ≤ middle)
    (late : middle ≤ last) :
    between position first middle log ++ between position middle last log =
      between position first last log := by
  induction ordered with
  | nil => rfl
  | @cons entry rest later _ ih =>
      rw [between_cons, between_cons, between_cons]
      by_cases before : position entry < middle
      · have outside : ¬ (middle ≤ position entry ∧ position entry < last) := by omega
        rw [if_neg outside]
        by_cases inside : first ≤ position entry
        · rw [if_pos ⟨inside, before⟩, if_pos ⟨inside, by omega⟩, List.cons_append, ih]
        · rw [if_neg (by omega), if_neg (by omega), ih]
      · have nothing : between position first middle rest = [] := by
          rw [between, List.filter_eq_nil_iff]
          intro other member inside
          have bounds := of_decide_eq_true inside
          have order := later other member
          omega
        rw [nothing, List.nil_append] at ih
        rw [if_neg (by omega), nothing, List.nil_append, ih]
        by_cases inside : position entry < last
        · rw [if_pos (by omega), if_pos (by omega)]
        · rw [if_neg (by omega), if_neg (by omega)]

/-- A page misses nothing if what it cuts off stands for nothing. -/
theorem page_complete {decode : α → Option β} {limit : Nat} {entries : List α} :
    (entries.take limit).filterMap decode = entries.filterMap decode ↔
      ∀ entry ∈ entries.drop limit, decode entry = none := by
  have split : entries.filterMap decode =
      (entries.take limit).filterMap decode ++ (entries.drop limit).filterMap decode := by
    rw [← List.filterMap_append, List.take_append_drop]
  rw [split, List.self_eq_append_right, List.filterMap_eq_nil_iff]

theorem page_length (decode : α → Option β) (limit : Nat) (entries : List α) :
    ((entries.take limit).filterMap decode).length ≤ (entries.filterMap decode).length :=
  ((List.take_sublist limit entries).filterMap decode).length_le

/-- What no part has more of than it should, the whole has if all parts have. -/
theorem append_complete {read all page entries : List β} (atMost : read.length ≤ all.length)
    (fits : page.length ≤ entries.length) :
    read ++ page = all ++ entries ↔ read = all ∧ page = entries := by
  constructor
  · intro same
    have lengths := congrArg List.length same
    rw [List.length_append, List.length_append] at lengths
    exact List.append_inj same (by omega)
  · intro both
    obtain ⟨rfl, rfl⟩ := both
    rfl

end LogWindows

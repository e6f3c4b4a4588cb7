import Mathlib.Data.List.Nodup

/-! # Numbers handed out in order

A counter that only rises gives each item of a list a number of its own.
-/

namespace Numbering

variable {α : Type u}

/-- The numbers rise through the list, all of them above `first` and none above `last`. -/
structure Numbered (number : α → Nat) (first last : Nat) (items : List α) : Prop where
  ordered : first ≤ last
  above : ∀ x ∈ items, first < number x
  atMost : ∀ x ∈ items, number x ≤ last
  rising : items.Pairwise fun x y => number x < number y

variable {number : α → Nat} {first middle last : Nat} {items more : List α}

theorem Numbered.nil (ordered : first ≤ last) : Numbered number first last [] :=
  ⟨ordered, by simp, by simp, .nil⟩

theorem Numbered.single {x : α} (above : first < number x) (atMost : number x ≤ last) :
    Numbered number first last [x] :=
  ⟨by omega, by simpa using above, by simpa using atMost, List.pairwise_singleton _ x⟩

theorem Numbered.append (earlier : Numbered number first middle items)
    (later : Numbered number middle last more) : Numbered number first last (items ++ more) where
  ordered := Nat.le_trans earlier.ordered later.ordered
  above := by
    intro x member
    rcases List.mem_append.mp member with member | member
    · exact earlier.above x member
    · exact Nat.lt_of_le_of_lt earlier.ordered (later.above x member)
  atMost := by
    intro x member
    rcases List.mem_append.mp member with member | member
    · exact Nat.le_trans (earlier.atMost x member) later.ordered
    · exact later.atMost x member
  rising := by
    refine List.pairwise_append.mpr ⟨earlier.rising, later.rising, ?_⟩
    intro x before y after
    exact Nat.lt_of_le_of_lt (earlier.atMost x before) (later.above y after)

/-- No number is handed out twice. -/
theorem Numbered.inj (numbered : Numbered number first last items) {x y : α} (left : x ∈ items)
    (right : y ∈ items) (same : number x = number y) : x = y := by
  have distinct : (items.map number).Nodup :=
    List.pairwise_map.mpr (numbered.rising.imp fun below => Nat.ne_of_lt below)
  exact List.inj_on_of_nodup_map distinct left right same

end Numbering

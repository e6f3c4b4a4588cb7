import Mathlib.Data.List.Nodup
import Mathlib.Tactic.Common

/-! # Maps that keep their insertion order

Each key occurs once.  Setting a key that is there keeps its place, a new one goes last.
-/

structure InsertionMap (κ : Type u) (ν : Type v) where
  /-- Oldest first. -/
  entries : List (κ × ν)
  nodup : (entries.map Prod.fst).Nodup

namespace InsertionMap

variable {κ : Type u} {ν : Type v}

def empty : InsertionMap κ ν := ⟨[], List.nodup_nil⟩

def keys (m : InsertionMap κ ν) : List κ := m.entries.map Prod.fst

def size (m : InsertionMap κ ν) : Nat := m.entries.length

theorem size_eq (m : InsertionMap κ ν) : m.size = m.keys.length :=
  (List.length_map _).symm

/-- The entries that satisfy a predicate, in the same order. -/
def filter (m : InsertionMap κ ν) (p : κ × ν → Bool) : InsertionMap κ ν where
  entries := m.entries.filter p
  nodup := m.nodup.sublist (List.filter_sublist.map Prod.fst)

variable [DecidableEq κ]

def get (m : InsertionMap κ ν) (k : κ) : Option ν := (m.entries.find? fun e => e.1 = k).map Prod.snd

def delete (m : InsertionMap κ ν) (k : κ) : InsertionMap κ ν := m.filter fun e => e.1 ≠ k

theorem replace_keys (entries : List (κ × ν)) (k : κ) (v : ν) :
    (entries.map fun e => if e.1 = k then (k, v) else e).map Prod.fst = entries.map Prod.fst := by
  induction entries with
  | nil => rfl
  | cons e rest ih =>
      rw [List.map_cons, List.map_cons, List.map_cons, ih]
      split
      · rename_i here
        rw [here]
      · rfl

def set (m : InsertionMap κ ν) (k : κ) (v : ν) : InsertionMap κ ν :=
  if present : k ∈ m.keys then
    ⟨m.entries.map fun e => if e.1 = k then (k, v) else e, by
      rw [replace_keys]
      exact m.nodup⟩
  else
    ⟨m.entries ++ [(k, v)], by
      rw [List.map_append]
      exact m.nodup.append (List.nodup_singleton k) (List.disjoint_singleton.mpr present)⟩

/-- What is found under a key is the entry of that key. -/
theorem get_eq_some {m : InsertionMap κ ν} {k : κ} {v : ν} : m.get k = some v ↔ (k, v) ∈ m.entries := by
  obtain ⟨entries, nodup⟩ := m
  unfold get
  induction entries with
  | nil => simp
  | cons e rest ih =>
      obtain ⟨absent, others⟩ := List.nodup_cons.mp nodup
      have later := ih others
      by_cases here : e.1 = k
      · subst here
        have gone : (e.1, v) ∉ rest := fun member => absent (List.mem_map.mpr ⟨(e.1, v), member, rfl⟩)
        simp only [List.find?_cons, decide_true, Option.map_some, Option.some.injEq, List.mem_cons,
          gone, or_false]
        constructor
        · rintro rfl
          rfl
        · intro same
          exact congrArg Prod.snd same.symm
      · have other : (k, v) ≠ e := fun same => here (congrArg Prod.fst same.symm)
        simp only [List.find?_cons, here, decide_false, List.mem_cons, other, false_or]
        exact later

theorem mem_keys {m : InsertionMap κ ν} {k : κ} : k ∈ m.keys ↔ ∃ v, m.get k = some v := by
  simp only [keys, List.mem_map, get_eq_some]
  constructor
  · rintro ⟨e, member, rfl⟩
    exact ⟨e.2, member⟩
  · rintro ⟨v, member⟩
    exact ⟨(k, v), member, rfl⟩

theorem get_eq_none {m : InsertionMap κ ν} {k : κ} : m.get k = none ↔ k ∉ m.keys := by
  rw [mem_keys, Option.eq_none_iff_forall_ne_some, not_exists]

@[simp] theorem get_empty (k : κ) : (empty : InsertionMap κ ν).get k = none := rfl

theorem get_filter {m : InsertionMap κ ν} {p : κ × ν → Bool} {k : κ} {v : ν} :
    (m.filter p).get k = some v ↔ m.get k = some v ∧ p (k, v) = true := by
  rw [get_eq_some, get_eq_some]
  exact List.mem_filter

theorem get_delete (m : InsertionMap κ ν) (k other : κ) :
    (m.delete k).get other = if other = k then none else m.get other := by
  apply Option.ext
  intro v
  simp only [delete, get_filter, decide_not, Bool.not_eq_true', decide_eq_false_iff_not]
  split
  · rename_i here
    simp [here]
  · rename_i there
    simp [there]

theorem keys_delete_sublist (m : InsertionMap κ ν) (k : κ) : (m.delete k).keys.Sublist m.keys :=
  List.filter_sublist.map Prod.fst

theorem keys_delete (m : InsertionMap κ ν) (k : κ) : (m.delete k).keys = m.keys.filter (· ≠ k) := by
  unfold keys delete filter
  rw [List.filter_map]
  rfl

theorem size_delete_le (m : InsertionMap κ ν) (k : κ) : (m.delete k).size ≤ m.size :=
  List.length_filter_le _ _

theorem size_delete_lt {m : InsertionMap κ ν} {k : κ} (present : k ∈ m.keys) :
    (m.delete k).size < m.size := by
  obtain ⟨v, found⟩ := mem_keys.mp present
  have member : (k, v) ∈ m.entries := get_eq_some.mp found
  exact List.length_filter_lt_length_iff_exists.mpr ⟨(k, v), member, by simp⟩

theorem delete_of_not_mem {m : InsertionMap κ ν} {k : κ} (absent : k ∉ m.keys) : m.delete k = m := by
  have kept : m.entries.filter (fun e => e.1 ≠ k) = m.entries := by
    apply List.filter_eq_self.mpr
    intro e member
    exact decide_eq_true fun same => absent (same ▸ List.mem_map_of_mem member)
  obtain ⟨entries, nodup⟩ := m
  unfold delete filter
  congr 1

section set

variable {m : InsertionMap κ ν} {k : κ} {v : ν}

theorem set_entries_of_mem (present : k ∈ m.keys) :
    (m.set k v).entries = m.entries.map fun e => if e.1 = k then (k, v) else e := by
  simp only [set, present, dif_pos]

theorem set_entries_of_not_mem (absent : k ∉ m.keys) :
    (m.set k v).entries = m.entries ++ [(k, v)] := by
  simp only [set, absent, dif_neg, not_false_eq_true]

theorem keys_set_of_mem (present : k ∈ m.keys) : (m.set k v).keys = m.keys := by
  unfold keys
  rw [set_entries_of_mem present, replace_keys]

theorem keys_set_of_not_mem (absent : k ∉ m.keys) : (m.set k v).keys = m.keys ++ [k] := by
  unfold keys
  rw [set_entries_of_not_mem absent, List.map_append]
  rfl

theorem size_set_le : (m.set k v).size ≤ m.size + 1 := by
  rw [size_eq, size_eq]
  by_cases present : k ∈ m.keys
  · rw [keys_set_of_mem present]
    exact Nat.le_succ _
  · rw [keys_set_of_not_mem present, List.length_append]
    exact Nat.le_refl _

theorem get_set_self : (m.set k v).get k = some v := by
  rw [get_eq_some]
  by_cases present : k ∈ m.keys
  · obtain ⟨old, found⟩ := mem_keys.mp present
    rw [set_entries_of_mem present]
    exact List.mem_map.mpr ⟨(k, old), get_eq_some.mp found, if_pos rfl⟩
  · rw [set_entries_of_not_mem present]
    exact List.mem_append_right _ List.mem_cons_self

theorem get_set_of_ne {other : κ} (there : other ≠ k) : (m.set k v).get other = m.get other := by
  apply Option.ext
  intro u
  rw [get_eq_some, get_eq_some]
  by_cases present : k ∈ m.keys
  · rw [set_entries_of_mem present, List.mem_map]
    constructor
    · rintro ⟨e, member, same⟩
      split at same
      · exact absurd (congrArg Prod.fst same).symm there
      · exact same ▸ member
    · intro member
      exact ⟨(other, u), member, if_neg there⟩
  · rw [set_entries_of_not_mem present, List.mem_append, List.mem_singleton, Prod.mk.injEq]
    simp [there]

end set

theorem get_set (m : InsertionMap κ ν) (k other : κ) (v : ν) :
    (m.set k v).get other = if other = k then some v else m.get other := by
  split
  · rename_i here
    rw [here, get_set_self]
  · rename_i there
    exact get_set_of_ne there

end InsertionMap

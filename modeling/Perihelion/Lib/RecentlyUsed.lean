import Mathlib.Data.List.DropRight
import Perihelion.Lib.DeadlineCache

/-! # What a cache remembers

A key is touched when it is put in and when it is found.  As long as nothing expires, a cache
holds the keys that have been touched last, and of each what has been put in last.
-/

namespace DeadlineCache

variable {κ : Type u} {ν : Type v} {cache : DeadlineCache κ ν} {now : Int}

/-- No entry's deadline has passed. -/
def Fresh (cache : DeadlineCache κ ν) (now : Int) : Prop :=
  ∀ e ∈ cache.entries.entries, now ≤ e.2.deadline

instance (cache : DeadlineCache κ ν) (now : Int) : Decidable (cache.Fresh now) :=
  inferInstanceAs (Decidable (∀ _ ∈ _, _))

theorem Fresh.dropExpired (fresh : cache.Fresh now) : cache.dropExpired now = cache := by
  have kept : cache.entries.entries.filter (fun e => decide (¬ e.2.deadline < now)) = cache.entries.entries := by
    apply List.filter_eq_self.mpr
    intro e member
    exact decide_eq_true (Int.not_lt.mpr (fresh e member))
  exact ext_cache rfl kept

variable [DecidableEq κ] {touches : List κ} {k : κ}

/-- The last `n` distinct keys, in the order of their last touch. -/
def lastDistinct (n : Nat) (touches : List κ) : List κ := touches.dedup.rtake n

theorem dedup_snoc (touches : List κ) (k : κ) :
    (touches ++ [k]).dedup = touches.dedup.filter (· ≠ k) ++ [k] := by
  induction touches with
  | nil => rfl
  | cons first rest ih =>
      rw [List.cons_append]
      by_cases again : first ∈ rest
      · rw [List.dedup_cons_of_mem (List.mem_append_left _ again), List.dedup_cons_of_mem again, ih]
      · rw [List.dedup_cons_of_notMem again]
        by_cases own : first = k
        · subst own
          rw [List.dedup_cons_of_mem (by simp), ih, List.filter_cons_of_neg (by simp)]
        · rw [List.dedup_cons_of_notMem (by simp [again, own]), ih, List.filter_cons_of_pos (by simp [own]),
            List.cons_append]

/-- A touch takes the key to the end, and at most one key off the front. -/
theorem lastDistinct_snoc (n : Nat) (touches : List κ) (k : κ) :
    lastDistinct (n + 1) (touches ++ [k]) =
      ((lastDistinct (n + 1) touches).filter (· ≠ k)).rtake n ++ [k] := by
  rw [lastDistinct, dedup_snoc, List.rtake_concat_succ]
  congr 1
  have nodup := touches.nodup_dedup
  have split := List.take_append_drop (touches.dedup.length - (n + 1)) touches.dedup
  have held : lastDistinct (n + 1) touches = touches.dedup.drop (touches.dedup.length - (n + 1)) := rfl
  rw [held]
  conv => lhs; rw [← split]
  rw [List.filter_append, List.rtake, List.rtake, List.length_append]
  generalize touches.dedup = distinct at nodup split ⊢
  by_cases short : distinct.length ≤ n + 1
  · have none : distinct.length - (n + 1) = 0 := by omega
    rw [none, List.take_zero, List.filter_nil, List.nil_append, List.length_nil, Nat.zero_add]
  · have tail : (distinct.drop (distinct.length - (n + 1))).Nodup := nodup.sublist (List.drop_sublist _ _)
    have length : (distinct.drop (distinct.length - (n + 1))).length = n + 1 := by
      rw [List.length_drop]
      omega
    have erased : (distinct.drop (distinct.length - (n + 1))).filter (· ≠ k) =
        (distinct.drop (distinct.length - (n + 1))).erase k := by
      rw [tail.erase_eq_filter k]
      exact List.filter_congr fun other _ => decide_not
    have many : (distinct.drop (distinct.length - (n + 1))).length - 1 ≤
        ((distinct.drop (distinct.length - (n + 1))).erase k).length := List.le_length_erase
    rw [← erased, length, Nat.add_sub_cancel] at many
    rw [List.drop_append, List.drop_eq_nil_of_le (by omega), List.nil_append]
    congr 1
    omega

/-- The keys that have been touched last, and under each the value that goes with it. -/
structure Remembers (cache : DeadlineCache κ ν) (touches : List κ) (last : κ → Option ν) : Prop where
  keys : cache.keys = lastDistinct cache.maxSize touches
  values : ∀ e ∈ cache.entries.entries, last e.1 = some e.2.value

theorem remembers_empty (maxSize : Nat) (last : κ → Option ν) :
    (empty maxSize : DeadlineCache κ ν).Remembers [] last where
  keys := by
    rw [lastDistinct, List.dedup_nil, List.rtake_nil]
    rfl
  values _ member := by cases member

/-- What is held is found and goes to the end, anything else changes nothing. -/
theorem Fresh.lookup (fresh : cache.Fresh now) (k : κ) :
    (k ∉ cache.keys ∧ cache.lookup now k = (cache, none)) ∨
      ∃ entry, cache.entries.get k = some entry ∧ cache.lookup now k =
        ({ cache with entries := cache.entries.renew k entry }, some entry.value) := by
  rcases cache.lookup_cases now k with missed | ⟨entry, found, expired, _⟩ | ⟨entry, found, _, moved⟩
  · exact .inl missed
  · have held : now ≤ entry.deadline := fresh (k, entry) (InsertionMap.get_eq_some.mp found)
    omega
  · exact .inr ⟨entry, found, moved⟩

theorem makeRoom_keys (cache : DeadlineCache κ ν) :
    cache.makeRoom.keys =
      if cache.maxSize ≤ cache.keys.length then cache.keys.tail else cache.keys := by
  rw [makeRoom, size_eq]
  split
  · exact InsertionMap.keys_dropOldest _
  · rfl

/-- Room for one is made by leaving one less than there may be. -/
theorem makeRoom_delete_keys {n : Nat} (size : cache.maxSize = n + 1) (held : cache.keys.length ≤ n + 1)
    (k : κ) : (cache.delete k).makeRoom.keys = (cache.keys.filter (· ≠ k)).rtake n := by
  have deleted : (cache.delete k).keys = cache.keys.filter (· ≠ k) := cache.entries.keys_delete k
  have fewer : (cache.keys.filter (· ≠ k)).length ≤ cache.keys.length := List.length_filter_le _ _
  have same : (cache.delete k).maxSize = n + 1 := size
  rw [makeRoom_keys, deleted, same, List.rtake]
  generalize cache.keys.filter (· ≠ k) = rest at fewer ⊢
  split
  · have one : rest.length - n = 1 := by omega
    rw [one, List.drop_one]
  · have none : rest.length - n = 0 := by omega
    rw [none, List.drop_zero]

theorem Remembers.length_le {last : κ → Option ν} (remembers : cache.Remembers touches last) :
    cache.keys.length ≤ cache.maxSize := by
  rw [remembers.keys, lastDistinct, List.rtake, List.length_drop]
  omega

theorem mem_makeRoom {e : κ × Timed ν} (member : e ∈ cache.makeRoom.entries.entries) :
    e ∈ cache.entries.entries := by
  unfold makeRoom at member
  split at member
  · dsimp only at member
    rw [InsertionMap.entries_dropOldest] at member
    exact List.mem_of_mem_tail member
  · exact member

/-- What was there under other keys, and what has been put in. -/
theorem mem_insert {e : κ × Timed ν} {value : ν} {deadline : Int}
    (member : e ∈ (cache.insert k value deadline).entries.entries) :
    e = (k, ⟨value, deadline⟩) ∨ e ∈ cache.entries.entries ∧ e.1 ≠ k := by
  have absent : k ∉ (cache.delete k).makeRoom.entries.keys := fun there =>
    cache.not_mem_delete k ((makeRoom_keys_sublist _).subset there)
  have entries : (cache.insert k value deadline).entries.entries =
      (cache.delete k).makeRoom.entries.entries ++ [(k, ⟨value, deadline⟩)] :=
    InsertionMap.set_entries_of_not_mem absent
  rw [entries] at member
  rcases List.mem_append.mp member with before | new
  · have kept := List.mem_filter.mp (mem_makeRoom before)
    exact .inr ⟨kept.1, of_decide_eq_true kept.2⟩
  · exact .inl (List.mem_singleton.mp new)

theorem Remembers.insert {last : κ → Option ν} (remembers : cache.Remembers touches last)
    (positive : 1 ≤ cache.maxSize) (k : κ) (value : ν) (deadline : Int) :
    (cache.insert k value deadline).Remembers (touches ++ [k]) fun other =>
      if other = k then some value else last other := by
  obtain ⟨n, size⟩ := Nat.exists_eq_add_of_le' positive
  constructor
  case keys =>
    have held := remembers.length_le
    rw [size] at held
    rw [insert_keys, insert_maxSize, makeRoom_delete_keys size held, size, lastDistinct_snoc, remembers.keys,
      size]
  case values =>
    intro e member
    rcases mem_insert member with new | ⟨before, other⟩
    · rw [new]
      exact if_pos rfl
    · rw [if_neg other]
      exact remembers.values e before

theorem Remembers.renew {last : κ → Option ν} (remembers : cache.Remembers touches last)
    (positive : 1 ≤ cache.maxSize) {entry : Timed ν} (found : cache.entries.get k = some entry) :
    ({ cache with entries := cache.entries.renew k entry } : DeadlineCache κ ν).Remembers
      (touches ++ [k]) last := by
  obtain ⟨n, size⟩ := Nat.exists_eq_add_of_le' positive
  constructor
  case keys =>
    have held := remembers.length_le
    have fewer := InsertionMap.size_delete_lt (InsertionMap.mem_keys.mpr ⟨entry, found⟩)
    rw [InsertionMap.size_eq, InsertionMap.size_eq, InsertionMap.keys_delete] at fewer
    have all : (cache.keys.filter (· ≠ k)).rtake n = cache.keys.filter (· ≠ k) := by
      have none : (cache.keys.filter (· ≠ k)).length - n = 0 := by
        have same : cache.keys = cache.entries.keys := rfl
        rw [same] at held ⊢
        omega
      rw [List.rtake, none, List.drop_zero]
    show (cache.entries.renew k entry).keys = lastDistinct cache.maxSize (touches ++ [k])
    rw [InsertionMap.keys_renew, size, lastDistinct_snoc, ← size, ← remembers.keys, all]
    rfl
  case values =>
    intro e member
    rw [InsertionMap.entries_renew] at member
    rcases List.mem_append.mp member with before | new
    · exact remembers.values e (List.mem_of_mem_filter before)
    · rw [List.mem_singleton.mp new]
      exact remembers.values _ (InsertionMap.get_eq_some.mp found)

/-- A lookup gives what has been put in last. -/
theorem Remembers.lookup_held {last : κ → Option ν} (remembers : cache.Remembers touches last)
    (fresh : cache.Fresh now) (held : k ∈ cache.keys) :
    ∃ value, last k = some value ∧ (cache.lookup now k).2 = some value := by
  rcases fresh.lookup k with ⟨absent, _⟩ | ⟨entry, found, moved⟩
  · exact absurd held absent
  · rw [moved]
    exact ⟨entry.value, remembers.values _ (InsertionMap.get_eq_some.mp found), rfl⟩

theorem Remembers.lookup {last : κ → Option ν} (remembers : cache.Remembers touches last)
    (fresh : cache.Fresh now) (positive : 1 ≤ cache.maxSize) (k : κ) :
    (cache.lookup now k).1.Remembers
      (touches ++ if (cache.lookup now k).2.isSome then [k] else []) last := by
  rcases fresh.lookup k with ⟨absent, missed⟩ | ⟨entry, found, moved⟩
  · rw [missed, Option.isSome_none, if_neg Bool.false_ne_true, List.append_nil]
    exact remembers
  · rw [moved]
    exact remembers.renew positive found

end DeadlineCache

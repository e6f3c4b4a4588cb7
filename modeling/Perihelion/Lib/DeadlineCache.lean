import Mathlib.Data.List.Dedup
import Mathlib.Data.List.Perm.Subperm
import Perihelion.Lib.InsertionMap

/-! # Bounded caches whose entries expire

The entries stand in the order of their last use.  A lookup moves what it finds to the end; an
insertion into a full cache drops the front.
-/

structure Timed (ν : Type v) where
  value : ν
  deadline : Int

structure DeadlineCache (κ : Type u) (ν : Type v) where
  maxSize : Nat
  /-- Least recently used first. -/
  entries : InsertionMap κ (Timed ν)

namespace InsertionMap

variable {κ : Type u} {ν : Type v}

theorem ext_entries {m m' : InsertionMap κ ν} (same : m.entries = m'.entries) : m = m' := by
  cases m
  cases m'
  congr 1

variable [DecidableEq κ]

/-- The entry of a key, as the last one. -/
def renew (m : InsertionMap κ ν) (k : κ) (v : ν) : InsertionMap κ ν := (m.delete k).set k v

def dropOldest (m : InsertionMap κ ν) : InsertionMap κ ν :=
  match m.keys with
  | [] => m
  | oldest :: _ => m.delete oldest

theorem not_mem_delete (m : InsertionMap κ ν) (k : κ) : k ∉ (m.delete k).keys := by
  rw [keys_delete]
  simp

theorem entries_renew (m : InsertionMap κ ν) (k : κ) (v : ν) :
    (m.renew k v).entries = (m.delete k).entries ++ [(k, v)] :=
  set_entries_of_not_mem (not_mem_delete m k)

theorem keys_renew (m : InsertionMap κ ν) (k : κ) (v : ν) :
    (m.renew k v).keys = m.keys.filter (· ≠ k) ++ [k] := by
  rw [renew, keys_set_of_not_mem (not_mem_delete m k), keys_delete]

theorem get_renew (m : InsertionMap κ ν) (k other : κ) (v : ν) :
    (m.renew k v).get other = if other = k then some v else m.get other := by
  rw [renew, get_set, get_delete]
  split
  · rfl
  · rfl

theorem entries_dropOldest (m : InsertionMap κ ν) : m.dropOldest.entries = m.entries.tail := by
  obtain ⟨entries, nodup⟩ := m
  cases entries with
  | nil => rfl
  | cons e rest =>
      have others : ∀ e' ∈ rest, decide (e'.1 ≠ e.1) = true := by
        intro e' member
        apply decide_eq_true
        intro same
        exact (List.nodup_cons.mp nodup).1 (same ▸ List.mem_map_of_mem member)
      show List.filter (fun e' => decide (e'.1 ≠ e.1)) (e :: rest) = rest
      rw [List.filter_cons, if_neg (by simp)]
      exact List.filter_eq_self.mpr others

theorem keys_dropOldest (m : InsertionMap κ ν) : m.dropOldest.keys = m.keys.tail := by
  unfold keys
  rw [entries_dropOldest, List.map_tail]

theorem get_dropOldest (m : InsertionMap κ ν) (k : κ) :
    m.dropOldest.get k = if m.keys.head? = some k then none else m.get k := by
  unfold dropOldest
  cases order : m.keys with
  | nil => rw [List.head?_nil, if_neg (by simp)]
  | cons oldest rest =>
      simp only [List.head?_cons, Option.some.injEq]
      rw [get_delete]
      by_cases here : oldest = k
      · rw [if_pos here, if_pos here.symm]
      · rw [if_neg here, if_neg (Ne.symm here)]

end InsertionMap

namespace DeadlineCache

variable {κ : Type u} {ν : Type v}

def empty (maxSize : Nat) : DeadlineCache κ ν := ⟨maxSize, .empty⟩

def keys (cache : DeadlineCache κ ν) : List κ := cache.entries.keys

def size (cache : DeadlineCache κ ν) : Nat := cache.entries.size

def dropExpired (cache : DeadlineCache κ ν) (now : Int) : DeadlineCache κ ν :=
  { cache with entries := cache.entries.filter fun e => ¬ e.2.deadline < now }

/-- What is left without the marked keys. -/
def without (cache : DeadlineCache κ ν) (marked : κ → Bool) : DeadlineCache κ ν :=
  { cache with entries := cache.entries.filter fun e => !marked e.1 }

/-- A cache that may hold nothing still holds what was put in last. -/
def Bounded (cache : DeadlineCache κ ν) : Prop := cache.size ≤ max cache.maxSize 1

theorem bounded_empty (maxSize : Nat) : (empty maxSize : DeadlineCache κ ν).Bounded := Nat.zero_le _

theorem size_eq (cache : DeadlineCache κ ν) : cache.size = cache.keys.length := cache.entries.size_eq

theorem Bounded.sublist {cache cache' : DeadlineCache κ ν} (bounded : cache.Bounded)
    (same : cache'.maxSize = cache.maxSize) (fewer : cache'.size ≤ cache.size) : cache'.Bounded := by
  unfold Bounded at bounded ⊢
  omega

theorem Bounded.dropExpired {cache : DeadlineCache κ ν} (bounded : cache.Bounded) (now : Int) :
    (cache.dropExpired now).Bounded :=
  bounded.sublist rfl (List.length_filter_le _ _)

theorem dropExpired_keys_sublist (cache : DeadlineCache κ ν) (now : Int) :
    (cache.dropExpired now).keys.Sublist cache.keys :=
  List.filter_sublist.map Prod.fst

variable {marked : κ → Bool}

theorem ext_cache {cache cache' : DeadlineCache κ ν} (size : cache.maxSize = cache'.maxSize)
    (same : cache.entries.entries = cache'.entries.entries) : cache = cache' := by
  cases cache
  cases cache'
  congr 1
  exact InsertionMap.ext_entries same

theorem without_keys (cache : DeadlineCache κ ν) :
    (cache.without marked).keys = cache.keys.filter fun k => !marked k := by
  unfold keys InsertionMap.keys
  rw [List.filter_map]
  rfl

theorem without_of_free {cache : DeadlineCache κ ν} (free : ∀ k ∈ cache.keys, marked k = false) :
    cache.without marked = cache := by
  have kept : (cache.entries.entries.filter fun e => !marked e.1) = cache.entries.entries := by
    apply List.filter_eq_self.mpr
    intro e member
    rw [free e.1 (List.mem_map_of_mem member)]
    rfl
  exact ext_cache rfl kept

theorem dropExpired_without (cache : DeadlineCache κ ν) (now : Int) :
    (cache.without marked).dropExpired now = (cache.dropExpired now).without marked :=
  ext_cache rfl (List.filter_comm ..)

variable [DecidableEq κ]

def delete (cache : DeadlineCache κ ν) (k : κ) : DeadlineCache κ ν :=
  { cache with entries := cache.entries.delete k }

/-- An entry whose deadline has passed is dropped, any other one is moved to the end. -/
def lookup (cache : DeadlineCache κ ν) (now : Int) (k : κ) : DeadlineCache κ ν × Option ν :=
  match cache.entries.get k with
  | none => (cache, none)
  | some entry =>
      if entry.deadline < now then (cache.delete k, none)
      else ({ cache with entries := cache.entries.renew k entry }, some entry.value)

def makeRoom (cache : DeadlineCache κ ν) : DeadlineCache κ ν :=
  if cache.maxSize ≤ cache.size then { cache with entries := cache.entries.dropOldest } else cache

def insert (cache : DeadlineCache κ ν) (k : κ) (value : ν) (deadline : Int) : DeadlineCache κ ν :=
  let room := (cache.delete k).makeRoom
  { room with entries := room.entries.set k ⟨value, deadline⟩ }

theorem delete_keys_sublist (cache : DeadlineCache κ ν) (k : κ) :
    (cache.delete k).keys.Sublist cache.keys :=
  cache.entries.keys_delete_sublist k

theorem not_mem_delete (cache : DeadlineCache κ ν) (k : κ) : k ∉ (cache.delete k).keys :=
  cache.entries.not_mem_delete k

theorem makeRoom_keys_sublist (cache : DeadlineCache κ ν) :
    cache.makeRoom.keys.Sublist cache.keys := by
  unfold makeRoom
  split
  · rw [keys, InsertionMap.keys_dropOldest]
    exact List.tail_sublist _
  · exact List.Sublist.refl _

theorem makeRoom_maxSize (cache : DeadlineCache κ ν) : cache.makeRoom.maxSize = cache.maxSize := by
  unfold makeRoom
  split
  · rfl
  · rfl

/-- The new key goes last. -/
theorem insert_keys (cache : DeadlineCache κ ν) (k : κ) (value : ν) (deadline : Int) :
    (cache.insert k value deadline).keys = (cache.delete k).makeRoom.keys ++ [k] :=
  InsertionMap.keys_set_of_not_mem fun member =>
    cache.not_mem_delete k ((makeRoom_keys_sublist _).subset member)

theorem insert_maxSize (cache : DeadlineCache κ ν) (k : κ) (value : ν) (deadline : Int) :
    (cache.insert k value deadline).maxSize = cache.maxSize :=
  makeRoom_maxSize (cache.delete k)

theorem lookup_of_not_mem {cache : DeadlineCache κ ν} {k : κ} (absent : k ∉ cache.keys) (now : Int) :
    cache.lookup now k = (cache, none) := by
  unfold lookup
  rw [InsertionMap.get_eq_none.mpr absent]

theorem delete_of_not_mem {cache : DeadlineCache κ ν} {k : κ} (absent : k ∉ cache.keys) :
    cache.delete k = cache := by
  unfold delete
  rw [InsertionMap.delete_of_not_mem absent]

theorem delete_delete (cache : DeadlineCache κ ν) (k : κ) :
    (cache.delete k).delete k = cache.delete k :=
  delete_of_not_mem (cache.not_mem_delete k)

/-- What a lookup comes to. -/
theorem lookup_cases (cache : DeadlineCache κ ν) (now : Int) (k : κ) :
    (k ∉ cache.keys ∧ cache.lookup now k = (cache, none)) ∨
    (∃ entry, cache.entries.get k = some entry ∧ entry.deadline < now ∧
      cache.lookup now k = (cache.delete k, none)) ∨
    (∃ entry, cache.entries.get k = some entry ∧ now ≤ entry.deadline ∧
      cache.lookup now k =
        ({ cache with entries := cache.entries.renew k entry }, some entry.value)) := by
  unfold lookup
  cases found : cache.entries.get k with
  | none => exact .inl ⟨InsertionMap.get_eq_none.mp found, rfl⟩
  | some entry =>
      by_cases expired : entry.deadline < now
      · exact .inr (.inl ⟨entry, rfl, expired, if_pos expired⟩)
      · exact .inr (.inr ⟨entry, rfl, Int.not_lt.mp expired, if_neg expired⟩)

theorem lookup_keys_subset (cache : DeadlineCache κ ν) (now : Int) (k : κ) :
    (cache.lookup now k).1.keys ⊆ cache.keys := by
  rcases cache.lookup_cases now k with ⟨_, same⟩ | ⟨entry, _, _, dropped⟩ | ⟨entry, found, _, moved⟩
  · rw [same]
    exact fun _ member => member
  · rw [dropped]
    exact (cache.delete_keys_sublist k).subset
  · rw [moved]
    intro other member
    rw [keys, InsertionMap.keys_renew] at member
    rcases List.mem_append.mp member with kept | own
    · exact List.mem_of_mem_filter kept
    · rw [List.mem_singleton.mp own]
      exact InsertionMap.mem_keys.mpr ⟨entry, found⟩

theorem lookup_maxSize (cache : DeadlineCache κ ν) (now : Int) (k : κ) :
    (cache.lookup now k).1.maxSize = cache.maxSize := by
  rcases cache.lookup_cases now k with ⟨_, same⟩ | ⟨entry, _, _, dropped⟩ | ⟨entry, _, _, moved⟩
  · rw [same]
  · rw [dropped]
    rfl
  · rw [moved]

/-- A lookup that finds nothing leaves all but the key it has looked for. -/
theorem lookup_none_delete {cache : DeadlineCache κ ν} {now : Int} {k : κ}
    (missed : (cache.lookup now k).2 = none) :
    (cache.lookup now k).1.delete k = cache.delete k := by
  rcases cache.lookup_cases now k with ⟨_, same⟩ | ⟨entry, _, _, dropped⟩ | ⟨entry, _, _, moved⟩
  · rw [same]
  · rw [dropped]
    exact cache.delete_delete k
  · rw [moved] at missed
    cases missed

/-! ## The size -/

theorem Bounded.delete {cache : DeadlineCache κ ν} (bounded : cache.Bounded) (k : κ) :
    (cache.delete k).Bounded :=
  bounded.sublist rfl (cache.entries.size_delete_le k)

theorem Bounded.lookup {cache : DeadlineCache κ ν} (bounded : cache.Bounded) (now : Int) (k : κ) :
    (cache.lookup now k).1.Bounded := by
  rcases cache.lookup_cases now k with ⟨_, same⟩ | ⟨entry, _, _, dropped⟩ | ⟨entry, found, _, moved⟩
  · rw [same]
    exact bounded
  · rw [dropped]
    exact bounded.delete k
  · rw [moved]
    have fewer := InsertionMap.size_delete_lt (InsertionMap.mem_keys.mpr ⟨entry, found⟩)
    have renewed : (cache.entries.renew k entry).size ≤ (cache.entries.delete k).size + 1 :=
      InsertionMap.size_set_le
    exact bounded.sublist rfl (show (cache.entries.renew k entry).size ≤ cache.entries.size by omega)

theorem Bounded.insert {cache : DeadlineCache κ ν} (bounded : cache.Bounded) (k : κ) (value : ν)
    (deadline : Int) : (cache.insert k value deadline).Bounded := by
  have rest : (cache.delete k).size ≤ max cache.maxSize 1 := bounded.delete k
  unfold Bounded
  rw [insert_maxSize, size_eq, insert_keys, List.length_append, List.length_singleton, ← size_eq]
  unfold makeRoom
  split
  · show (cache.delete k).entries.dropOldest.size + 1 ≤ _
    rw [InsertionMap.size_eq, InsertionMap.keys_dropOldest, List.length_tail, ← InsertionMap.size_eq]
    unfold size at rest
    omega
  · rename_i roomy
    have room : (cache.delete k).size < cache.maxSize := Nat.lt_of_not_le roomy
    omega

/-! ## Leaving out some keys -/

/-- Putting `k` in pushes out a marked key, or only marks are missing to begin with. -/
def Spares (marked : κ → Bool) (cache : DeadlineCache κ ν) (k : κ) : Prop :=
  let rest := cache.delete k
  rest.maxSize ≤ rest.size →
    (∀ oldest ∈ rest.keys.head?, marked oldest = true) ∨
      (marked k = false ∧ ∀ other ∈ rest.keys, marked other = false)

theorem spares_of_room {cache : DeadlineCache κ ν} (room : cache.size < cache.maxSize) (k : κ) :
    cache.Spares marked k := by
  intro full
  have fewer := cache.entries.size_delete_le k
  exact absurd (Nat.lt_of_le_of_lt fewer room) (Nat.not_lt.mpr full)

theorem delete_without (cache : DeadlineCache κ ν) (k : κ) :
    (cache.without marked).delete k = (cache.delete k).without marked :=
  ext_cache rfl (List.filter_comm ..)

theorem delete_marked {k : κ} (own : marked k = true) (cache : DeadlineCache κ ν) :
    (cache.delete k).without marked = cache.without marked := by
  rw [← delete_without]
  apply delete_of_not_mem
  rw [without_keys, List.mem_filter]
  rintro ⟨_, unmarked⟩
  rw [own] at unmarked
  cases unmarked

theorem get_without {k : κ} (other : marked k = false) (cache : DeadlineCache κ ν) :
    (cache.without marked).entries.get k = cache.entries.get k := by
  apply Option.ext
  intro entry
  rw [without, InsertionMap.get_filter, other]
  exact and_iff_left rfl

theorem renew_without {k : κ} (other : marked k = false) (cache : DeadlineCache κ ν)
    (entry : Timed ν) :
    ({ cache with entries := cache.entries.renew k entry } : DeadlineCache κ ν).without marked =
      { cache.without marked with entries := (cache.without marked).entries.renew k entry } := by
  apply ext_cache
  · rfl
  · show ((cache.entries.renew k entry).entries.filter fun e => !marked e.1) = _
    rw [InsertionMap.entries_renew, InsertionMap.entries_renew, List.filter_append,
      List.filter_singleton, other]
    exact congrArg (· ++ [(k, entry)]) (List.filter_comm ..)

theorem renew_marked {k : κ} (own : marked k = true) (cache : DeadlineCache κ ν) (entry : Timed ν) :
    ({ cache with entries := cache.entries.renew k entry } : DeadlineCache κ ν).without marked =
      cache.without marked := by
  rw [← delete_marked own cache]
  apply ext_cache
  · rfl
  · show ((cache.entries.renew k entry).entries.filter fun e => !marked e.1) = _
    rw [InsertionMap.entries_renew, List.filter_append, List.filter_singleton, own]
    exact List.append_nil _

theorem lookup_without {k : κ} (other : marked k = false) (cache : DeadlineCache κ ν) (now : Int) :
    (cache.without marked).lookup now k =
      ((cache.lookup now k).1.without marked, (cache.lookup now k).2) := by
  unfold lookup
  rw [get_without other]
  cases cache.entries.get k with
  | none => rfl
  | some entry =>
      by_cases expired : entry.deadline < now
      · simp only [if_pos expired, delete_without]
      · simp only [if_neg expired, renew_without other]

theorem lookup_marked {k : κ} (own : marked k = true) (cache : DeadlineCache κ ν) (now : Int) :
    (cache.lookup now k).1.without marked = cache.without marked := by
  rcases cache.lookup_cases now k with ⟨_, same⟩ | ⟨entry, _, _, dropped⟩ | ⟨entry, _, _, moved⟩
  · rw [same]
  · rw [dropped]
    exact delete_marked own cache
  · rw [moved]
    exact renew_marked own cache entry

theorem makeRoom_of_room {cache : DeadlineCache κ ν} (room : cache.size < cache.maxSize) :
    cache.makeRoom = cache :=
  if_neg (Nat.not_le.mpr room)

theorem makeRoom_of_nil {cache : DeadlineCache κ ν} (empty : cache.keys = []) :
    cache.makeRoom = cache := by
  unfold makeRoom
  split
  · apply ext_cache
    · rfl
    · have none : cache.entries.entries = [] := List.map_eq_nil_iff.mp empty
      show cache.entries.dropOldest.entries = _
      rw [InsertionMap.entries_dropOldest, none]
      rfl
  · rfl

/-- Pushing a marked key out leaves the others as many as before, and they had room. -/
theorem makeRoom_without_of_oldest {cache : DeadlineCache κ ν} (bounded : cache.Bounded)
    (full : cache.maxSize ≤ cache.size) (pushed : ∀ oldest ∈ cache.keys.head?, marked oldest = true) :
    cache.makeRoom.without marked = cache.without marked ∧
      (cache.without marked).makeRoom = cache.without marked := by
  cases order : cache.keys with
  | nil =>
      have none : (cache.without marked).keys = [] := by
        rw [without_keys, order]
        rfl
      rw [makeRoom_of_nil order]
      exact ⟨rfl, makeRoom_of_nil none⟩
  | cons oldest rest =>
      have own : marked oldest = true := pushed oldest (by rw [order]; rfl)
      constructor
      · have dropped : cache.makeRoom = cache.delete oldest := by
          unfold makeRoom InsertionMap.dropOldest
          rw [if_pos full, show cache.entries.keys = oldest :: rest from order]
          rfl
        rw [dropped]
        exact delete_marked own cache
      · have fewer : (cache.without marked).size < cache.size := by
          rw [size_eq, size_eq, without_keys, order, List.filter_cons, own]
          exact Nat.lt_succ_of_le (List.length_filter_le _ _)
        unfold Bounded at bounded
        by_cases room : (cache.without marked).size < cache.maxSize
        · exact makeRoom_of_room room
        · apply makeRoom_of_nil
          apply List.length_eq_zero_iff.mp
          rw [← size_eq]
          omega

theorem insert_entries (cache : DeadlineCache κ ν) (k : κ) (value : ν) (deadline : Int) :
    (cache.insert k value deadline).entries.entries =
      (cache.delete k).makeRoom.entries.entries ++ [(k, ⟨value, deadline⟩)] :=
  InsertionMap.set_entries_of_not_mem fun member =>
    cache.not_mem_delete k ((makeRoom_keys_sublist _).subset member)

theorem insert_without {k : κ} (other : marked k = false) {cache : DeadlineCache κ ν}
    (bounded : cache.Bounded) (spares : cache.Spares marked k) (value : ν) (deadline : Int) :
    (cache.insert k value deadline).without marked =
      (cache.without marked).insert k value deadline := by
  have room : (cache.delete k).makeRoom.without marked =
      ((cache.delete k).without marked).makeRoom := by
    by_cases full : (cache.delete k).maxSize ≤ (cache.delete k).size
    · rcases spares full with pushed | ⟨_, free⟩
      · obtain ⟨left, right⟩ := makeRoom_without_of_oldest (bounded.delete k) full pushed
        rw [left, right]
      · have still : ∀ other ∈ (cache.delete k).makeRoom.keys, marked other = false :=
          fun other member => free other ((makeRoom_keys_sublist _).subset member)
        rw [without_of_free free, without_of_free still]
    · have fits : (cache.delete k).size < (cache.delete k).maxSize := Nat.lt_of_not_le full
      have fewer : ((cache.delete k).without marked).size ≤ (cache.delete k).size :=
        List.length_filter_le _ _
      rw [makeRoom_of_room fits, makeRoom_of_room (Nat.lt_of_le_of_lt fewer fits)]
  apply ext_cache
  · rw [insert_maxSize]
    exact insert_maxSize cache k value deadline
  · rw [insert_entries, delete_without, ← room]
    show ((cache.insert k value deadline).entries.entries.filter fun e => !marked e.1) = _
    rw [insert_entries, List.filter_append, List.filter_singleton, other]
    rfl

theorem insert_marked {k : κ} (own : marked k = true) {cache : DeadlineCache κ ν}
    (bounded : cache.Bounded) (spares : cache.Spares marked k) (value : ν) (deadline : Int) :
    (cache.insert k value deadline).without marked = cache.without marked := by
  have room : (cache.delete k).makeRoom.without marked = (cache.delete k).without marked := by
    by_cases full : (cache.delete k).maxSize ≤ (cache.delete k).size
    · rcases spares full with pushed | ⟨unmarked, _⟩
      · exact (makeRoom_without_of_oldest (bounded.delete k) full pushed).1
      · rw [own] at unmarked
        cases unmarked
    · rw [makeRoom_of_room (Nat.lt_of_not_le full)]
  rw [← delete_marked own cache, ← room]
  apply ext_cache
  · show (cache.insert k value deadline).maxSize = (cache.delete k).makeRoom.maxSize
    rw [insert_maxSize, makeRoom_maxSize]
    rfl
  · show ((cache.insert k value deadline).entries.entries.filter fun e => !marked e.1) = _
    rw [insert_entries, List.filter_append, List.filter_singleton, own]
    exact List.append_nil _

/-! ## How long an entry stays -/

/-- An entry, and keys among which all are that have been used after it. -/
structure Holds (cache : DeadlineCache κ ν) (k : κ) (entry : Timed ν) (newer : List κ) : Prop where
  found : cache.entries.get k = some entry
  order : ∃ older later, cache.keys = older ++ k :: later ∧ later ⊆ newer

variable {k : κ} {entry : Timed ν} {newer : List κ}

theorem Holds.mono {cache : DeadlineCache κ ν} (holds : cache.Holds k entry newer) {newer' : List κ}
    (more : newer ⊆ newer') : cache.Holds k entry newer' := by
  obtain ⟨older, later, keys, among⟩ := holds.order
  exact ⟨holds.found, older, later, keys, List.Subset.trans among more⟩

theorem Holds.of_last {cache : DeadlineCache κ ν} {older : List κ}
    (found : cache.entries.get k = some entry) (keys : cache.keys = older ++ [k]) :
    cache.Holds k entry [] :=
  ⟨found, older, [], keys, List.Subset.refl _⟩

theorem Holds.insert_self (cache : DeadlineCache κ ν) (k : κ) (value : ν) (deadline : Int) :
    (cache.insert k value deadline).Holds k ⟨value, deadline⟩ [] :=
  .of_last InsertionMap.get_set_self (insert_keys cache k value deadline)

theorem Holds.dropExpired {cache : DeadlineCache κ ν} (holds : cache.Holds k entry newer) {now : Int}
    (unexpired : now ≤ entry.deadline) : (cache.dropExpired now).Holds k entry newer := by
  obtain ⟨older, later, keys, among⟩ := holds.order
  have found : (cache.dropExpired now).entries.get k = some entry :=
    InsertionMap.get_filter.mpr ⟨holds.found, by simpa using unexpired⟩
  have member : k ∈ (cache.dropExpired now).keys := InsertionMap.mem_keys.mpr ⟨entry, found⟩
  have sublist := cache.dropExpired_keys_sublist now
  rw [keys] at sublist
  obtain ⟨left, right, split, inOlder, inRest⟩ := List.sublist_append_iff.mp sublist
  have nodup : (older ++ k :: later).Nodup := by
    rw [← keys]
    exact cache.entries.nodup
  have notLeft : k ∉ left := fun there =>
    (List.nodup_append.mp nodup).2.2 k (inOlder.subset there) k List.mem_cons_self rfl
  rw [split] at member
  have there : k ∈ right := (List.mem_append.mp member).resolve_left notLeft
  cases inRest with
  | cons _ skipped =>
      have twice := (List.nodup_cons.mp (List.nodup_append.mp nodup).2.1).1
      exact absurd (skipped.subset there) twice
  | cons_cons _ kept => exact ⟨found, left, _, split, List.Subset.trans kept.subset among⟩

/-- What keeps the entry and takes away other keys only keeps the order. -/
theorem keys_filter_split {cache : DeadlineCache κ ν} {other k : κ} {older later : List κ}
    (there : other ≠ k) (keys : cache.keys = older ++ k :: later) :
    (cache.delete other).keys = older.filter (· ≠ other) ++ k :: later.filter (· ≠ other) := by
  show (cache.entries.delete other).keys = _
  rw [InsertionMap.keys_delete, show cache.entries.keys = _ from keys, List.filter_append,
    List.filter_cons, if_pos (by simpa using there.symm)]

theorem Holds.delete {cache : DeadlineCache κ ν} (holds : cache.Holds k entry newer) {other : κ}
    (there : other ≠ k) : (cache.delete other).Holds k entry newer := by
  obtain ⟨older, later, keys, among⟩ := holds.order
  refine ⟨?_, _, _, keys_filter_split there keys, ?_⟩
  · show (cache.entries.delete other).get k = some entry
    rw [InsertionMap.get_delete, if_neg there.symm]
    exact holds.found
  · exact List.Subset.trans (List.filter_sublist.subset) among

theorem Holds.lookup_self {cache : DeadlineCache κ ν} (holds : cache.Holds k entry newer) {now : Int}
    (unexpired : now ≤ entry.deadline) :
    (cache.lookup now k).2 = some entry.value ∧ (cache.lookup now k).1.Holds k entry [] := by
  have moved : cache.lookup now k =
      ({ cache with entries := cache.entries.renew k entry }, some entry.value) := by
    unfold lookup
    rw [holds.found]
    exact if_neg (Int.not_lt.mpr unexpired)
  rw [moved]
  refine ⟨rfl, .of_last ?_ (InsertionMap.keys_renew cache.entries k entry)⟩
  show (cache.entries.renew k entry).get k = some entry
  rw [InsertionMap.get_renew, if_pos rfl]

theorem Holds.lookup_other {cache : DeadlineCache κ ν} (holds : cache.Holds k entry newer) {other : κ}
    (there : other ≠ k) (now : Int) :
    (cache.lookup now other).1.Holds k entry (other :: newer) := by
  rcases cache.lookup_cases now other with ⟨_, same⟩ | ⟨_, _, _, dropped⟩ | ⟨found, _, _, moved⟩
  · rw [same]
    exact holds.mono (List.subset_cons_self _ _)
  · rw [dropped]
    exact (holds.delete there).mono (List.subset_cons_self _ _)
  · rw [moved]
    obtain ⟨older, later, keys, among⟩ := (holds.delete there).order
    refine ⟨?_, older, later ++ [other], ?_, ?_⟩
    · show (cache.entries.renew other found).get k = some entry
      rw [InsertionMap.get_renew, if_neg there.symm]
      exact holds.found
    · show (cache.entries.renew other found).keys = _
      rw [InsertionMap.keys_renew, ← InsertionMap.keys_delete, show (cache.entries.delete other).keys = _ from keys,
        List.append_assoc, List.cons_append]
    · intro key member
      rcases List.mem_append.mp member with before | own
      · exact List.mem_cons_of_mem _ (among before)
      · rw [List.mem_singleton.mp own]
        exact List.mem_cons_self

/-- Only `maxSize` other keys push an entry out. -/
theorem Holds.insert_other {cache : DeadlineCache κ ν} (holds : cache.Holds k entry newer) {other : κ}
    (there : other ≠ k) (few : (other :: newer).dedup.length < cache.maxSize) (value : ν)
    (deadline : Int) : (cache.insert other value deadline).Holds k entry (other :: newer) := by
  have rest := holds.delete there
  obtain ⟨older, later, keys, among⟩ := rest.order
  have fresh : other ∉ later := by
    intro member
    apply cache.not_mem_delete other
    rw [keys]
    exact List.mem_append_right _ (List.mem_cons_of_mem _ member)
  have nodup : (older ++ k :: later).Nodup := by
    rw [← keys]
    exact (cache.delete other).entries.nodup
  have distinct : (other :: later).Nodup :=
    List.nodup_cons.mpr ⟨fresh, (List.nodup_cons.mp (List.nodup_append.mp nodup).2.1).2⟩
  have count : later.length + 1 ≤ (other :: newer).dedup.length := by
    have within : other :: later ⊆ (other :: newer).dedup := by
      intro key member
      rw [List.mem_dedup]
      rcases List.mem_cons.mp member with rfl | before
      · exact List.mem_cons_self
      · exact List.mem_cons_of_mem _ (among before)
    exact (List.subperm_of_subset distinct within).length_le
  have room : ∃ older', (cache.delete other).makeRoom.keys = older' ++ k :: later ∧
      (cache.delete other).makeRoom.entries.get k = some entry := by
    unfold makeRoom
    split
    · rename_i full
      cases older with
      | nil =>
          rw [size_eq, keys] at full
          have size : (k :: later).length = later.length + 1 := rfl
          have same : (cache.delete other).maxSize = cache.maxSize := rfl
          rw [List.nil_append] at full
          omega
      | cons oldest older =>
          have oldestThere : oldest ≠ k := by
            rintro rfl
            exact (List.nodup_cons.mp nodup).1 (List.mem_append_right _ List.mem_cons_self)
          refine ⟨older, ?_, ?_⟩
          · show (cache.delete other).entries.dropOldest.keys = _
            rw [InsertionMap.keys_dropOldest, show (cache.delete other).entries.keys = _ from keys]
            rfl
          · show (cache.delete other).entries.dropOldest.get k = _
            rw [InsertionMap.get_dropOldest, show (cache.delete other).entries.keys = _ from keys,
              if_neg]
            · exact rest.found
            · intro first
              exact oldestThere (Option.some.inj first)
    · exact ⟨older, keys, rest.found⟩
  obtain ⟨older', keys', found⟩ := room
  refine ⟨?_, older', later ++ [other], ?_, ?_⟩
  · show ((cache.delete other).makeRoom.entries.set other ⟨value, deadline⟩).get k = _
    rw [InsertionMap.get_set_of_ne there.symm]
    exact found
  · rw [insert_keys, keys', List.append_assoc, List.cons_append]
  · intro key member
    rcases List.mem_append.mp member with before | own
    · exact List.mem_cons_of_mem _ (among before)
    · rw [List.mem_singleton.mp own]
      exact List.mem_cons_self

end DeadlineCache

import Perihelion.Mempool.Store

/-! # The records and the index of their statuses

Any sequence of operations on a store leaves each record's hash in the set of its status
and in no other.  The records are in the order in which they were last set, so that the
record evicted for a new one is the first set of those that may go.
-/

namespace Perihelion.Mempool

open Sdk

/-- An operation on a store.  A record is set under its own hash. -/
inductive StoreOp where
  | set (record : MempoolIntentRecord)
  | updateStatus (hash : Hash) (status : IntentStatus)
  | delete (hash : Hash)
  | evictExpired (now : Int)

def StoreOp.apply (store : IntentStore) : StoreOp → IntentStore
  | .set record => store.set record.hash record
  | .updateStatus hash status => (store.updateStatus hash status).1
  | .delete hash => (store.delete hash).1
  | .evictExpired now => (store.evictExpired now).1

/-- The operation sets the record of a hash. -/
def StoreOp.sets (hash : Hash) : StoreOp → Bool
  | .set record => record.hash = hash
  | _ => false

/-- How many operations there were when the record of a hash was last set. -/
def insertedAt (ops : List StoreOp) (hash : Hash) : Nat :=
  ops.length - ops.reverse.findIdx (StoreOp.sets hash)

theorem insertedAt_le (ops : List StoreOp) (hash : Hash) : insertedAt ops hash ≤ ops.length :=
  Nat.sub_le _ _

theorem insertedAt_snoc (ops : List StoreOp) (op : StoreOp) (hash : Hash) :
    insertedAt (ops ++ [op]) hash = if op.sets hash then ops.length + 1 else insertedAt ops hash := by
  unfold insertedAt
  rw [List.reverse_append, List.reverse_singleton, List.singleton_append, List.findIdx_cons,
    List.length_append, List.length_singleton]
  cases op.sets hash with
  | true => rfl
  | false =>
      simp only [cond_false, Bool.false_eq_true, if_false]
      omega

namespace IntentStore

/-- The store after a sequence of operations on a new one. -/
def after (maxSize expiryGraceMs : Option Nat) (ops : List StoreOp) : IntentStore :=
  ops.foldl StoreOp.apply (.new maxSize expiryGraceMs)

/-! ## The index -/

structure Indexed (store : IntentStore) : Prop where
  member : ∀ hash status, hash ∈ store.byStatus status ↔
    ∃ record, store.get hash = some record ∧ record.status = status
  nodup : ∀ status, (store.byStatus status).Nodup

/-- One hash is not in the index, whether it has a record or not. -/
structure IndexedBut (hash : Hash) (store : IntentStore) : Prop where
  member : ∀ other status, other ∈ store.byStatus status ↔
    other ≠ hash ∧ ∃ record, store.get other = some record ∧ record.status = status
  nodup : ∀ status, (store.byStatus status).Nodup

theorem mem_indexAdd {store : IntentStore} {hash other : Hash} {status at_status : IntentStatus} :
    other ∈ (store.indexAdd hash status).byStatus at_status ↔
      other ∈ store.byStatus at_status ∨ other = hash ∧ at_status = status := by
  unfold indexAdd
  split
  · rename_i present
    constructor
    · exact Or.inl
    · rintro (member | ⟨rfl, rfl⟩)
      · exact member
      · exact present
  · by_cases here : at_status = status
    · subst here
      simp
    · simp [here]

theorem mem_indexRemove {store : IntentStore} {hash other : Hash} {status at_status : IntentStatus} :
    other ∈ (store.indexRemove hash status).byStatus at_status ↔
      other ∈ store.byStatus at_status ∧ ¬ (other = hash ∧ at_status = status) := by
  by_cases here : at_status = status
  · subst here
    simp [indexRemove]
  · simp [indexRemove, here]

theorem nodup_indexAdd {store : IntentStore} (hash : Hash) (status : IntentStatus)
    (nodup : ∀ s, (store.byStatus s).Nodup) (s : IntentStatus) :
    ((store.indexAdd hash status).byStatus s).Nodup := by
  unfold indexAdd
  split
  · exact nodup s
  · rename_i absent
    by_cases here : s = status
    · subst here
      simp only [Function.update_self]
      exact (nodup s).append (List.nodup_singleton hash) (List.disjoint_singleton.mpr absent)
    · simp only [Function.update_of_ne here]
      exact nodup s

theorem nodup_indexRemove {store : IntentStore} (hash : Hash) (status : IntentStatus)
    (nodup : ∀ s, (store.byStatus s).Nodup) (s : IntentStatus) :
    ((store.indexRemove hash status).byStatus s).Nodup := by
  by_cases here : s = status
  · subst here
    simp only [indexRemove, Function.update_self]
    exact (nodup s).filter _
  · simp only [indexRemove, Function.update_of_ne here]
    exact nodup s

theorem Indexed.new (maxSize expiryGraceMs : Option Nat) : (new maxSize expiryGraceMs).Indexed where
  member hash status := by simp [IntentStore.new, IntentStore.get]
  nodup _ := List.nodup_nil

theorem Indexed.but {store : IntentStore} (indexed : store.Indexed) {hash : Hash}
    (absent : store.get hash = none) : store.IndexedBut hash where
  member other status := by
    rw [indexed.member]
    constructor
    · rintro ⟨record, found, same⟩
      refine ⟨?_, record, found, same⟩
      rintro rfl
      rw [absent] at found
      cases found
    · exact And.right
  nodup := indexed.nodup

theorem Indexed.removed {store : IntentStore} (indexed : store.Indexed) {hash : Hash}
    {record : MempoolIntentRecord} (found : store.get hash = some record) :
    (store.indexRemove hash record.status).IndexedBut hash where
  member other status := by
    rw [mem_indexRemove, indexed.member, indexRemove_get]
    constructor
    · rintro ⟨⟨other_record, there, same⟩, apart⟩
      refine ⟨?_, other_record, there, same⟩
      rintro rfl
      obtain rfl := Option.some.inj (found.symm.trans there)
      exact apart ⟨rfl, same.symm⟩
    · rintro ⟨different, stored⟩
      exact ⟨stored, fun same => different same.1⟩
  nodup := nodup_indexRemove hash record.status indexed.nodup

theorem IndexedBut.put {store : IntentStore} {hash : Hash} (indexed : store.IndexedBut hash)
    (record : MempoolIntentRecord) : (store.put hash record).Indexed where
  member other status := by
    rw [put_get]
    unfold IntentStore.put
    rw [mem_indexAdd]
    show other ∈ store.byStatus status ∨ _ ↔ _
    rw [indexed.member]
    by_cases here : other = hash
    · subst here
      simp [eq_comm]
    · simp [here]
  nodup := nodup_indexAdd hash record.status indexed.nodup

theorem Indexed.delete {store : IntentStore} (indexed : store.Indexed) (hash : Hash) :
    (store.delete hash).1.Indexed := by
  cases found : store.get hash with
  | none =>
      simp only [IntentStore.delete, found]
      exact indexed
  | some record =>
      have removed := indexed.removed found
      constructor
      case member =>
        intro other status
        rw [delete_get]
        simp only [IntentStore.delete, found]
        rw [removed.member, indexRemove_get]
        by_cases here : other = hash
        · simp [here]
        · simp [here]
      case nodup =>
        simp only [IntentStore.delete, found]
        exact removed.nodup

/-! ## Which record is evicted -/

/-- The first of the terminal records, or else the first of all. -/
def evicted (store : IntentStore) : Option Hash :=
  ((store.records.entries.find? fun e => e.2.status.terminal).or store.records.entries.head?).map
    Prod.fst

theorem evictOne_eq (store : IntentStore) :
    store.evictOne = match store.evicted with
      | some hash => (store.delete hash).1
      | none => store := by
  unfold evictOne evicted
  cases store.records.entries.find? fun e => e.2.status.terminal with
  | some e => rfl
  | none =>
      rw [Option.none_or, ← List.head?_map]
      rfl

theorem evicted_stored {store : IntentStore} {hash : Hash} (chosen : store.evicted = some hash) :
    hash ∈ store.records.keys := by
  obtain ⟨e, found, rfl⟩ := Option.map_eq_some_iff.mp chosen
  rcases Option.or_eq_some_iff.mp found with first | ⟨-, first⟩
  · exact List.mem_map_of_mem (List.mem_of_find?_eq_some first)
  · exact List.mem_map_of_mem (List.mem_of_head? first)

theorem evicted_isSome {store : IntentStore} (stored : 0 < store.records.size) :
    ∃ hash, store.evicted = some hash := by
  unfold evicted
  cases entries : store.records.entries with
  | nil =>
      unfold InsertionMap.size at stored
      rw [entries] at stored
      cases stored
  | cons e rest =>
      cases (e :: rest).find? fun e => e.2.status.terminal with
      | none => exact ⟨e.1, rfl⟩
      | some other => exact ⟨other.1, rfl⟩

theorem Indexed.evictOne {store : IntentStore} (indexed : store.Indexed) : store.evictOne.Indexed := by
  rw [evictOne_eq]
  split
  · exact indexed.delete _
  · exact indexed

/-! ## One operation -/

theorem delete_records (store : IntentStore) (hash : Hash) :
    (store.delete hash).1.records = store.records.delete hash := by
  unfold delete
  split
  · rename_i absent
    exact (InsertionMap.delete_of_not_mem (InsertionMap.get_eq_none.mp absent)).symm
  · rfl

theorem put_records (store : IntentStore) (hash : Hash) (record : MempoolIntentRecord) :
    (store.put hash record).records = store.records.set hash record := by
  unfold put indexAdd
  split <;> rfl

/-- A property that deletions keep, the sweep keeps. -/
theorem evictExpired_kept {P : IntentStore → Prop} (kept : ∀ store hash, P store → P (store.delete hash).1)
    {store : IntentStore} (start : P store) (now : Int) : P (store.evictExpired now).1 := by
  have sweep (entries : List (Hash × MempoolIntentRecord)) (swept : IntentStore × Nat)
      (before : P swept.1) : P (entries.foldl (sweepOne now) swept).1 := by
    induction entries generalizing swept with
    | nil => exact before
    | cons e rest ih =>
        apply ih
        unfold sweepOne
        split
        · exact kept _ _ before
        · exact before
  exact sweep _ (store, 0) start

theorem Indexed.set {store : IntentStore} (indexed : store.Indexed) (hash : Hash)
    (record : MempoolIntentRecord) : (store.set hash record).Indexed := by
  have deleted := indexed.delete hash
  have absent : (store.delete hash).1.get hash = none := by
    rw [delete_get, if_pos rfl]
  unfold IntentStore.set
  dsimp only
  split
  · apply IndexedBut.put
    apply deleted.evictOne.but
    rcases evictOne_get (store.delete hash).1 hash with gone | same
    · exact gone
    · exact same.trans absent
  · exact (deleted.but absent).put record

theorem Indexed.updateStatus {store : IntentStore} (indexed : store.Indexed) (hash : Hash)
    (status : IntentStatus) : (store.updateStatus hash status).1.Indexed := by
  unfold IntentStore.updateStatus
  split
  · exact indexed
  · rename_i record found
    split
    · exact indexed
    · exact (indexed.removed found).put _

theorem Indexed.evictExpired {store : IntentStore} (indexed : store.Indexed) (now : Int) :
    (store.evictExpired now).1.Indexed :=
  evictExpired_kept (fun _ hash kept => kept.delete hash) indexed now

theorem Indexed.apply {store : IntentStore} (indexed : store.Indexed) (op : StoreOp) :
    (op.apply store).Indexed := by
  cases op with
  | set record => exact indexed.set record.hash record
  | updateStatus hash status => exact indexed.updateStatus hash status
  | delete hash => exact indexed.delete hash
  | evictExpired now => exact indexed.evictExpired now

theorem after_snoc (maxSize expiryGraceMs : Option Nat) (ops : List StoreOp) (op : StoreOp) :
    after maxSize expiryGraceMs (ops ++ [op]) = op.apply (after maxSize expiryGraceMs ops) := by
  unfold after
  rw [List.foldl_append]
  rfl

theorem after_indexed (maxSize expiryGraceMs : Option Nat) (ops : List StoreOp) :
    (after maxSize expiryGraceMs ops).Indexed := by
  induction ops using List.reverseRecOn with
  | nil => exact Indexed.new maxSize expiryGraceMs
  | append_singleton ops op ih =>
      rw [after_snoc]
      exact ih.apply op

/-! ## The order of the records -/

def InOrder (ops : List StoreOp) (store : IntentStore) : Prop :=
  store.records.keys.Pairwise fun earlier later => insertedAt ops earlier < insertedAt ops later

theorem keys_delete_sublist (store : IntentStore) (hash : Hash) :
    (store.delete hash).1.records.keys.Sublist store.records.keys := by
  rw [delete_records]
  exact store.records.keys_delete_sublist hash

/-- At capacity one record makes room. -/
def room (store : IntentStore) : IntentStore :=
  if store.maxSize ≤ store.records.size then store.evictOne else store

theorem set_eq (store : IntentStore) (hash : Hash) (record : MempoolIntentRecord) :
    store.set hash record = (store.delete hash).1.room.put hash record := rfl

theorem keys_room_sublist (store : IntentStore) : store.room.records.keys.Sublist store.records.keys := by
  unfold room
  split
  · rw [evictOne_eq]
    split
    · exact keys_delete_sublist store _
    · exact List.Sublist.refl _
  · exact List.Sublist.refl _

/-- A record is set behind all others that stay. -/
theorem keys_set (store : IntentStore) (hash : Hash) (record : MempoolIntentRecord) :
    ∃ kept, (store.set hash record).records.keys = kept ++ [hash] ∧ kept.Sublist store.records.keys ∧
      hash ∉ kept := by
  have kept := (store.delete hash).1.keys_room_sublist
  have gone : hash ∉ (store.delete hash).1.room.records.keys := by
    intro member
    have present := kept.subset member
    rw [delete_records, InsertionMap.keys_delete] at present
    simp at present
  refine ⟨_, ?_, kept.trans (keys_delete_sublist store hash), gone⟩
  rw [set_eq, put_records, InsertionMap.keys_set_of_not_mem gone]

theorem keys_updateStatus (store : IntentStore) (hash : Hash) (status : IntentStatus) :
    (store.updateStatus hash status).1.records.keys = store.records.keys := by
  unfold updateStatus
  split
  · rfl
  · rename_i record found
    split
    · rfl
    · rw [put_records]
      exact InsertionMap.keys_set_of_mem (InsertionMap.mem_keys.mpr ⟨record, found⟩)

theorem keys_evictExpired_sublist (store : IntentStore) (now : Int) :
    (store.evictExpired now).1.records.keys.Sublist store.records.keys :=
  evictExpired_kept (P := fun swept => swept.records.keys.Sublist store.records.keys)
    (fun swept hash kept => (keys_delete_sublist swept hash).trans kept) (List.Sublist.refl _) now

theorem InOrder.others {ops : List StoreOp} {store store' : IntentStore} {op : StoreOp}
    (ordered : InOrder ops store) (other : ∀ hash, op.sets hash = false)
    (kept : store'.records.keys.Sublist store.records.keys) : InOrder (ops ++ [op]) store' := by
  apply (List.Pairwise.sublist kept ordered).imp
  intro earlier later before
  rw [insertedAt_snoc, insertedAt_snoc, other, other]
  exact before

theorem InOrder.apply {ops : List StoreOp} {store : IntentStore} (ordered : InOrder ops store)
    (op : StoreOp) : InOrder (ops ++ [op]) (op.apply store) := by
  cases op with
  | set record =>
      obtain ⟨kept, keys, sub, gone⟩ := store.keys_set record.hash record
      show (store.set record.hash record).records.keys.Pairwise _
      rw [keys, List.pairwise_append]
      have stays (hash : Hash) (member : hash ∈ kept) :
          insertedAt (ops ++ [.set record]) hash = insertedAt ops hash := by
        have other : record.hash ≠ hash := fun same => gone (same ▸ member)
        rw [insertedAt_snoc, StoreOp.sets, if_neg (by simpa using other)]
      refine ⟨?_, List.pairwise_singleton _ _, ?_⟩
      · apply List.Pairwise.imp_of_mem ?_ (List.Pairwise.sublist sub ordered)
        intro earlier later here there before
        rw [stays earlier here, stays later there]
        exact before
      · intro earlier here last only
        obtain rfl := List.mem_singleton.mp only
        rw [stays earlier here, insertedAt_snoc, StoreOp.sets, if_pos (by simp)]
        exact Nat.lt_succ_of_le (insertedAt_le ops earlier)
  | updateStatus hash status =>
      apply ordered.others fun _ => rfl
      show (store.updateStatus hash status).1.records.keys.Sublist _
      rw [keys_updateStatus]
  | delete hash => exact ordered.others (fun _ => rfl) (keys_delete_sublist store hash)
  | evictExpired now => exact ordered.others (fun _ => rfl) (keys_evictExpired_sublist store now)

theorem after_inOrder (maxSize expiryGraceMs : Option Nat) (ops : List StoreOp) :
    InOrder ops (after maxSize expiryGraceMs ops) := by
  induction ops using List.reverseRecOn with
  | nil => exact List.Pairwise.nil
  | append_singleton ops op ih =>
      rw [after_snoc]
      exact ih.apply op

/-- A stored record that was set before all others of its kind. -/
structure FirstSet (ops : List StoreOp) (store : IntentStore) (kind : MempoolIntentRecord → Prop)
    (hash : Hash) : Prop where
  stored : ∃ record, store.get hash = some record ∧ kind record
  first : ∀ other record, store.get other = some record → kind record → other ≠ hash →
    insertedAt ops hash < insertedAt ops other

theorem InOrder.firstSet {ops : List StoreOp} {store : IntentStore} (ordered : InOrder ops store)
    {p : MempoolIntentRecord → Bool} {kind : MempoolIntentRecord → Prop}
    (agrees : ∀ record, kind record ↔ p record = true) {e : Hash × MempoolIntentRecord}
    (found : store.records.entries.find? (fun e => p e.2) = some e) :
    FirstSet ops store kind e.1 := by
  obtain ⟨picked, before, behind, entries, none⟩ := List.find?_eq_some_iff_append.mp found
  constructor
  case stored =>
    exact ⟨e.2, InsertionMap.get_eq_some.mpr (List.mem_of_find?_eq_some found),
      (agrees e.2).mpr picked⟩
  case first =>
    intro other record there same different
    have member := InsertionMap.get_eq_some.mp there
    rw [entries] at member
    have later : (other, record) ∈ behind := by
      rcases List.mem_append.mp member with early | late
      · have never := none _ early
        simp [(agrees record).mp same] at never
      · rcases List.mem_cons.mp late with here | late
        · exact absurd (congrArg Prod.fst here) different
        · exact late
    have keys : store.records.keys = before.map Prod.fst ++ e.1 :: behind.map Prod.fst := by
      unfold InsertionMap.keys
      rw [entries, List.map_append, List.map_cons]
    unfold InOrder at ordered
    rw [keys] at ordered
    have tail := (List.pairwise_append.mp ordered).2.1
    exact (List.pairwise_cons.mp tail).1 other (List.mem_map_of_mem later)

/-! ## The size -/

def Within (store : IntentStore) : Prop := store.records.size ≤ store.maxSize

theorem delete_maxSize (store : IntentStore) (hash : Hash) :
    (store.delete hash).1.maxSize = store.maxSize := by
  unfold delete
  split <;> rfl

theorem put_maxSize (store : IntentStore) (hash : Hash) (record : MempoolIntentRecord) :
    (store.put hash record).maxSize = store.maxSize := by
  unfold put indexAdd
  split <;> rfl

theorem room_maxSize (store : IntentStore) : store.room.maxSize = store.maxSize := by
  unfold room
  split
  · rw [evictOne_eq]
    split
    · exact delete_maxSize store _
    · rfl
  · rfl

theorem apply_maxSize (store : IntentStore) (op : StoreOp) : (op.apply store).maxSize = store.maxSize := by
  cases op with
  | set record =>
      show (store.set record.hash record).maxSize = _
      rw [set_eq, put_maxSize, room_maxSize, delete_maxSize]
  | updateStatus hash status =>
      show (store.updateStatus hash status).1.maxSize = _
      unfold updateStatus
      split
      · rfl
      · split
        · rfl
        · rw [put_maxSize]
          rfl
  | delete hash => exact delete_maxSize store hash
  | evictExpired now =>
      exact evictExpired_kept (P := fun swept => swept.maxSize = store.maxSize)
        (fun swept hash same => (delete_maxSize swept hash).trans same) rfl now

theorem size_delete_le (store : IntentStore) (hash : Hash) :
    (store.delete hash).1.records.size ≤ store.records.size := by
  rw [delete_records]
  exact store.records.size_delete_le hash

/-- There is room for one more. -/
theorem size_room {store : IntentStore} (within : store.Within) (roomy : 1 ≤ store.maxSize) :
    store.room.records.size < store.maxSize := by
  unfold room
  split
  · rename_i full
    obtain ⟨hash, chosen⟩ := evicted_isSome (show 0 < store.records.size by omega)
    simp only [evictOne_eq, chosen]
    rw [delete_records]
    exact (InsertionMap.size_delete_lt (evicted_stored chosen)).trans_le within
  · rename_i free
    exact Nat.lt_of_not_le free

theorem Within.apply {store : IntentStore} (within : store.Within) (roomy : 1 ≤ store.maxSize)
    (op : StoreOp) : (op.apply store).Within := by
  unfold Within
  rw [apply_maxSize]
  cases op with
  | set record =>
      have deleted : (store.delete record.hash).1.Within := by
        unfold Within
        rw [delete_maxSize]
        exact (size_delete_le store record.hash).trans within
      have fewer := size_room deleted (by rwa [delete_maxSize])
      rw [delete_maxSize] at fewer
      show (store.set record.hash record).records.size ≤ _
      rw [set_eq, put_records]
      exact InsertionMap.size_set_le.trans fewer
  | updateStatus hash status =>
      have same := congrArg List.length (keys_updateStatus store hash status)
      show (store.updateStatus hash status).1.records.size ≤ _
      rw [InsertionMap.size_eq, same, ← InsertionMap.size_eq]
      exact within
  | delete hash => exact (size_delete_le store hash).trans within
  | evictExpired now =>
      exact evictExpired_kept (P := fun swept => swept.records.size ≤ store.maxSize)
        (fun swept hash small => (size_delete_le swept hash).trans small) within now

theorem after_within {maxSize : Option Nat} (expiryGraceMs : Option Nat)
    (roomy : 1 ≤ maxSize.getD defaultMaxSize) (ops : List StoreOp) :
    (after maxSize expiryGraceMs ops).maxSize = maxSize.getD defaultMaxSize ∧
      (after maxSize expiryGraceMs ops).Within := by
  induction ops using List.reverseRecOn with
  | nil => exact ⟨rfl, Nat.zero_le _⟩
  | append_singleton ops op ih =>
      rw [after_snoc, apply_maxSize]
      exact ⟨ih.1, ih.2.apply (by rwa [ih.1]) op⟩

/-! ## What a store keeps to -/

/-- A new record in a full store takes the place of one other. -/
theorem set_full {store : IntentStore} {record : MempoolIntentRecord} {hash : Hash}
    (absent : store.get record.hash = none) (full : store.maxSize ≤ store.records.size)
    (chosen : store.evicted = some hash) (other : Hash) :
    (store.set record.hash record).get other =
      if other = record.hash then some record else if other = hash then none else store.get other := by
  have untouched : (store.delete record.hash).1 = store := by
    unfold delete
    rw [absent]
  rw [set_eq, put_get, untouched, room, if_pos full, evictOne_eq, chosen]
  simp only [delete_get]

/-- The index is the one of the stored statuses, the size is bounded, and a new record in a full
    store takes the place of the first set terminal one, or else of the first set one. -/
theorem store_invariants (maxSize expiryGraceMs : Option Nat)
    (roomy : 1 ≤ maxSize.getD defaultMaxSize) (ops : List StoreOp) :
    let store := after maxSize expiryGraceMs ops
    (∀ hash status, hash ∈ store.byStatus status ↔
      ∃ record, store.get hash = some record ∧ record.status = status) ∧
    (∀ hash, (store.get hash).isSome → ∃! status, hash ∈ store.byStatus status) ∧
    store.records.size ≤ maxSize.getD defaultMaxSize ∧
    ∀ record : MempoolIntentRecord, store.get record.hash = none →
      store.records.size = maxSize.getD defaultMaxSize → ∃ victim,
        ((∃ other stored, store.get other = some stored ∧ stored.status.terminal = true) →
          FirstSet ops store (·.status.terminal = true) victim) ∧
        ((¬ ∃ other stored, store.get other = some stored ∧ stored.status.terminal = true) →
          FirstSet ops store (fun _ => True) victim) ∧
        ∀ other, (store.set record.hash record).get other =
          if other = record.hash then some record
          else if other = victim then none else store.get other := by
  intro store
  have indexed : store.Indexed := after_indexed maxSize expiryGraceMs ops
  have ordered : InOrder ops store := after_inOrder maxSize expiryGraceMs ops
  obtain ⟨capacity, within⟩ := after_within expiryGraceMs roomy ops
  refine ⟨indexed.member, ?_, capacity ▸ within, ?_⟩
  · intro hash stored
    obtain ⟨record, found⟩ := Option.isSome_iff_exists.mp stored
    refine ⟨record.status, (indexed.member _ _).mpr ⟨record, found, rfl⟩, ?_⟩
    intro status member
    obtain ⟨other, there, same⟩ := (indexed.member _ _).mp member
    rw [← same, Option.some.inj (found.symm.trans there)]
  · intro record absent full
    have capped : store.maxSize ≤ store.records.size := (capacity.trans full.symm).le
    obtain ⟨victim, chosen⟩ := evicted_isSome (show 0 < store.records.size by omega)
    refine ⟨victim, ?_, ?_, set_full absent capped chosen⟩
    · rintro ⟨other, stored, there, final⟩
      obtain ⟨e, found⟩ : ∃ e, store.records.entries.find? (fun e => e.2.status.terminal) = some e := by
        rw [← Option.isSome_iff_exists, List.find?_isSome]
        exact ⟨(other, stored), InsertionMap.get_eq_some.mp there, final⟩
      rw [evicted, found] at chosen
      obtain rfl := Option.some.inj chosen
      exact ordered.firstSet (fun _ => Iff.rfl) found
    · intro live
      have none : store.records.entries.find? (fun e => e.2.status.terminal) = none := by
        rw [List.find?_eq_none]
        intro e member final
        exact live ⟨e.1, e.2, InsertionMap.get_eq_some.mpr member, final⟩
      rw [evicted, none, Option.none_or, Option.map_eq_some_iff] at chosen
      obtain ⟨e, first, rfl⟩ := chosen
      apply ordered.firstSet (p := fun _ => true) fun _ => by simp
      cases entries : store.records.entries with
      | nil =>
          rw [entries] at first
          cases first
      | cons head rest =>
          rw [entries] at first
          exact first

namespace Sample

theorem chain_small : 1 ≤ 2 ^ 53 := by decide

def chain : JsNumber :=
  .integer ⟨(1 : Nat), natAbs_lt_of_small chain_small, nearestDouble_natAbs chain_small⟩

def intent : Intent where
  user := js "0x0000000000000000000000000000000000005afe"
  destination := js "GADQOBYHA4DQOBYHA4DQOBYHA4DQOBYHA4DQOBYHA4DQOBYHA4DQOZPI"
  sourceChainId := chain
  sourceAsset := js "0x00000000000000000000000000000000000070ce"
  sourceAmount := js "100"
  destAsset := js "native"
  minDestAmount := js "90"
  deadline := chain
  nonce := js "7"
  preferredSolver := zeroAddress

def record (hash : String) : MempoolIntentRecord :=
  ⟨js hash, intent, js "0x11", .pending, 1700000000⟩

/-- Two records, the second of them settled. -/
def ops : List StoreOp :=
  [.set (record "0xa"), .set (record "0xb"), .updateStatus (js "0xb") .settled]

end Sample

/-- The settled record goes, although the other one was set before it. -/
theorem store_invariants_sample : ∃ victim,
    FirstSet Sample.ops (after (some 2) none Sample.ops) (·.status.terminal = true) victim ∧
      ((after (some 2) none Sample.ops).set (js "0xc") (Sample.record "0xc")).get (js "0xa") =
        if js "0xa" = victim then none else (after (some 2) none Sample.ops).get (js "0xa") := by
  obtain ⟨-, -, -, replaced⟩ := store_invariants (some 2) none (by decide) Sample.ops
  obtain ⟨victim, terminal, -, others⟩ :=
    replaced (Sample.record "0xc") (by decide +kernel) (by decide +kernel)
  have settled : ((after (some 2) none Sample.ops).get (js "0xb")).any
      (·.status.terminal) = true := by decide +kernel
  obtain ⟨stored, found, final⟩ := (Option.any_eq_true _ _).mp settled
  refine ⟨victim, terminal ⟨js "0xb", stored, found, final⟩, ?_⟩
  exact (others (js "0xa")).trans (if_neg (by decide))

end IntentStore

end Perihelion.Mempool

import Perihelion.Lib.InsertionMap
import Perihelion.Sdk.Validate

/-! # The intent store of the mempool

Records by hash in insertion order, and beside them the hashes of each status.  `set`
replaces a record as a whole, `updateStatus` its status unless that is terminal.
-/

namespace Perihelion.Mempool

open Sdk

/-- A hash as it is used for a key: lower-case hex text. -/
abbrev Hash := JsString

inductive IntentStatus where
  | pending
  | filled
  | settled
  | refunded
  | expired
  deriving DecidableEq

/-- `TERMINAL_STATUSES.has(status)`. -/
def IntentStatus.terminal : IntentStatus → Bool
  | .settled | .refunded | .expired => true
  | .pending | .filled => false

structure MempoolIntentRecord where
  hash : Hash
  intent : Intent
  signature : JsString
  status : IntentStatus
  createdAt : Int

/-- Records are frozen in the source; here they are values. -/
structure IntentStore where
  records : InsertionMap Hash MempoolIntentRecord
  /-- Each a set, in insertion order. -/
  byStatus : IntentStatus → List Hash
  maxSize : Nat
  /-- `Math.floor(expiryGraceMs / 1000)`. -/
  expiryGraceSec : Int

namespace IntentStore

def defaultMaxSize : Nat := 50000
def defaultExpiryGraceMs : Nat := 60000

/-- `new IntentStore({ maxSize, expiryGraceMs })`. -/
def new (maxSize expiryGraceMs : Option Nat) : IntentStore where
  records := .empty
  byStatus _ := []
  maxSize := maxSize.getD defaultMaxSize
  expiryGraceSec := (expiryGraceMs.getD defaultExpiryGraceMs / 1000 : Nat)

def indexAdd (store : IntentStore) (hash : Hash) (status : IntentStatus) : IntentStore :=
  if hash ∈ store.byStatus status then store
  else
    { store with
      byStatus := Function.update store.byStatus status (store.byStatus status ++ [hash]) }

def indexRemove (store : IntentStore) (hash : Hash) (status : IntentStatus) : IntentStore :=
  { store with
    byStatus := Function.update store.byStatus status
      ((store.byStatus status).filter fun other => other ≠ hash) }

def get (store : IntentStore) (hash : Hash) : Option MempoolIntentRecord := store.records.get hash

/-- The record is put in its place, the status goes into the index. -/
def put (store : IntentStore) (hash : Hash) (record : MempoolIntentRecord) : IntentStore :=
  indexAdd { store with records := store.records.set hash record } hash record.status

/-- `false` where there was nothing to delete. -/
def delete (store : IntentStore) (hash : Hash) : IntentStore × Bool :=
  match store.get hash with
  | none => (store, false)
  | some record =>
      let store := store.indexRemove hash record.status
      ({ store with records := store.records.delete hash }, true)

/-- The oldest terminal record, or else the oldest. -/
def evictOne (store : IntentStore) : IntentStore :=
  match store.records.entries.find? fun e => e.2.status.terminal with
  | some e => (store.delete e.1).1
  | none =>
      match store.records.keys.head? with
      | some oldest => (store.delete oldest).1
      | none => store

def set (store : IntentStore) (hash : Hash) (record : MempoolIntentRecord) : IntentStore :=
  -- Re-inserting refreshes the insertion order.
  let store := (store.delete hash).1
  let store := if store.maxSize ≤ store.records.size then store.evictOne else store
  store.put hash record

/-- `false` for an unknown hash and for a terminal record. -/
def updateStatus (store : IntentStore) (hash : Hash) (status : IntentStatus) : IntentStore × Bool :=
  match store.get hash with
  | none => (store, false)
  | some record =>
      if record.status.terminal then (store, false)
      else ((store.indexRemove hash record.status).put hash { record with status }, true)

/-- One round of the sweep: the grace is passed as a negative clock skew. -/
def sweepOne (now : Int) (swept : IntentStore × Nat) (e : Hash × MempoolIntentRecord) :
    IntentStore × Nat :=
  if isExpired e.2.intent now (-swept.1.expiryGraceSec) then ((swept.1.delete e.1).1, swept.2 + 1)
  else swept

/-- The number of evicted records comes with the store. -/
def evictExpired (store : IntentStore) (now : Int) : IntentStore × Nat :=
  store.records.entries.foldl (sweepOne now) (store, 0)

/-! ## What is found afterwards -/

@[simp] theorem indexAdd_get (store : IntentStore) (hash : Hash) (status : IntentStatus) (other : Hash) :
    (store.indexAdd hash status).get other = store.get other := by
  unfold indexAdd
  split <;> rfl

@[simp] theorem indexRemove_get (store : IntentStore) (hash : Hash) (status : IntentStatus)
    (other : Hash) : (store.indexRemove hash status).get other = store.get other := rfl

theorem put_get (store : IntentStore) (hash : Hash) (record : MempoolIntentRecord) (other : Hash) :
    (store.put hash record).get other = if other = hash then some record else store.get other := by
  unfold put
  rw [indexAdd_get]
  exact store.records.get_set hash other record

theorem delete_get (store : IntentStore) (hash other : Hash) :
    (store.delete hash).1.get other = if other = hash then none else store.get other := by
  unfold delete
  split
  · rename_i absent
    split
    · rename_i here
      rw [here, absent]
    · rfl
  · exact store.records.get_delete hash other

/-- An eviction takes a record away or leaves it. -/
theorem evictOne_get (store : IntentStore) (hash : Hash) :
    store.evictOne.get hash = none ∨ store.evictOne.get hash = store.get hash := by
  have deleted (key : Hash) :
      (store.delete key).1.get hash = none ∨ (store.delete key).1.get hash = store.get hash := by
    rw [delete_get]
    split
    · exact Or.inl rfl
    · exact Or.inr rfl
  unfold evictOne
  split
  · exact deleted _
  · split
    · exact deleted _
    · exact Or.inr rfl

theorem set_get_self (store : IntentStore) (hash : Hash) (record : MempoolIntentRecord) :
    (store.set hash record).get hash = some record := by
  unfold set
  simp only [put_get, if_true]

/-- Of the records under other hashes one may be evicted. -/
theorem set_get_other (store : IntentStore) {hash other : Hash} (record : MempoolIntentRecord)
    (different : other ≠ hash) : (store.set hash record).get other = none ∨
      (store.set hash record).get other = store.get other := by
  have deleted : (store.delete hash).1.get other = store.get other := by
    rw [delete_get, if_neg different]
  unfold set
  simp only [put_get, if_neg different]
  split
  · rcases (store.delete hash).1.evictOne_get other with gone | same
    · exact Or.inl gone
    · exact Or.inr (same.trans deleted)
  · exact Or.inr deleted

/-- Only the status of that hash changes, and only if it was not terminal. -/
theorem updateStatus_get (store : IntentStore) (hash : Hash) (status : IntentStatus) (other : Hash) :
    (store.updateStatus hash status).1.get other =
      (store.get other).map fun record =>
        if other = hash ∧ record.status.terminal = false then { record with status } else record := by
  by_cases here : other = hash
  · subst here
    unfold updateStatus
    cases found : store.get other with
    | none => simp [found]
    | some record =>
        cases final : record.status.terminal with
        | true => simp [found, final]
        | false => simp [final, put_get]
  · have kept : (store.updateStatus hash status).1.get other = store.get other := by
      unfold updateStatus
      split
      · rfl
      · split
        · rfl
        · rw [put_get, if_neg here, indexRemove_get]
    rw [kept]
    simp [here]

theorem delete_grace (store : IntentStore) (hash : Hash) :
    (store.delete hash).1.expiryGraceSec = store.expiryGraceSec := by
  unfold delete
  split <;> rfl

/-- The sweep over a list of entries, whether they are those of the store or not. -/
theorem sweep_get (now grace : Int) (entries : List (Hash × MempoolIntentRecord)) (hash : Hash)
    {swept : IntentStore × Nat} (same : swept.1.expiryGraceSec = grace) :
    (entries.foldl (sweepOne now) swept).1.get hash =
      if entries.any fun e => e.1 = hash && isExpired e.2.intent now (-grace) then none
      else swept.1.get hash := by
  induction entries generalizing swept with
  | nil => simp
  | cons e rest ih =>
      rw [List.foldl_cons, List.any_cons]
      cases due : isExpired e.2.intent now (-grace) with
      | true =>
          have one : sweepOne now swept e = ((swept.1.delete e.1).1, swept.2 + 1) := by
            unfold sweepOne
            rw [same, due]
            rfl
          rw [one, ih ((delete_grace swept.1 e.1).trans same), delete_get]
          by_cases here : hash = e.1
          · simp [here]
          · have there : decide (e.1 = hash) = false := decide_eq_false (Ne.symm here)
            rw [there, if_neg here, Bool.false_and, Bool.false_or]
      | false =>
          have one : sweepOne now swept e = swept := by
            unfold sweepOne
            rw [same, due]
            rfl
          rw [one, ih same, Bool.and_false, Bool.false_or]

/-- The sweep takes away what is expired by then, and nothing else. -/
theorem evictExpired_get (store : IntentStore) (now : Int) (hash : Hash) :
    (store.evictExpired now).1.get hash =
      (store.get hash).filter fun record => !isExpired record.intent now (-store.expiryGraceSec) := by
  unfold evictExpired
  rw [@sweep_get now _ _ hash (store, 0) rfl]
  cases found : store.get hash with
  | none => simp
  | some record =>
      have entry : (hash, record) ∈ store.records.entries := InsertionMap.get_eq_some.mp found
      have only : ∀ e ∈ store.records.entries, e.1 = hash → e.2 = record := by
        rintro ⟨key, other⟩ member rfl
        have given : store.records.get key = some other := InsertionMap.get_eq_some.mpr member
        exact Option.some.inj (given.symm.trans found)
      have swept : (store.records.entries.any fun e =>
          e.1 = hash && isExpired e.2.intent now (-store.expiryGraceSec)) =
          isExpired record.intent now (-store.expiryGraceSec) := by
        rw [Bool.eq_iff_iff, List.any_eq_true]
        simp only [Bool.and_eq_true, decide_eq_true_eq]
        constructor
        · rintro ⟨e, member, here, due⟩
          rwa [only e member here] at due
        · intro due
          exact ⟨(hash, record), entry, rfl, due⟩
      rw [swept]
      cases due : isExpired record.intent now (-store.expiryGraceSec) with
      | true => simp [Option.filter, due]
      | false => simp [Option.filter, due]

end IntentStore

end Perihelion.Mempool

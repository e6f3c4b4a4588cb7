import Perihelion.Lib.KeysetPages
import Perihelion.Mempool.Listing

/-! # Walking a store that stands still

The records that pass a filter are a sequence, in the order of the index, and a listing is a page
of it.  A walk along the cursors therefore gives each of them once and ends.
-/

namespace Perihelion.Mempool

open Sdk

namespace IntentStore

/-- A store that some calls of its methods have made. -/
inductive Built : IntentStore → Prop
  | new (maxSize expiryGraceMs) : Built (.new maxSize expiryGraceMs)
  | set {store} (built : Built store) (hash record) : Built (store.set hash record)
  | updateStatus {store} (built : Built store) (hash status) : Built (store.updateStatus hash status).1
  | delete {store} (built : Built store) (hash) : Built (store.delete hash).1
  | evictExpired {store} (built : Built store) (now) : Built (store.evictExpired now).1

theorem Built.indexed {store : IntentStore} (built : store.Built) : store.Indexed := by
  induction built with
  | new maxSize expiryGraceMs => exact Indexed.new maxSize expiryGraceMs
  | set _ hash record ih => exact ih.set hash record
  | updateStatus _ hash status ih => exact ih.updateStatus hash status
  | delete _ hash ih => exact ih.delete hash
  | evictExpired _ now ih => exact ih.evictExpired now

/-- Every record is stored under its own hash. -/
def Own (store : IntentStore) : Prop :=
  ∀ hash record, store.get hash = some record → record.hash = hash

/-- What the filter by chain lets through. -/
def onChain (chainId : Option Int) (record : MempoolIntentRecord) : Bool :=
  chainId.all (record.intent.sourceChainId.asInteger = some ·)

theorem onChain_iff {chainId : Option Int} {record : MempoolIntentRecord} :
    onChain chainId record = true ↔
      ∀ chain ∈ chainId, record.intent.sourceChainId.asInteger = some chain := by
  cases chainId <;> simp [onChain]

/-- The records of the given hashes that a listing could return. -/
def found (store : IntentStore) (chainId : Option Int) (hashes : List Hash) :
    List MempoolIntentRecord :=
  hashes.filterMap fun hash => (store.get hash).filter (onChain chainId)

/-- The stored records that pass both filters, in the iteration order of the index. -/
def selected (store : IntentStore) (status : Option IntentStatus) (chainId : Option Int) :
    List MempoolIntentRecord :=
  store.found chainId (store.hashes status)

section found

variable {store : IntentStore} {chainId : Option Int} {hash : Hash} {rest : List Hash}
  {record : MempoolIntentRecord}

theorem skipped_iff : (chainId.any (record.intent.sourceChainId.asInteger ≠ some ·)) = true ↔
    onChain chainId record = false := by
  cases chainId <;> simp [onChain]

theorem found_absent (absent : store.get hash = none) :
    store.found chainId (hash :: rest) = store.found chainId rest := by
  simp [found, absent]

theorem found_skipped (here : store.get hash = some record) (skipped : onChain chainId record = false) :
    store.found chainId (hash :: rest) = store.found chainId rest := by
  simp [found, here, skipped]

theorem found_kept (here : store.get hash = some record) (kept : onChain chainId record = true) :
    store.found chainId (hash :: rest) = record :: store.found chainId rest := by
  have passes : (store.get hash).filter (onChain chainId) = some record := by
    rw [here, Option.filter_some, if_pos kept]
  exact List.filterMap_cons_some passes

theorem mem_found (own : store.Own) {hashes : List Hash} : record ∈ store.found chainId hashes ↔
    record.hash ∈ hashes ∧ store.get record.hash = some record ∧ onChain chainId record = true := by
  simp only [found, List.mem_filterMap, Option.filter_eq_some_iff]
  constructor
  · rintro ⟨hash, member, here, kept⟩
    obtain rfl := own hash record here
    exact ⟨member, here, kept⟩
  · rintro ⟨member, here, kept⟩
    exact ⟨record.hash, member, here, kept⟩

theorem found_sublist (own : store.Own) (hashes : List Hash) :
    ((store.found chainId hashes).map MempoolIntentRecord.hash).Sublist hashes := by
  induction hashes with
  | nil => exact List.Sublist.refl _
  | cons hash rest ih =>
      cases here : store.get hash with
      | none =>
          rw [found_absent here]
          exact ih.cons hash
      | some record =>
          cases kept : onChain chainId record with
          | false =>
              rw [found_skipped here kept]
              exact ih.cons hash
          | true =>
              rw [found_kept here kept, List.map_cons, own hash record here]
              exact ih.cons_cons hash

end found

/-! ## The loop -/

section collect

variable {store : IntentStore} {chainId : Option Int} {limit : Nat} {hashes : List Hash}

/-- Behind the cursor the loop fills the page, and sees whether there is more. -/
theorem collect_fills {cursor : Option Hash} {page : List MempoolIntentRecord}
    (room : page.length ≤ limit) : store.collect chainId cursor limit true page hashes =
      ((page ++ store.found chainId hashes).take limit,
        decide (limit < (page ++ store.found chainId hashes).length)) := by
  induction hashes generalizing page with
  | nil =>
      simp [collect, found, List.take_of_length_le room, room]
  | cons hash rest ih =>
      cases here : store.get hash with
      | none =>
          rw [found_absent here, ← ih room]
          simp only [collect, here]
      | some record =>
          cases kept : onChain chainId record with
          | false =>
              rw [found_skipped here kept, ← ih room]
              simp only [collect, here, skipped_iff.mpr kept, if_true]
          | true =>
              have passes : ¬ (chainId.any (record.intent.sourceChainId.asInteger ≠ some ·)) = true := by
                rw [skipped_iff, kept]
                simp
              rw [found_kept here kept]
              simp only [collect, here, if_neg passes, Bool.true_eq_false, if_false]
              split
              · rename_i full
                have exactly : limit = page.length := by omega
                rw [exactly, List.take_left]
                simp
              · rename_i free
                rw [ih (by rw [List.length_append, List.length_singleton]; omega), List.append_assoc]
                rfl

/-- Up to the cursor the loop only passes records by. -/
theorem collect_seeks (own : store.Own) {cursor : Hash} :
    store.collect chainId (some cursor) limit false [] hashes =
      ((KeysetPages.behind MempoolIntentRecord.hash (some cursor) (store.found chainId hashes)).take limit,
        decide (limit <
          (KeysetPages.behind MempoolIntentRecord.hash (some cursor)
            (store.found chainId hashes)).length)) := by
  induction hashes with
  | nil => simp [collect, found, KeysetPages.behind]
  | cons hash rest ih =>
      cases here : store.get hash with
      | none =>
          rw [found_absent here, ← ih]
          simp only [collect, here]
      | some record =>
          cases kept : onChain chainId record with
          | false =>
              rw [found_skipped here kept, ← ih]
              simp only [collect, here, skipped_iff.mpr kept, if_true]
          | true =>
              have passes : ¬ (chainId.any (record.intent.sourceChainId.asInteger ≠ some ·)) = true := by
                rw [skipped_iff, kept]
                simp
              have named := own hash record here
              rw [found_kept here kept]
              simp only [collect, here, if_neg passes, if_true, Option.some.injEq]
              by_cases reached : cursor = hash
              · have stops : KeysetPages.behind MempoolIntentRecord.hash (some cursor)
                    (record :: store.found chainId rest) = store.found chainId rest := by
                  simp [KeysetPages.behind, named, reached]
                rw [stops, decide_eq_true reached, collect_fills (Nat.zero_le _), List.nil_append]
              · have passesBy : KeysetPages.behind MempoolIntentRecord.hash (some cursor)
                    (record :: store.found chainId rest) =
                    KeysetPages.behind MempoolIntentRecord.hash (some cursor)
                      (store.found chainId rest) := by
                  simp [KeysetPages.behind, named, Ne.symm reached]
                rw [passesBy, decide_eq_false reached, ih]

/-- A listing is a page of the selected records. -/
theorem list_eq (own : store.Own) (status : Option IntentStatus) (cursor : Option Hash) :
    ((store.list status chainId cursor limit).records,
      (store.list status chainId cursor limit).nextCursor) =
        KeysetPages.page MempoolIntentRecord.hash limit cursor (store.selected status chainId) := by
  have collected : store.collect chainId cursor limit (cursor = none) [] (store.hashes status) =
      ((KeysetPages.behind MempoolIntentRecord.hash cursor (store.selected status chainId)).take limit,
        decide (limit < (KeysetPages.behind MempoolIntentRecord.hash cursor
          (store.selected status chainId)).length)) := by
    cases cursor with
    | none => exact collect_fills (Nat.zero_le _)
    | some cursor => exact collect_seeks own
  simp only [list, collected, KeysetPages.page, decide_eq_true_eq]

end collect

/-- The client's loop over the pages of a store. -/
def listPendingPages (store : IntentStore) (status : Option IntentStatus) (chainId : Option Int)
    (limit fuel : Nat) : Option (Except Hash (List (List MempoolIntentRecord))) :=
  KeysetPages.follow
    (fun cursor =>
      let page := store.list status chainId cursor limit
      (page.records, page.nextCursor))
    fuel [] none

theorem hashes_nodup {store : IntentStore} (indexed : store.Indexed) (status : Option IntentStatus) :
    (store.hashes status).Nodup := by
  cases status with
  | none => exact store.records.nodup
  | some status => exact indexed.nodup status

theorem mem_hashes {store : IntentStore} (indexed : store.Indexed) {status : Option IntentStatus}
    {record : MempoolIntentRecord} (stored : store.get record.hash = some record) :
    record.hash ∈ store.hashes status ↔ ∀ s ∈ status, record.status = s := by
  cases status with
  | none =>
      have listed : record.hash ∈ store.records.keys := InsertionMap.mem_keys.mpr ⟨record, stored⟩
      simp [hashes, listed]
  | some status =>
      show record.hash ∈ store.byStatus status ↔ _
      rw [indexed.member]
      simp [stored]

/-- Following the cursors ends, without a cursor seen twice, and the pages together hold the
    stored records that pass the filters: each once, in the order of the index. -/
theorem listing_complete {store : IntentStore} (built : store.Built) (own : store.Own)
    (status : Option IntentStatus) (chainId : Option Int) {limit : Nat} (one : 1 ≤ limit) :
    (∀ fuel, (store.selected status chainId).length < fuel →
      ∃ pages, store.listPendingPages status chainId limit fuel = some (.ok pages) ∧
        pages.flatten = store.selected status chainId) ∧
    ((store.selected status chainId).map MempoolIntentRecord.hash).Sublist (store.hashes status) ∧
    ((store.selected status chainId).map MempoolIntentRecord.hash).Nodup ∧
    ∀ record, record ∈ store.selected status chainId ↔
      store.get record.hash = some record ∧ (∀ s ∈ status, record.status = s) ∧
        ∀ chain ∈ chainId, record.intent.sourceChainId.asInteger = some chain := by
  have ordered := @found_sublist store chainId own (store.hashes status)
  have nodup := ordered.nodup (hashes_nodup built.indexed status)
  refine ⟨?_, ordered, nodup, ?_⟩
  · intro fuel enough
    unfold listPendingPages
    simp only [list_eq own]
    exact KeysetPages.follow_complete one nodup enough
  · intro record
    rw [selected, mem_found own]
    constructor
    · rintro ⟨member, stored, kept⟩
      exact ⟨stored, (mem_hashes built.indexed stored).mp member, onChain_iff.mp kept⟩
    · rintro ⟨stored, marked, there⟩
      exact ⟨(mem_hashes built.indexed stored).mpr marked, stored, onChain_iff.mpr there⟩

namespace Sample

/-- Three records, the second of them settled. -/
def standing : IntentStore :=
  ((((IntentStore.new none none).set (js "0xa") (record "0xa")).set (js "0xb") (record "0xb")).set
    (js "0xc") (record "0xc")).updateStatus (js "0xb") .settled |>.1

theorem standing_built : standing.Built := .updateStatus (.set (.set (.set (.new _ _) _ _) _ _) _ _) _ _

theorem standing_own : standing.Own := by
  intro hash record stored
  have member : (hash, record) ∈ standing.records.entries := InsertionMap.get_eq_some.mp stored
  have named : ∀ e ∈ standing.records.entries, e.2.hash = e.1 := by decide +kernel
  exact named _ member

end Sample

/-- The two that are pending, on a page each. -/
theorem listing_complete_sample : ∃ pages,
    Sample.standing.listPendingPages (some .pending) none 1 3 = some (.ok pages) ∧
      pages.flatten.map MempoolIntentRecord.hash = [js "0xa", js "0xc"] := by
  obtain ⟨pages, walked, whole⟩ := (listing_complete Sample.standing_built Sample.standing_own
    (some .pending) none (Nat.le_refl 1)).1 3 (by decide +kernel)
  exact ⟨pages, walked, by rw [whole]; decide +kernel⟩

end IntentStore

end Perihelion.Mempool

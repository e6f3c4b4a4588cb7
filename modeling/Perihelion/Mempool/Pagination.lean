import Perihelion.Mempool.Readable

/-! # Following the cursor

A client lists the pending intents page by page while the server goes on.  Between two
pages the record that the cursor names may be evicted, and then the server refuses the next
request.  If it is written instead, the next page silently starts nowhere or too late.
-/

namespace Perihelion.Mempool

open Sdk Fallible Transition

/-! ## The client -/

inductive PaginationReason where
  | repeatedCursor
  | maxPages

inductive ListingError where
  /-- The request itself failed, after its retries. -/
  | network
  | http (response : Response)
  | response (cause : ResponseError)
  | pagination (reason : PaginationReason) (records : List IntentRecord) (cursor : JsString) (pages : Nat)

structure ListPendingPageResult where
  records : List IntentRecord
  nextCursor : Option JsString

/-- An empty cursor is not sent. -/
def cursorParam : Option JsString → JsValue
  | none | some [] => .undefined
  | some cursor => .string cursor

/-- `listPendingPage("pending", cursor, limit)`, answered by the server as it is now. -/
def listPendingPage (viem : Viem) (limit : JsNumber) (cursor : Option JsString) (server : Server) :
    Except ListingError ListPendingPageResult :=
  match handleListIntents ⟨.string (js "pending"), none, some limit, cursorParam cursor⟩ server with
  | .error response => .error (.http response)
  | .ok page =>
      match parseIntentRecordArray viem (page.json.field "records") defaultMaxIntentRecords with
      | .error cause => .error (.response cause)
      | .ok records => .ok {
          records
          nextCursor := match page.json.field "nextCursor" with
            | .string cursor => some cursor
            | _ => none }

/-- The local variables of `listPending`. -/
structure Listing where
  all : List IntentRecord
  seen : List JsString
  cursor : Option JsString
  pages : Nat

inductive Client where
  | running (listing : Listing)
  | returned (records : List IntentRecord)
  | failed (error : ListingError)

/-- The rest of the loop's body, and what follows the loop. -/
def Listing.next (listing : Listing) (maxPages : Nat) (page : ListPendingPageResult) : Client :=
  let all := listing.all ++ page.records
  let pages := listing.pages + 1
  match page.nextCursor with
  | none => .returned all
  | some cursor =>
      if cursor ∈ listing.seen then .failed (.pagination .repeatedCursor all cursor pages)
      else if pages < maxPages then .running ⟨all, listing.seen ++ [cursor], some cursor, pages⟩
      else .failed (.pagination .maxPages all cursor pages)

/-! ## The client beside the server -/

structure World where
  server : Server
  client : Client

inductive ListingInput where
  | server (input : Input)
  /-- The server answers the page request that is under way. -/
  | page
  /-- The request is lost, and so are its retries. -/
  | lost

structure Parameters where
  options : Options
  maxPages : Nat
  limit : JsNumber

def nextWorld (p : Parameters) (w : World) : ListingInput → Option World
  | .server input => (next p.options w.server input).map fun server => { w with server }
  | .page =>
      match w.client with
      | .running listing =>
          match listPendingPage p.options.viem p.limit listing.cursor w.server with
          | .ok page => some { w with client := listing.next p.maxPages page }
          | .error error => some { w with client := .failed error }
      | _ => none
  | .lost =>
      match w.client with
      | .running _ => some { w with client := .failed .network }
      | _ => none

/-- The listing starts at any moment of the server's life. -/
def listingSystem (p : Parameters) : System World ListingInput where
  init w := (system p.options).Reachable w.server ∧ w.client = .running ⟨[], [], none, 0⟩
  step w input w' := nextWorld p w input = some w'

/-- An intent is in the store with status `pending`. -/
def Server.Pending (server : Server) (hash : Hash) : Prop :=
  ∃ record, server.store.get hash = some record ∧ record.status = .pending

/-- A run that has returned has returned every intent that was pending all the time. -/
def Complete (moves : List (World × ListingInput)) (w : World) : Prop :=
  ∀ records, w.client = .returned records → ∀ hash, (∀ m ∈ moves, m.1.server.Pending hash) →
    w.server.Pending hash → ∃ record ∈ records, record.hash = hash

/-! ## The order of an index -/

namespace IntentStore

/-- Deletions leave the order of what stays. -/
def Thins (store store' : IntentStore) : Prop :=
  ∀ status, ∃ p : Hash → Bool, store'.byStatus status = (store.byStatus status).filter p

theorem Thins.refl (store : IntentStore) : store.Thins store := by
  intro status
  exact ⟨fun _ => true, by simp⟩

theorem Thins.trans {store store' store'' : IntentStore} (first : store.Thins store')
    (second : store'.Thins store'') : store.Thins store'' := by
  intro status
  obtain ⟨p, kept⟩ := first status
  obtain ⟨q, later⟩ := second status
  exact ⟨fun hash => q hash && p hash, by rw [later, kept, List.filter_filter]⟩

theorem indexRemove_thins (store : IntentStore) (hash : Hash) (status : IntentStatus) :
    store.Thins (store.indexRemove hash status) := by
  intro other
  by_cases here : other = status
  · subst here
    exact ⟨fun h => h ≠ hash, by simp [indexRemove]⟩
  · exact ⟨fun _ => true, by simp [indexRemove, here]⟩

theorem delete_thins (store : IntentStore) (hash : Hash) : store.Thins (store.delete hash).1 := by
  unfold delete
  split
  · exact Thins.refl store
  · exact indexRemove_thins store hash _

theorem room_thins (store : IntentStore) : store.Thins store.room := by
  unfold room
  split
  · rw [evictOne_eq]
    split
    · exact delete_thins store _
    · exact Thins.refl store
  · exact Thins.refl store

theorem put_byStatus (store : IntentStore) (hash : Hash) (record : MempoolIntentRecord)
    (status : IntentStatus) : ∃ added, (store.put hash record).byStatus status =
      store.byStatus status ++ added ∧ ∀ other ∈ added, other = hash := by
  unfold put indexAdd
  split
  · exact ⟨[], by simp, by simp⟩
  · by_cases here : status = record.status
    · subst here
      exact ⟨[hash], by simp, by simp⟩
    · exact ⟨[], by simp [here], by simp⟩

end IntentStore

/-- The operation writes the record of a hash. -/
def StoreOp.Writes (store : IntentStore) (hash : Hash) : StoreOp → Prop
  | .set record => record.hash = hash
  | .updateStatus key _ =>
      key = hash ∧ ∃ record, store.get hash = some record ∧ record.status.terminal = false
  | .delete _ | .evictExpired _ => False

theorem StoreOp.byStatus (store : IntentStore) (op : StoreOp) (status : IntentStatus) :
    ∃ (p : Hash → Bool) (added : List Hash),
      (op.apply store).byStatus status = (store.byStatus status).filter p ++ added ∧
        ∀ hash ∈ added, op.Writes store hash := by
  have thinned {store' : IntentStore} (thins : store.Thins store') :
      ∃ (p : Hash → Bool) (added : List Hash),
        store'.byStatus status = (store.byStatus status).filter p ++ added ∧
          ∀ hash ∈ added, op.Writes store hash := by
    obtain ⟨p, kept⟩ := thins status
    exact ⟨p, [], by rw [kept, List.append_nil], by simp⟩
  cases op with
  | set record =>
      obtain ⟨p, kept⟩ :=
        ((IntentStore.delete_thins store record.hash).trans (IntentStore.room_thins _)) status
      obtain ⟨added, whole, only⟩ :=
        (store.delete record.hash).1.room.put_byStatus record.hash record status
      refine ⟨p, added, ?_, fun hash member => (only hash member).symm⟩
      show (store.set record.hash record).byStatus status = _
      rw [IntentStore.set_eq, whole, kept]
  | updateStatus key to_status =>
      show ∃ (p : Hash → Bool) (added : List Hash),
        (store.updateStatus key to_status).1.byStatus status = (store.byStatus status).filter p ++ added ∧ _
      unfold IntentStore.updateStatus
      split
      · exact thinned (IntentStore.Thins.refl store)
      · rename_i record found
        split
        · exact thinned (IntentStore.Thins.refl store)
        · rename_i live
          obtain ⟨p, kept⟩ := store.indexRemove_thins key record.status status
          obtain ⟨added, whole, only⟩ := (store.indexRemove key record.status).put_byStatus key
            { record with status := to_status } status
          refine ⟨p, added, by rw [whole, kept], ?_⟩
          intro hash member
          obtain rfl := only hash member
          exact ⟨rfl, record, found, Bool.eq_false_of_not_eq_true live⟩
  | delete hash => exact thinned (store.delete_thins hash)
  | evictExpired now =>
      exact thinned (IntentStore.evictExpired_kept
        (fun _ hash thins => thins.trans (IntentStore.delete_thins _ hash))
        (IntentStore.Thins.refl store) now)

/-- What stood behind the cursor stands behind it still, unless the cursor's record is written. -/
theorem StoreOp.behind {store : IntentStore} {op : StoreOp} {cursor hash : Hash}
    {status : IntentStatus} (order : [cursor, hash].Sublist (store.byStatus status))
    (spared : ¬ op.Writes store cursor) (stays : cursor ∈ (op.apply store).byStatus status)
    (pending : hash ∈ (op.apply store).byStatus status) :
    [cursor, hash].Sublist ((op.apply store).byStatus status) := by
  obtain ⟨p, added, after, written⟩ := op.byStatus store status
  rw [after] at stays pending ⊢
  have kept : cursor ∈ (store.byStatus status).filter p := by
    rcases List.mem_append.mp stays with kept | new
    · exact kept
    · exact absurd (written cursor new) spared
  rcases List.mem_append.mp pending with old | new
  · have both : [cursor, hash].filter p = [cursor, hash] := by
      simp [(List.mem_filter.mp kept).2, (List.mem_filter.mp old).2]
    have filtered := order.filter p
    rw [both] at filtered
    exact filtered.trans (List.sublist_append_left _ _)
  · exact (List.singleton_sublist.mpr kept).append (List.singleton_sublist.mpr new)

/-! ## One page -/

section page

variable {store : IntentStore} {whole : List Hash} {limit : Nat} {hash : Hash}

/-- A listed hash has its own record. -/
def Listed (store : IntentStore) (hashes : List Hash) : Prop :=
  ∀ hash ∈ hashes, ∃ record, store.get hash = some record ∧ record.hash = hash

/-- On the page, or behind its last record. -/
def Covered (whole : List Hash) (hash : Hash) (result : List MempoolIntentRecord × Bool) : Prop :=
  (∃ record ∈ result.1, record.hash = hash) ∨
    (result.2 = true ∧ ∃ last, result.1.getLast? = some last ∧ [last.hash, hash].Sublist whole)

/-- The loop once it has passed the cursor. -/
theorem collect_reached {cursor : Option Hash} {page : List MempoolIntentRecord} {hashes : List Hash}
    (listed : Listed store hashes) (one : 1 ≤ limit) (front : ∀ last, page.getLast? = some last →
      (last.hash :: hashes).Sublist whole) (inside : hashes.Sublist whole)
    (member : (∃ record ∈ page, record.hash = hash) ∨ hash ∈ hashes) :
    Covered whole hash (store.collect none cursor limit true page hashes) := by
  induction hashes generalizing page with
  | nil =>
      rcases member with done | none
      · exact Or.inl done
      · exact absurd none List.not_mem_nil
  | cons first rest ih =>
      obtain ⟨record, found, own⟩ := listed first List.mem_cons_self
      simp only [IntentStore.collect, found, Option.any_none, Bool.false_eq_true, if_false,
        Bool.true_eq_false]
      split
      · rename_i full
        rcases member with done | later
        · exact Or.inl done
        · have filled : page ≠ [] := by
            rintro rfl
            rw [List.length_nil] at full
            omega
          have last := List.getLast?_eq_some_getLast filled
          exact Or.inr ⟨rfl, _, last, ((List.singleton_sublist.mpr later).cons_cons _).trans (front _ last)⟩
      · apply ih (fun hash member => listed hash (List.mem_cons_of_mem first member))
        · intro last named
          rw [List.getLast?_append, List.getLast?_singleton, Option.some_or] at named
          rw [← Option.some.inj named, own]
          exact inside
        · exact (List.sublist_cons_self first rest).trans inside
        · rcases member with ⟨other, done, same⟩ | later
          · exact Or.inl ⟨other, List.mem_append_left _ done, same⟩
          · rcases List.mem_cons.mp later with rfl | later
            · exact Or.inl ⟨record, List.mem_append_right _ List.mem_cons_self, own⟩
            · exact Or.inr later

/-- The loop up to the cursor. -/
theorem collect_behind {cursor : Hash} {hashes : List Hash} (listed : Listed store hashes)
    (one : 1 ≤ limit) (inside : hashes.Sublist whole) (order : [cursor, hash].Sublist hashes) :
    Covered whole hash (store.collect none (some cursor) limit false [] hashes) := by
  induction hashes with
  | nil => cases order
  | cons first rest ih =>
      have others : Listed store rest := fun hash member => listed hash (List.mem_cons_of_mem first member)
      have tail : rest.Sublist whole := (List.sublist_cons_self first rest).trans inside
      obtain ⟨record, found, -⟩ := listed first List.mem_cons_self
      simp only [IntentStore.collect, found, Option.any_none, Bool.false_eq_true, if_false, if_true,
        Option.some.injEq]
      by_cases here : cursor = first
      · subst here
        simp only [decide_true]
        have later : hash ∈ rest := by
          rcases List.cons_sublist_cons'.mp order with skipped | ⟨-, behind⟩
          · exact skipped.subset (by simp)
          · exact List.singleton_sublist.mp behind
        exact collect_reached others one (by simp) tail (Or.inr later)
      · simp only [here, decide_false]
        apply ih others tail
        rcases List.cons_sublist_cons'.mp order with skipped | ⟨same, -⟩
        · exact skipped
        · exact absurd same here

/-- A pending record is on the page, or behind the next cursor, if it was behind this one. -/
theorem list_covers {cursor : Option Hash} (listed : Listed store (store.byStatus .pending))
    (one : 1 ≤ limit) (pending : hash ∈ store.byStatus .pending)
    (order : ∀ c, cursor = some c → [c, hash].Sublist (store.byStatus .pending)) :
    (∃ record ∈ (store.list (some .pending) none cursor limit).records, record.hash = hash) ∨
      ∃ next, (store.list (some .pending) none cursor limit).nextCursor = some next ∧
        [next, hash].Sublist (store.byStatus .pending) := by
  have covered : Covered (store.byStatus .pending) hash
      (store.collect none cursor limit (cursor = none) [] (store.byStatus .pending)) := by
    cases cursor with
    | none => exact collect_reached listed one (by simp) (List.Sublist.refl _) (Or.inr pending)
    | some c => exact collect_behind listed one (List.Sublist.refl _) (order c rfl)
  rcases covered with here | ⟨more, last, named, behind⟩
  · exact Or.inl here
  · right
    refine ⟨last.hash, ?_, behind⟩
    simp only [IntentStore.list, IntentStore.hashes, more, if_true, named, Option.map_some]

theorem list_nextCursor {cursor : Option Hash} {next : Hash}
    (named : (store.list (some .pending) none cursor limit).nextCursor = some next) :
    ∃ record ∈ (store.list (some .pending) none cursor limit).records, record.hash = next := by
  simp only [IntentStore.list] at named
  split at named
  · obtain ⟨last, ends, rfl⟩ := Option.map_eq_some_iff.mp named
    exact ⟨last, List.mem_of_getLast? ends, rfl⟩
  · cases named

theorem parseLimit_pos {limit : Option JsNumber} {parsed : Nat} (ok : parseLimit limit = .ok parsed) :
    1 ≤ parsed := by
  cases limit with
  | none =>
      cases ok
      decide
  | some n =>
      simp only [parseLimit, bind_ok, pure_ok, require_ok] at ok
      obtain ⟨limit, -, -, ⟨one, -⟩, rfl⟩ := ok
      omega

theorem pageJson_nextCursor (page : Page) : (match page.json.field "nextCursor" with
    | .string cursor => some cursor
    | _ => none) = page.nextCursor := by
  obtain ⟨records, nextCursor⟩ := page
  cases nextCursor with
  | none => rfl
  | some cursor => rfl

/-- What the client gets is the server's page. -/
theorem listPendingPage_ok {viem : Viem} {size : JsNumber} {cursor : Option JsString}
    {server : Server} {result : ListPendingPageResult}
    (ok : listPendingPage viem size cursor server = .ok result) :
    ∃ limit cursor', 1 ≤ limit ∧ parseCursor server.store (cursorParam cursor) = .ok cursor' ∧
      result.nextCursor = (server.store.list (some .pending) none cursor' limit).nextCursor ∧
      ∀ record ∈ (server.store.list (some .pending) none cursor' limit).records,
        ∃ parsed ∈ result.records, parsed.hash = record.hash := by
  unfold listPendingPage at ok
  split at ok
  · cases ok
  · rename_i page listed
    split at ok
    · cases ok
    · rename_i records parsed
      cases ok
      simp only [handleListIntents, bind_ok, pure_ok] at listed
      obtain ⟨status, filter, chainId, unfiltered, limit, sized, cursor', known, rfl⟩ := listed
      have pending : status = some .pending := by
        have text : parseStatusFilter (.string (js "pending")) = .ok (some .pending) := rfl
        exact (Except.ok.inj (text.symm.trans filter)).symm
      cases unfiltered
      subst pending
      refine ⟨limit, cursor', parseLimit_pos sized, known, pageJson_nextCursor _, ?_⟩
      have items : (server.store.list (some .pending) none cursor' limit).json.field "records" =
        .array ((server.store.list (some .pending) none cursor' limit).records.map
          MempoolIntentRecord.json) := rfl
      rw [items, parseIntentRecordArray] at parsed
      split at parsed
      · cases parsed
      · intro record member
        obtain ⟨result, there, own⟩ := mapM_mem parsed (List.mem_map_of_mem member)
        refine ⟨result, there, ?_⟩
        obtain ⟨-, -, hashed, -⟩ := parseIntentRecord_ok.mp own
        exact (JsValue.string.inj (asHexText_ok.mp hashed).1).symm

end page

/-! ## Runs -/

/-- The step writes the record of a hash: a verified submission, or an accepted update. -/
def Writes (options : Options) (server : Server) (hash : Hash) : Input → Prop
  | .verified index true _ => ∃ submission, server.verifying[index]? = some submission ∧
      options.hashIntent submission.intent = some hash
  | .updateStatus authorization rawHash body => ∃ status,
      validateUpdate options authorization rawHash body = .ok (hash, status) ∧
      ∃ record, server.store.get hash = some record ∧ record.status.terminal = false
  | _ => False

/-- While a page is asked for, the record that the cursor names is not written. -/
def SparesCursor (options : Options) (w : World) : ListingInput → Prop
  | .server input => ∀ listing cursor, w.client = .running listing → listing.cursor = some cursor →
      ¬ Writes options w.server cursor input
  | .page | .lost => True

section run

variable {p : Parameters} {options : Options} {server server' : Server} {input : Input} {hash : Hash}
  {w w' : World}

/-- What a step does to the store is an operation on it, or nothing. -/
theorem next_op (stepped : next options server input = some server') :
    server'.store = server.store ∨ ∃ op : StoreOp, server'.store = op.apply server.store ∧
      ∀ hash, op.Writes server.store hash → Writes options server hash input := by
  obtain ⟨⟨after, response⟩, handled, rfl⟩ := Option.map_eq_some_iff.mp stepped
  cases input with
  | submit body now =>
      simp only [handle, handleSubmitIntent, Option.some.injEq] at handled
      left
      split at handled
      · cases handled
        rfl
      · cases handled
        rfl
  | verified index signatureValid now =>
      obtain ⟨submission, waiting, finished⟩ := Option.map_eq_some_iff.mp handled
      unfold finishSubmission at finished
      split at finished
      · cases finished
        exact Or.inl rfl
      · rename_i valid
        obtain rfl : signatureValid = true := not_not.mp valid
        split at finished
        · cases finished
          exact Or.inl rfl
        · rename_i key hashed
          cases finished
          refine Or.inr ⟨.set ⟨key, submission.intent, submission.signature, .pending, now⟩, rfl, ?_⟩
          rintro hash rfl
          exact ⟨submission, waiting, hashed⟩
  | updateStatus authorization rawHash body =>
      simp only [handle, handleUpdateStatus, Option.some.injEq] at handled
      split at handled
      · cases handled
        exact Or.inl rfl
      · rename_i key status valid
        cases handled
        refine Or.inr ⟨.updateStatus key status, rfl, ?_⟩
        rintro hash ⟨rfl, live⟩
        exact ⟨status, valid, live⟩
  | sweep now =>
      cases handled
      exact Or.inr ⟨.evictExpired now, rfl, fun _ written => written.elim⟩

theorem reachable_indexed (reach : (system options).Reachable server) : server.store.Indexed := by
  apply reach.invariant
  · rintro _ ⟨maxSize, expiryGraceMs, rfl⟩
    exact IntentStore.Indexed.new maxSize expiryGraceMs
  · intro v input v' _ indexed stepped
    rcases next_op stepped with same | ⟨op, after, -⟩
    · exact same ▸ indexed
    · exact after ▸ indexed.apply op

/-- An intent that is pending all the time has been returned, or stands behind the cursor. -/
structure Due (hash : Hash) (w : World) : Prop where
  running : ∀ listing cursor, w.client = .running listing → listing.cursor = some cursor →
    isHashText cursor = true ∧ ((∃ record ∈ listing.all, record.hash = hash) ∨
      ((w.server.store.get cursor).isSome →
        [cursor, hash].Sublist (w.server.store.byStatus .pending)))
  returned : ∀ records, w.client = .returned records → ∃ record ∈ records, record.hash = hash

theorem Due.server_step (due : Due hash w) (indexed : w.server.store.Indexed)
    (later : server'.store.Indexed) (stepped : next options w.server input = some server')
    (spares : SparesCursor options w (.server input)) (pending : server'.Pending hash) :
    Due hash { w with server := server' } := by
  constructor
  case returned => exact due.returned
  case running =>
    intro listing cursor running named
    obtain ⟨text, place⟩ := due.running listing cursor running named
    refine ⟨text, ?_⟩
    rcases place with done | behind
    · exact Or.inl done
    · right
      intro stored
      obtain ⟨record, found⟩ := Option.isSome_iff_exists.mp stored
      have spared := spares listing cursor running named
      dsimp only at found ⊢
      have before : w.server.store.get cursor = some record := by
        cases next_origin stepped found with
        | kept _ before => exact before
        | updated _ _ _ status old called valid known live =>
            subst called
            exact absurd ⟨status, valid, old, known, live⟩ spared
        | written index now submission called waiting hashed =>
            subst called
            exact absurd ⟨submission, waiting, hashed⟩ spared
      have order := behind (by rw [before]; rfl)
      rcases next_op stepped with same | ⟨op, after, writes⟩
      · rw [same]
        exact order
      · have listed : cursor ∈ w.server.store.byStatus .pending := order.subset (by simp)
        obtain ⟨other, known, status⟩ := (indexed.member _ _).mp listed
        obtain rfl := Option.some.inj (before.symm.trans known)
        have stays : cursor ∈ server'.store.byStatus .pending :=
          (later.member _ _).mpr ⟨record, found, status⟩
        have there : hash ∈ server'.store.byStatus .pending := (later.member _ _).mpr pending
        rw [after] at stays there ⊢
        exact StoreOp.behind order (fun written => spared (writes _ written)) stays there

/-- A hash is sent as it is, and it must name a record. -/
theorem parseCursor_text {store : IntentStore} {c : JsString} (text : isHashText c = true)
    {cursor : Option Hash} (known : parseCursor store (cursorParam (some c)) = .ok cursor) :
    cursor = some c ∧ (store.get c).isSome := by
  have sent : cursorParam (some c) = .string c := by
    cases c with
    | nil => cases text
    | cons unit rest => rfl
  simp only [sent, parseCursor, bind_ok, pure_ok, require_ok, toLowerCase_isHashText text] at known
  obtain ⟨-, -, -, stored, rfl⟩ := known
  exact ⟨rfl, stored⟩

/-- After a page the intent is among the results, or behind the next cursor. -/
theorem Due.covered {listing : Listing} {cursor : Option Hash} {limit : Nat} (due : Due hash w)
    (running : w.client = .running listing) (indexed : w.server.store.Indexed)
    (checked : Checked options w.server) (pending : w.server.Pending hash) (one : 1 ≤ limit)
    (known : parseCursor w.server.store (cursorParam listing.cursor) = .ok cursor) :
    (∃ record ∈ listing.all, record.hash = hash) ∨
      (∃ record ∈ (w.server.store.list (some .pending) none cursor limit).records,
        record.hash = hash) ∨
      ∃ next, (w.server.store.list (some .pending) none cursor limit).nextCursor = some next ∧
        [next, hash].Sublist (w.server.store.byStatus .pending) := by
  have listed : Listed w.server.store (w.server.store.byStatus .pending) := by
    intro other member
    obtain ⟨record, found, -⟩ := (indexed.member _ _).mp member
    exact ⟨record, found, (checked.stored _ _ found).1⟩
  have there : hash ∈ w.server.store.byStatus .pending := (indexed.member _ _).mpr pending
  cases named : listing.cursor with
  | none =>
      rw [named] at known
      cases known
      exact Or.inr (list_covers listed one there (by simp))
  | some c =>
      rw [named] at known
      obtain ⟨text, place⟩ := due.running listing c running named
      obtain ⟨rfl, stored⟩ := parseCursor_text text known
      rcases place with done | behind
      · exact Or.inl done
      · refine Or.inr (list_covers listed one there ?_)
        rintro _ ⟨rfl⟩
        exact behind stored

theorem Due.page_step (due : Due hash w) (indexed : w.server.store.Indexed)
    (checked : Checked p.options w.server) (pending : w.server.Pending hash)
    (stepped : nextWorld p w .page = some w') : Due hash w' := by
  unfold nextWorld at stepped
  dsimp only at stepped
  split at stepped
  · rename_i listing running
    split at stepped
    · rename_i result answered
      cases stepped
      obtain ⟨limit, cursor, one, known, next, records⟩ := listPendingPage_ok answered
      have covered := due.covered running indexed checked pending one known
      have results : (∃ record ∈ listing.all ++ result.records, record.hash = hash) ∨
          ∃ next, result.nextCursor = some next ∧
            [next, hash].Sublist (w.server.store.byStatus .pending) := by
        rcases covered with ⟨record, done, same⟩ | ⟨record, here, same⟩ | behind
        · exact Or.inl ⟨record, List.mem_append_left _ done, same⟩
        · obtain ⟨parsed, there, own⟩ := records record here
          exact Or.inl ⟨parsed, List.mem_append_right _ there, own.trans same⟩
        · rw [next]
          exact Or.inr behind
      have text (c : JsString) (named : result.nextCursor = some c) : isHashText c = true := by
        rw [next] at named
        obtain ⟨record, here, rfl⟩ := list_nextCursor named
        obtain ⟨other, found⟩ := (list_records _ _ _ _ _).1 record here
        obtain ⟨same, lower, -⟩ := checked.stored _ _ found
        rwa [same]
      constructor
      case running =>
        intro after c running' named
        unfold Listing.next at running'
        cases more : result.nextCursor with
        | none =>
            rw [more] at running'
            cases running'
        | some following =>
            simp only [more] at running'
            split at running'
            · cases running'
            · split at running'
              · cases running'
                cases named
                refine ⟨text _ more, results.imp_right ?_⟩
                rintro ⟨c, same, order⟩ -
                rw [more] at same
                cases same
                exact order
              · cases running'
      case returned =>
        intro all returned
        unfold Listing.next at returned
        cases more : result.nextCursor with
        | none =>
            rw [more] at returned
            cases returned
            rcases results with done | ⟨c, named, -⟩
            · exact done
            · cases more.symm.trans named
        | some following =>
            simp only [more] at returned
            split at returned
            · cases returned
            · split at returned
              · cases returned
              · cases returned
    · cases stepped
      constructor
      case running => exact fun _ _ same => nomatch same
      case returned => exact fun _ same => nomatch same
  · cases stepped

theorem listing_server {input : ListingInput} (stepped : nextWorld p w input = some w') :
    (∃ inner, input = .server inner ∧ next p.options w.server inner = some w'.server ∧
      w' = { w with server := w'.server }) ∨ w'.server = w.server := by
  cases input with
  | server inner =>
      obtain ⟨server, moved, rfl⟩ := Option.map_eq_some_iff.mp stepped
      exact Or.inl ⟨inner, rfl, moved, rfl⟩
  | page =>
      unfold nextWorld at stepped
      dsimp only at stepped
      split at stepped
      · split at stepped
        · cases stepped
          exact Or.inr rfl
        · cases stepped
          exact Or.inr rfl
      · cases stepped
  | lost =>
      unfold nextWorld at stepped
      dsimp only at stepped
      split at stepped
      · cases stepped
        exact Or.inr rfl
      · cases stepped

theorem listing_reachable {moves : List (World × ListingInput)}
    (start : (listingSystem p).init w) (run : (listingSystem p).Run w moves w') :
    (system p.options).Reachable w'.server := by
  induction run with
  | nil => exact start.1
  | snoc _ last ih =>
      rcases listing_server last with ⟨_, -, moved, -⟩ | same
      · exact ih.step moved
      · rw [same]
        exact ih

/-- Everything that was pending all the time is returned, if the record that the cursor names is
    never written while a page is asked for. -/
theorem listPending_complete {moves : List (World × ListingInput)} (hashes : Hashes p.options)
    (start : (listingSystem p).init w) (run : (listingSystem p).Run w moves w')
    (spares : ∀ m ∈ moves, SparesCursor p.options m.1 m.2) : Complete moves w' := by
  intro records returned hash pending still
  have due : Due hash w' := by
    clear returned
    induction run with
    | nil =>
        obtain ⟨-, fresh⟩ := start
        constructor
        case running =>
          intro listing cursor running named
          rw [fresh] at running
          cases running
          cases named
        case returned =>
          intro records returned
          rw [fresh] at returned
          cases returned
    | @snoc moves v input v' earlier last ih =>
        have before := pending (v, input) (by simp)
        have due := ih (fun m member => spares m (List.mem_append_left _ member))
          (fun m member => pending m (List.mem_append_left _ member)) before
        have reach := listing_reachable start earlier
        have indexed := reachable_indexed reach
        cases input with
        | server inner =>
            obtain ⟨server, moved, rfl⟩ := Option.map_eq_some_iff.mp last
            exact due.server_step indexed (reachable_indexed (reach.step moved)) moved
              (spares (v, .server inner) (by simp)) still
        | page => exact due.page_step indexed (reachable_checked hashes reach) before last
        | lost =>
            unfold listingSystem nextWorld at last
            dsimp only at last
            split at last
            · cases last
              constructor
              case running => exact fun _ _ same => nomatch same
              case returned => exact fun _ same => nomatch same
            · cases last
  exact due.returned records returned

end run

/-! ## Two runs

Two pending intents, one a page.  Between the pages the sweep runs, or the first intent settles.
-/

namespace Sample

def otherHash : Hash := js "0x9c0257114eb9399a2985f8e75dad7600c5d89fe3824ffa99ec1c3eb8bf3b0501"

def listParameters : Parameters where
  options := ⟨viem, none, fun intent => some (if intent.nonce = js "7" then hash else otherHash)⟩
  maxPages := 100
  limit := IntentStore.Sample.chain

/-- The same intent under another nonce. -/
def otherIntent : JsValue :=
  match intent with
  | .object fields =>
      .object (fields.map fun f => if f.1 = js "nonce" then (f.1, .string (js "8")) else f)
  | value => value

def otherBody : JsValue := .object [
  (js "intent", otherIntent),
  (js "signature", .string (js "0x" ++ List.replicate 130 50))]

def submitting : List Input :=
  [.submit body 1700000000, .verified 0 true 1700000001,
    .submit otherBody 1700000002, .verified 0 true 1700000003]

def pendingServer : Server :=
  (System.replay (next listParameters.options) created submitting).get (by decide +kernel)

def asking : World := ⟨pendingServer, .running ⟨[], [], none, 0⟩⟩

def quiet : List ListingInput := [.page, .server (.sweep 1700000030), .page]

def settles : List ListingInput := [.page, .server (report "settled"), .page]

def quietMoves : List (World × ListingInput) := System.trail (nextWorld listParameters) asking quiet

def settlesMoves : List (World × ListingInput) := System.trail (nextWorld listParameters) asking settles

def listed : World := (System.replay (nextWorld listParameters) asking quiet).get (by decide +kernel)

def cutShort : World := (System.replay (nextWorld listParameters) asking settles).get (by decide +kernel)

theorem listHashes : Hashes listParameters.options := by
  intro intent text hashed
  obtain rfl := Option.some.inj hashed
  split
  · decide +kernel
  · decide +kernel

theorem pendingServer_reachable : (system listParameters.options).Reachable pendingServer := by
  have start : (system listParameters.options).Reachable created := .init ⟨none, none, rfl⟩
  apply start.later
  apply System.Later.of_replay (S := system listParameters.options) (fun _ _ _ stepped => stepped)
  · show System.replay (next listParameters.options) created submitting = some pendingServer
    rw [pendingServer, Option.some_get]

theorem asking_init : (listingSystem listParameters).init asking := by
  constructor
  · dsimp only [asking]
    exact pendingServer_reachable
  · rfl

theorem listed_run : (listingSystem listParameters).Run asking quietMoves listed := by
  apply System.Run.of_replay (S := listingSystem listParameters) (fun _ _ _ stepped => stepped)
  simp [listed]

theorem cutShort_run : (listingSystem listParameters).Run asking settlesMoves cutShort := by
  apply System.Run.of_replay (S := listingSystem listParameters) (fun _ _ _ stepped => stepped)
  simp [cutShort]

end Sample

theorem listPending_complete_sample : Complete Sample.quietMoves Sample.listed := by
  apply listPending_complete Sample.listHashes Sample.asking_init Sample.listed_run
  intro m member
  have input := System.input_of_trail member
  simp only [Sample.quiet, List.mem_cons, List.not_mem_nil, or_false] at input
  rcases input with paged | swept | paged
  · rw [paged]
    trivial
  · rw [swept]
    exact fun _ _ _ _ written => written.elim
  · rw [paged]
    trivial

/-- The hashes of what a client has returned. -/
def Client.hashes : Client → Option (List Hash)
  | .returned records => some (records.map fun record => record.hash)
  | _ => none

/-- The record that the cursor names settles between two pages: the second page is empty, and an
    intent that is pending all the time is never returned. -/
theorem listPending_incomplete :
    Hashes Sample.listParameters.options ∧
      (listingSystem Sample.listParameters).init Sample.asking ∧
      (listingSystem Sample.listParameters).Run Sample.asking Sample.settlesMoves Sample.cutShort ∧
      ¬ Complete Sample.settlesMoves Sample.cutShort := by
  refine ⟨Sample.listHashes, Sample.asking_init, Sample.cutShort_run, ?_⟩
  intro complete
  have pendingIn (server : Server)
      (stored : (server.store.get Sample.otherHash).any (·.status = .pending) = true) :
      server.Pending Sample.otherHash := by
    obtain ⟨record, found, pending⟩ := (Option.any_eq_true _ _).mp stored
    exact ⟨record, found, of_decide_eq_true pending⟩
  obtain ⟨always, last, partly⟩ :
      (∀ m ∈ Sample.settlesMoves,
        (m.1.server.store.get Sample.otherHash).any (·.status = .pending) = true) ∧
      (Sample.cutShort.server.store.get Sample.otherHash).any (·.status = .pending) = true ∧
      Sample.cutShort.client.hashes = some [Sample.hash] := by
    decide +kernel
  cases client : Sample.cutShort.client with
  | running | failed =>
      rw [client] at partly
      cases partly
  | returned records =>
      rw [client] at partly
      have hashes : records.map (fun record => record.hash) = [Sample.hash] := Option.some.inj partly
      obtain ⟨record, member, own⟩ := complete records client Sample.otherHash
        (fun m member => pendingIn _ (always m member)) (pendingIn _ last)
      have there : Sample.otherHash ∈ [Sample.hash] := by
        rw [← hashes, ← own]
        exact List.mem_map_of_mem member
      exact absurd there (by decide)

end Perihelion.Mempool

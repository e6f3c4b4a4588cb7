import Perihelion.Mempool.StoreIndex
import Perihelion.Mempool.Server
import Perihelion.Sdk.IntentRecord

/-! # Reading from the mempool

One record by its hash, or a page of those with a status.  A page starts behind the record
that the cursor names, wherever that stands in the iteration by now.
-/

namespace Perihelion.Mempool

open Sdk Fallible
open Relayer (toLowerCase)

structure Page where
  records : List MempoolIntentRecord
  nextCursor : Option Hash

namespace IntentStore

/-- The hashes that a listing iterates over. -/
def hashes (store : IntentStore) : Option IntentStatus → List Hash
  | some status => store.byStatus status
  | none => store.records.keys

/-- The loop: the page so far, and whether there is more. -/
def collect (store : IntentStore) (chainId : Option Int) (cursor : Option Hash) (limit : Nat)
    (reached : Bool) (page : List MempoolIntentRecord) : List Hash → List MempoolIntentRecord × Bool
  | [] => (page, false)
  | hash :: rest =>
      match store.get hash with
      | none => store.collect chainId cursor limit reached page rest
      | some record =>
          if chainId.any (record.intent.sourceChainId.asInteger ≠ some ·) then
            store.collect chainId cursor limit reached page rest
          else if reached = false then
            store.collect chainId cursor limit (cursor = some hash) page rest
          else if limit ≤ page.length then (page, true)
          else store.collect chainId cursor limit reached (page ++ [record]) rest

def list (store : IntentStore) (status : Option IntentStatus) (chainId : Option Int)
    (cursor : Option Hash) (limit : Nat) : Page :=
  let (page, more) := store.collect chainId cursor limit (cursor = none) [] (store.hashes status)
  { records := page
    nextCursor := if more then page.getLast?.map MempoolIntentRecord.hash else none }

end IntentStore

/-! ## The handlers -/

def handleGetIntent (rawHash : JsString) (server : Server) : Except Response MempoolIntentRecord := do
  let hash ← parseHashParam rawHash
  expect ⟨404, .error "Intent not found"⟩ (server.store.get hash)

/-- The parameters of a listing, `undefined` where they are missing.  The numbers are what
    `Number` makes of the texts, `NaN` where a parameter is no text. -/
structure ListQuery where
  status : JsValue
  chainId : Option JsNumber
  limit : Option JsNumber
  cursor : JsValue

def defaultListLimit : Nat := 100
def maxListLimit : Nat := 1000

def parseStatusFilter : JsValue → Except Response (Option IntentStatus)
  | .undefined => .ok none
  | status => do
      let known ← expect (badRequest "Invalid status filter") (parseStatus status)
      return some known

def parseChainId : Option JsNumber → Except Response (Option Int)
  | none => .ok none
  | some parsed => do
      let chainId ← expect (badRequest "Invalid chainId filter") parsed.asInteger
      require (1 ≤ chainId) (badRequest "Invalid chainId filter")
      return some chainId

def parseLimit : Option JsNumber → Except Response Nat
  | none => .ok defaultListLimit
  | some parsed => do
      let limit ← expect (badRequest "Invalid limit") parsed.asInteger
      require (1 ≤ limit ∧ limit ≤ maxListLimit) (badRequest "Invalid limit")
      return limit.toNat

/-- A cursor must name a record, of whatever status. -/
def parseCursor (store : IntentStore) : JsValue → Except Response (Option Hash)
  | .undefined => .ok none
  | .string raw => do
      let cursor := toLowerCase raw
      require (isHashText cursor) (badRequest "Invalid cursor")
      require (store.get cursor).isSome (badRequest "Invalid cursor")
      return some cursor
  | _ => .error (badRequest "Invalid cursor")

def handleListIntents (query : ListQuery) (server : Server) : Except Response Page := do
  let status ← parseStatusFilter query.status
  let chainId ← parseChainId query.chainId
  let limit ← parseLimit query.limit
  let cursor ← parseCursor server.store query.cursor
  return server.store.list status chainId cursor limit

/-! ## As JSON -/

/-- `IntentStatus` is the SDK's `MempoolIntentStatus`. -/
def IntentStatus.wire : IntentStatus → MempoolIntentStatus
  | .pending => .pending
  | .filled => .filled
  | .settled => .settled
  | .refunded => .refunded
  | .expired => .expired

theorem natAbs_lt_of_le {n : Int} (small : n.natAbs ≤ 2 ^ 53) : n.natAbs < 2 ^ 1024 :=
  Nat.lt_of_le_of_lt small (by decide +kernel)

/-- Seconds of the clock as a double.  A clock never leaves the exact range. -/
def seconds (n : Int) : JsNumber :=
  if small : n.natAbs ≤ 2 ^ 53 then .integer ⟨n, natAbs_lt_of_le small, nearestDouble_small small⟩
  else .other []

def MempoolIntentRecord.json (record : MempoolIntentRecord) : JsValue := .object [
  (js "hash", .string record.hash),
  (js "intent", record.intent.json),
  (js "signature", .string record.signature),
  (js "status", .string record.status.wire.text),
  (js "createdAt", .number (seconds record.createdAt))]

/-- A cursor that is `undefined` is not written. -/
def Page.json (page : Page) : JsValue := .object
  ((js "records", .array (page.records.map MempoolIntentRecord.json)) ::
    page.nextCursor.toList.map fun cursor => (js "nextCursor", .string cursor))

end Perihelion.Mempool

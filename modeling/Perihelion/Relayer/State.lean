import Mathlib.Logic.Function.Basic
import Perihelion.Wire

/-! # State of the relayer

One direction of the relayer: what a `Relayer` keeps in memory, its dead-letter store and the
window of block headers in which it looks for reorgs.  Metrics, readiness, logging and the
reports to the mempool are left out.
-/

namespace Perihelion.Relayer

open BigEndian

/-! ## Messages -/

inductive MessageType where
  | fillInstruction
  | fillConfirmed
  | cancelIntent
  deriving DecidableEq

/-- Maps are keyed by `messageKeyString`, which tells any two keys apart: no field has a colon
    in it. -/
structure MessageKey where
  srcEid : Eid
  dstEid : Eid
  intentHash : Bytes32
  messageType : MessageType
  nonce : Nat
  deriving DecidableEq

structure PendingMessage where
  key : MessageKey
  srcBlock : Nat
  deriving DecidableEq

inductive RelayError where
  | deadLettered
  | deferred (nextRetryAt : Nat)
  | exhausted (attempts : Nat) (lastError : String)
  | failed (lastError : String)
  deriving DecidableEq

structure RelayResult where
  key : MessageKey
  delivered : Bool
  resolved : Bool
  alreadyDelivered : Bool
  dstTxHash : Option String
  error : Option RelayError
  deriving DecidableEq

/-! ## Dead letters -/

structure DeadLetterEntry where
  key : MessageKey
  pending : PendingMessage
  attempts : Nat
  lastError : String
  deriving DecidableEq

/-- The entries of the map, in the order of their insertion. -/
abbrev DeadLetterStore := List DeadLetterEntry

namespace DeadLetterStore

def has (store : DeadLetterStore) (key : MessageKey) : Bool := store.any fun entry => entry.key == key

def add (store : DeadLetterStore) (entry : DeadLetterEntry) : DeadLetterStore :=
  if store.has entry.key then store.map fun old => if old.key = entry.key then entry else old
  else store ++ [entry]

def discard (store : DeadLetterStore) (key : MessageKey) : DeadLetterStore :=
  store.filter fun entry => entry.key ≠ key

theorem has_iff {store : DeadLetterStore} {key : MessageKey} :
    store.has key = true ↔ ∃ entry ∈ store, entry.key = key := by
  simp [has]

/-- `add` is only called for keys that are not there. -/
theorem add_new {store : DeadLetterStore} {entry : DeadLetterEntry}
    (absent : store.has entry.key = false) : store.add entry = store ++ [entry] := by
  simp [add, absent]

theorem has_append {store : DeadLetterStore} {entry : DeadLetterEntry} {key : MessageKey} :
    DeadLetterStore.has (store ++ [entry]) key = true ↔ store.has key = true ∨ entry.key = key := by
  simp [has]

theorem has_discard {store : DeadLetterStore} {discarded key : MessageKey} :
    (store.discard discarded).has key = true ↔ store.has key = true ∧ key ≠ discarded := by
  rw [has_iff, has_iff]
  unfold discard
  constructor
  · rintro ⟨entry, member, named⟩
    obtain ⟨there, other⟩ := List.mem_filter.mp member
    exact ⟨⟨entry, there, named⟩, by simpa [named] using other⟩
  · rintro ⟨⟨entry, there, named⟩, other⟩
    exact ⟨entry, List.mem_filter.mpr ⟨there, by simpa [named] using other⟩, named⟩

theorem discard_subset (store : DeadLetterStore) (key : MessageKey) : store.discard key ⊆ store :=
  fun _ member => (List.mem_filter.mp member).1

end DeadLetterStore

/-! ## Reorgs -/

structure BlockRecord where
  number : Nat
  hash : Bytes32
  parentHash : Bytes32
  deriving DecidableEq

/-- The record for `number - 1`, if there is one. -/
def parentRecord (blockWindow : List BlockRecord) (number : Nat) : Option BlockRecord :=
  blockWindow.find? fun block => block.number + 1 == number

/-- The walk from the record of block `number`, whose parent hash is given, back to the first
    record that its successor still points to. -/
def walkBack (blockWindow : List BlockRecord) (startBlock head : Nat) :
    (number : Nat) → (parentHash : Bytes32) → (depth : Nat) → Nat
  | 0, _, depth => depth
  | number + 1, parentHash, depth =>
      if startBlock < number + 1 then
        match parentRecord blockWindow (number + 1) with
        | none => depth
        | some ancestor =>
            if ancestor.hash = parentHash then head - (number + 1)
            else walkBack blockWindow startBlock head number ancestor.parentHash (depth + 1)
      else depth

/-- The depth of the reorg that the parent hash of the head gives away, 0 where there is none. -/
def detectReorg (blockWindow : List BlockRecord) (startBlock head : Nat) (parentHash : Bytes32) :
    Nat :=
  match parentRecord blockWindow head with
  | none => 0
  | some prev =>
      if prev.hash = parentHash then 0
      else walkBack blockWindow startBlock head prev.number prev.parentHash 1

/-- A block that is reported again replaces its record; the oldest record makes room. -/
def recordBlock (confirmations : Nat) (blockWindow : List BlockRecord) (block : BlockRecord) :
    List BlockRecord :=
  let limit := max (confirmations + 10) 20
  let replaced := blockWindow.eraseP (fun old => old.number == block.number) ++ [block]
  if limit < replaced.length then replaced.tail else replaced

def recordHeaders (confirmations : Nat) (blockWindow : List BlockRecord)
    (blockHeaders : Option (List BlockRecord)) (head : BlockRecord) : List BlockRecord :=
  recordBlock confirmations
    ((blockHeaders.getD []).foldl (recordBlock confirmations) blockWindow) head

/-! ## Memory -/

structure RetryPolicy where
  maxAttempts : Nat
  baseBackoffMs : Nat

structure Config where
  confirmations : Nat
  startBlock : Nat
  retry : RetryPolicy

structure MessageRetryState where
  attempts : Nat
  nextRetryAt : Nat

/-- What is lost when the process ends. -/
structure Memory where
  cursor : Nat
  attempts : MessageKey → Option MessageRetryState
  blockWindow : List BlockRecord
  deadLetter : DeadLetterStore

/-- A relayer that has just been constructed and has resumed from its files. -/
def Memory.resume (config : Config) (checkpoint : Option Nat) (deadLetterFile : DeadLetterStore) :
    Memory where
  cursor := checkpoint.getD config.startBlock
  attempts := fun _ => none
  blockWindow := []
  deadLetter := deadLetterFile

end Perihelion.Relayer

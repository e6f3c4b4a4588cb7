import Perihelion.Relayer.State

/-! # One tick

`tick` polls the watcher, looks for a reorg, relays what is confirmed and moves the cursor past
what is resolved.  It awaits the watcher, the destination and the two stores in turn; what it
does between two awaits is one function here.
-/

namespace Perihelion.Relayer

open BigEndian

/-- What `watcher.poll` resolves to. -/
structure Poll where
  messages : List PendingMessage
  head : Nat
  headHash : Option Bytes32
  parentHash : Option Bytes32
  blockHeaders : Option (List BlockRecord)

/-- Where `tick` has got to. -/
inductive Phase where
  | idle
  /-- In the loop over the confirmed messages. -/
  | relaying (polled : List PendingMessage) (confirmedHead : Nat)
      (remaining : List PendingMessage) (results : List RelayResult)
  /-- Waiting for `checkpoint.save`. -/
  | saving
  /-- Waiting for `deadLetter.persist`. -/
  | persisting
  deriving DecidableEq

/-! ## The answer of the watcher -/

/-- The depth of the reorg, where it makes the tick set the cursor back. -/
def reorgDepth (config : Config) (memory : Memory) (poll : Poll) : Option Nat :=
  match poll.headHash, poll.parentHash with
  | some _, some parentHash =>
      let reorgDepth := detectReorg memory.blockWindow config.startBlock poll.head parentHash
      if 0 < reorgDepth then
        let isLocalRollback := poll.head = memory.cursor ∧ 0 < poll.messages.length
        if config.confirmations < reorgDepth ∧ ¬ isLocalRollback then none
        else some reorgDepth
      else none
  | _, _ => none

/-- The headers are recorded with and without a reorg. -/
def Memory.record (config : Config) (memory : Memory) (poll : Poll) : Memory :=
  match poll.headHash, poll.parentHash with
  | some headHash, some parentHash =>
      { memory with
        blockWindow := recordHeaders config.confirmations memory.blockWindow poll.blockHeaders
          ⟨poll.head, headHash, parentHash⟩ }
  | _, _ => memory

def confirmedHead (config : Config) (head : Nat) : Nat := head - config.confirmations

/-- A message that is no longer observed starts with a fresh retry budget. -/
def Memory.prune (memory : Memory) (messages : List PendingMessage) : Memory :=
  { memory with
    attempts := fun key =>
      if messages.any fun pending => pending.key == key then memory.attempts key else none }

def onPoll (config : Config) (memory : Memory) (poll : Poll) : Memory × Phase :=
  match reorgDepth config memory poll with
  | some reorgDepth =>
      ({ memory.record config poll with cursor := max config.startBlock (poll.head - reorgDepth) },
        .idle)
  | none =>
      let final := confirmedHead config poll.head
      let confirmed := poll.messages.filter fun pending => pending.srcBlock ≤ final
      ((memory.record config poll).prune poll.messages, .relaying confirmed final confirmed [])

/-! ## One message -/

/-- What `isDelivered` and then `deliver` come to; a `FatalError` ends the tick. -/
inductive Reply where
  | alreadyDelivered
  | delivered (dstTxHash : String)
  | failed (error : String)
  | fatal (error : String)

/-- What an attempt at a message came to.  The destination has been asked each time. -/
inductive Outcome where
  | alreadyDelivered
  | delivered
  | failed
  | deadLettered
  deriving DecidableEq

/-- The memory, the result, and what the attempt came to where there was one. -/
structure Relayed where
  memory : Memory
  result : RelayResult
  outcome : Option Outcome

def Memory.forget (memory : Memory) (key : MessageKey) : Memory :=
  { memory with attempts := Function.update memory.attempts key none }

def pendingRetry (key : MessageKey) (error : RelayError) : RelayResult :=
  { key, delivered := false, resolved := false, alreadyDelivered := false, dstTxHash := none,
    error := some error }

/-- `now` is the clock before the destination is asked, `failedAt` the one after it has failed. -/
def relayOne (config : Config) (memory : Memory) (pending : PendingMessage) (reply : Reply)
    (now failedAt : Nat) : Option Relayed :=
  let key := pending.key
  if memory.deadLetter.has key then
    some ⟨memory, { pendingRetry key .deadLettered with resolved := true }, none⟩
  else
    match (memory.attempts key).filter fun retryState => now < retryState.nextRetryAt with
    | some retryState => some ⟨memory, pendingRetry key (.deferred retryState.nextRetryAt), none⟩
    | none =>
        match reply with
        | .alreadyDelivered => some
            { memory := memory.forget key
              result := { key, delivered := false, resolved := true, alreadyDelivered := true,
                          dstTxHash := none, error := none }
              outcome := some .alreadyDelivered }
        | .delivered dstTxHash => some
            { memory := memory.forget key
              result := { key, delivered := true, resolved := true, alreadyDelivered := false,
                          dstTxHash := some dstTxHash, error := none }
              outcome := some .delivered }
        | .fatal _ => none
        | .failed error =>
            let attempt := ((memory.attempts key).map MessageRetryState.attempts).getD 0 + 1
            let backoff := config.retry.baseBackoffMs * 2 ^ (attempt - 1)
            if config.retry.maxAttempts ≤ attempt then some
              { memory := { memory.forget key with
                  deadLetter := memory.deadLetter.add ⟨key, pending, attempt, error⟩ }
                result := { pendingRetry key (.exhausted attempt error) with resolved := true }
                outcome := some .deadLettered }
            else some
              { memory := { memory with
                  attempts := Function.update memory.attempts key
                    (some ⟨attempt, failedAt + backoff⟩) }
                result := pendingRetry key (.failed error)
                outcome := some .failed }

/-! ## The cursor -/

/-- `resultByKey`: a later result of the same key replaces an earlier one. -/
def resultByKey (results : List RelayResult) (key : MessageKey) : Option RelayResult :=
  results.reverse.find? fun result => result.key == key

/-- Infinity where all is resolved. -/
def lowestUnresolved (polled : List PendingMessage) (results : List RelayResult) : Option Nat :=
  ((polled.filter fun pending => (resultByKey results pending.key).any fun result =>
    !result.resolved).map PendingMessage.srcBlock).min?

def nextCursor (polled : List PendingMessage) (confirmedHead : Nat) (results : List RelayResult) :
    Nat :=
  match lowestUnresolved polled results with
  | none => confirmedHead + 1
  | some lowest => min (confirmedHead + 1) lowest

def advanceCursor (memory : Memory) (polled : List PendingMessage) (confirmedHead : Nat)
    (results : List RelayResult) : Memory :=
  { memory with cursor := max memory.cursor (nextCursor polled confirmedHead results) }

end Perihelion.Relayer

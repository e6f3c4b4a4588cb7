import Perihelion.Relayer.Machine
import Perihelion.Lib.Frontier

/-! # What each step does -/

namespace Perihelion.Relayer

open BigEndian Transition

/-! ## One message -/

/-- The ways a message leaves `relayOne`. -/
inductive RelayStep (memory : Memory) (pending : PendingMessage) (reply : Reply) : Relayed → Prop
  | dead (result) (buried : memory.deadLetter.has pending.key = true)
      (keyed : result.key = pending.key) (resolved : result.resolved = true) :
      RelayStep memory pending reply ⟨memory, result, none⟩
  | deferred (result retryState) (live : memory.deadLetter.has pending.key = false)
      (waiting : memory.attempts pending.key = some retryState)
      (keyed : result.key = pending.key) (unresolved : result.resolved = false) :
      RelayStep memory pending reply ⟨memory, result, none⟩
  | found (result) (live : memory.deadLetter.has pending.key = false)
      (replied : reply = .alreadyDelivered)
      (keyed : result.key = pending.key) (resolved : result.resolved = true) :
      RelayStep memory pending reply ⟨memory.forget pending.key, result, some .alreadyDelivered⟩
  | delivered (result) (live : memory.deadLetter.has pending.key = false)
      (keyed : result.key = pending.key) (resolved : result.resolved = true) :
      RelayStep memory pending reply ⟨memory.forget pending.key, result, some .delivered⟩
  | failed (result retryState) (live : memory.deadLetter.has pending.key = false)
      (keyed : result.key = pending.key) (unresolved : result.resolved = false) :
      RelayStep memory pending reply
        ⟨{ memory with attempts := Function.update memory.attempts pending.key (some retryState) },
          result, some .failed⟩
  | exhausted (result entry) (live : memory.deadLetter.has pending.key = false)
      (named : entry.key = pending.key) (about : entry.pending = pending)
      (keyed : result.key = pending.key) (resolved : result.resolved = true) :
      RelayStep memory pending reply
        ⟨{ memory.forget pending.key with deadLetter := memory.deadLetter ++ [entry] }, result,
          some .deadLettered⟩

theorem relayOne_step {config : Config} {memory : Memory} {pending : PendingMessage}
    {reply : Reply} {now failedAt : Nat} {relayed : Relayed}
    (ran : relayOne config memory pending reply now failedAt = some relayed) :
    RelayStep memory pending reply relayed := by
  unfold relayOne at ran
  dsimp only at ran
  split at ran
  · rename_i buried
    cases ran
    exact .dead _ buried rfl rfl
  · rename_i live
    have live : memory.deadLetter.has pending.key = false := Bool.eq_false_of_not_eq_true live
    split at ran
    · rename_i retryState waiting
      cases ran
      exact .deferred _ retryState live (Option.filter_eq_some_iff.mp waiting).1 rfl rfl
    · cases reply with
      | alreadyDelivered =>
          cases ran
          exact .found _ live rfl rfl rfl
      | delivered dstTxHash =>
          cases ran
          exact .delivered _ live rfl rfl
      | fatal error => cases ran
      | failed error =>
          dsimp only at ran
          split at ran
          · cases ran
            rw [DeadLetterStore.add_new live]
            exact .exhausted _ _ live rfl rfl rfl rfl
          · cases ran
            exact .failed _ _ live rfl rfl

theorem RelayStep.keyed {memory : Memory} {pending : PendingMessage} {reply : Reply}
    {relayed : Relayed} (step : RelayStep memory pending reply relayed) :
    relayed.result.key = pending.key := by
  cases step with
  | dead _ _ keyed | deferred _ _ _ _ keyed | found _ _ _ keyed | delivered _ _ keyed
  | failed _ _ _ keyed | exhausted _ _ _ _ _ keyed => exact keyed

/-- The cursor and the window are none of its business. -/
theorem RelayStep.cursor {memory : Memory} {pending : PendingMessage} {reply : Reply}
    {relayed : Relayed} (step : RelayStep memory pending reply relayed) :
    relayed.memory.cursor = memory.cursor := by
  cases step <;> rfl

/-! ## The cursor -/

theorem resultByKey_mem {results : List RelayResult} {key : MessageKey}
    (given : ∃ result ∈ results, result.key = key) :
    ∃ result ∈ results, resultByKey results key = some result := by
  cases found : resultByKey results key with
  | none =>
      obtain ⟨result, member, same⟩ := given
      rw [resultByKey, List.find?_eq_none] at found
      exact absurd (beq_iff_eq.mpr same) (found result (List.mem_reverse.mpr member))
  | some result => exact ⟨result, List.mem_reverse.mp (List.mem_of_find?_eq_some found), rfl⟩

theorem resultByKey_key {results : List RelayResult} {key : MessageKey} {result : RelayResult}
    (found : resultByKey results key = some result) : result.key = key :=
  beq_iff_eq.mp (List.find?_some (p := fun result : RelayResult => result.key == key) found)

theorem nextCursor_le (polled : List PendingMessage) (confirmedHead : Nat)
    (results : List RelayResult) :
    nextCursor polled confirmedHead results ≤ confirmedHead + 1 := by
  unfold nextCursor
  split <;> omega

/-- The cursor passes no message whose result is unresolved. -/
theorem resolved_of_lt_nextCursor {polled : List PendingMessage} {confirmedHead : Nat}
    {results : List RelayResult} {pending : PendingMessage} {result : RelayResult}
    (member : pending ∈ polled) (found : resultByKey results pending.key = some result)
    (passed : pending.srcBlock < nextCursor polled confirmedHead results) :
    result.resolved = true := by
  cases resolved : result.resolved with
  | true => rfl
  | false =>
      have pins : pending.srcBlock ∈ (polled.filter fun pending =>
          (resultByKey results pending.key).any fun result => !result.resolved).map
            PendingMessage.srcBlock := by
        apply List.mem_map_of_mem
        simp [member, found, resolved]
      unfold nextCursor at passed
      split at passed
      · rename_i unpinned
        rw [lowestUnresolved, List.min?_eq_none_iff] at unpinned
        rw [unpinned] at pins
        cases pins
      · rename_i lowest least
        have below := (List.min?_eq_some_iff.mp least).2 _ pins
        omega

/-! ## The whole -/

inductive Moves (config : Config) (w : World) : Input → World → Prop
  | rolledBack (response depth) (idle : w.phase = .idle)
      (reorg : reorgDepth config w.memory response = some depth) :
      Moves config w (.poll response)
        { w with
          memory := { w.memory.record config response with
            cursor := max config.startBlock (response.head - depth) }
          phase := .idle }
  | polled (response) (idle : w.phase = .idle)
      (answers : w.chain.Answers w.memory.cursor response)
      (steady : reorgDepth config w.memory response = none) :
      Moves config w (.poll response)
        { w with
          memory := (w.memory.record config response).prune response.messages
          phase := .relaying
            (response.messages.filter fun pending =>
              pending.srcBlock ≤ confirmedHead config response.head)
            (confirmedHead config response.head)
            (response.messages.filter fun pending =>
              pending.srcBlock ≤ confirmedHead config response.head) [] }
  | relayed (reply now failedAt polled confirmedHead pending rest results relayed)
      (loop : w.phase = .relaying polled confirmedHead (pending :: rest) results)
      (truthful : reply.truthful pending.key w.arrived = true)
      (step : RelayStep w.memory pending reply relayed) :
      Moves config w (.relay reply now failedAt)
        (w.after polled confirmedHead pending rest results relayed)
  | aborted (reply now failedAt) : Moves config w (.relay reply now failedAt) { w with phase := .idle }
  | finished (polled confirmedHead results)
      (loop : w.phase = .relaying polled confirmedHead [] results) :
      Moves config w .finish
        { w with memory := advanceCursor w.memory polled confirmedHead results, phase := .saving }
  | saved (saving : w.phase = .saving) :
      Moves config w .save { w with checkpoint := some w.memory.cursor, phase := .persisting }
  | unsaved : Moves config w .saveFails { w with phase := .idle }
  | persisted (persisting : w.phase = .persisting) :
      Moves config w .persist { w with deadLetterFile := w.memory.deadLetter, phase := .idle }
  | unpersisted : Moves config w .persistFails { w with phase := .idle }
  | crashed :
      Moves config w .crash
        { w with memory := Memory.resume config w.checkpoint w.deadLetterFile, phase := .idle }
  | arrived (key) : Moves config w (.arrive key) { w with arrived := key :: w.arrived }
  | chain (chain) (agrees : w.chain.Agrees chain w.final) :
      Moves config w (.chain chain)
        { w with chain, final := max w.final (chain.head - config.confirmations) }
  | drained : Moves config w .drain { w with memory := { w.memory with deadLetter := [] } }
  | discarded (key) :
      Moves config w (.discard key)
        { w with memory := { w.memory with deadLetter := w.memory.deadLetter.discard key } }

theorem poll_moves {config : Config} {w w' : World} {response : Poll}
    (stepped : next config w (.poll response) = some w') : Moves config w (.poll response) w' := by
  unfold next at stepped
  dsimp only at stepped
  split at stepped
  · rename_i idle
    split at stepped
    · rename_i answers
      unfold onPoll at stepped
      cases reorg : reorgDepth config w.memory response with
      | some depth =>
          rw [reorg] at stepped
          cases stepped
          exact .rolledBack response depth idle reorg
      | none =>
          rw [reorg] at stepped
          cases stepped
          exact .polled response idle answers reorg
    · cases stepped
  · cases stepped

theorem relay_moves {config : Config} {w w' : World} {reply : Reply} {now failedAt : Nat}
    (stepped : next config w (.relay reply now failedAt) = some w') :
    Moves config w (.relay reply now failedAt) w' := by
  unfold next at stepped
  dsimp only at stepped
  split at stepped
  · rename_i polled confirmedHead pending rest results loop
    split at stepped
    · rename_i truthful
      split at stepped
      · cases stepped
        exact .aborted reply now failedAt
      · rename_i relayed ran
        cases stepped
        exact .relayed reply now failedAt polled confirmedHead pending rest results relayed loop
          truthful (relayOne_step ran)
    · cases stepped
  · cases stepped

theorem next_moves {config : Config} {w w' : World} {input : Input}
    (stepped : next config w input = some w') : Moves config w input w' := by
  cases input with
  | poll response => exact poll_moves stepped
  | relay reply now failedAt => exact relay_moves stepped
  | finish =>
      unfold next at stepped
      dsimp only at stepped
      split at stepped
      · rename_i polled confirmedHead results loop
        cases stepped
        exact .finished polled confirmedHead results loop
      · cases stepped
  | save =>
      unfold next at stepped
      dsimp only at stepped
      split at stepped
      · rename_i saving
        cases stepped
        exact .saved saving
      · cases stepped
  | saveFails =>
      unfold next at stepped
      dsimp only at stepped
      split at stepped
      · cases stepped
        exact .unsaved
      · cases stepped
  | persist =>
      unfold next at stepped
      dsimp only at stepped
      split at stepped
      · rename_i persisting
        cases stepped
        exact .persisted persisting
      · cases stepped
  | persistFails =>
      unfold next at stepped
      dsimp only at stepped
      split at stepped
      · cases stepped
        exact .unpersisted
      · cases stepped
  | crash =>
      cases stepped
      exact .crashed
  | arrive key =>
      cases stepped
      exact .arrived key
  | chain chain =>
      unfold next at stepped
      dsimp only at stepped
      split at stepped
      · rename_i agrees
        cases stepped
        exact .chain chain agrees
      · cases stepped
  | drain =>
      cases stepped
      exact .drained
  | discard key =>
      cases stepped
      exact .discarded key

end Perihelion.Relayer

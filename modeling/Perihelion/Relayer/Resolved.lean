import Perihelion.Relayer.Coverage

/-! # The messages behind the cursor

A message is resolved by an attempt that ends in any other way than a failure.  As long as no
rollback goes forward, every message behind the cursor has been.
-/

namespace Perihelion.Relayer

open BigEndian Transition

/-- Delivered, found delivered, or dead-lettered. -/
def World.Resolved (w : World) (key : MessageKey) : Prop :=
  ∃ attempt ∈ w.trace, attempt.1 = key ∧ attempt.2 ≠ .failed

instance (w : World) (key : MessageKey) : Decidable (w.Resolved key) :=
  inferInstanceAs (Decidable (∃ attempt ∈ w.trace, attempt.1 = key ∧ attempt.2 ≠ .failed))

variable {config : Config} {w w' : World}

theorem trace_kept {input : Input} (stepped : next config w input = some w') :
    w.trace <+: w'.trace := by
  cases next_moves stepped with
  | relayed => exact List.prefix_append _ _
  | rolledBack | polled | aborted | finished | saved | unsaved | persisted | unpersisted
  | crashed | arrived | chain | drained | discarded => exact List.prefix_refl _

theorem World.Resolved.kept {input : Input} {key : MessageKey} (resolved : w.Resolved key)
    (stepped : next config w input = some w') : w'.Resolved key := by
  obtain ⟨attempt, made, keyed⟩ := resolved
  exact ⟨attempt, (trace_kept stepped).subset made, keyed⟩

/-- The attempt that has just been made is the last of the trace. -/
theorem World.after_trace {polled confirmedHead pending rest results relayed} {outcome : Outcome}
    (came : relayed.outcome = some outcome) :
    (pending.key, outcome) ∈
      (w.after polled confirmedHead pending rest results relayed).trace := by
  apply List.mem_append_right
  simp [came]

/-- A result that lets the cursor pass comes of an attempt, now or when the message was
    dead-lettered. -/
theorem RelayStep.settles {polled confirmedHead pending rest results relayed reply}
    (progress : Progress config w) (step : RelayStep w.memory pending reply relayed)
    (resolved : relayed.result.resolved = true) :
    (w.after polled confirmedHead pending rest results relayed).Resolved pending.key := by
  cases step with
  | dead _ buried =>
      obtain ⟨entry, member, named⟩ := DeadLetterStore.has_iff.mp buried
      have recorded := (progress.letters entry member).recorded
      exact ⟨(entry.key, .deadLettered), List.mem_append_left _ recorded, named, by simp⟩
  | deferred _ _ _ _ _ unresolved | failed _ _ _ _ unresolved =>
      exact absurd resolved (by simp [unresolved])
  | found => exact ⟨_, World.after_trace rfl, rfl, by simp⟩
  | delivered => exact ⟨_, World.after_trace rfl, rfl, by simp⟩
  | exhausted => exact ⟨_, World.after_trace rfl, rfl, by simp⟩

theorem covers_resolved (reach : ((system config).under (Backward config)).Reachable w) :
    Covers World.Resolved config w ∧ Settled World.Resolved w := by
  refine reach.invariant (P := fun w => Covers World.Resolved config w ∧ Settled World.Resolved w)
    ?_ ?_
  · intro w given
    obtain ⟨chain, arrived, rfl⟩ := given
    exact ⟨covers_start config chain arrived, by rintro _ _ _ _ ⟨⟩⟩
  · rintro w input w' reach ⟨covers, settled⟩ ⟨stepped, backward⟩
    have progress := progress_of_reachable reach.of_under
    have mono : ∀ key, w.Resolved key → w'.Resolved key := fun key resolved => resolved.kept stepped
    constructor
    · exact covers.step progress settled stepped backward mono
    · exact settled.step stepped mono fun _ _ _ _ _ _ _ _ _ step resolved =>
        step.settles progress resolved

/-- Every message of the canonical chain that the cursor has passed is resolved. -/
theorem passed_resolved (reach : ((system config).under (Backward config)).Reachable w)
    {pending : PendingMessage} (given : pending ∈ w.chain.messages)
    (after : config.startBlock ≤ pending.srcBlock) (before : pending.srcBlock < w.memory.cursor) :
    w.Resolved pending.key :=
  (covers_resolved reach).1.cursor pending given after before

/-! ## Samples -/

def samplePending (srcBlock : Nat) : PendingMessage where
  key :=
    { srcEid := 30101
      dstEid := 30600
      intentHash := BitVec.ofNat 256 srcBlock
      messageType := .fillInstruction
      nonce := srcBlock }
  srcBlock

/-- Two messages, in blocks 5 and 9.  The branches part after block 9. -/
def sampleChain (branch head : Nat) (long : 9 ≤ head) : Chain where
  head
  hash number := if number ≤ 9 then BitVec.ofNat 256 number else BitVec.ofNat 256 (branch + number)
  messages := [samplePending 5, samplePending 9]
  emitted := by
    intro pending member
    simp only [List.mem_cons, List.not_mem_nil, or_false] at member
    rcases member with rfl | rfl
    · exact Nat.le_trans (by decide) long
    · exact long

/-- What a watcher answers that has caught up with the head. -/
def samplePoll (chain : Chain) (fromBlock : Nat) : Poll where
  messages := chain.messages.filter fun pending => fromBlock ≤ pending.srcBlock
  head := chain.head
  headHash := some (chain.hash chain.head)
  parentHash := some (chain.hash (chain.head - 1))
  blockHeaders := none

def sampleConfig : Config where
  confirmations := 2
  startBlock := 0
  retry := { maxAttempts := 1, baseBackoffMs := 1000 }

def sampleStart : World := World.start sampleConfig (sampleChain 0 10 (by decide)) []

theorem sampleStart_init : (system sampleConfig).init sampleStart := ⟨_, _, rfl⟩

instance (config : Config) (w : World) (input : Input) : Decidable (Backward config w input) :=
  match input with
  | .poll response => inferInstanceAs
      (Decidable (∀ depth ∈ reorgDepth config w.memory response,
        response.head ≤ w.memory.cursor + depth))
  | .relay .. | .finish | .save | .saveFails | .persist | .persistFails | .crash | .arrive _
  | .chain _ | .drain | .discard _ => isTrue trivial

/-- A whole tick, with a poll from block 0 at head 10. -/
def sampleTick (reply : Reply) : List Input :=
  [.poll (samplePoll (sampleChain 0 10 (by decide)) 0), .relay reply 0 0, .finish, .save, .persist]

theorem passed_resolved_sample :
    ∃ w, ((system sampleConfig).under (Backward sampleConfig)).Reachable w ∧
      w.memory.cursor = 9 ∧ samplePending 5 ∈ w.chain.messages ∧
      w.Resolved (samplePending 5).key := by
  have ran : ((replayUnder sampleConfig (Backward sampleConfig) sampleStart
      (sampleTick (.delivered "0x01"))).map fun w => (w.memory.cursor, w.chain.messages)) = some (9, [samplePending 5, samplePending 9]) := by
    decide +kernel
  obtain ⟨w, replayed, seen⟩ := Option.map_eq_some_iff.mp ran
  obtain ⟨cursor, messages⟩ := Prod.mk.inj seen
  have reach : ((system sampleConfig).under (Backward sampleConfig)).Reachable w := by
    refine System.Reachable.later (.init sampleStart_init) ?_
    exact later_of_replayUnder replayed
  have given : samplePending 5 ∈ w.chain.messages := by simp [messages]
  exact ⟨w, reach, cursor, given,
    passed_resolved reach given (by decide) (by rw [cursor]; decide)⟩

/-- Block 10 is replaced while the cursor is still at 9, and the message in block 9 is passed over. -/
theorem forward_skips :
    ¬ ∀ w, (system sampleConfig).Reachable w → ∀ pending ∈ w.chain.messages,
      sampleConfig.startBlock ≤ pending.srcBlock → pending.srcBlock < w.memory.cursor →
        w.Resolved pending.key := by
  intro claimed
  have ran : ((replay sampleConfig sampleStart (sampleTick (.delivered "0x01") ++
      [.chain (sampleChain 1000 11 (by decide)),
        .poll (samplePoll (sampleChain 1000 11 (by decide)) 9)])).map fun w =>
      (w.memory.cursor, w.chain.messages, decide (w.Resolved (samplePending 9).key))) =
        some (10, [samplePending 5, samplePending 9], false) := by
    decide +kernel
  obtain ⟨w, replayed, seen⟩ := Option.map_eq_some_iff.mp ran
  obtain ⟨cursor, rest⟩ := Prod.mk.inj seen
  obtain ⟨messages, unresolved⟩ := Prod.mk.inj rest
  have reach := (System.Reachable.init sampleStart_init).later (later_of_replay replayed)
  have given : samplePending 9 ∈ w.chain.messages := by simp [messages]
  have resolved := claimed w reach _ given (by decide) (by rw [cursor]; decide)
  exact absurd resolved (of_decide_eq_false unresolved)

end Perihelion.Relayer

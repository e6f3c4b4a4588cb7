import Perihelion.Relayer.Resolved

/-! # Restarts

The tick saves the cursor first and the dead letters after it.  A process that is started anew
has the messages behind its cursor delivered or dead-lettered if the file of the dead letters
was not behind the one of the cursor.
-/

namespace Perihelion.Relayer

open BigEndian Transition Frontier

/-- Not to be looked for again: on the destination, or waiting for an operator. -/
def World.Accounted (w : World) (key : MessageKey) : Prop :=
  key ∈ w.arrived ∨ w.memory.deadLetter.has key = true

/-- What is dead-lettered below the saved cursor is in the file. -/
def World.Filed (config : Config) (w : World) : Prop :=
  ∀ pending ∈ w.chain.messages, pending.srcBlock < w.checkpoint.getD config.startBlock →
    w.memory.deadLetter.has pending.key = true → w.deadLetterFile.has pending.key = true

/-- A crash finds the dead letters filed, and an operator takes out what has arrived. -/
def Careful (config : Config) (w : World) : Input → Prop
  | .crash => w.Filed config
  | .drain => ∀ entry ∈ w.memory.deadLetter, entry.key ∈ w.arrived
  | .discard key => w.memory.deadLetter.has key = true → key ∈ w.arrived
  | input => Backward config w input

variable {config : Config} {w w' : World}

theorem Careful.backward {input : Input} (careful : Careful config w input) :
    Backward config w input := by
  cases input with
  | crash | drain | discard => trivial
  | poll | relay | finish | save | saveFails | persist | persistFails | arrive | chain =>
      exact careful

theorem RelayStep.has_kept {memory : Memory} {pending : PendingMessage} {reply : Reply}
    {relayed : Relayed} (step : RelayStep memory pending reply relayed) {key : MessageKey}
    (given : memory.deadLetter.has key = true) : relayed.memory.deadLetter.has key = true := by
  rcases step.letters with same | ⟨entry, grown, _⟩
  · exact same ▸ given
  · rw [grown]
    exact DeadLetterStore.has_append.mpr (Or.inl given)

theorem World.after_arrived {polled confirmedHead pending rest results relayed} {key : MessageKey}
    (given : key ∈ w.arrived) :
    key ∈ (w.after polled confirmedHead pending rest results relayed).arrived := by
  unfold World.after
  dsimp only
  split
  · exact List.mem_cons_of_mem _ given
  · exact given

/-- Only a crash loses sight of a message. -/
theorem World.Accounted.kept {input : Input} {key : MessageKey} (accounted : w.Accounted key)
    (stepped : next config w input = some w') (careful : Careful config w input)
    (alive : input ≠ .crash) : w'.Accounted key := by
  cases next_moves stepped with
  | rolledBack response | polled response =>
      rcases accounted with arrived | dead
      · exact Or.inl arrived
      · exact Or.inr ((Memory.record_letters config w.memory response).1 ▸ dead)
  | relayed reply now failedAt polled confirmedHead pending rest results relayed loop truthful step =>
      rcases accounted with arrived | dead
      · exact Or.inl (World.after_arrived arrived)
      · exact Or.inr (step.has_kept dead)
  | aborted | finished | saved | unsaved | persisted | unpersisted | chain => exact accounted
  | crashed => exact absurd rfl alive
  | arrived other =>
      rcases accounted with arrived | dead
      · exact Or.inl (List.mem_cons_of_mem _ arrived)
      · exact Or.inr dead
  | drained =>
      rcases accounted with arrived | dead
      · exact Or.inl arrived
      · obtain ⟨entry, member, rfl⟩ := DeadLetterStore.has_iff.mp dead
        exact Or.inl (careful entry member)
  | discarded other =>
      rcases accounted with arrived | dead
      · exact Or.inl arrived
      · by_cases same : key = other
        · exact Or.inl (same ▸ careful (same ▸ dead))
        · exact Or.inr (DeadLetterStore.has_discard.mpr ⟨dead, same⟩)

theorem RelayStep.accounts {polled confirmedHead pending rest results relayed reply}
    (truthful : reply.truthful pending.key w.arrived = true)
    (step : RelayStep w.memory pending reply relayed)
    (resolved : relayed.result.resolved = true) :
    (w.after polled confirmedHead pending rest results relayed).Accounted pending.key := by
  cases step with
  | dead _ buried => exact Or.inr buried
  | deferred _ _ _ _ _ unresolved | failed _ _ _ _ unresolved =>
      exact absurd resolved (by simp [unresolved])
  | found _ _ replied =>
      rw [replied] at truthful
      exact Or.inl (World.after_arrived (List.contains_iff_mem.mp truthful))
  | delivered => exact Or.inl List.mem_cons_self
  | exhausted _ _ _ named =>
      exact Or.inr (DeadLetterStore.has_append.mpr (Or.inr named))

/-- After a crash the saved cursor is the cursor, and the file tells what is dead-lettered. -/
theorem Covers.crashed (covers : Covers World.Accounted config w) (filed : w.Filed config)
    (stepped : next config w .crash = some w') : Covers World.Accounted config w' := by
  cases stepped
  have filedDone : Covered (· ∈ w.chain.messages) PendingMessage.srcBlock
      (fun pending => pending.key ∈ w.arrived ∨ w.deadLetterFile.has pending.key = true)
      config.startBlock (w.checkpoint.getD config.startBlock) := by
    intro pending given after before
    rcases covers.saved pending given after before with arrived | dead
    · exact Or.inl arrived
    · exact Or.inr (filed pending given before dead)
  exact ⟨filedDone, filedDone, covers.savedWithin, covers.savedWithin⟩

theorem covers_accounted (reach : ((system config).under (Careful config)).Reachable w) :
    Covers World.Accounted config w ∧ Settled World.Accounted w := by
  refine reach.invariant
    (P := fun w => Covers World.Accounted config w ∧ Settled World.Accounted w) ?_ ?_
  · intro w given
    obtain ⟨chain, arrived, rfl⟩ := given
    exact ⟨covers_start config chain arrived, by rintro _ _ _ _ ⟨⟩⟩
  · rintro w input w' reach ⟨covers, settled⟩ ⟨stepped, careful⟩
    have progress := progress_of_reachable reach.of_under
    by_cases crash : input = .crash
    · subst crash
      refine ⟨covers.crashed careful stepped, ?_⟩
      cases stepped
      rintro _ _ _ _ ⟨⟩
    · have mono : ∀ key, w.Accounted key → w'.Accounted key :=
        fun key accounted => accounted.kept stepped careful crash
      constructor
      · exact covers.step progress settled stepped careful.backward mono
      · exact settled.step stepped mono fun _ _ _ _ _ _ _ _ truthful step resolved =>
          step.accounts truthful resolved

/-- A restarted relayer has nothing behind its cursor that nobody would look for. -/
theorem restart_accounted (reach : ((system config).under (Careful config)).Reachable w)
    (restarted : ((system config).under (Careful config)).step w .crash w')
    {pending : PendingMessage} (given : pending ∈ w'.chain.messages)
    (after : config.startBlock ≤ pending.srcBlock) (before : pending.srcBlock < w'.memory.cursor) :
    pending.key ∈ w'.arrived ∨ w'.memory.deadLetter.has pending.key = true :=
  (covers_accounted (.step reach restarted)).1.cursor pending given after before

instance (config : Config) (w : World) : Decidable (w.Filed config) :=
  inferInstanceAs (Decidable (∀ pending ∈ w.chain.messages,
    pending.srcBlock < w.checkpoint.getD config.startBlock →
      w.memory.deadLetter.has pending.key = true → w.deadLetterFile.has pending.key = true))

instance (config : Config) (w : World) (input : Input) : Decidable (Careful config w input) :=
  match input with
  | .crash => inferInstanceAs (Decidable (w.Filed config))
  | .drain => inferInstanceAs (Decidable (∀ entry ∈ w.memory.deadLetter, entry.key ∈ w.arrived))
  | .discard key =>
      inferInstanceAs (Decidable (w.memory.deadLetter.has key = true → key ∈ w.arrived))
  | .poll response => inferInstanceAs (Decidable (Backward config w (.poll response)))
  | .relay .. | .finish | .save | .saveFails | .persist | .persistFails | .arrive _ | .chain _ =>
      isTrue trivial

theorem restart_accounted_sample :
    ∃ w w', ((system sampleConfig).under (Careful sampleConfig)).Reachable w ∧
      ((system sampleConfig).under (Careful sampleConfig)).step w .crash w' ∧
      w'.memory.cursor = 9 ∧
      ((samplePending 5).key ∈ w'.arrived ∨
        w'.memory.deadLetter.has (samplePending 5).key = true) := by
  have ran : ((replayUnder sampleConfig (Careful sampleConfig) sampleStart
      (sampleTick (.failed "revert"))).map fun w => (w.checkpoint, w.chain.messages, decide (w.Filed sampleConfig))) =
        some (some 9, [samplePending 5, samplePending 9], true) := by
    decide +kernel
  obtain ⟨w, replayed, seen⟩ := Option.map_eq_some_iff.mp ran
  obtain ⟨checkpoint, rest⟩ := Prod.mk.inj seen
  obtain ⟨messages, filed⟩ := Prod.mk.inj rest
  have reach : ((system sampleConfig).under (Careful sampleConfig)).Reachable w := by
    refine System.Reachable.later (.init sampleStart_init) ?_
    exact later_of_replayUnder replayed
  have restarted : ((system sampleConfig).under (Careful sampleConfig)).step w .crash _ :=
    ⟨rfl, of_decide_eq_true filed⟩
  have cursor : (Memory.resume sampleConfig w.checkpoint w.deadLetterFile).cursor = 9 := by
    simp [Memory.resume, checkpoint]
  have given : samplePending 5 ∈ w.chain.messages := by simp [messages]
  exact ⟨w, _, reach, restarted, cursor,
    restart_accounted reach restarted given (by decide) (by rw [cursor]; decide)⟩

/-- The process ends between `checkpoint.save` and `deadLetter.persist`. -/
theorem unfiled_lost :
    ¬ ∀ w w', (system sampleConfig).Reachable w → next sampleConfig w .crash = some w' →
      ∀ pending ∈ w'.chain.messages, sampleConfig.startBlock ≤ pending.srcBlock →
        pending.srcBlock < w'.memory.cursor →
          pending.key ∈ w'.arrived ∨ w'.memory.deadLetter.has pending.key = true := by
  intro claimed
  have ran : ((replay sampleConfig sampleStart ((sampleTick (.failed "revert")).take 4)).map
      fun w => (w.checkpoint, w.chain.messages,
        decide ((samplePending 5).key ∈ w.arrived ∨
          w.deadLetterFile.has (samplePending 5).key = true))) =
        some (some 9, [samplePending 5, samplePending 9], false) := by
    decide +kernel
  obtain ⟨w, replayed, seen⟩ := Option.map_eq_some_iff.mp ran
  obtain ⟨checkpoint, rest⟩ := Prod.mk.inj seen
  obtain ⟨messages, lost⟩ := Prod.mk.inj rest
  have reach := (System.Reachable.init sampleStart_init).later (later_of_replay replayed)
  have cursor : (Memory.resume sampleConfig w.checkpoint w.deadLetterFile).cursor = 9 := by
    simp [Memory.resume, checkpoint]
  have given : samplePending 5 ∈ w.chain.messages := by simp [messages]
  have accounted := claimed w _ reach rfl _ given (by decide) (by rw [cursor]; decide)
  exact absurd accounted (of_decide_eq_false lost)

end Perihelion.Relayer

import Perihelion.Relayer.Resolved

/-! # Drained dead letters

`drain` forgets that a message was dead-lettered, and the message is attempted again when the
watcher returns it again.  The watcher returns what is not behind the cursor, and a dead letter
does not hold the cursor back.
-/

namespace Perihelion.Relayer

open BigEndian Transition

/-- An attempt at the message that is not among the first `past`. -/
def World.AttemptedSince (w : World) (past : Nat) (key : MessageKey) : Prop :=
  ∃ attempt ∈ w.trace.drop past, attempt.1 = key

/-- The confirmed head of a tick that has come to the end of its loop. -/
def Phase.relayed : Phase → Option Nat
  | .relaying _ confirmedHead [] _ => some confirmedHead
  | _ => none

/-- The cursor has not passed the message, and a loop under way has still to come to it. -/
structure Ahead (w : World) (pending : PendingMessage) : Prop where
  cursor : w.memory.cursor ≤ pending.srcBlock
  loop : ∀ polled confirmedHead remaining results,
    w.phase = .relaying polled confirmedHead remaining results →
      pending.srcBlock ≤ confirmedHead → pending ∈ remaining

/-- No reorg sets the cursor past the message, and no restart brings back its dead letter or a
    cursor that has passed it. -/
def Steady (config : Config) (pending : PendingMessage) (w : World) : Input → Prop
  | .poll response =>
      ∀ depth ∈ reorgDepth config w.memory response, response.head ≤ pending.srcBlock + depth
  | .crash => w.deadLetterFile.has pending.key = false ∧
      w.checkpoint.getD config.startBlock ≤ pending.srcBlock
  | _ => True

/-- The next tick that finds the block confirmed attempts the message. -/
structure Awaited (w : World) (pending : PendingMessage) : Prop extends Ahead w pending where
  given : pending ∈ w.chain.messages
  final : pending.srcBlock ≤ w.final
  live : w.memory.deadLetter.has pending.key = false
  fresh : w.memory.attempts pending.key = none

variable {config : Config} {w w' : World} {pending : PendingMessage}

theorem Phase.relayed_iff {phase : Phase} {confirmedHead : Nat} :
    phase.relayed = some confirmedHead ↔
      ∃ polled results, phase = .relaying polled confirmedHead [] results := by
  constructor
  · intro ended
    unfold Phase.relayed at ended
    split at ended
    · cases ended
      exact ⟨_, _, rfl⟩
    · cases ended
  · rintro ⟨polled, results, rfl⟩
    rfl

/-! ## One message -/

/-- Neither dead-lettered nor deferred, a message is attempted. -/
theorem RelayStep.attempted {memory : Memory} {reply : Reply} {relayed : Relayed}
    (step : RelayStep memory pending reply relayed)
    (live : memory.deadLetter.has pending.key = false) (fresh : memory.attempts pending.key = none) :
    ∃ outcome, relayed.outcome = some outcome := by
  cases step with
  | dead _ buried => exact absurd buried (by simp [live])
  | deferred _ _ _ waiting => exact absurd waiting (by simp [fresh])
  | found | delivered | failed | exhausted => exact ⟨_, rfl⟩

/-- What is known of other messages stays. -/
theorem RelayStep.others {memory : Memory} {reply : Reply} {relayed : Relayed}
    (step : RelayStep memory pending reply relayed) {key : MessageKey}
    (other : key ≠ pending.key) :
    relayed.memory.deadLetter.has key = memory.deadLetter.has key ∧
      relayed.memory.attempts key = memory.attempts key := by
  cases step with
  | dead | deferred => exact ⟨rfl, rfl⟩
  | found | delivered | failed => exact ⟨rfl, Function.update_of_ne other _ _⟩
  | exhausted _ entry _ named =>
      refine ⟨?_, Function.update_of_ne other _ _⟩
      have unnamed : entry.key ≠ key := by
        rw [named]
        exact other.symm
      simp [DeadLetterStore.has, unnamed]

/-- Whatever the destination answers, the loop goes on, short of a fatal error. -/
theorem relay_enabled (config : Config) {polled confirmedHead rest results reply}
    (now failedAt : Nat) (loop : w.phase = .relaying polled confirmedHead (pending :: rest) results)
    (truthful : reply.truthful pending.key w.arrived = true)
    (harmless : ∀ error, reply ≠ .fatal error) :
    ∃ relayed, next config w (.relay reply now failedAt) =
      some (w.after polled confirmedHead pending rest results relayed) := by
  have answered : ∃ relayed,
      relayOne config w.memory pending reply now failedAt = some relayed := by
    unfold relayOne
    dsimp only
    split
    · exact ⟨_, rfl⟩
    · split
      · exact ⟨_, rfl⟩
      · cases reply with
        | fatal error => exact absurd rfl (harmless error)
        | alreadyDelivered | delivered => exact ⟨_, rfl⟩
        | failed error =>
            dsimp only
            split
            · exact ⟨_, rfl⟩
            · exact ⟨_, rfl⟩
  obtain ⟨relayed, ran⟩ := answered
  refine ⟨relayed, ?_⟩
  simp only [next, loop, truthful, ran, if_true]

/-- A tick whose poll has succeeded can come to the end of its loop. -/
theorem loop_ends {polled confirmedHead remaining results}
    (loop : w.phase = .relaying polled confirmedHead remaining results) :
    ∃ t, (system config).Later w t ∧ t.phase.relayed = some confirmedHead := by
  induction remaining generalizing w results with
  | nil => exact ⟨w, System.Later.refl w, Phase.relayed_iff.mpr ⟨polled, results, loop⟩⟩
  | cons pending rest ih =>
      have truthful : (Reply.failed "").truthful pending.key w.arrived = true := rfl
      obtain ⟨relayed, stepped⟩ := relay_enabled config 0 0 loop truthful (by rintro _ ⟨⟩)
      obtain ⟨t, run, ended⟩ := ih
        (w := w.after polled confirmedHead pending rest results relayed) rfl
      exact ⟨t, (System.Later.of_step (S := system config) stepped).trans run, ended⟩

/-! ## Runs -/

theorem World.AttemptedSince.kept {input : Input} {past : Nat} {key : MessageKey}
    (attempted : w.AttemptedSince past key) (stepped : next config w input = some w') :
    w'.AttemptedSince past key := by
  obtain ⟨attempt, made, keyed⟩ := attempted
  obtain ⟨added, longer⟩ := trace_kept stepped
  refine ⟨attempt, ?_, keyed⟩
  rw [← longer, List.drop_append]
  exact List.mem_append_left _ made

theorem World.AttemptedSince.made {past : Nat} {key : MessageKey} {outcome : Outcome}
    (before : past ≤ w.trace.length) (came : w'.trace = w.trace ++ [(key, outcome)]) :
    w'.AttemptedSince past key := by
  refine ⟨(key, outcome), ?_, rfl⟩
  rw [came, List.drop_append_of_le_length before]
  exact List.mem_append_right _ List.mem_cons_self

/-- Outside the loop nothing is asked of it. -/
theorem Awaited.outside (awaited : Awaited w pending)
    (cursor : w'.memory.cursor ≤ pending.srcBlock) (chain : w'.chain = w.chain)
    (final : w'.final = w.final) (live : w'.memory.deadLetter.has pending.key = false)
    (fresh : w'.memory.attempts pending.key = none)
    (loop : ∀ polled confirmedHead remaining results,
      w'.phase = .relaying polled confirmedHead remaining results →
        pending.srcBlock ≤ confirmedHead → pending ∈ remaining) : Awaited w' pending where
  cursor := cursor
  loop := loop
  given := chain ▸ awaited.given
  final := final ▸ awaited.final
  live := live
  fresh := fresh

theorem Awaited.polled {response : Poll} (awaited : Awaited w pending)
    (answers : w.chain.Answers w.memory.cursor response) :
    Awaited
      { w with
        memory := (w.memory.record config response).prune response.messages
        phase := .relaying
          (response.messages.filter fun pending =>
            pending.srcBlock ≤ confirmedHead config response.head)
          (confirmedHead config response.head)
          (response.messages.filter fun pending =>
            pending.srcBlock ≤ confirmedHead config response.head) [] } pending := by
  have ahead := awaited.cursor
  obtain ⟨letters, attempts, cursor⟩ := Memory.record_letters config w.memory response
  refine awaited.outside (cursor ▸ ahead) rfl rfl ?live ?fresh ?loop
  case live => exact letters ▸ awaited.live
  case fresh =>
    have fresh := attempts ▸ awaited.fresh
    simp [Memory.prune, fresh]
  case loop =>
    rintro _ _ _ _ ⟨⟩ confirmed
    have seen : pending.srcBlock ≤ response.head := Nat.le_trans confirmed (Nat.sub_le _ _)
    have observed := answers.complete pending awaited.given ahead seen
    exact List.mem_filter.mpr ⟨observed, decide_eq_true confirmed⟩

/-- The loop comes to the message itself or to another one. -/
theorem Awaited.relayed {polled confirmedHead other rest results relayed reply}
    (awaited : Awaited w pending)
    (loop : w.phase = .relaying polled confirmedHead (other :: rest) results)
    (step : RelayStep w.memory other reply relayed) :
    Awaited (w.after polled confirmedHead other rest results relayed) pending ∨
      ∃ outcome, (w.after polled confirmedHead other rest results relayed).trace =
        w.trace ++ [(pending.key, outcome)] := by
  by_cases same : other.key = pending.key
  · obtain ⟨outcome, came⟩ := step.attempted (same ▸ awaited.live) (same ▸ awaited.fresh)
    refine Or.inr ⟨outcome, ?_⟩
    simp [World.after, came, same]
  · have different : pending.key ≠ other.key := fun equal => same equal.symm
    obtain ⟨letters, attempts⟩ := step.others different
    left
    refine awaited.outside (step.cursor ▸ awaited.cursor) rfl rfl ?live ?fresh ?loop
    case live => exact letters.trans awaited.live
    case fresh => exact attempts.trans awaited.fresh
    case loop =>
      rintro _ _ _ _ ⟨⟩ confirmed
      rcases List.mem_cons.mp (awaited.loop _ _ _ _ loop confirmed) with rfl | later
      · exact absurd rfl same
      · exact later

/-- A loop that finds the block confirmed does not end without the message. -/
theorem Awaited.finished {polled confirmedHead results} (awaited : Awaited w pending)
    (loop : w.phase = .relaying polled confirmedHead [] results) :
    Awaited
      { w with memory := advanceCursor w.memory polled confirmedHead results, phase := .saving }
      pending := by
  have unconfirmed : confirmedHead < pending.srcBlock := by
    apply Nat.lt_of_not_le
    intro confirmed
    exact absurd (awaited.loop _ _ _ _ loop confirmed) List.not_mem_nil
  have bound := nextCursor_le polled confirmedHead results
  have ahead := awaited.cursor
  have kept : max w.memory.cursor (nextCursor polled confirmedHead results) ≤ pending.srcBlock := by
    omega
  exact awaited.outside kept rfl rfl awaited.live awaited.fresh (by rintro _ _ _ _ ⟨⟩)

/-- A step attempts the message or leaves it for later. -/
theorem Awaited.step {input : Input} (awaited : Awaited w pending)
    (started : config.startBlock ≤ pending.srcBlock)
    (stepped : next config w input = some w') (steady : Steady config pending w input) :
    Awaited w' pending ∨ ∃ outcome, w'.trace = w.trace ++ [(pending.key, outcome)] := by
  have ahead := awaited.cursor
  cases next_moves stepped with
  | rolledBack response depth idle reorg =>
      obtain ⟨letters, attempts, -⟩ := Memory.record_letters config w.memory response
      have back : response.head ≤ pending.srcBlock + depth := steady depth reorg
      have kept : max config.startBlock (response.head - depth) ≤ pending.srcBlock := by omega
      refine Or.inl (awaited.outside kept rfl rfl ?_ ?_ (by rintro _ _ _ _ ⟨⟩))
      · exact letters ▸ awaited.live
      · exact attempts ▸ awaited.fresh
  | polled response idle answers => exact Or.inl (awaited.polled answers)
  | relayed reply now failedAt polled confirmedHead other rest results relayed loop truthful step =>
      exact awaited.relayed loop step
  | finished polled confirmedHead results loop => exact Or.inl (awaited.finished loop)
  | crashed =>
      obtain ⟨gone, saved⟩ := steady
      exact Or.inl (awaited.outside saved rfl rfl gone rfl (by rintro _ _ _ _ ⟨⟩))
  | aborted | saved | unsaved | persisted | unpersisted =>
      exact Or.inl (awaited.outside ahead rfl rfl awaited.live awaited.fresh
        (by rintro _ _ _ _ ⟨⟩))
  | arrived => exact Or.inl (awaited.outside ahead rfl rfl awaited.live awaited.fresh awaited.loop)
  | drained => exact Or.inl (awaited.outside ahead rfl rfl rfl awaited.fresh awaited.loop)
  | discarded key =>
      have live : (w.memory.deadLetter.discard key).has pending.key = false := by
        apply Bool.eq_false_of_not_eq_true
        intro buried
        have old := DeadLetterStore.has_of_subset (DeadLetterStore.discard_subset _ key) buried
        exact absurd old (by simp [awaited.live])
      exact Or.inl (awaited.outside ahead rfl rfl live awaited.fresh awaited.loop)
  | chain chain agrees =>
      refine Or.inl ⟨⟨ahead, awaited.loop⟩, ?_, ?_, awaited.live, awaited.fresh⟩
      · exact agrees.kept pending awaited.given awaited.final
      · exact Nat.le_trans awaited.final (Nat.le_max_left _ _)

theorem Awaited.run {d t : World} (awaited : Awaited d pending)
    (started : config.startBlock ≤ pending.srcBlock)
    (run : ((system config).under (Steady config pending)).Later d t) :
    Awaited t pending ∨ t.AttemptedSince d.trace.length pending.key := by
  have all := run.invariant
    (P := fun t => d.trace <+: t.trace ∧
      (Awaited t pending ∨ t.AttemptedSince d.trace.length pending.key))
    ?_ ⟨List.prefix_refl _, Or.inl awaited⟩
  · exact all.2
  · rintro s input s' ⟨longer, one⟩ ⟨stepped, steady⟩
    refine ⟨longer.trans (trace_kept stepped), ?_⟩
    rcases one with awaited | attempted
    · rcases awaited.step started stepped steady with still | ⟨outcome, came⟩
      · exact Or.inl still
      · exact Or.inr (.made longer.length_le came)
    · exact Or.inr (attempted.kept stepped)

/-- What is drained is awaited. -/
theorem awaited_of_drained {entry : DeadLetterEntry} (progress : Progress config w)
    (member : entry ∈ w.memory.deadLetter) (ahead : Ahead w entry.pending)
    (drained : next config w .drain = some w') : Awaited w' entry.pending := by
  cases drained
  have buried := progress.letters entry member
  constructor
  case toAhead => exact ⟨ahead.cursor, ahead.loop⟩
  case given => exact buried.emitted
  case final => exact buried.final
  case live => rfl
  case fresh =>
    apply progress.retired
    exact DeadLetterStore.has_iff.mpr ⟨entry, member, buried.keyed⟩

/-- A message that is drained before the cursor has passed it has been attempted again at the end
    of the first tick that finds its block confirmed. -/
theorem drained_attempted {d t : World} {entry : DeadLetterEntry} {confirmedHead : Nat}
    (reach : (system config).Reachable w) (drained : next config w .drain = some d)
    (member : entry ∈ w.memory.deadLetter) (ahead : Ahead w entry.pending)
    (run : ((system config).under (Steady config entry.pending)).Later d t)
    (ended : t.phase.relayed = some confirmedHead)
    (confirmed : entry.pending.srcBlock ≤ confirmedHead) :
    t.AttemptedSince d.trace.length entry.key := by
  have progress := progress_of_reachable reach
  have started := (started_of_reachable reach).cursor
  have awaited := awaited_of_drained progress member ahead drained
  obtain ⟨polled, results, loop⟩ := Phase.relayed_iff.mp ended
  rcases awaited.run (Nat.le_trans started ahead.cursor) run with still | attempted
  · exact absurd (still.loop _ _ _ _ loop confirmed) List.not_mem_nil
  · rw [(progress.letters entry member).keyed]
    exact attempted

instance (config : Config) (pending : PendingMessage) (w : World) (input : Input) :
    Decidable (Steady config pending w input) :=
  match input with
  | .poll response => inferInstanceAs
      (Decidable (∀ depth ∈ reorgDepth config w.memory response,
        response.head ≤ pending.srcBlock + depth))
  | .crash => inferInstanceAs (Decidable (w.deadLetterFile.has pending.key = false ∧
      w.checkpoint.getD config.startBlock ≤ pending.srcBlock))
  | .relay .. | .finish | .save | .saveFails | .persist | .persistFails | .arrive _ | .chain _
  | .drain | .discard _ => isTrue trivial

def patientConfig : Config :=
  { sampleConfig with retry := { maxAttempts := 2, baseBackoffMs := 1000 } }

def patientStart : World := World.start patientConfig (sampleChain 0 12 (by decide)) []

/-- A tick that finds both messages confirmed, and tries the first at `first` and the second at
    `second`. -/
def bothTick (fromBlock : Nat) (reply : Reply) (first second : Nat) : List Input :=
  [.poll (samplePoll (sampleChain 0 12 (by decide)) fromBlock), .relay reply first first,
    .relay reply second second]

/-- The message in block 5 holds the cursor while the one in block 9 is dead-lettered: its second
    attempt is deferred. -/
theorem drained_attempted_sample :
    ∃ w d t : World, (system patientConfig).Reachable w ∧ next patientConfig w .drain = some d ∧
      w.memory.deadLetter = [⟨(samplePending 9).key, samplePending 9, 2, "revert"⟩] ∧
      t.phase.relayed = some 10 ∧ t.AttemptedSince d.trace.length (samplePending 9).key := by
  have ran : ((replay patientConfig patientStart
      (bothTick 0 (.failed "revert") 0 10 ++ [.finish, .save, .persist] ++
        bothTick 5 (.failed "revert") 990 2000 ++ [.finish, .save, .persist])).bind fun w =>
      (next patientConfig w .drain).bind fun d =>
      (replayUnder patientConfig (Steady patientConfig (samplePending 9)) d
        (bothTick 5 (.delivered "0x01") 3000 3000)).map fun t =>
      (w.memory.cursor, w.memory.deadLetter, decide (w.phase = .idle), t.phase.relayed)) =
      some (5, [⟨(samplePending 9).key, samplePending 9, 2, "revert"⟩], true, some 10) := by
    decide +kernel
  obtain ⟨w, before, rest⟩ := Option.bind_eq_some_iff.mp ran
  obtain ⟨d, drained, rest⟩ := Option.bind_eq_some_iff.mp rest
  obtain ⟨t, after, seen⟩ := Option.map_eq_some_iff.mp rest
  obtain ⟨cursor, seen⟩ := Prod.mk.inj seen
  obtain ⟨letters, seen⟩ := Prod.mk.inj seen
  obtain ⟨idle, ended⟩ := Prod.mk.inj seen
  have reach : (system patientConfig).Reachable w :=
    (System.Reachable.init (S := system patientConfig) ⟨_, _, rfl⟩).later (later_of_replay before)
  have run := later_of_replayUnder after
  have ahead : Ahead w (samplePending 9) := by
    constructor
    case cursor =>
      rw [cursor]
      decide
    case loop =>
      intro _ _ _ _ relaying
      have contra := relaying.symm.trans (of_decide_eq_true idle)
      cases contra
  have member : (⟨(samplePending 9).key, samplePending 9, 2, "revert"⟩ : DeadLetterEntry) ∈
      w.memory.deadLetter := by simp [letters]
  have attempted := drained_attempted reach drained member ahead run ended (by decide)
  exact ⟨w, d, t, reach, drained, letters, ended, attempted⟩

/-! ## Behind the cursor -/

/-- The cursor has passed every message of the key, and a loop under way has none to come. -/
structure Passed (w : World) (key : MessageKey) : Prop where
  messages : ∀ pending ∈ w.chain.messages, pending.key = key → pending.srcBlock < w.memory.cursor
  loop : ∀ polled confirmedHead remaining results,
    w.phase = .relaying polled confirmedHead remaining results →
      ∀ pending ∈ remaining, pending.key ≠ key

/-- The watcher returns what it is asked for, no reorg is seen, no process ends, and the key is
    not used again. -/
def Quiet (config : Config) (key : MessageKey) (w : World) : Input → Prop
  | .poll response => reorgDepth config w.memory response = none ∧
      ∀ pending ∈ response.messages, w.memory.cursor ≤ pending.srcBlock
  | .crash => False
  | .chain chain => ∀ pending ∈ chain.messages, pending.key = key →
      pending.srcBlock < w.memory.cursor
  | _ => True

theorem Passed.step {input : Input} {key : MessageKey} (passed : Passed w key)
    (stepped : next config w input = some w') (quiet : Quiet config key w input) :
    Passed w' key ∧ ∀ past, w'.AttemptedSince past key → w.AttemptedSince past key := by
  cases next_moves stepped with
  | rolledBack response depth idle reorg =>
      exact absurd reorg (by simp [quiet.1])
  | polled response idle answers =>
      have cursor := (Memory.record_letters config w.memory response).2.2
      refine ⟨⟨fun pending given same => cursor ▸ passed.messages pending given same, ?_⟩,
        fun _ attempted => attempted⟩
      rintro _ _ _ _ ⟨⟩ pending member same
      have observed := (List.mem_filter.mp member).1
      have before := passed.messages pending (answers.sound pending observed) same
      have after := quiet.2 pending observed
      omega
  | relayed reply now failedAt polled confirmedHead other rest results relayed loop truthful step =>
      have different := passed.loop _ _ _ _ loop
      constructor
      · refine ⟨fun pending given same => step.cursor ▸ passed.messages pending given same, ?_⟩
        rintro _ _ _ _ ⟨⟩ pending member
        exact different pending (List.mem_cons_of_mem _ member)
      · rintro past ⟨attempt, made, keyed⟩
        unfold World.after at made
        rw [List.drop_append] at made
        rcases List.mem_append.mp made with old | new
        · exact ⟨attempt, old, keyed⟩
        · have added := List.mem_of_mem_drop new
          simp only [Option.mem_toList, Option.map_eq_some_iff] at added
          obtain ⟨outcome, -, rfl⟩ := added
          exact absurd keyed (different other List.mem_cons_self)
  | finished polled confirmedHead results loop =>
      refine ⟨⟨?_, by rintro _ _ _ _ ⟨⟩⟩, fun _ attempted => attempted⟩
      intro pending given same
      exact Nat.lt_of_lt_of_le (passed.messages pending given same) (Nat.le_max_left _ _)
  | crashed => exact absurd quiet id
  | chain chain agrees => exact ⟨⟨quiet, passed.loop⟩, fun _ attempted => attempted⟩
  | aborted | saved | unsaved | persisted | unpersisted =>
      exact ⟨⟨passed.messages, by rintro _ _ _ _ ⟨⟩⟩, fun _ attempted => attempted⟩
  | arrived | drained | discarded =>
      exact ⟨⟨passed.messages, passed.loop⟩, fun _ attempted => attempted⟩

/-- However many ticks there are, a message behind the cursor is never attempted. -/
theorem passed_forgotten {d t : World} {key : MessageKey} (passed : Passed d key)
    (run : ((system config).under (Quiet config key)).Later d t) :
    ¬ t.AttemptedSince d.trace.length key := by
  have all := run.invariant
    (P := fun t => Passed t key ∧ ¬ t.AttemptedSince d.trace.length key) ?_ ⟨passed, ?_⟩
  · exact all.2
  · rintro s input s' ⟨passed, unattempted⟩ ⟨stepped, quiet⟩
    obtain ⟨still, old⟩ := passed.step stepped quiet
    exact ⟨still, fun attempted => unattempted (old _ attempted)⟩
  · rintro ⟨attempt, made, -⟩
    rw [List.drop_length] at made
    cases made

instance (config : Config) (key : MessageKey) (w : World) (input : Input) :
    Decidable (Quiet config key w input) :=
  match input with
  | .poll response => inferInstanceAs (Decidable (reorgDepth config w.memory response = none ∧
      ∀ pending ∈ response.messages, w.memory.cursor ≤ pending.srcBlock))
  | .crash => isFalse id
  | .chain chain => inferInstanceAs (Decidable (∀ pending ∈ chain.messages, pending.key = key →
      pending.srcBlock < w.memory.cursor))
  | .relay .. | .finish | .save | .saveFails | .persist | .persistFails | .arrive _ | .drain
  | .discard _ => isTrue trivial

/-- The usual case: the tick that has dead-lettered the message has moved the cursor past it.  The
    message is never attempted again, though ticks end that find its block confirmed. -/
theorem drained_forgotten :
    ∃ w d : World, (system sampleConfig).Reachable w ∧ next sampleConfig w .drain = some d ∧
      w.memory.deadLetter = [⟨(samplePending 5).key, samplePending 5, 1, "revert"⟩] ∧
      (∀ t, ((system sampleConfig).under (Quiet sampleConfig (samplePending 5).key)).Later d t →
        ¬ t.AttemptedSince d.trace.length (samplePending 5).key) ∧
      ∃ t, ((system sampleConfig).under (Quiet sampleConfig (samplePending 5).key)).Later d t ∧
        t.phase.relayed = some 8 := by
  have ran : ((replay sampleConfig sampleStart (sampleTick (.failed "revert"))).bind fun w =>
      (next sampleConfig w .drain).bind fun d =>
      (replayUnder sampleConfig (Quiet sampleConfig (samplePending 5).key) d
        [.poll (samplePoll (sampleChain 0 10 (by decide)) 9)]).map fun t =>
      (w.memory.deadLetter, decide (d.phase = .idle), d.memory.cursor,
        d.chain.messages, t.phase.relayed)) =
      some ([⟨(samplePending 5).key, samplePending 5, 1, "revert"⟩], true, 9,
        [samplePending 5, samplePending 9], some 8) := by
    decide +kernel
  obtain ⟨w, before, rest⟩ := Option.bind_eq_some_iff.mp ran
  obtain ⟨d, drained, rest⟩ := Option.bind_eq_some_iff.mp rest
  obtain ⟨t, after, seen⟩ := Option.map_eq_some_iff.mp rest
  obtain ⟨letters, seen⟩ := Prod.mk.inj seen
  obtain ⟨idle, seen⟩ := Prod.mk.inj seen
  obtain ⟨cursor, seen⟩ := Prod.mk.inj seen
  obtain ⟨messages, ended⟩ := Prod.mk.inj seen
  have reach := (System.Reachable.init sampleStart_init).later (later_of_replay before)
  have run := later_of_replayUnder after
  have passed : Passed d (samplePending 5).key := by
    constructor
    case messages =>
      rw [messages, cursor]
      decide
    case loop =>
      intro _ _ _ _ relaying
      have contra := relaying.symm.trans (of_decide_eq_true idle)
      cases contra
  exact ⟨w, d, reach, drained, letters, fun t run => passed_forgotten passed run, t, run, ended⟩

end Perihelion.Relayer

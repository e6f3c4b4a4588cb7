import Perihelion.Relayer.Steps

/-! # What holds throughout a run

A message is relayed and dead-lettered only once its block is final, the loop of a tick leaves
out none of the confirmed messages from the cursor on, and a dead letter has no retry state.
-/

namespace Perihelion.Relayer

open BigEndian Transition

/-- A dead letter is about a message of a final block. -/
structure Buried (w : World) (entry : DeadLetterEntry) : Prop where
  keyed : entry.key = entry.pending.key
  emitted : entry.pending ∈ w.chain.messages
  final : entry.pending.srcBlock ≤ w.final
  recorded : (entry.key, Outcome.deadLettered) ∈ w.trace

/-- The loop has still to come to a polled message or has a result for its key. -/
structure Loop (w : World) (polled : List PendingMessage) (confirmedHead : Nat)
    (remaining : List PendingMessage) (results : List RelayResult) : Prop where
  final : confirmedHead ≤ w.final
  complete : ∀ pending ∈ w.chain.messages, w.memory.cursor ≤ pending.srcBlock →
    pending.srcBlock ≤ confirmedHead → pending ∈ polled
  emitted : ∀ pending ∈ polled, pending ∈ w.chain.messages
  confirmed : ∀ pending ∈ polled, pending.srcBlock ≤ confirmedHead
  relayed : ∀ pending ∈ polled, pending ∈ remaining ∨ ∃ result ∈ results, result.key = pending.key
  remaining : ∀ pending ∈ remaining, pending ∈ polled

structure Progress (config : Config) (w : World) : Prop where
  final : w.chain.head - config.confirmations ≤ w.final
  letters : ∀ entry ∈ w.memory.deadLetter, Buried w entry
  filed : ∀ entry ∈ w.deadLetterFile, Buried w entry
  retired : ∀ key, w.memory.deadLetter.has key = true → w.memory.attempts key = none
  loop : ∀ polled confirmedHead remaining results,
    w.phase = .relaying polled confirmedHead remaining results →
      Loop w polled confirmedHead remaining results

variable {config : Config} {w w' : World}

theorem Buried.mono {entry : DeadLetterEntry} (buried : Buried w entry)
    (kept : ∀ pending ∈ w.chain.messages, pending.srcBlock ≤ w.final →
      pending ∈ w'.chain.messages)
    (final : w.final ≤ w'.final) (trace : w.trace ⊆ w'.trace) : Buried w' entry where
  keyed := buried.keyed
  emitted := kept entry.pending buried.emitted buried.final
  final := Nat.le_trans buried.final final
  recorded := trace buried.recorded

theorem progress_start (config : Config) (chain : Chain) (arrived : List MessageKey) :
    Progress config (World.start config chain arrived) where
  final := Nat.le_refl _
  letters _ member := absurd member List.not_mem_nil
  filed _ member := absurd member List.not_mem_nil
  retired _ _ := rfl
  loop _ _ _ _ relaying := by cases relaying

theorem Loop.congr {polled confirmedHead remaining results}
    (loop : Loop w polled confirmedHead remaining results) (chain : w'.chain = w.chain)
    (final : w'.final = w.final) (cursor : w'.memory.cursor = w.memory.cursor) :
    Loop w' polled confirmedHead remaining results where
  final := final ▸ loop.final
  complete pending given after confirmed :=
    loop.complete pending (chain ▸ given) (cursor ▸ after) confirmed
  emitted pending member := chain ▸ loop.emitted pending member
  confirmed := loop.confirmed
  relayed := loop.relayed
  remaining := loop.remaining

/-- The loop of a poll that has just been answered. -/
theorem loop_polled {response : Poll} (progress : Progress config w)
    (answers : w.chain.Answers w.memory.cursor response)
    {memory : Memory} (cursor : memory.cursor = w.memory.cursor) {phase : Phase} :
    Loop { w with memory, phase }
      (response.messages.filter fun pending => pending.srcBlock ≤ confirmedHead config response.head)
      (confirmedHead config response.head)
      (response.messages.filter fun pending => pending.srcBlock ≤ confirmedHead config response.head)
      [] where
  final := by
    have head := answers.head
    have final := progress.final
    show confirmedHead config response.head ≤ w.final
    unfold confirmedHead
    omega
  complete pending given after confirmed := by
    have inHead : pending.srcBlock ≤ response.head :=
      Nat.le_trans confirmed (Nat.sub_le _ _)
    have observed := answers.complete pending given (cursor ▸ after) inHead
    exact List.mem_filter.mpr ⟨observed, decide_eq_true confirmed⟩
  emitted pending member := answers.sound pending (List.mem_filter.mp member).1
  confirmed pending member := of_decide_eq_true (List.mem_filter.mp member).2
  relayed _ member := Or.inl member
  remaining _ member := member

/-- One turn of the loop. -/
theorem Loop.after {polled confirmedHead pending rest results relayed reply}
    (loop : Loop w polled confirmedHead (pending :: rest) results)
    (step : RelayStep w.memory pending reply relayed) :
    Loop (w.after polled confirmedHead pending rest results relayed) polled confirmedHead rest
      (results ++ [relayed.result]) where
  final := loop.final
  complete other given after confirmed := by
    have cursor : relayed.memory.cursor ≤ other.srcBlock := after
    rw [step.cursor] at cursor
    exact loop.complete other given cursor confirmed
  emitted := loop.emitted
  confirmed := loop.confirmed
  relayed other member := by
    rcases loop.relayed other member with waiting | ⟨result, given, same⟩
    · rcases List.mem_cons.mp waiting with rfl | waiting
      · exact Or.inr ⟨relayed.result, List.mem_append_right _ List.mem_cons_self, step.keyed⟩
      · exact Or.inl waiting
    · exact Or.inr ⟨result, List.mem_append_left _ given, same⟩
  remaining other member := loop.remaining other (List.mem_cons_of_mem _ member)

/-- What one message does to the dead letters: at most it becomes one. -/
theorem RelayStep.letters {memory : Memory} {pending : PendingMessage} {reply : Reply}
    {relayed : Relayed} (step : RelayStep memory pending reply relayed) :
    relayed.memory.deadLetter = memory.deadLetter ∨
      ∃ entry, relayed.memory.deadLetter = memory.deadLetter ++ [entry] ∧
        entry.key = pending.key ∧ entry.pending = pending ∧
        relayed.outcome = some .deadLettered := by
  cases step with
  | dead | deferred | found | delivered | failed => exact Or.inl rfl
  | exhausted result entry live named about => exact Or.inr ⟨entry, rfl, named, about, rfl⟩

theorem RelayStep.retired {memory : Memory} {pending : PendingMessage} {reply : Reply}
    {relayed : Relayed} (step : RelayStep memory pending reply relayed)
    (retired : ∀ key, memory.deadLetter.has key = true → memory.attempts key = none)
    (key : MessageKey) (buried : relayed.memory.deadLetter.has key = true) :
    relayed.memory.attempts key = none := by
  cases step with
  | dead | deferred => exact retired key buried
  | found _ live | delivered _ live =>
      have other : key ≠ pending.key := by
        rintro rfl
        exact absurd buried (by simp [Memory.forget, live])
      exact (Function.update_of_ne other _ _).trans (retired key buried)
  | failed _ _ live =>
      have other : key ≠ pending.key := by
        rintro rfl
        exact absurd buried (by simp [live])
      exact (Function.update_of_ne other _ _).trans (retired key buried)
  | exhausted _ entry live named =>
      by_cases same : key = pending.key
      · rw [same]
        exact Function.update_self _ _ _
      · rcases DeadLetterStore.has_append.mp buried with old | new
        · exact (Function.update_of_ne same _ _).trans (retired key old)
        · exact absurd (new.symm.trans named) same

/-- Steps that leave chain and trace alone and enter no loop. -/
theorem Progress.outside (progress : Progress config w) (chain : w'.chain = w.chain)
    (final : w'.final = w.final) (trace : w'.trace = w.trace)
    (letters : w'.memory.deadLetter ⊆ w.memory.deadLetter ∨
      w'.memory.deadLetter = w.deadLetterFile)
    (filed : w'.deadLetterFile = w.deadLetterFile ∨ w'.deadLetterFile = w.memory.deadLetter)
    (retired : ∀ key, w'.memory.deadLetter.has key = true → w'.memory.attempts key = none)
    (loop : ∀ polled confirmedHead remaining results,
      w'.phase = .relaying polled confirmedHead remaining results →
        Loop w' polled confirmedHead remaining results) : Progress config w' := by
  have stays {entry} (buried : Buried w entry) : Buried w' entry :=
    buried.mono (fun pending given _ => chain ▸ given) (Nat.le_of_eq final.symm)
      (trace ▸ List.Subset.refl _)
  constructor
  case final =>
    rw [chain, final]
    exact progress.final
  case letters =>
    intro entry member
    rcases letters with fewer | reloaded
    · exact stays (progress.letters entry (fewer member))
    · exact stays (progress.filed entry (reloaded ▸ member))
  case filed =>
    intro entry member
    rcases filed with same | written
    · exact stays (progress.filed entry (same ▸ member))
    · exact stays (progress.letters entry (written ▸ member))
  case retired => exact retired
  case loop => exact loop

theorem Memory.record_letters (config : Config) (memory : Memory) (response : Poll) :
    (memory.record config response).deadLetter = memory.deadLetter ∧
      (memory.record config response).attempts = memory.attempts ∧
      (memory.record config response).cursor = memory.cursor := by
  unfold Memory.record
  split
  · exact ⟨rfl, rfl, rfl⟩
  · exact ⟨rfl, rfl, rfl⟩

theorem DeadLetterStore.has_of_subset {store store' : DeadLetterStore} (fewer : store' ⊆ store)
    {key : MessageKey} (given : store'.has key = true) : store.has key = true := by
  obtain ⟨entry, member, same⟩ := DeadLetterStore.has_iff.mp given
  exact DeadLetterStore.has_iff.mpr ⟨entry, fewer member, same⟩

theorem Progress.relayed {polled confirmedHead pending rest results relayed reply}
    (progress : Progress config w)
    (loop : w.phase = .relaying polled confirmedHead (pending :: rest) results)
    (step : RelayStep w.memory pending reply relayed) :
    Progress config (w.after polled confirmedHead pending rest results relayed) := by
  have turn := progress.loop _ _ _ _ loop
  have trace : w.trace ⊆ (w.after polled confirmedHead pending rest results relayed).trace :=
    List.subset_append_left _ _
  have stays {entry} (buried : Buried w entry) :
      Buried (w.after polled confirmedHead pending rest results relayed) entry :=
    buried.mono (fun _ given _ => given) (Nat.le_refl _) trace
  constructor
  case final => exact progress.final
  case letters =>
    intro entry member
    rcases step.letters with same | ⟨new, grown, keyed, about, outcome⟩
    · exact stays (progress.letters entry (same ▸ member))
    · have member : entry ∈ relayed.memory.deadLetter := member
      rw [grown] at member
      rcases List.mem_append.mp member with old | new
      · exact stays (progress.letters entry old)
      · obtain rfl := List.mem_singleton.mp new
        have polled := turn.remaining pending List.mem_cons_self
        constructor
        case keyed => rw [keyed, about]
        case emitted =>
          rw [about]
          exact turn.emitted pending polled
        case final =>
          rw [about]
          exact Nat.le_trans (turn.confirmed pending polled) turn.final
        case recorded =>
          rw [keyed]
          apply List.mem_append_right
          simp [outcome]
  case filed => exact fun entry member => stays (progress.filed entry member)
  case retired => exact step.retired progress.retired
  case loop =>
    intro _ _ _ _ relaying
    cases relaying
    exact turn.after step

theorem Progress.extended {chain : Chain} (progress : Progress config w)
    (agrees : w.chain.Agrees chain w.final) :
    Progress config
      { w with chain, final := max w.final (chain.head - config.confirmations) } := by
  have stays {entry} (buried : Buried w entry) :
      Buried { w with chain, final := max w.final (chain.head - config.confirmations) } entry :=
    buried.mono agrees.kept (Nat.le_max_left _ _) (List.Subset.refl _)
  constructor
  case final => exact Nat.le_max_right _ _
  case letters => exact fun entry member => stays (progress.letters entry member)
  case filed => exact fun entry member => stays (progress.filed entry member)
  case retired => exact progress.retired
  case loop =>
    intro polled confirmedHead remaining results relaying
    have loop := progress.loop _ _ _ _ relaying
    constructor
    case final => exact Nat.le_trans loop.final (Nat.le_max_left _ _)
    case complete =>
      intro pending given after confirmed
      exact loop.complete pending (agrees.new pending given (Nat.le_trans confirmed loop.final)) after
        confirmed
    case emitted =>
      intro pending member
      exact agrees.kept pending (loop.emitted pending member)
        (Nat.le_trans (loop.confirmed pending member) loop.final)
    case confirmed => exact loop.confirmed
    case relayed => exact loop.relayed
    case remaining => exact loop.remaining

theorem Progress.step {input : Input} (progress : Progress config w)
    (stepped : next config w input = some w') : Progress config w' := by
  have same : w.memory.deadLetter ⊆ w.memory.deadLetter := List.Subset.refl _
  cases next_moves stepped with
  | rolledBack response =>
      obtain ⟨letters, attempts, -⟩ := Memory.record_letters config w.memory response
      refine progress.outside rfl rfl rfl (Or.inl ?_) (Or.inl rfl) ?_ (by rintro _ _ _ _ ⟨⟩)
      · exact letters ▸ same
      · intro key buried
        exact attempts ▸ progress.retired key (letters ▸ buried)
  | polled response idle answers =>
      obtain ⟨letters, attempts, cursor⟩ := Memory.record_letters config w.memory response
      refine progress.outside rfl rfl rfl (Or.inl ?_) (Or.inl rfl) ?_ ?_
      · exact letters ▸ same
      · intro key buried
        have none := attempts ▸ progress.retired key (letters ▸ buried)
        simp [Memory.prune, none]
      · intro _ _ _ _ relaying
        cases relaying
        exact loop_polled progress answers
          (show ((w.memory.record config response).prune response.messages).cursor = _ from cursor)
  | relayed reply now failedAt polled confirmedHead pending rest results relayed loop truthful step =>
      exact progress.relayed loop step
  | aborted | saved | unsaved | unpersisted =>
      exact progress.outside rfl rfl rfl (Or.inl same) (Or.inl rfl) progress.retired
        (by rintro _ _ _ _ ⟨⟩)
  | finished =>
      exact progress.outside rfl rfl rfl (Or.inl same) (Or.inl rfl) progress.retired
        (by rintro _ _ _ _ ⟨⟩)
  | persisted =>
      exact progress.outside rfl rfl rfl (Or.inl same) (Or.inr rfl) progress.retired
        (by rintro _ _ _ _ ⟨⟩)
  | crashed =>
      exact progress.outside rfl rfl rfl (Or.inr rfl) (Or.inl rfl) (fun _ _ => rfl)
        (by rintro _ _ _ _ ⟨⟩)
  | arrived key =>
      refine progress.outside rfl rfl rfl (Or.inl same) (Or.inl rfl) progress.retired ?_
      intro _ _ _ _ relaying
      exact (progress.loop _ _ _ _ relaying).congr rfl rfl rfl
  | chain chain agrees => exact progress.extended agrees
  | drained =>
      refine progress.outside rfl rfl rfl (Or.inl (List.nil_subset _)) (Or.inl rfl) ?_ ?_
      · intro key buried
        cases buried
      · intro _ _ _ _ relaying
        exact (progress.loop _ _ _ _ relaying).congr rfl rfl rfl
  | discarded key =>
      have fewer := DeadLetterStore.discard_subset w.memory.deadLetter key
      refine progress.outside rfl rfl rfl (Or.inl fewer) (Or.inl rfl) ?_ ?_
      · intro key buried
        exact progress.retired key (DeadLetterStore.has_of_subset fewer buried)
      · intro _ _ _ _ relaying
        exact (progress.loop _ _ _ _ relaying).congr rfl rfl rfl

/-- Neither in memory nor in its file does the cursor fall behind the start. -/
structure Started (config : Config) (w : World) : Prop where
  cursor : config.startBlock ≤ w.memory.cursor
  saved : config.startBlock ≤ w.checkpoint.getD config.startBlock

theorem Started.step {input : Input} (started : Started config w)
    (stepped : next config w input = some w') : Started config w' := by
  obtain ⟨cursor, saved⟩ := started
  cases next_moves stepped with
  | rolledBack => exact ⟨Nat.le_max_left _ _, saved⟩
  | polled response =>
      have same := (Memory.record_letters config w.memory response).2.2
      exact ⟨Nat.le_trans cursor (Nat.le_of_eq same.symm), saved⟩
  | relayed reply now failedAt polled confirmedHead pending rest results relayed loop truthful step =>
      exact ⟨Nat.le_trans cursor (Nat.le_of_eq step.cursor.symm), saved⟩
  | finished => exact ⟨Nat.le_trans cursor (Nat.le_max_left _ _), saved⟩
  | saved => exact ⟨cursor, cursor⟩
  | crashed => exact ⟨saved, saved⟩
  | aborted | unsaved | persisted | unpersisted | arrived | chain | drained | discarded =>
      exact ⟨cursor, saved⟩

theorem started_of_reachable (reach : (system config).Reachable w) : Started config w := by
  refine reach.invariant (P := Started config) ?_ ?_
  · intro w given
    obtain ⟨chain, arrived, rfl⟩ := given
    exact ⟨Nat.le_refl _, Nat.le_refl _⟩
  · intro w input w' _ started stepped
    exact started.step stepped

theorem progress_of_reachable (reach : (system config).Reachable w) : Progress config w := by
  refine reach.invariant (P := Progress config) ?_ ?_
  · intro w given
    obtain ⟨chain, arrived, rfl⟩ := given
    exact progress_start config chain arrived
  · intro w input w' _ progress stepped
    exact progress.step stepped

end Perihelion.Relayer

import Perihelion.Relayer.Steps

/-! # The retry budget

The ticks of one relayer, with any watcher and any destination, and an operator at its dead
letters.  A key that every tick observes is never pruned, so that the attempts stored for it are
its failures since it was last delivered or taken out of the dead letters.
-/

namespace Perihelion.Relayer

open BigEndian Transition

inductive Event where
  /-- `isDelivered`, and then perhaps `deliver`, is called. -/
  | asked (key : MessageKey)
  | ended (key : MessageKey) (outcome : Outcome)
  /-- An operator takes a dead letter out. -/
  | drained (key : MessageKey)
  deriving DecidableEq

structure Session where
  memory : Memory
  phase : Phase
  log : List Event

namespace Session

/-- The session after a message has been relayed, or a `FatalError` has ended the tick. -/
def relay (config : Config) (s : Session) (polled : List PendingMessage) (confirmedHead : Nat)
    (pending : PendingMessage) (rest : List PendingMessage) (results : List RelayResult)
    (reply : Reply) (now failedAt : Nat) : Session :=
  match relayOne config s.memory pending reply now failedAt with
  | none => { s with phase := .idle, log := s.log ++ [.asked pending.key] }
  | some relayed =>
      { memory := relayed.memory
        phase := .relaying polled confirmedHead rest (results ++ [relayed.result])
        log := match relayed.outcome with
          | none => s.log
          | some outcome => s.log ++ [.asked pending.key, .ended pending.key outcome] }

/-- One relayer on its own: it is not restarted, and the world around it is left open. -/
def next (config : Config) (s : Session) : Input → Option Session
  | .poll response =>
      match s.phase with
      | .idle =>
          let polled := onPoll config s.memory response
          some { s with memory := polled.1, phase := polled.2 }
      | _ => none
  | .relay reply now failedAt =>
      match s.phase with
      | .relaying polled confirmedHead (pending :: rest) results =>
          some (s.relay config polled confirmedHead pending rest results reply now failedAt)
      | _ => none
  | .finish =>
      match s.phase with
      | .relaying polled confirmedHead [] results =>
          some { s with
            memory := advanceCursor s.memory polled confirmedHead results
            phase := .saving }
      | _ => none
  | .save =>
      match s.phase with
      | .saving => some { s with phase := .persisting }
      | _ => none
  | .saveFails =>
      match s.phase with
      | .saving => some { s with phase := .idle }
      | _ => none
  | .persist | .persistFails =>
      match s.phase with
      | .persisting => some { s with phase := .idle }
      | _ => none
  | .drain =>
      some { s with
        memory := { s.memory with deadLetter := [] }
        log := s.log ++ s.memory.deadLetter.map fun entry => .drained entry.key }
  | .discard key =>
      some { s with
        memory := { s.memory with deadLetter := s.memory.deadLetter.discard key }
        log := if s.memory.deadLetter.has key then s.log ++ [.drained key] else s.log }
  | .crash | .arrive _ | .chain _ => none

/-- A relayer begins with what its two files hold. -/
def system (config : Config) : System Session Input where
  init s := ∃ checkpoint deadLetterFile,
    s = ⟨Memory.resume config checkpoint deadLetterFile, .idle, []⟩
  step s input s' := next config s input = some s'

/-- A poll that is answered with a message of the key, if it is a poll. -/
def Observes (key : MessageKey) (_ : Session) : Input → Prop
  | .poll response => ∃ pending ∈ response.messages, pending.key = key
  | _ => True

end Session

/-! ## Counting -/

/-- One more event: a delivery, an earlier delivery and a drain begin anew. -/
def count (counts : Outcome → Bool) (key : MessageKey) (n : Nat) : Event → Nat
  | .asked _ => n
  | .ended key' outcome =>
      if key' = key then
        if outcome = .delivered ∨ outcome = .alreadyDelivered then 0
        else if counts outcome then n + 1
        else n
      else n
  | .drained key' => if key' = key then 0 else n

def countAll (counts : Outcome → Bool) (key : MessageKey) (log : List Event) : Nat :=
  log.foldl (count counts key) 0

/-- The failed attempts since a key was last delivered or drained. -/
def failures (key : MessageKey) (log : List Event) : Nat :=
  countAll (fun outcome => outcome = .failed ∨ outcome = .deadLettered) key log

/-- The additions to the dead letters since. -/
def additions (key : MessageKey) (log : List Event) : Nat :=
  countAll (fun outcome => outcome = .deadLettered) key log

theorem countAll_append (counts : Outcome → Bool) (key : MessageKey) (log more : List Event) :
    countAll counts key (log ++ more) = more.foldl (count counts key) (countAll counts key log) :=
  List.foldl_append

/-- Events of other keys do not count. -/
theorem countAll_other {counts : Outcome → Bool} {key : MessageKey} {log more : List Event}
    (other : ∀ event ∈ more, (∀ outcome, event ≠ .ended key outcome) ∧ event ≠ .drained key) :
    countAll counts key (log ++ more) = countAll counts key log := by
  rw [countAll_append]
  induction more with
  | nil => rfl
  | cons event more ih =>
      have first : count counts key (countAll counts key log) event = countAll counts key log := by
        have own := other event List.mem_cons_self
        cases event with
        | asked key' => rfl
        | ended key' outcome => exact if_neg fun same => own.1 outcome (by rw [same])
        | drained key' => exact if_neg fun same => own.2 (by rw [same])
      rw [List.foldl_cons, first]
      exact ih fun event member => other event (List.mem_cons_of_mem _ member)

/-- Where a drain is among them, and nothing of the key but drains, they begin anew. -/
theorem countAll_drained {counts : Outcome → Bool} {key : MessageKey} {log more : List Event}
    (drains : ∀ event ∈ more, ∃ key', event = .drained key') (own : .drained key ∈ more) :
    countAll counts key (log ++ more) = 0 := by
  induction more using List.reverseRecOn with
  | nil => cases own
  | append_singleton more event ih =>
      rw [← List.append_assoc, countAll_append, List.foldl_cons, List.foldl_nil]
      obtain ⟨key', rfl⟩ := drains event (by simp)
      by_cases same : key' = key
      · exact if_pos same
      · have earlier : Event.drained key ∈ more := by
          rcases List.mem_append.mp own with earlier | last
          · exact earlier
          · cases List.mem_singleton.mp last
            exact absurd rfl same
        have anew := ih (fun event member => drains event (List.mem_append_left _ member)) earlier
        rw [anew]
        exact if_neg same

/-! ## One message -/

/-- The failures that are stored. -/
def Memory.spent (memory : Memory) (key : MessageKey) : Nat :=
  ((memory.attempts key).map MessageRetryState.attempts).getD 0

/-- What `relayOne` spends of the budget of its key. -/
inductive Spends (config : Config) (memory : Memory) (pending : PendingMessage) : Relayed → Prop
  | nothing (result) : Spends config memory pending ⟨memory, result, none⟩
  | resolved (result outcome) (live : memory.deadLetter.has pending.key = false)
      (ended : outcome = .delivered ∨ outcome = .alreadyDelivered) :
      Spends config memory pending ⟨memory.forget pending.key, result, some outcome⟩
  | failed (result nextRetryAt) (live : memory.deadLetter.has pending.key = false)
      (left : memory.spent pending.key + 1 < config.retry.maxAttempts) :
      Spends config memory pending
        ⟨{ memory with
            attempts := Function.update memory.attempts pending.key
              (some ⟨memory.spent pending.key + 1, nextRetryAt⟩) },
          result, some .failed⟩
  | exhausted (result entry) (live : memory.deadLetter.has pending.key = false)
      (named : entry.key = pending.key)
      (out : config.retry.maxAttempts ≤ memory.spent pending.key + 1) :
      Spends config memory pending
        ⟨{ memory.forget pending.key with deadLetter := memory.deadLetter ++ [entry] }, result,
          some .deadLettered⟩

section relayOne

variable {config : Config} {memory : Memory} {pending : PendingMessage} {reply : Reply}
  {now failedAt : Nat} {relayed : Relayed}

theorem relayOne_spends (ran : relayOne config memory pending reply now failedAt = some relayed) :
    Spends config memory pending relayed := by
  unfold relayOne at ran
  dsimp only at ran
  split at ran
  · cases ran
    exact .nothing _
  · rename_i live
    have live : memory.deadLetter.has pending.key = false := Bool.eq_false_of_not_eq_true live
    split at ran
    · cases ran
      exact .nothing _
    · cases reply with
      | alreadyDelivered =>
          cases ran
          exact .resolved _ _ live (.inr rfl)
      | delivered dstTxHash =>
          cases ran
          exact .resolved _ _ live (.inl rfl)
      | fatal error => cases ran
      | failed error =>
          dsimp only at ran
          split at ran
          · rename_i out
            cases ran
            rw [DeadLetterStore.add_new live]
            exact .exhausted _ _ live rfl out
          · rename_i left
            cases ran
            exact .failed _ _ live (Nat.lt_of_not_le left)

/-- The destination is not asked for a dead letter. -/
theorem relayOne_dead (dead : memory.deadLetter.has pending.key = true) :
    ∃ result, relayOne config memory pending reply now failedAt = some ⟨memory, result, none⟩ := by
  unfold relayOne
  dsimp only
  rw [if_pos dead]
  exact ⟨_, rfl⟩

end relayOne

/-! ## The invariant -/

/-- What is stored is below the budget, whatever the key. -/
def Stored (config : Config) (memory : Memory) : Prop :=
  ∀ key retryState, memory.attempts key = some retryState →
    retryState.attempts < config.retry.maxAttempts

/-- What is stored and what is logged of a key agree. -/
structure Budget (config : Config) (key : MessageKey) (s : Session) : Prop where
  retired : s.memory.deadLetter.has key = true → s.memory.attempts key = none
  live : s.memory.deadLetter.has key = false →
    failures key s.log = s.memory.spent key ∧ additions key s.log = 0
  dead : s.memory.deadLetter.has key = true →
    failures key s.log = 0 ∧ additions key s.log = 0 ∨
      failures key s.log = config.retry.maxAttempts ∧ additions key s.log = 1

section session

variable {config : Config} {key : MessageKey} {memory : Memory} {s s' : Session}
  {pending : PendingMessage} {relayed : Relayed}

theorem Stored.spent_lt (stored : Stored config memory)
    (some_attempt : 1 ≤ config.retry.maxAttempts) (key : MessageKey) :
    memory.spent key < config.retry.maxAttempts := by
  unfold Memory.spent
  cases there : memory.attempts key with
  | none => exact some_attempt
  | some retryState => exact stored key retryState there

theorem Stored.update (stored : Stored config memory) {retryState : Option MessageRetryState}
    (below : ∀ state ∈ retryState, state.attempts < config.retry.maxAttempts) :
    Stored config { memory with attempts := Function.update memory.attempts key retryState } := by
  intro key' state there
  by_cases same : key' = key
  · subst same
    simp only [Function.update_self] at there
    exact below state there
  · simp only [Function.update_of_ne same] at there
    exact stored key' state there

theorem Stored.spends (stored : Stored config memory)
    (spends : Spends config memory pending relayed) : Stored config relayed.memory := by
  cases spends with
  | nothing => exact stored
  | resolved | exhausted => exact stored.update fun _ none => by cases none
  | failed result nextRetryAt live left =>
      refine stored.update fun state there => ?_
      cases there
      exact left

theorem onPoll_kept (config : Config) (memory : Memory) (response : Poll) :
    (onPoll config memory response).1.deadLetter = memory.deadLetter ∧
    ((onPoll config memory response).1.attempts = memory.attempts ∨
      (onPoll config memory response).1.attempts = (memory.prune response.messages).attempts) := by
  have recorded : (memory.record config response).deadLetter = memory.deadLetter ∧
      (memory.record config response).attempts = memory.attempts := by
    unfold Memory.record
    split
    · exact ⟨rfl, rfl⟩
    · exact ⟨rfl, rfl⟩
  unfold onPoll
  split
  · exact ⟨recorded.1, .inl recorded.2⟩
  · refine ⟨recorded.1, .inr ?_⟩
    unfold Memory.prune
    rw [recorded.2]

theorem Stored.poll (stored : Stored config memory) (response : Poll) :
    Stored config (onPoll config memory response).1 := by
  intro key retryState there
  obtain ⟨-, same | pruned⟩ := onPoll_kept config memory response
  · rw [same] at there
    exact stored key retryState there
  · simp only [pruned, Memory.prune] at there
    split at there
    · exact stored key retryState there
    · cases there

/-- Only what concerns the key matters. -/
theorem Budget.congr (budget : Budget config key s)
    (own : s'.memory.attempts key = s.memory.attempts key)
    (deadLetter : s'.memory.deadLetter.has key = s.memory.deadLetter.has key)
    (log : ∀ counts, countAll counts key s'.log = countAll counts key s.log) :
    Budget config key s' where
  retired dead := by
    rw [own]
    exact budget.retired (deadLetter ▸ dead)
  live alive := by
    unfold failures additions Memory.spent
    rw [log, log, own]
    exact budget.live (deadLetter ▸ alive)
  dead dead := by
    unfold failures additions
    rw [log, log]
    exact budget.dead (deadLetter ▸ dead)

theorem Budget.poll (budget : Budget config key s) {response : Poll} {phase : Phase}
    (observed : ∃ pending ∈ response.messages, pending.key = key) :
    Budget config key { s with memory := (onPoll config s.memory response).1, phase := phase } := by
  obtain ⟨letters, kept⟩ := onPoll_kept config s.memory response
  refine budget.congr ?_ (by simp only [letters]) fun _ => rfl
  rcases kept with same | pruned
  · simp only [same]
  · obtain ⟨pending, member, named⟩ := observed
    have own : (response.messages.any fun pending => pending.key == key) = true :=
      List.any_eq_true.mpr ⟨pending, member, beq_iff_eq.mpr named⟩
    simp only [pruned, Memory.prune, own, if_true]

/-- What one more attempt at the key does to the two counts. -/
theorem countAll_ended (counts : Outcome → Bool) (outcome : Outcome) (log : List Event) :
    countAll counts key (log ++ [.asked key, .ended key outcome]) =
      if outcome = .delivered ∨ outcome = .alreadyDelivered then 0
      else if counts outcome then countAll counts key log + 1
      else countAll counts key log := by
  rw [countAll_append, List.foldl_cons, List.foldl_cons, List.foldl_nil]
  simp only [count, if_true]

theorem Budget.attempted {phase : Phase} {outcome : Outcome} (budget : Budget config pending.key s)
    (stored : Stored config s.memory) (some_attempt : 1 ≤ config.retry.maxAttempts)
    (spends : Spends config s.memory pending relayed) (ended : relayed.outcome = some outcome) :
    Budget config pending.key ⟨relayed.memory, phase,
      s.log ++ [.asked pending.key, .ended pending.key outcome]⟩ := by
  have below := stored.spent_lt some_attempt pending.key
  cases spends with
  | nothing result => cases ended
  | resolved result outcome live kind =>
      cases ended
      constructor
      case retired => exact fun _ => Function.update_self _ _ _
      case live =>
        intro _
        simp only [failures, additions, countAll_ended, kind, if_true, Memory.spent, Memory.forget,
          Function.update_self, Option.map_none, Option.getD_none, and_self]
      case dead =>
        intro dead
        exact absurd (live.symm.trans dead) Bool.false_ne_true
  | failed result nextRetryAt live left =>
      cases ended
      constructor
      case retired =>
        intro dead
        exact absurd (live.symm.trans dead) Bool.false_ne_true
      case live =>
        intro _
        obtain ⟨spent, none_added⟩ := budget.live live
        unfold failures at spent ⊢
        unfold additions at none_added ⊢
        rw [countAll_ended, countAll_ended, spent, none_added]
        simp [Memory.spent]
      case dead =>
        intro dead
        exact absurd (live.symm.trans dead) Bool.false_ne_true
  | exhausted result entry live named out =>
      cases ended
      have there : DeadLetterStore.has (s.memory.deadLetter ++ [entry]) pending.key = true :=
        DeadLetterStore.has_append.mpr (.inr named)
      constructor
      case retired => exact fun _ => Function.update_self _ _ _
      case live =>
        intro live'
        exact absurd (live'.symm.trans there) Bool.false_ne_true
      case dead =>
        intro _
        obtain ⟨spent, none_added⟩ := budget.live live
        unfold failures at spent ⊢
        unfold additions at none_added ⊢
        rw [countAll_ended, countAll_ended, spent, none_added]
        simp
        omega

/-- An attempt at another key. -/
theorem Budget.others {phase : Phase} {events : List Event} (budget : Budget config key s)
    (spends : Spends config s.memory pending relayed) (other : pending.key ≠ key)
    (logged : ∀ event ∈ events, (∀ outcome, event ≠ .ended key outcome) ∧ event ≠ .drained key) :
    Budget config key ⟨relayed.memory, phase, s.log ++ events⟩ := by
  have apart {attempts : MessageKey → Option MessageRetryState} {state} :
      Function.update attempts pending.key state key = attempts key :=
    Function.update_of_ne (Ne.symm other) _ _
  have log counts : countAll counts key (s.log ++ events) = countAll counts key s.log :=
    countAll_other logged
  cases spends with
  | nothing => exact budget.congr rfl rfl log
  | resolved => exact budget.congr apart rfl log
  | failed => exact budget.congr apart rfl log
  | exhausted result entry live named out =>
      refine budget.congr apart ?_ log
      rw [Bool.eq_iff_iff]
      exact DeadLetterStore.has_append.trans (or_iff_left (named ▸ other))

theorem Budget.relay (budget : Budget config key s) (stored : Stored config s.memory)
    (some_attempt : 1 ≤ config.retry.maxAttempts) {polled rest : List PendingMessage}
    {confirmedHead now failedAt : Nat} {results : List RelayResult} {reply : Reply} :
    Budget config key
      (s.relay config polled confirmedHead pending rest results reply now failedAt) := by
  unfold Session.relay
  split
  · refine budget.congr rfl rfl fun counts => countAll_other fun event member => ?_
    cases List.mem_singleton.mp member
    exact ⟨nofun, nofun⟩
  · rename_i relayed ran
    have spends := relayOne_spends ran
    cases ended : relayed.outcome with
    | none =>
        cases spends with
        | nothing => exact budget.congr rfl rfl fun _ => rfl
        | resolved | failed | exhausted => cases ended
    | some outcome =>
        by_cases own : pending.key = key
        · subst own
          exact budget.attempted stored some_attempt spends ended
        · refine budget.others spends own fun event member => ?_
          simp only [List.mem_cons, List.not_mem_nil, or_false] at member
          rcases member with rfl | rfl
          · exact ⟨nofun, nofun⟩
          · exact ⟨fun _ same => own (Event.ended.inj same).1, nofun⟩

/-- Dead letters are taken out, and a drain is logged of each. -/
theorem Budget.taken (budget : Budget config key s) {deadLetter : DeadLetterStore}
    {events : List Event} (drains : ∀ event ∈ events, ∃ key', event = .drained key')
    (own : .drained key ∈ events →
      s.memory.deadLetter.has key = true ∧ deadLetter.has key = false)
    (kept : .drained key ∉ events → deadLetter.has key = s.memory.deadLetter.has key) :
    Budget config key { s with
      memory := { s.memory with deadLetter := deadLetter }, log := s.log ++ events } := by
  by_cases logged : .drained key ∈ events
  · obtain ⟨dead, alive⟩ := own logged
    have retired := budget.retired dead
    constructor
    case retired => exact fun _ => retired
    case live =>
      intro _
      unfold failures additions Memory.spent
      rw [countAll_drained drains logged, countAll_drained drains logged, retired]
      exact ⟨rfl, rfl⟩
    case dead =>
      intro dead'
      exact absurd (alive.symm.trans dead') Bool.false_ne_true
  · refine budget.congr rfl (kept logged) fun counts => countAll_other fun event member => ?_
    obtain ⟨key', rfl⟩ := drains event member
    refine ⟨nofun, ?_⟩
    rintro ⟨⟩
    exact logged member

theorem Budget.drain (budget : Budget config key s) :
    Budget config key { s with
      memory := { s.memory with deadLetter := [] }
      log := s.log ++ s.memory.deadLetter.map fun entry => .drained entry.key } := by
  have listed : Event.drained key ∈ (s.memory.deadLetter.map fun entry => Event.drained entry.key) ↔
      s.memory.deadLetter.has key = true := by
    rw [DeadLetterStore.has_iff, List.mem_map]
    simp only [Event.drained.injEq]
  refine budget.taken ?_ ?_ ?_
  · intro event member
    obtain ⟨entry, -, rfl⟩ := List.mem_map.mp member
    exact ⟨_, rfl⟩
  · exact fun logged => ⟨listed.mp logged, rfl⟩
  · intro missing
    rw [listed, Bool.not_eq_true] at missing
    exact missing.symm

theorem Budget.discard (budget : Budget config key s) (key' : MessageKey) :
    Budget config key { s with
      memory := { s.memory with deadLetter := s.memory.deadLetter.discard key' }
      log := if s.memory.deadLetter.has key' then s.log ++ [.drained key'] else s.log } := by
  have whole : (if s.memory.deadLetter.has key' then s.log ++ [.drained key'] else s.log) =
      s.log ++ (if s.memory.deadLetter.has key' then [.drained key'] else []) := by
    split
    · rfl
    · rw [List.append_nil]
  have listed : Event.drained key ∈
      (if s.memory.deadLetter.has key' then [Event.drained key'] else []) ↔
        s.memory.deadLetter.has key' = true ∧ key = key' := by
    split
    · rename_i there
      simp [there]
    · rename_i missing
      simp [missing]
  rw [whole]
  refine budget.taken ?_ ?_ ?_
  · intro event member
    split at member
    · exact ⟨key', List.mem_singleton.mp member⟩
    · cases member
  · intro logged
    obtain ⟨there, rfl⟩ := listed.mp logged
    refine ⟨there, Bool.eq_false_of_not_eq_true fun still => ?_⟩
    exact (DeadLetterStore.has_discard.mp still).2 rfl
  · intro missing
    rw [Bool.eq_iff_iff, DeadLetterStore.has_discard, and_iff_left_iff_imp]
    rintro there rfl
    exact missing (listed.mpr ⟨there, rfl⟩)

/-! ## Runs -/

/-- Both hold after every input that observes the key if it is a poll. -/
theorem Budget.step {input : Input} (budget : Budget config key s)
    (stored : Stored config s.memory) (some_attempt : 1 ≤ config.retry.maxAttempts)
    (last : Session.next config s input = some s') (observes : Session.Observes key s input) :
    Budget config key s' ∧ Stored config s'.memory := by
  unfold Session.next at last
  cases input with
  | poll response =>
      simp only at last
      split at last
      · cases last
        exact ⟨budget.poll observes, stored.poll response⟩
      · cases last
  | relay reply now failedAt =>
      simp only at last
      split at last
      · cases last
        refine ⟨budget.relay stored some_attempt, ?_⟩
        unfold Session.relay
        split
        · exact stored
        · exact stored.spends (relayOne_spends ‹_›)
      · cases last
  | finish | save | saveFails | persist | persistFails =>
      simp only at last
      split at last
      · cases last
        exact ⟨budget.congr rfl rfl fun _ => rfl, stored⟩
      · cases last
  | drain =>
      cases last
      exact ⟨budget.drain, stored⟩
  | discard key' =>
      cases last
      exact ⟨budget.discard key', stored⟩
  | crash | arrive | chain => cases last

/-- Nothing is logged of a dead letter but that it is taken out. -/
theorem quiet {input : Input} (last : Session.next config s input = some s')
    (dead : s.memory.deadLetter.has key = true) :
    s'.log.count (.asked key) = s.log.count (.asked key) ∧
      ∀ counts, countAll counts key s'.log = countAll counts key s.log ∨
        countAll counts key s'.log = 0 := by
  unfold Session.next at last
  cases input with
  | poll | finish | save | saveFails | persist | persistFails =>
      simp only at last
      split at last
      · cases last
        exact ⟨rfl, fun _ => .inl rfl⟩
      · cases last
  | relay reply now failedAt =>
      simp only at last
      split at last
      · rename_i pending rest results relaying
        cases last
        unfold Session.relay
        by_cases own : pending.key = key
        · subst own
          obtain ⟨result, ran⟩ := @relayOne_dead config s.memory pending reply now failedAt dead
          rw [ran]
          exact ⟨rfl, fun _ => .inl rfl⟩
        · have unasked : Event.asked pending.key ≠ .asked key := fun same =>
            own (Event.asked.inj same)
          split
          · refine ⟨by simp [List.count_append, unasked], fun counts => .inl ?_⟩
            refine countAll_other fun event member => ?_
            cases List.mem_singleton.mp member
            exact ⟨nofun, nofun⟩
          · simp only
            split
            · exact ⟨rfl, fun _ => .inl rfl⟩
            · refine ⟨by simp [List.count_append, unasked], fun counts => .inl ?_⟩
              refine countAll_other fun event member => ?_
              simp only [List.mem_cons, List.not_mem_nil, or_false] at member
              rcases member with rfl | rfl
              · exact ⟨nofun, nofun⟩
              · exact ⟨fun _ same => own (Event.ended.inj same).1, nofun⟩
      · cases last
  | drain =>
      cases last
      refine ⟨?_, fun counts => .inr (countAll_drained ?_ ?_)⟩
      · have unasked : (s.memory.deadLetter.map fun entry => Event.drained entry.key).count
            (.asked key) = 0 := List.count_eq_zero_of_not_mem (by simp)
        rw [List.count_append, unasked, Nat.add_zero]
      · intro event member
        obtain ⟨entry, -, rfl⟩ := List.mem_map.mp member
        exact ⟨_, rfl⟩
      · obtain ⟨entry, member, named⟩ := DeadLetterStore.has_iff.mp dead
        exact List.mem_map.mpr ⟨entry, member, by rw [named]⟩
  | discard key' =>
      cases last
      simp only
      split
      · refine ⟨by simp [List.count_append], fun counts => ?_⟩
        rw [countAll_append, List.foldl_cons, List.foldl_nil, count]
        split
        · exact .inr rfl
        · exact .inl rfl
      · exact ⟨rfl, fun _ => .inl rfl⟩
  | crash | arrive | chain => cases last

/-- Dead letters are added one at a time. -/
theorem added {input : Input} (last : Session.next config s input = some s')
    (alive : s.memory.deadLetter.has key = false) (dead : s'.memory.deadLetter.has key = true) :
    ∃ entry, entry.key = key ∧ s'.memory.deadLetter = s.memory.deadLetter ++ [entry] := by
  have same (kept : s'.memory.deadLetter = s.memory.deadLetter) : False := by
    rw [kept, alive] at dead
    cases dead
  unfold Session.next at last
  cases input with
  | poll response =>
      simp only at last
      split at last
      · cases last
        exact (same (onPoll_kept config s.memory response).1).elim
      · cases last
  | relay reply now failedAt =>
      simp only at last
      split at last
      · rename_i pending rest results relaying
        cases last
        unfold Session.relay at dead same ⊢
        split
        · rename_i ran
          exact (same (by rw [ran])).elim
        · rename_i relayed ran
          simp only [ran] at dead same
          cases relayOne_spends ran with
          | nothing | resolved | failed => exact (same rfl).elim
          | exhausted result entry live named out =>
              rcases DeadLetterStore.has_append.mp dead with old | new
              · exact absurd (alive.symm.trans old) Bool.false_ne_true
              · exact ⟨entry, new, rfl⟩
      · cases last
  | finish | save | saveFails | persist | persistFails =>
      simp only at last
      split at last
      · cases last
        exact (same rfl).elim
      · cases last
  | drain =>
      cases last
      cases dead
  | discard key' =>
      cases last
      have old := (DeadLetterStore.has_discard.mp dead).1
      exact absurd (alive.symm.trans old) Bool.false_ne_true
  | crash | arrive | chain => cases last

end session

/-- The budget of a key as it is meant. -/
structure WithinBudget (config : Config) (key : MessageKey) (s : Session) : Prop where
  bounded : failures key s.log ≤ config.retry.maxAttempts
  stored : ∀ key retryState, s.memory.attempts key = some retryState →
    retryState.attempts < config.retry.maxAttempts
  once : additions key s.log = if failures key s.log = config.retry.maxAttempts then 1 else 0
  buried : failures key s.log = config.retry.maxAttempts → s.memory.deadLetter.has key = true
  /-- The last failure of the budget adds the dead letter. -/
  adds : ∀ input s', Session.next config s input = some s' → Session.Observes key s input →
    failures key s.log < config.retry.maxAttempts →
    failures key s'.log = config.retry.maxAttempts →
      s.memory.deadLetter.has key = false ∧ ∃ entry, entry.key = key ∧
        s'.memory.deadLetter = s.memory.deadLetter ++ [entry]
  /-- The destination is not asked for a dead letter. -/
  silent : ∀ input s', Session.next config s input = some s' →
    s.memory.deadLetter.has key = true → s'.log.count (.asked key) = s.log.count (.asked key)

theorem Budget.start (config : Config) (key : MessageKey) (checkpoint : Option Nat)
    (deadLetterFile : DeadLetterStore) :
    Budget config key ⟨Memory.resume config checkpoint deadLetterFile, .idle, []⟩ where
  retired _ := rfl
  live _ := ⟨rfl, rfl⟩
  dead _ := .inl ⟨rfl, rfl⟩

theorem within_budget {config : Config} {key : MessageKey} {s : Session}
    (some_attempt : 1 ≤ config.retry.maxAttempts)
    (reach : ((Session.system config).under (Session.Observes key)).Reachable s) :
    WithinBudget config key s := by
  have both : Budget config key s ∧ Stored config s.memory := by
    refine System.Reachable.invariant
      (P := fun s => Budget config key s ∧ Stored config s.memory) ?_ ?_ reach
    · rintro s ⟨checkpoint, deadLetterFile, rfl⟩
      exact ⟨.start config key checkpoint deadLetterFile, nofun⟩
    · rintro s t s' - ⟨budget, stored⟩ ⟨last, observes⟩
      exact budget.step stored some_attempt last observes
  obtain ⟨budget, stored⟩ := both
  have below := stored.spent_lt some_attempt key
  constructor
  case stored => exact stored
  case bounded =>
    cases dead : s.memory.deadLetter.has key with
    | false =>
        have spent := (budget.live dead).1
        omega
    | true => rcases budget.dead dead with ⟨none, -⟩ | ⟨all, -⟩ <;> omega
  case once =>
    cases dead : s.memory.deadLetter.has key with
    | false =>
        obtain ⟨spent, none_added⟩ := budget.live dead
        rw [none_added, if_neg (by omega)]
    | true =>
        rcases budget.dead dead with ⟨none, none_added⟩ | ⟨all, one_added⟩
        · rw [none_added, if_neg (by omega)]
        · rw [one_added, if_pos all]
  case buried =>
    intro all
    cases dead : s.memory.deadLetter.has key with
    | false =>
        have spent := (budget.live dead).1
        omega
    | true => rfl
  case adds =>
    intro input s' last observes short all
    obtain ⟨budget', stored'⟩ := budget.step stored some_attempt last observes
    have below' := stored'.spent_lt some_attempt key
    have alive : s.memory.deadLetter.has key = false := by
      refine Bool.eq_false_of_not_eq_true fun dead => ?_
      rcases (quiet last dead).2 (fun outcome => outcome = .failed ∨ outcome = .deadLettered) with
        same | anew
      · exact absurd (same.symm.trans all) (Nat.ne_of_lt short)
      · have none := anew.symm.trans all
        omega
    have dead' : s'.memory.deadLetter.has key = true := by
      refine Bool.eq_true_of_not_eq_false fun alive' => ?_
      have spent := (budget'.live alive').1
      omega
    exact ⟨alive, added last alive dead'⟩
  case silent => exact fun input s' last dead => (quiet last dead).1

namespace Sample

def failing : PendingMessage := ⟨⟨1, 2, 7, .fillConfirmed, 0⟩, 3⟩

def budgetConfig : Config := ⟨0, 0, ⟨2, 1000⟩⟩

/-- One tick in which the message fails. -/
def failingTick (now : Nat) : List Input :=
  [.poll ⟨[failing], 5, none, none, none⟩, .relay (.failed "revert") now now, .finish, .save,
    .persist]

def idleSession : Session := ⟨Memory.resume budgetConfig none [], .idle, []⟩

instance (key : MessageKey) (s : Session) (input : Input) :
    Decidable (Session.Observes key s input) :=
  match input with
  | .poll _ => inferInstanceAs (Decidable (∃ _ ∈ _, _))
  | .relay .. | .finish | .save | .saveFails | .persist | .persistFails | .crash | .arrive _
  | .chain _ | .drain | .discard _ => isTrue trivial

/-- Both attempts have failed, and the third tick leaves the dead letter alone. -/
def exhausted : Session :=
  (System.replay (fun s input =>
    if Session.Observes failing.key s input then Session.next budgetConfig s input else none)
    idleSession (failingTick 0 ++ failingTick 1000 ++ failingTick 9000)).get (by decide +kernel)

theorem exhausted_reachable :
    ((Session.system budgetConfig).under (Session.Observes failing.key)).Reachable exhausted :=
  System.Reachable.later (.init ⟨none, [], rfl⟩)
    (System.Later.of_get_under (S := Session.system budgetConfig) (fun _ _ _ stepped => stepped) _)

end Sample

theorem within_budget_sample :
    WithinBudget Sample.budgetConfig Sample.failing.key Sample.exhausted ∧
      failures Sample.failing.key Sample.exhausted.log = 2 :=
  ⟨within_budget (by decide) Sample.exhausted_reachable, by decide +kernel⟩

end Perihelion.Relayer

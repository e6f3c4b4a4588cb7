import Perihelion.Relayer.Progress

/-! # The cursor passes nothing that is unresolved

In memory and in its file, the cursor has only final blocks behind it, and of their messages
none that still needs the relayer.  The one step that can break this is the reorg branch: it
sets the cursor without looking where it was.
-/

namespace Perihelion.Relayer

open BigEndian Transition Frontier

/-- Up to both cursors all messages are done, in whatever sense, and nothing can be rewritten. -/
structure Covers (done : World → MessageKey → Prop) (config : Config) (w : World) : Prop where
  cursor : Covered (· ∈ w.chain.messages) PendingMessage.srcBlock (fun pending => done w pending.key)
    config.startBlock w.memory.cursor
  saved : Covered (· ∈ w.chain.messages) PendingMessage.srcBlock (fun pending => done w pending.key)
    config.startBlock (w.checkpoint.getD config.startBlock)
  cursorWithin : w.memory.cursor ≤ max config.startBlock (w.final + 1)
  savedWithin : w.checkpoint.getD config.startBlock ≤ max config.startBlock (w.final + 1)

/-- What the loop calls resolved is done. -/
def Settled (done : World → MessageKey → Prop) (w : World) : Prop :=
  ∀ polled confirmedHead remaining results,
    w.phase = .relaying polled confirmedHead remaining results →
      ∀ result ∈ results, result.resolved = true → done w result.key

/-- The reorg for which a poll sets the cursor back begins at the cursor or before it. -/
def Backward (config : Config) (w : World) : Input → Prop
  | .poll response =>
      ∀ depth ∈ reorgDepth config w.memory response, response.head ≤ w.memory.cursor + depth
  | _ => True

variable {done : World → MessageKey → Prop} {config : Config} {w w' : World}

theorem covers_start (config : Config) (chain : Chain) (arrived : List MessageKey) :
    Covers done config (World.start config chain arrived) where
  cursor := Covered.empty (Nat.le_refl _)
  saved := Covered.empty (Nat.le_refl _)
  cursorWithin := Nat.le_max_left _ _
  savedWithin := Nat.le_max_left _ _

/-- Steps that move neither cursor nor chain. -/
theorem Covers.frame (covers : Covers done config w) (mono : ∀ key, done w key → done w' key)
    (chain : w'.chain = w.chain) (final : w'.final = w.final)
    (cursor : w'.memory.cursor = w.memory.cursor)
    (checkpoint : w'.checkpoint = w.checkpoint) : Covers done config w' := by
  constructor
  case cursor =>
    rw [chain, cursor]
    exact covers.cursor.mono fun pending => mono pending.key
  case saved =>
    rw [chain, checkpoint]
    exact covers.saved.mono fun pending => mono pending.key
  case cursorWithin =>
    rw [final, cursor]
    exact covers.cursorWithin
  case savedWithin =>
    rw [final, checkpoint]
    exact covers.savedWithin

/-- Behind the next cursor the loop has resolved everything. -/
theorem passed_done {polled confirmedHead results}
    (loop : Loop w polled confirmedHead [] results)
    (settled : ∀ result ∈ results, result.resolved = true → done w result.key)
    (pending : PendingMessage) (given : pending ∈ w.chain.messages)
    (after : w.memory.cursor ≤ pending.srcBlock)
    (before : pending.srcBlock < nextCursor polled confirmedHead results) :
    done w pending.key := by
  have bound := nextCursor_le polled confirmedHead results
  have member := loop.complete pending given after (by omega)
  rcases loop.relayed pending member with waiting | relayed
  · exact absurd waiting List.not_mem_nil
  · obtain ⟨result, kept, found⟩ := resultByKey_mem relayed
    have resolved := resolved_of_lt_nextCursor member found before
    exact resultByKey_key found ▸ settled result kept resolved

theorem Covers.finished {polled confirmedHead results} (covers : Covers done config w)
    (loop : Loop w polled confirmedHead [] results)
    (settled : ∀ result ∈ results, result.resolved = true → done w result.key)
    (mono : ∀ key, done w key → done
      { w with memory := advanceCursor w.memory polled confirmedHead results, phase := .saving } key) :
    Covers done config
      { w with memory := advanceCursor w.memory polled confirmedHead results, phase := .saving } := by
  have passed := passed_done loop settled
  have advanced := covers.cursor.advance passed
  constructor
  case cursor => exact advanced.mono fun pending => mono pending.key
  case saved => exact covers.saved.mono fun pending => mono pending.key
  case cursorWithin =>
    have bound := nextCursor_le polled confirmedHead results
    have final := loop.final
    have within := covers.cursorWithin
    show max w.memory.cursor _ ≤ max config.startBlock (w.final + 1)
    omega
  case savedWithin => exact covers.savedWithin

theorem Covers.extended {chain : Chain} (covers : Covers done config w)
    (agrees : w.chain.Agrees chain w.final)
    (mono : ∀ key, done w key → done
      { w with chain, final := max w.final (chain.head - config.confirmations) } key) :
    Covers done config
      { w with chain, final := max w.final (chain.head - config.confirmations) } := by
  constructor
  case cursor =>
    exact (covers.cursor.rewrite covers.cursorWithin agrees.new).mono fun pending => mono pending.key
  case saved =>
    exact (covers.saved.rewrite covers.savedWithin agrees.new).mono fun pending => mono pending.key
  case cursorWithin =>
    have within := covers.cursorWithin
    show w.memory.cursor ≤ max config.startBlock (max w.final _ + 1)
    omega
  case savedWithin =>
    have within := covers.savedWithin
    show w.checkpoint.getD config.startBlock ≤ max config.startBlock (max w.final _ + 1)
    omega

theorem Covers.step {input : Input} (covers : Covers done config w) (progress : Progress config w)
    (settled : Settled done w) (stepped : next config w input = some w')
    (backward : Backward config w input) (mono : ∀ key, done w key → done w' key) :
    Covers done config w' := by
  cases next_moves stepped with
  | rolledBack response depth idle reorg =>
      have back : response.head ≤ w.memory.cursor + depth := backward depth reorg
      have within := covers.cursorWithin
      constructor
      case cursor =>
        have retreated := covers.cursor.retreat
          (show max config.startBlock (response.head - depth) ≤ max config.startBlock _ by omega)
        exact retreated.mono fun pending => mono pending.key
      case saved => exact covers.saved.mono fun pending => mono pending.key
      case cursorWithin =>
        show max config.startBlock (response.head - depth) ≤ max config.startBlock (w.final + 1)
        omega
      case savedWithin => exact covers.savedWithin
  | polled response =>
      exact covers.frame mono rfl rfl (Memory.record_letters config w.memory response).2.2 rfl
  | relayed reply now failedAt polled confirmedHead pending rest results relayed loop truthful step =>
      exact covers.frame mono rfl rfl step.cursor rfl
  | finished polled confirmedHead results loop =>
      exact covers.finished (progress.loop _ _ _ _ loop) (settled _ _ _ _ loop) mono
  | saved =>
      constructor
      case cursor => exact covers.cursor.mono fun pending => mono pending.key
      case saved => exact covers.cursor.mono fun pending => mono pending.key
      case cursorWithin => exact covers.cursorWithin
      case savedWithin => exact covers.cursorWithin
  | crashed =>
      constructor
      case cursor => exact covers.saved.mono fun pending => mono pending.key
      case saved => exact covers.saved.mono fun pending => mono pending.key
      case cursorWithin => exact covers.savedWithin
      case savedWithin => exact covers.savedWithin
  | chain chain agrees => exact covers.extended agrees mono
  | aborted | unsaved | persisted | unpersisted | arrived | drained | discarded =>
      exact covers.frame mono rfl rfl rfl rfl

theorem Settled.step {input : Input} (settled : Settled done w)
    (stepped : next config w input = some w') (mono : ∀ key, done w key → done w' key)
    (relays : ∀ polled confirmedHead pending rest results relayed reply,
      w.phase = .relaying polled confirmedHead (pending :: rest) results →
      reply.truthful pending.key w.arrived = true → RelayStep w.memory pending reply relayed →
      relayed.result.resolved = true →
        done (w.after polled confirmedHead pending rest results relayed) pending.key) :
    Settled done w' := by
  cases next_moves stepped with
  | polled response =>
      intro _ _ _ _ relaying
      cases relaying
      intro result member
      cases member
  | relayed reply now failedAt polled confirmedHead pending rest results relayed loop truthful step =>
      intro _ _ _ _ relaying
      cases relaying
      intro result member resolved
      rcases List.mem_append.mp member with old | new
      · exact mono _ (settled _ _ _ _ loop result old resolved)
      · obtain rfl := List.mem_singleton.mp new
        rw [step.keyed]
        exact relays _ _ _ _ _ _ reply loop truthful step resolved
  | rolledBack | aborted | finished | saved | unsaved | persisted | unpersisted | crashed =>
      rintro _ _ _ _ ⟨⟩
  | arrived | chain | drained | discarded =>
      intro polled confirmedHead remaining results relaying result member resolved
      exact mono _ (settled polled confirmedHead remaining results relaying result member resolved)

end Perihelion.Relayer

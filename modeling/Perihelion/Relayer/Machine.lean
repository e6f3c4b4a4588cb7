import Perihelion.Relayer.Tick
import Perihelion.Lib.Transition

/-! # The relayer as a transition system

A run of one relayer process after the other, against a source chain that grows and reorganises,
a destination that others deliver to as well, and the two files.  A process can end between any
two awaits.  Both files are written to the side and renamed, so that a write happens at once or
not at all.  A poll that fails, and a delivery whose outcome never comes back, change nothing.
-/

namespace Perihelion.Relayer

open BigEndian Transition

/-- The source chain as it stands: its hashes, and the messages emitted in its blocks. -/
structure Chain where
  head : Nat
  hash : Nat → Bytes32
  messages : List PendingMessage
  emitted : ∀ pending ∈ messages, pending.srcBlock ≤ head

/-- The same blocks up to a height. -/
structure Chain.Agrees (chain chain' : Chain) (height : Nat) : Prop where
  hash : ∀ number ≤ height, chain'.hash number = chain.hash number
  kept : ∀ pending ∈ chain.messages, pending.srcBlock ≤ height → pending ∈ chain'.messages
  new : ∀ pending ∈ chain'.messages, pending.srcBlock ≤ height → pending ∈ chain.messages

/-- A header of the chain.  The parent of the first block is not looked at. -/
structure Chain.Header (chain : Chain) (block : BlockRecord) : Prop where
  hash : block.hash = chain.hash block.number
  parentHash : block.number ≠ 0 → block.parentHash = chain.hash (block.number - 1)

/-- The watcher reads one version of the chain, up to a head that may lag behind, and returns
    every message from `fromBlock` on. -/
structure Chain.Answers (chain : Chain) (fromBlock : Nat) (poll : Poll) : Prop where
  head : poll.head ≤ chain.head
  complete : ∀ pending ∈ chain.messages, fromBlock ≤ pending.srcBlock →
    pending.srcBlock ≤ poll.head → pending ∈ poll.messages
  sound : ∀ pending ∈ poll.messages, pending ∈ chain.messages
  headers : ∀ block ∈ poll.blockHeaders.getD [], chain.Header block
  headHash : poll.headHash.all fun hash => hash = chain.hash poll.head
  parentHash : poll.parentHash.all fun hash =>
    poll.head ≠ 0 → hash = chain.hash (poll.head - 1)

instance (chain chain' : Chain) (height : Nat) : Decidable (chain.Agrees chain' height) :=
  decidable_of_iff
    ((∀ number ≤ height, chain'.hash number = chain.hash number) ∧
      (∀ pending ∈ chain.messages, pending.srcBlock ≤ height → pending ∈ chain'.messages) ∧
      ∀ pending ∈ chain'.messages, pending.srcBlock ≤ height → pending ∈ chain.messages)
    ⟨fun given => ⟨given.1, given.2.1, given.2.2⟩, fun given => ⟨given.hash, given.kept, given.new⟩⟩

instance (chain : Chain) (block : BlockRecord) : Decidable (chain.Header block) :=
  decidable_of_iff
    (block.hash = chain.hash block.number ∧
      (block.number ≠ 0 → block.parentHash = chain.hash (block.number - 1)))
    ⟨fun given => ⟨given.1, given.2⟩, fun given => ⟨given.hash, given.parentHash⟩⟩

instance (chain : Chain) (fromBlock : Nat) (poll : Poll) :
    Decidable (chain.Answers fromBlock poll) :=
  decidable_of_iff
    (poll.head ≤ chain.head ∧
      (∀ pending ∈ chain.messages, fromBlock ≤ pending.srcBlock →
        pending.srcBlock ≤ poll.head → pending ∈ poll.messages) ∧
      (∀ pending ∈ poll.messages, pending ∈ chain.messages) ∧
      (∀ block ∈ poll.blockHeaders.getD [], chain.Header block) ∧
      (poll.headHash.all fun hash => hash = chain.hash poll.head) ∧
      poll.parentHash.all fun hash => poll.head ≠ 0 → hash = chain.hash (poll.head - 1))
    ⟨fun given => ⟨given.1, given.2.1, given.2.2.1, given.2.2.2.1, given.2.2.2.2.1,
        given.2.2.2.2.2⟩,
      fun given => ⟨given.head, given.complete, given.sound, given.headers, given.headHash,
        given.parentHash⟩⟩

structure World where
  memory : Memory
  phase : Phase
  checkpoint : Option Nat
  deadLetterFile : DeadLetterStore
  chain : Chain
  /-- The highest block that has ever had `confirmations` blocks on top of it. -/
  final : Nat
  /-- What the destination has. -/
  arrived : List MessageKey
  /-- Every attempt of the relayer, the processes taken together. -/
  trace : List (MessageKey × Outcome)

inductive Input where
  | poll (response : Poll)
  | relay (reply : Reply) (now failedAt : Nat)
  /-- The end of the loop. -/
  | finish
  | save
  | saveFails
  | persist
  | persistFails
  /-- The process ends and another one is started. -/
  | crash
  /-- Somebody else delivers the message. -/
  | arrive (key : MessageKey)
  | chain (chain : Chain)
  /-- The two calls of an operator. -/
  | drain
  | discard (key : MessageKey)

/-- A destination that calls a message delivered has it. -/
def Reply.truthful (reply : Reply) (key : MessageKey) (arrived : List MessageKey) : Bool :=
  match reply with
  | .alreadyDelivered => arrived.contains key
  | _ => true

/-- The world after a message of the loop has been relayed. -/
def World.after (w : World) (polled : List PendingMessage) (confirmedHead : Nat)
    (pending : PendingMessage) (rest : List PendingMessage) (results : List RelayResult)
    (relayed : Relayed) : World :=
  { w with
    memory := relayed.memory
    phase := .relaying polled confirmedHead rest (results ++ [relayed.result])
    arrived := if relayed.outcome = some .delivered then pending.key :: w.arrived else w.arrived
    trace := w.trace ++ (relayed.outcome.map fun outcome => (pending.key, outcome)).toList }

/-- A reorg replaces no block that has had `confirmations` blocks on top of it, and never the
    first block. -/
def next (config : Config) (w : World) : Input → Option World
  | .poll response =>
      match w.phase with
      | .idle =>
          if w.chain.Answers w.memory.cursor response then
            let polled := onPoll config w.memory response
            some { w with memory := polled.1, phase := polled.2 }
          else none
      | _ => none
  | .relay reply now failedAt =>
      match w.phase with
      | .relaying polled confirmedHead (pending :: rest) results =>
          if reply.truthful pending.key w.arrived then
            match relayOne config w.memory pending reply now failedAt with
            | none => some { w with phase := .idle }
            | some relayed => some (w.after polled confirmedHead pending rest results relayed)
          else none
      | _ => none
  | .finish =>
      match w.phase with
      | .relaying polled confirmedHead [] results =>
          some { w with
            memory := advanceCursor w.memory polled confirmedHead results
            phase := .saving }
      | _ => none
  | .save =>
      match w.phase with
      | .saving => some { w with checkpoint := some w.memory.cursor, phase := .persisting }
      | _ => none
  | .saveFails =>
      match w.phase with
      | .saving => some { w with phase := .idle }
      | _ => none
  | .persist =>
      match w.phase with
      | .persisting => some { w with deadLetterFile := w.memory.deadLetter, phase := .idle }
      | _ => none
  | .persistFails =>
      match w.phase with
      | .persisting => some { w with phase := .idle }
      | _ => none
  | .crash =>
      some { w with
        memory := Memory.resume config w.checkpoint w.deadLetterFile
        phase := .idle }
  | .arrive key => some { w with arrived := key :: w.arrived }
  | .chain chain =>
      if w.chain.Agrees chain w.final then
        some { w with chain, final := max w.final (chain.head - config.confirmations) }
      else none
  | .drain => some { w with memory := { w.memory with deadLetter := [] } }
  | .discard key =>
      some { w with memory := { w.memory with deadLetter := w.memory.deadLetter.discard key } }

/-- The first process, without any files. -/
def World.start (config : Config) (chain : Chain) (arrived : List MessageKey) : World where
  memory := Memory.resume config none []
  phase := .idle
  checkpoint := none
  deadLetterFile := []
  chain := chain
  final := chain.head - config.confirmations
  arrived := arrived
  trace := []

def system (config : Config) : System World Input where
  init w := ∃ chain arrived, w = World.start config chain arrived
  step w input w' := next config w input = some w'

def replay (config : Config) (w : World) (inputs : List Input) : Option World :=
  System.replay (next config) w inputs

theorem later_of_replay {config : Config} {w w' : World} {inputs : List Input}
    (replayed : replay config w inputs = some w') : (system config).Later w w' :=
  System.Later.of_replay (S := system config) (fun _ _ _ stepped => stepped) replayed

/-- A replay that stops at an input on which the condition fails. -/
def replayUnder (config : Config) (condition : World → Input → Prop)
    [∀ w input, Decidable (condition w input)] (w : World) (inputs : List Input) : Option World :=
  System.replay (fun w input => if condition w input then next config w input else none) w inputs

theorem later_of_replayUnder {config : Config} {condition : World → Input → Prop}
    [∀ w input, Decidable (condition w input)] {w w' : World} {inputs : List Input}
    (replayed : replayUnder config condition w inputs = some w') :
    ((system config).under condition).Later w w' :=
  System.Later.of_replay_under (S := system config) (fun _ _ _ stepped => stepped) replayed

end Perihelion.Relayer

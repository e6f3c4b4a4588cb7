import Perihelion.Relayer.RefundScan
import Perihelion.SolverNode.ReleasedWatcher

/-! # What the services pass on

Neither watcher makes an event up: if the answers of its node have a property, all that it holds,
waits with or has passed on has it.
-/

namespace Perihelion.SolverNode.Released

/-- The events that a poll still has to do with. -/
def listed : Frame → List ReleasedEvent
  | .head | .events .. => []
  | .report _ _ _ event rest => event :: rest
  | .callback _ _ _ rest | .handled _ _ _ _ rest => rest

def Listed (P : ReleasedEvent → Prop) (w : World) : Prop :=
  ∀ poll ∈ w.polls, ∀ event ∈ listed poll.frame, P event

variable {P : ReleasedEvent → Prop} {options : ReleasedWatcherOptions} {w w' : World} {k : Nat}
  {poll : Poll} {head first last : Int} {event : ReleasedEvent} {rest : List ReleasedEvent}

theorem Listed.mono {Q : ReleasedEvent → Prop} (weaker : ∀ event, P event → Q event)
    (holds : Listed P w) : Listed Q w :=
  fun poll member event there => weaker event (holds poll member event there)

theorem Listed.await (holds : Listed P w) {frame : Frame} (new : ∀ event ∈ listed frame, P event) :
    Listed P (w.await k poll frame) := by
  intro other member
  rcases List.mem_or_eq_of_mem_set member with old | rfl
  · exact holds other old
  · exact new

theorem Listed.finish (holds : Listed P w) : Listed P (w.finish k poll) :=
  fun other member => holds other (List.mem_of_mem_eraseIdx member)

theorem Listed.scan (holds : Listed P w) : Listed P (w.scan options k poll head first) := by
  unfold World.scan
  split
  · refine holds.await fun event member => ?_
    cases member
  · exact holds.finish

theorem Listed.advance (holds : Listed P w) : Listed P (w.advance options k poll head last) := by
  have moved : Listed P { w with watcher := { w.watcher with nextBlock := some (last + 1) } } := holds
  exact moved.scan

theorem Listed.forEach (holds : Listed P w) (new : ∀ event ∈ rest, P event) :
    Listed P (w.forEach options k poll head first last rest) := by
  cases rest with
  | nil => exact holds.advance
  | cons event rest =>
      rw [World.forEach]
      split
      · exact holds.advance
      · split
        · exact holds.await fun other member => new other (List.mem_cons_of_mem _ member)
        · exact holds.await new

theorem Listed.onHead (holds : Listed P w) : Listed P (w.onHead options k poll head) := by
  unfold World.onHead
  split
  · have begun : Listed P { w with
        watcher := { w.watcher with nextBlock := some head }, startBlock := some head } := holds
    exact begun.finish
  · split
    · exact holds.finish
    · exact holds.scan

theorem Listed.onReported (holds : Listed P w) (new : ∀ event ∈ rest, P event)
    (answer : Except Thrown Unit) :
    Listed P (w.onReported k poll head first last event rest answer) := by
  let told : World := { w with log := w.log ++ [(event.intentHash, answer)] }
  have told_holds : Listed P told := holds
  have added : Listed P { told with
    watcher := { told.watcher with reported := event.key :: told.watcher.reported } } := holds
  unfold World.onReported
  cases answer with
  | ok answered => exact added.await new
  | error err =>
      dsimp only
      split
      · exact added.await new
      · exact told_holds.finish

theorem Listed.resume {answer : Answer} (holds : Listed P w) (frame : ∀ event ∈ listed poll.frame, P event)
    (new : ∀ events, answer = .events events → ∀ event ∈ events, P event)
    (resumed : w.resume options k poll answer = some w') : Listed P w' := by
  cases answer with
  | failed =>
      simp only [World.resume] at resumed
      split at resumed
      all_goals cases resumed
      all_goals exact holds.finish
  | head height =>
      simp only [World.resume] at resumed
      split at resumed
      · cases resumed
        exact holds.onHead
      · cases resumed
  | events fetched =>
      simp only [World.resume] at resumed
      split at resumed
      · cases resumed
        exact holds.forEach fun event member =>
          new fetched rfl event ((List.mem_insertionSort _).mp member)
      · cases resumed
  | reported answer =>
      simp only [World.resume] at resumed
      split at resumed
      · rename_i waits
        cases resumed
        rw [waits] at frame
        exact holds.onReported (fun event member => frame event (List.mem_cons_of_mem _ member)) answer
      · cases resumed
  | done =>
      simp only [World.resume] at resumed
      split at resumed
      · rename_i waits
        cases resumed
        rw [waits] at frame
        exact holds.await frame
      · rename_i waits
        cases resumed
        rw [waits] at frame
        exact holds.forEach frame
      · cases resumed

theorem Listed.next {input : Input} (holds : Listed P w)
    (new : ∀ k events, input = .resume k (.events events) → ∀ event ∈ events, P event)
    (stepped : next options w input = some w') : Listed P w' := by
  have polled (byLoop : Bool) : ∀ poll ∈ w.polls ++ [.start byLoop], ∀ event ∈ listed poll.frame,
      P event := by
    intro poll member
    rcases List.mem_append.mp member with old | new
    · exact holds poll old
    · cases List.mem_singleton.mp new
      intro event member
      cases member
  cases input with
  | start =>
      simp only [Released.next] at stepped
      split at stepped
      · cases stepped
        exact holds
      · cases stepped
        exact polled true
  | stop =>
      simp only [Released.next] at stepped
      split at stepped
      all_goals cases stepped
      all_goals exact holds
  | stopResolves =>
      simp only [Released.next] at stepped
      split at stepped
      all_goals cases stepped
      exact holds
  | pollOnce =>
      cases stepped
      exact polled false
  | wake =>
      simp only [Released.next] at stepped
      split at stepped
      · split at stepped
        · cases stepped
          exact holds
        · cases stepped
          exact polled true
      · cases stepped
  | resume k answer =>
      obtain ⟨poll, there, resumed⟩ := Option.bind_eq_some_iff.mp stepped
      refine holds.resume (holds poll (List.mem_of_getElem? there)) ?_ resumed
      rintro events rfl
      exact new k events rfl

theorem Listed.create : Listed P (.create options) := fun _ member => by cases member

end Perihelion.SolverNode.Released

namespace Perihelion.Relayer.RefundScan

open BigEndian

variable {P : RefundEvent → Prop} {keccak256 : Bytes → Bytes32} {confirmations : Nat}
  {w w' : World} {logs : List Log} {toBlock head fromBlock : Int}

/-- On the chain, in the logs still to be passed on, and among what has been. -/
structure Backed (P : RefundEvent → Prop) (keccak256 : Bytes → Bytes32) (w : World)
    (logs : List Log) : Prop where
  chain : ∀ event ∈ w.chain.refunds, P event
  pending : ∀ log ∈ logs, ∃ event, P event ∧ event.log keccak256 = log
  passed : ∀ observation ∈ w.passed, ∃ event, P event ∧ event.observation = observation

theorem Backed.mono {Q : RefundEvent → Prop} (weaker : ∀ event, P event → Q event)
    (backed : Backed P keccak256 w logs) : Backed Q keccak256 w logs where
  chain event there := weaker event (backed.chain event there)
  pending log member := by
    obtain ⟨event, holds, same⟩ := backed.pending log member
    exact ⟨event, weaker event holds, same⟩
  passed observation member := by
    obtain ⟨event, holds, same⟩ := backed.passed observation member
    exact ⟨event, weaker event holds, same⟩

/-- The logs of the phase that comes next. -/
theorem Backed.moved (backed : Backed P keccak256 w logs) (chain : w'.chain = w.chain)
    (passed : w'.passed = w.passed) (pending : w'.phase.pending = []) :
    Backed P keccak256 w' w'.phase.pending where
  chain := by
    rw [chain]
    exact backed.chain
  pending := by
    rw [pending]
    exact fun _ member => by cases member
  passed := by
    rw [passed]
    exact backed.passed

theorem Backed.advance (backed : Backed P keccak256 w logs) :
    Backed P keccak256 (w.advance toBlock head) (w.advance toBlock head).phase.pending := by
  unfold World.advance
  split
  · exact backed.moved rfl rfl rfl
  · exact backed.moved rfl rfl rfl

theorem Backed.pass (backed : Backed P keccak256 w logs) :
    Backed P keccak256 (w.pass toBlock head logs) (w.pass toBlock head logs).phase.pending := by
  cases logs with
  | nil => exact backed.advance
  | cons log rest =>
      obtain ⟨event, holds, rfl⟩ := backed.pending log List.mem_cons_self
      rw [World.pass, decodeRefundLog_log]
      constructor
      case chain => exact backed.chain
      case pending => exact fun other member => backed.pending other (List.mem_cons_of_mem _ member)
      case passed =>
        intro observation member
        rcases List.mem_append.mp member with old | new
        · exact backed.passed observation old
        · exact ⟨event, holds, (List.mem_singleton.mp new).symm⟩

theorem Backed.scanRefunds (backed : Backed P keccak256 w logs) :
    Backed P keccak256 (w.scanRefunds fromBlock head) (w.scanRefunds fromBlock head).phase.pending := by
  unfold World.scanRefunds
  dsimp only
  split
  · split
    · exact backed.moved rfl rfl rfl
    · exact backed.moved rfl rfl rfl
  · split
    · exact backed.moved rfl rfl rfl
    · exact backed.moved rfl rfl rfl

theorem Backed.next {input : Input} (backed : Backed P keccak256 w w.phase.pending)
    (new : ∀ chain, input = .chain chain → ∀ event ∈ chain.refunds, P event)
    (stepped : next keccak256 confirmations w input = some w') :
    Backed P keccak256 w' w'.phase.pending := by
  cases input with
  | poll fromBlock head =>
      simp only [RefundScan.next] at stepped
      split at stepped
      · split at stepped
        · cases stepped
          exact backed.moved rfl rfl rfl
        · cases stepped
      · cases stepped
  | messagesDone maxBlockRange =>
      simp only [RefundScan.next] at stepped
      split at stepped
      · cases stepped
        have waited : Backed P keccak256
            { w with watcher := { w.watcher with maxBlockRange := maxBlockRange } } w.phase.pending :=
          ⟨backed.chain, backed.pending, backed.passed⟩
        exact waited.scanRefunds
      · cases stepped
  | messagesFail maxBlockRange =>
      simp only [RefundScan.next] at stepped
      split at stepped
      · cases stepped
        exact backed.moved rfl rfl rfl
      · cases stepped
  | logs logs =>
      simp only [RefundScan.next] at stepped
      split at stepped
      · split at stepped
        · rename_i answers
          cases stepped
          refine Backed.pass ⟨backed.chain, ?_, backed.passed⟩
          intro log member
          rw [answers] at member
          obtain ⟨event, found, same⟩ := List.mem_map.mp member
          exact ⟨event, backed.chain event (List.mem_filter.mp found).1, same⟩
        · cases stepped
      · cases stepped
  | rangeError =>
      simp only [RefundScan.next] at stepped
      split at stepped
      · rename_i waits
        split at stepped
        · cases stepped
          exact backed.moved rfl rfl rfl
        · cases stepped
          refine backed.moved rfl rfl ?_
          dsimp only
          rw [waits]
          rfl
      · cases stepped
  | logsFail =>
      simp only [RefundScan.next] at stepped
      split at stepped
      · cases stepped
        exact backed.moved rfl rfl rfl
      · cases stepped
  | passedOn =>
      simp only [RefundScan.next] at stepped
      split at stepped
      · rename_i waits
        cases stepped
        rw [waits] at backed
        exact backed.pass
      · cases stepped
  | chain chain =>
      simp only [RefundScan.next] at stepped
      split at stepped
      · cases stepped
        exact ⟨new chain rfl, backed.pending, backed.passed⟩
      · cases stepped

theorem Backed.start {maxBlockRange : Option Int} {chain : Chain} (shown : ∀ event ∈ chain.refunds, P event) :
    Backed P keccak256 (.start confirmations maxBlockRange chain) [] where
  chain := shown
  pending _ member := by cases member
  passed _ member := by cases member

end Perihelion.Relayer.RefundScan

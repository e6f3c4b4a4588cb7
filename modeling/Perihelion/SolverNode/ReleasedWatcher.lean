import Mathlib.Data.List.Infix
import Mathlib.Data.List.Sort
import Perihelion.Lib.Transition
import Perihelion.Mempool.Server

/-! # The watcher of released events

Polls of one watcher interleave at their awaits: its loop makes one after the other, and a caller
may make more by hand.  A range that a stop breaks off is scanned like any other, so that the
events left in it are never looked at again.
-/

namespace Perihelion.SolverNode.Released

open Sdk Transition
open Relayer (toLowerCase)

structure ReleasedEvent where
  intentHash : JsString
  blockNumber : Int
  logIndex : Int
  deriving DecidableEq

def ReleasedEvent.key (event : ReleasedEvent) : JsString := toLowerCase event.intentHash

structure ReleasedWatcherOptions where
  startBlock : Option Int
  maxBlockRange : Int

/-! ## Answers of the mempool -/

/-- What a report may throw. -/
inductive Thrown
  | object (status responseStatus : Option Int) (message : Option JsString)
  | other

/-- `anyErr.status ?? anyErr.response?.status`. -/
def Thrown.status : Thrown → Option Int
  | .object status responseStatus _ => status <|> responseStatus
  | .other => none

/-- `(anyErr.message ?? "").toLowerCase()`. -/
def Thrown.text : Thrown → JsString
  | .object _ _ message => toLowerCase (message.getD (js ""))
  | .other => js ""

def includes (s part : JsString) : Bool := decide (part <:+: s)

/-- An answer that the intent is settled, or otherwise terminal. -/
def Thrown.terminal (err : Thrown) : Bool :=
  err.status = some 409 || includes err.text (js "already settled") ||
    includes err.text (js "not pending") || includes err.text (js "invalid status transition")

def isAlreadySettledError : Thrown → Bool
  | .other => false
  | .object status responseStatus message =>
      let err := Thrown.object status responseStatus message
      if err.status = some 409 then true
      else if err.status = some 404 then true
      else includes err.text (js "already settled") || includes err.text (js "not pending") ||
        includes err.text (js "invalid status transition")

theorem isAlreadySettledError_cases {err : Thrown} (accepted : isAlreadySettledError err = true) :
    err.terminal = true ∨ err.status = some 404 := by
  unfold isAlreadySettledError at accepted
  unfold Thrown.terminal
  cases err with
  | other => cases accepted
  | object status responseStatus message =>
      simp only at accepted
      split at accepted
      · rename_i conflict
        simp [conflict]
      · split at accepted
        · exact .inr ‹_›
        · simp only [Bool.or_eq_true] at accepted
          rcases accepted with (named | named) | named
          all_goals simp [named]

/-! ## The watcher and its polls -/

/-- Where a poll waits. -/
inductive Frame
  /-- For `getBlockNumber`. -/
  | head
  /-- For `getReleasedEvents` of a range of blocks. -/
  | events (head first last : Int)
  /-- For `reportStatus`. -/
  | report (head first last : Int) (event : ReleasedEvent) (rest : List ReleasedEvent)
  /-- For `onSettled`. -/
  | callback (head first last : Int) (rest : List ReleasedEvent)
  /-- For `handleEvent`, which has returned. -/
  | handled (head first last : Int) (reported : Bool) (rest : List ReleasedEvent)
  deriving DecidableEq

structure Poll where
  byLoop : Bool
  settledCount : Nat
  frame : Frame

/-- A call of `pollOnce`. -/
def Poll.start (byLoop : Bool) : Poll := ⟨byLoop, 0, .head⟩

inductive Loop
  | polling
  | sleeping
  | ended
  deriving DecidableEq

structure ReleasedWatcher where
  /-- Next block to scan from (inclusive). -/
  nextBlock : Option Int
  /-- Lower-case hashes. -/
  reported : List JsString
  running : Bool
  stopped : Bool
  loop : Option Loop

structure World where
  watcher : ReleasedWatcher
  polls : List Poll
  /-- The reports that the mempool has answered. -/
  log : List (JsString × Except Thrown Unit)
  /-- The first value of `nextBlock`. -/
  startBlock : Option Int

def World.create (options : ReleasedWatcherOptions) : World where
  watcher := ⟨options.startBlock, [], false, false, none⟩
  polls := []
  log := []
  startBlock := options.startBlock

/-- What a poll waits for comes in. -/
inductive Answer
  | failed
  | head (head : Int)
  | events (events : List ReleasedEvent)
  | reported (answer : Except Thrown Unit)
  | done

inductive Input
  | start
  | stop
  | stopResolves
  | pollOnce
  /-- The loop's sleep is over. -/
  | wake
  | resume (poll : Nat) (answer : Answer)

section poll

variable (options : ReleasedWatcherOptions) (w : World) (k : Nat) (poll : Poll)

/-- The poll waits again. -/
def World.await (frame : Frame) : World :=
  { w with polls := w.polls.set k { poll with frame := frame } }

/-- The poll returns or throws.  Its caller, if it is the loop, sleeps. -/
def World.finish : World :=
  { w with
    polls := w.polls.eraseIdx k
    watcher := { w.watcher with
      loop := if poll.byLoop then some .sleeping else w.watcher.loop } }

/-- The condition of the `while`. -/
def World.scan (head first : Int) : World :=
  if first ≤ head ∧ w.watcher.stopped = false then
    w.await k poll (.events head first (min (first + options.maxBlockRange - 1) head))
  else w.finish k poll

/-- The end of a range. -/
def World.advance (head last : Int) : World :=
  { w with watcher := { w.watcher with nextBlock := some (last + 1) } }.scan options k poll head
    (last + 1)

/-- The `for` over the events of a range, up to its next await. -/
def World.forEach (head first last : Int) : List ReleasedEvent → World
  | [] => w.advance options k poll head last
  | event :: rest =>
      if w.watcher.stopped then w.advance options k poll head last
      else if event.key ∈ w.watcher.reported then
        w.await k poll (.handled head first last false rest)
      else w.await k poll (.report head first last event rest)

def World.onHead (head : Int) : World :=
  match w.watcher.nextBlock with
  | none =>
      { w with
        watcher := { w.watcher with nextBlock := some head }
        startBlock := some head }.finish k poll
  | some nextBlock =>
      if head < nextBlock then w.finish k poll else w.scan options k poll head nextBlock

/-- A report is answered. -/
def World.onReported (head first last : Int) (event : ReleasedEvent) (rest : List ReleasedEvent)
    (answer : Except Thrown Unit) : World :=
  let told := { w with log := w.log ++ [(event.intentHash, answer)] }
  let added := { told with
    watcher := { told.watcher with reported := event.key :: told.watcher.reported } }
  match answer with
  | .ok () => added.await k poll (.callback head first last rest)
  | .error err =>
      if isAlreadySettledError err then added.await k poll (.handled head first last false rest)
      else told.finish k poll

end poll

/-- The comparison of `events.sort`. -/
def ReleasedEvent.Before (a b : ReleasedEvent) : Prop :=
  if a.blockNumber ≠ b.blockNumber then a.blockNumber ≤ b.blockNumber else a.logIndex ≤ b.logIndex

instance : DecidableRel ReleasedEvent.Before := fun _ _ => inferInstanceAs (Decidable (ite _ _ _))

/-- `events.sort`. -/
def inOrder (events : List ReleasedEvent) : List ReleasedEvent :=
  events.insertionSort ReleasedEvent.Before

def World.resume (options : ReleasedWatcherOptions) (w : World) (k : Nat) (poll : Poll) :
    Answer → Option World
  | .failed =>
      match poll.frame with
      | .head | .events .. => some (w.finish k poll)
      | _ => none
  | .head head =>
      match poll.frame with
      | .head => some (w.onHead options k poll head)
      | _ => none
  | .events events =>
      match poll.frame with
      | .events head first last =>
          some (w.forEach options k poll head first last (inOrder events))
      | _ => none
  | .reported answer =>
      match poll.frame with
      | .report head first last event rest =>
          some (w.onReported k poll head first last event rest answer)
      | _ => none
  | .done =>
      match poll.frame with
      | .callback head first last rest =>
          some (w.await k poll (.handled head first last true rest))
      | .handled head first last reported rest =>
          some (w.forEach options k
            { poll with settledCount := poll.settledCount + if reported then 1 else 0 }
            head first last rest)
      | _ => none

/-- The loop goes round: its poll is called at once. -/
def World.poll (w : World) : World :=
  { w with
    watcher := { w.watcher with loop := some .polling }
    polls := w.polls ++ [.start true] }

def next (options : ReleasedWatcherOptions) (w : World) : Input → Option World
  | .start =>
      if w.watcher.running then some w
      else some { w with watcher := { w.watcher with running := true, stopped := false } }.poll
  | .stop =>
      if w.watcher.running then some { w with watcher := { w.watcher with stopped := true } }
      else some w
  | .stopResolves =>
      if w.watcher.running ∧ w.watcher.loop = some .ended then
        some { w with watcher := { w.watcher with running := false, loop := none } }
      else none
  | .pollOnce => some { w with polls := w.polls ++ [.start false] }
  | .wake =>
      if w.watcher.loop = some .sleeping then
        if w.watcher.stopped then
          some { w with watcher := { w.watcher with loop := some .ended } }
        else some w.poll
      else none
  | .resume k answer => (w.polls[k]?).bind fun poll => w.resume options k poll answer

/-- An answered query of a range gives all its events, and no others. -/
def Truthful (chain : ReleasedEvent → Prop) (w : World) : Input → Prop
  | .resume k (.events events) =>
      ∀ poll ∈ w.polls[k]?, ∀ head first last, poll.frame = .events head first last →
        ∀ event, event ∈ events ↔
          chain event ∧ first ≤ event.blockNumber ∧ event.blockNumber ≤ last
  | _ => True

/-- A watcher of a chain with the given events. -/
def system (options : ReleasedWatcherOptions) (chain : ReleasedEvent → Prop) :
    System World Input where
  init w := w = .create options
  step w input w' := next options w input = some w' ∧ Truthful chain w input

/-! ## What has been scanned -/

/-- The mempool has taken the report of an event, or has answered that it has nothing to settle. -/
inductive Accounted (log : List (JsString × Except Thrown Unit)) (event : ReleasedEvent) : Prop
  | reported {hash} : (hash, .ok ()) ∈ log → toLowerCase hash = event.key → Accounted log event
  | terminal {hash err} : (hash, .error err) ∈ log → toLowerCase hash = event.key →
      err.terminal = true → Accounted log event
  | unknown {hash err} : (hash, .error err) ∈ log → toLowerCase hash = event.key →
      err.status = some 404 → Accounted log event

theorem Accounted.mono {log more : List (JsString × Except Thrown Unit)} {event : ReleasedEvent}
    (accounted : Accounted log event) : Accounted (log ++ more) event := by
  cases accounted with
  | reported told same => exact .reported (List.mem_append_left _ told) same
  | terminal told same kind => exact .terminal (List.mem_append_left _ told) same kind
  | unknown told same kind => exact .unknown (List.mem_append_left _ told) same kind

theorem Accounted.append {log : List (JsString × Except Thrown Unit)} {event : ReleasedEvent}
    (accounted : Accounted log event) (earlier : List (JsString × Except Thrown Unit)) :
    Accounted (earlier ++ log) event := by
  cases accounted with
  | reported told same => exact .reported (List.mem_append_right _ told) same
  | terminal told same kind => exact .terminal (List.mem_append_right _ told) same kind
  | unknown told same kind => exact .unknown (List.mem_append_right _ told) same kind

/-- The events of its range that a poll goes on with. -/
def Frame.left : Frame → Answer → List ReleasedEvent
  | .events .., .events fetched => fetched
  | .handled _ _ _ _ rest, _ => rest
  | _, _ => []

/-- No poll goes on under a stop with events left that nothing was reported for. -/
def Unabandoned (w : World) : Input → Prop
  | .resume k answer => w.watcher.stopped = true → ∀ poll ∈ w.polls[k]?,
      ∀ event ∈ poll.frame.left answer, event.key ∈ w.watcher.reported
  | _ => True

instance (w : World) (input : Input) : Decidable (Unabandoned w input) :=
  match input with
  | .resume _ _ => inferInstanceAs (Decidable (_ → _))
  | .start | .stop | .stopResolves | .pollOnce | .wake => isTrue trivial

section scanned

variable {chain : ReleasedEvent → Prop} {options : ReleasedWatcherOptions} {w w' : World} {k : Nat}
  {poll : Poll} {head first last block : Int} {event : ReleasedEvent} {rest : List ReleasedEvent}

/-- Every event before a block is reported. -/
def Covers (chain : ReleasedEvent → Prop) (w : World) (block : Int) : Prop :=
  ∀ start ∈ w.startBlock, ∀ event, chain event → start ≤ event.blockNumber →
    event.blockNumber < block → event.key ∈ w.watcher.reported

/-- A poll has begun on a range, and every event of it is reported or left. -/
structure Ranges (chain : ReleasedEvent → Prop) (w : World) (first last : Int)
    (rest : List ReleasedEvent) : Prop where
  begun : w.startBlock ≠ none
  before : Covers chain w first
  inside : ∀ event, chain event → first ≤ event.blockNumber → event.blockNumber ≤ last →
    event.key ∈ w.watcher.reported ∨ event ∈ rest

def Frame.Sound (chain : ReleasedEvent → Prop) (w : World) : Frame → Prop
  | .head => True
  | .events _ first _ => w.startBlock ≠ none ∧ Covers chain w first
  | .report _ first last event rest => Ranges chain w first last (event :: rest)
  | .callback _ first last rest => Ranges chain w first last rest
  | .handled _ first last _ rest => Ranges chain w first last rest

structure Inv (chain : ReleasedEvent → Prop) (w : World) : Prop where
  accounted : ∀ event : ReleasedEvent, event.key ∈ w.watcher.reported → Accounted w.log event
  begun : w.startBlock = none ↔ w.watcher.nextBlock = none
  covered : ∀ block ∈ w.watcher.nextBlock, Covers chain w block
  sound : ∀ poll ∈ w.polls, poll.frame.Sound chain w

/-- More has been reported, from the same block on. -/
structure Grows (w w' : World) : Prop where
  start : w'.startBlock = w.startBlock
  reported : w.watcher.reported ⊆ w'.watcher.reported

theorem Covers.grows (covers : Covers chain w block) (grows : Grows w w') :
    Covers chain w' block := by
  intro start begun event there low high
  rw [grows.start] at begun
  exact grows.reported (covers start begun event there low high)

theorem Ranges.grows (ranges : Ranges chain w first last rest) (grows : Grows w w') :
    Ranges chain w' first last rest where
  begun := by
    rw [grows.start]
    exact ranges.begun
  before := ranges.before.grows grows
  inside event there low high :=
    (ranges.inside event there low high).imp (fun told => grows.reported told) id

theorem Frame.Sound.grows {frame : Frame} (sound : frame.Sound chain w) (grows : Grows w w') :
    frame.Sound chain w' := by
  cases frame with
  | head => exact sound
  | events => exact ⟨by rw [grows.start]; exact sound.1, sound.2.grows grows⟩
  | report => exact Ranges.grows sound grows
  | callback => exact Ranges.grows sound grows
  | handled => exact Ranges.grows sound grows

/-- An event that is reported need not be left. -/
theorem Ranges.skip (ranges : Ranges chain w first last (event :: rest))
    (told : event.key ∈ w.watcher.reported) : Ranges chain w first last rest where
  begun := ranges.begun
  before := ranges.before
  inside other there low high := by
    rcases ranges.inside other there low high with told' | left
    · exact .inl told'
    · rcases List.mem_cons.mp left with rfl | left
      · exact .inl told
      · exact .inr left

/-- A range of which nothing is left is scanned. -/
theorem Ranges.scanned (ranges : Ranges chain w first last rest)
    (told : ∀ event ∈ rest, event.key ∈ w.watcher.reported) : Covers chain w (last + 1) := by
  intro start begun event there low high
  by_cases early : event.blockNumber < first
  · exact ranges.before start begun event there low early
  · rcases ranges.inside event there (by omega) (by omega) with reported | left
    · exact reported
    · exact told event left

/-! ### One step -/

theorem Inv.polled (inv : Inv chain w) {polls : List Poll}
    (sound : ∀ poll ∈ polls, poll.frame.Sound chain w) : Inv chain { w with polls := polls } where
  accounted := inv.accounted
  begun := inv.begun
  covered := inv.covered
  sound poll member := (sound poll member).grows ⟨rfl, List.Subset.refl _⟩

theorem Inv.await (inv : Inv chain w) {frame : Frame} (sound : frame.Sound chain w) :
    Inv chain (w.await k poll frame) := by
  refine inv.polled fun other member => ?_
  rcases List.mem_or_eq_of_mem_set member with old | rfl
  · exact inv.sound other old
  · exact sound

/-- Neither the flags nor the loop matter. -/
theorem Inv.flagged (inv : Inv chain w) (running stopped : Bool) (loop : Option Loop) :
    Inv chain { w with
      watcher := { w.watcher with running := running, stopped := stopped, loop := loop } } where
  accounted := inv.accounted
  begun := inv.begun
  covered := inv.covered
  sound poll member := (inv.sound poll member).grows ⟨rfl, List.Subset.refl _⟩

theorem Inv.finish (inv : Inv chain w) : Inv chain (w.finish k poll) := by
  have fewer : Inv chain { w with polls := w.polls.eraseIdx k } :=
    inv.polled fun other member => inv.sound other (List.mem_of_mem_eraseIdx member)
  exact fewer.flagged _ _ _

theorem Inv.scan (inv : Inv chain w) (begun : w.startBlock ≠ none) (covers : Covers chain w first) :
    Inv chain (w.scan options k poll head first) := by
  unfold World.scan
  split
  · exact inv.await ⟨begun, covers⟩
  · exact inv.finish

theorem Inv.advance (inv : Inv chain w) (begun : w.startBlock ≠ none)
    (covers : Covers chain w (last + 1)) : Inv chain (w.advance options k poll head last) := by
  have same : Grows w { w with
      watcher := { w.watcher with nextBlock := some (last + 1) } } := ⟨rfl, List.Subset.refl _⟩
  have moved : Inv chain { w with
      watcher := { w.watcher with nextBlock := some (last + 1) } } := by
    constructor
    case accounted => exact inv.accounted
    case begun => simp [begun]
    case covered =>
      intro block next
      cases next
      exact covers.grows same
    case sound => exact fun poll member => (inv.sound poll member).grows same
  exact moved.scan begun (covers.grows same)

theorem Inv.forEach (inv : Inv chain w) (ranges : Ranges chain w first last rest)
    (kept : w.watcher.stopped = true → ∀ event ∈ rest, event.key ∈ w.watcher.reported) :
    Inv chain (w.forEach options k poll head first last rest) := by
  cases rest with
  | nil => exact inv.advance ranges.begun (ranges.scanned fun _ member => by cases member)
  | cons event rest =>
      rw [World.forEach]
      split
      · rename_i stopped
        exact inv.advance ranges.begun (ranges.scanned (kept stopped))
      · split
        · rename_i told
          have fewer : Frame.Sound chain w (.handled head first last false rest) := ranges.skip told
          exact inv.await fewer
        · have asked : Frame.Sound chain w (.report head first last event rest) := ranges
          exact inv.await asked

/-- Until the first block is known, every poll waits for the head. -/
theorem Frame.Sound.of_fresh {frame : Frame} (sound : frame.Sound chain w)
    (fresh : w.startBlock = none) : frame = .head := by
  cases frame with
  | head => rfl
  | events => exact absurd fresh sound.1
  | report => exact absurd fresh (Ranges.begun sound)
  | callback => exact absurd fresh (Ranges.begun sound)
  | handled => exact absurd fresh (Ranges.begun sound)

theorem Inv.onHead (inv : Inv chain w) : Inv chain (w.onHead options k poll head) := by
  unfold World.onHead
  split
  · rename_i fresh
    have begins : Inv chain { w with
        watcher := { w.watcher with nextBlock := some head }, startBlock := some head } := by
      constructor
      case accounted => exact inv.accounted
      case begun => simp
      case covered =>
        intro block next start begun event _ low high
        cases next
        cases begun
        omega
      case sound =>
        intro other member
        rw [(inv.sound other member).of_fresh (inv.begun.mpr fresh)]
        trivial
    exact begins.finish
  · rename_i nextBlock there
    have begun : w.startBlock ≠ none := by
      rw [Ne, inv.begun, there]
      simp
    split
    · exact inv.finish
    · exact inv.scan begun (inv.covered nextBlock there)

/-- An answer is logged, and the reported hash with it if nothing is left to settle. -/
theorem Inv.told (inv : Inv chain w) {answer : Except Thrown Unit} {reported : List JsString}
    (kept : w.watcher.reported ⊆ reported)
    (added : ∀ other : ReleasedEvent, other.key ∈ reported → other.key ∈ w.watcher.reported ∨
      Accounted [(event.intentHash, answer)] other) :
    Inv chain { w with
      watcher := { w.watcher with reported := reported }
      log := w.log ++ [(event.intentHash, answer)] } := by
  constructor
  case accounted =>
    intro other member
    rcases added other member with old | new
    · exact (inv.accounted other old).mono
    · exact new.append _
  case begun => exact inv.begun
  case covered => exact fun block next => (inv.covered block next).grows ⟨rfl, kept⟩
  case sound => exact fun other member => (inv.sound other member).grows ⟨rfl, kept⟩

theorem Inv.onReported (inv : Inv chain w) (ranges : Ranges chain w first last (event :: rest))
    (answer : Except Thrown Unit) :
    Inv chain (w.onReported k poll head first last event rest answer) := by
  let added : World := { w with
    watcher := { w.watcher with reported := event.key :: w.watcher.reported }
    log := w.log ++ [(event.intentHash, answer)] }
  have grows : Grows w added := ⟨rfl, List.subset_cons_self _ _⟩
  have fewer : Ranges chain added first last rest := (ranges.grows grows).skip List.mem_cons_self
  have inv_added (accounted : ∀ other : ReleasedEvent, event.key = other.key →
      Accounted [(event.intentHash, answer)] other) : Inv chain added := by
    refine inv.told grows.reported fun other member => ?_
    rcases List.mem_cons.mp member with same | old
    · exact .inr (accounted other same.symm)
    · exact .inl old
  unfold World.onReported
  cases answer with
  | ok answered =>
      cases answered
      have called : Frame.Sound chain added (.callback head first last rest) := fewer
      exact (inv_added fun other same => .reported List.mem_cons_self same).await called
  | error err =>
      simp only
      split
      · rename_i accepted
        have returned : Frame.Sound chain added (.handled head first last false rest) := fewer
        refine Inv.await (inv_added fun other same => ?_) returned
        rcases isAlreadySettledError_cases accepted with terminal | unknown
        · exact .terminal List.mem_cons_self same terminal
        · exact .unknown List.mem_cons_self same unknown
      · exact (inv.told (List.Subset.refl _) fun other member => .inl member).finish

theorem Inv.resume {answer : Answer} (inv : Inv chain w) (sound : poll.frame.Sound chain w)
    (truthful : ∀ events head first last, answer = .events events →
      poll.frame = .events head first last →
        ∀ event, event ∈ events ↔
          chain event ∧ first ≤ event.blockNumber ∧ event.blockNumber ≤ last)
    (kept : w.watcher.stopped = true → ∀ event ∈ poll.frame.left answer,
      event.key ∈ w.watcher.reported)
    (resumed : w.resume options k poll answer = some w') : Inv chain w' := by
  cases answer with
  | failed =>
      simp only [World.resume] at resumed
      split at resumed
      all_goals cases resumed
      all_goals exact inv.finish
  | head height =>
      simp only [World.resume] at resumed
      split at resumed
      · cases resumed
        exact inv.onHead
      · cases resumed
  | events fetched =>
      simp only [World.resume] at resumed
      split at resumed
      · rename_i head first last waits
        cases resumed
        rw [waits] at sound kept
        have exactly := truthful fetched head first last rfl waits
        have ranges : Ranges chain w first last (inOrder fetched) :=
          ⟨sound.1, sound.2, fun event there low high =>
            .inr ((List.mem_insertionSort _).mpr ((exactly event).mpr ⟨there, low, high⟩))⟩
        exact inv.forEach ranges fun stopped event member =>
          kept stopped event ((List.mem_insertionSort _).mp member)
      · cases resumed
  | reported answer =>
      simp only [World.resume] at resumed
      split at resumed
      · rename_i waits
        cases resumed
        rw [waits] at sound
        exact inv.onReported sound answer
      · cases resumed
  | done =>
      simp only [World.resume] at resumed
      split at resumed
      · rename_i head first last rest waits
        cases resumed
        rw [waits] at sound
        have returned : Frame.Sound chain w (.handled head first last true rest) := sound
        exact inv.await returned
      · rename_i waits
        cases resumed
        rw [waits] at sound kept
        exact inv.forEach sound kept
      · cases resumed

/-- An input that breaks no range off keeps the invariant. -/
theorem Inv.step {input : Input} (inv : Inv chain w) (last : (system options chain).step w input w')
    (kept : Unabandoned w input) : Inv chain w' := by
  obtain ⟨stepped, truthful⟩ := last
  have polled (byLoop : Bool) : ∀ poll ∈ w.polls ++ [.start byLoop], poll.frame.Sound chain w := by
    intro poll member
    rcases List.mem_append.mp member with old | new
    · exact inv.sound poll old
    · cases List.mem_singleton.mp new
      trivial
  cases input with
  | start =>
      simp only [next] at stepped
      split at stepped
      · cases stepped
        exact inv
      · cases stepped
        exact (inv.polled (polled true)).flagged _ _ _
  | stop =>
      simp only [next] at stepped
      split at stepped
      · cases stepped
        exact inv.flagged _ _ _
      · cases stepped
        exact inv
  | stopResolves =>
      simp only [next] at stepped
      split at stepped
      · cases stepped
        exact inv.flagged _ _ _
      · cases stepped
  | pollOnce =>
      cases stepped
      exact inv.polled (polled false)
  | wake =>
      simp only [next] at stepped
      split at stepped
      · split at stepped
        · cases stepped
          exact inv.flagged _ _ _
        · cases stepped
          exact (inv.polled (polled true)).flagged _ _ _
      · cases stepped
  | resume k answer =>
      obtain ⟨poll, there, resumed⟩ := Option.bind_eq_some_iff.mp stepped
      have sound := inv.sound poll (List.mem_of_getElem? there)
      refine inv.resume sound ?_ (fun stopped => kept stopped poll there) resumed
      rintro events head first last rfl waits
      exact truthful poll there head first last waits

theorem Inv.create : Inv chain (.create options) := by
  constructor
  case accounted => exact fun _ member => by cases member
  case begun => rfl
  case covered =>
    intro block next start begun event _ low high
    cases next.symm.trans begun
    omega
  case sound => exact fun _ member => by cases member

/-- While no range is broken off, every event in a block that the watcher has passed is accounted
    for. -/
theorem passed_accounted
    (reach : ((system options chain).under Unabandoned).Reachable w) {start nextBlock : Int}
    (begun : w.startBlock = some start) (passed : w.watcher.nextBlock = some nextBlock)
    (there : chain event) (low : start ≤ event.blockNumber)
    (high : event.blockNumber < nextBlock) : Accounted w.log event := by
  have inv : Inv chain w := by
    refine reach.invariant (fun s first => ?_) (fun s t s' _ inv last => ?_)
    · rw [show s = _ from first]
      exact Inv.create
    · exact inv.step last.1 last.2
  exact inv.accounted event (inv.covered nextBlock passed start begun event there low high)

end scanned

namespace Sample

/-- Two events of one block. -/
def first : ReleasedEvent := ⟨js "0xa1", 5, 0⟩

def second : ReleasedEvent := ⟨js "0xb2", 5, 1⟩

def options : ReleasedWatcherOptions := ⟨some 5, 2000⟩

def chain (event : ReleasedEvent) : Prop := event ∈ [first, second]

/-- The network that answers the one query. -/
def next (w : World) : Input → Option World
  | .resume k (.events fetched) =>
      if (w.polls[k]?).map Poll.frame = some (.events 5 5 5) ∧ fetched = [first, second] then
        Released.next options w (.resume k (.events fetched))
      else none
  | input => Released.next options w input

theorem step_of_next {w w' : World} {input : Input} (stepped : next w input = some w') :
    (system options chain).step w input w' := by
  unfold next at stepped
  split at stepped
  · rename_i k fetched
    split at stepped
    · rename_i asked
      obtain ⟨waits, rfl⟩ := asked
      refine ⟨stepped, ?_⟩
      intro poll there head first last same event
      rw [Option.mem_def.mp there, Option.map_some, same] at waits
      cases waits
      constructor
      · intro member
        have block : ∀ event ∈ [Sample.first, Sample.second], event.blockNumber = 5 := by decide
        simp [chain, member, block event member]
      · exact And.left
    · cases stepped
  · rename_i other
    refine ⟨stepped, ?_⟩
    unfold Truthful
    split
    · exact absurd rfl (other _ _)
    · trivial

/-- The watcher has asked for the events of block 5 and has reported the first. -/
def reporting : List Input :=
  [.start, .resume 0 (.head 5), .resume 0 (.events [first, second]), .resume 0 (.reported (.ok ())),
    .resume 0 .done]

/-- It is stopped before it goes on. -/
def cut : World :=
  (System.replay next (.create options) (reporting ++ [.stop, .resume 0 .done])).get
    (by decide +kernel)

theorem cut_reachable : (system options chain).Reachable cut :=
  System.Reachable.later (.init rfl)
    (System.Later.of_get (S := system options chain) (fun _ _ _ => step_of_next) _)

/-- It goes on, breaking nothing off, and reports the second event too. -/
def done : World :=
  (System.replay (fun w input => if Unabandoned w input then next w input else none)
    (.create options) (reporting ++ [.resume 0 .done, .resume 0 (.reported (.ok ())),
      .resume 0 .done, .resume 0 .done])).get (by decide +kernel)

theorem done_reachable : ((system options chain).under Unabandoned).Reachable done :=
  System.Reachable.later (.init rfl)
    (System.Later.of_get_under (S := system options chain) (fun _ _ _ => step_of_next) _)

end Sample

theorem passed_accounted_sample : Accounted Sample.done.log Sample.second :=
  passed_accounted Sample.done_reachable (show Sample.done.startBlock = some 5 by decide +kernel)
    (show Sample.done.watcher.nextBlock = some 6 by decide +kernel)
    (show Sample.chain Sample.second by simp [Sample.chain]) (by decide) (by decide)

/-- Stopped between the two events of a block the watcher passes both. -/
theorem stop_skips : (system Sample.options Sample.chain).Reachable Sample.cut ∧
    Sample.cut.startBlock = some 5 ∧ Sample.cut.watcher.nextBlock = some 6 ∧
    Sample.chain Sample.second ∧ ¬ Accounted Sample.cut.log Sample.second := by
  have told : Sample.cut.log.map (fun entry => toLowerCase entry.1) = [js "0xa1"] := by decide +kernel
  have unheard {hash : JsString} {answer : Except Thrown Unit}
      (member : (hash, answer) ∈ Sample.cut.log) : toLowerCase hash ≠ Sample.second.key := by
    have listed := List.mem_map_of_mem (f := fun entry => toLowerCase entry.1) member
    rw [told, List.mem_singleton] at listed
    rw [listed]
    decide +kernel
  refine ⟨Sample.cut_reachable, by decide +kernel, by decide +kernel, by simp [Sample.chain], ?_⟩
  intro accounted
  cases accounted with
  | reported member same => exact unheard member same
  | terminal member same => exact unheard member same
  | unknown member same => exact unheard member same

end Perihelion.SolverNode.Released

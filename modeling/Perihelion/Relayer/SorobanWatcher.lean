import Perihelion.Lib.LogWindows
import Perihelion.Lib.Transition
import Perihelion.Relayer.Text

/-! # The watcher of the settlement contract

Each poll of `SorobanSourceWatcher` scans a window of ledgers and goes on behind it at the
next.  It asks for at most 200 events of a window and never for the rest.
-/

namespace Perihelion.Relayer.Soroban

open BigEndian Transition LogWindows
open Sdk (JsString js)

/-! ## Events -/

/-- What `scValToNative` returns, as far as the decoder looks into it.  A number stands as what
    it prints as; of an object there are the six fields that are read, an absent one being
    `undefined`. -/
inductive Native where
  | undefined
  | null
  | number (printed : JsString)
  | bigint (value : Int)
  | string (value : JsString)
  | bytes (value : Bytes)
  | address (printed : JsString)
  | record (intentId intent_id id payload data message : Native)
  | other

/-- An event as the RPC node returns it; `σ` is the type of an `ScVal`. -/
structure EventResponse (σ : Type u) where
  contractId : JsString
  ledger : Nat
  txHash : JsString
  topic : List σ
  value : σ

inductive EventType where
  | locked
  | fillConfirmed
  | cancelIntent
  deriving DecidableEq

structure OutboundMessageEvent where
  messageType : EventType
  intentId : JsString
  payload : Bytes
  ledger : Nat
  txHash : JsString
  deriving DecidableEq

structure SorobanSourceWatcherConfig where
  settlementContractId : JsString
  mockEndpointContractId : Option JsString
  startLedger : Option Nat
  maxLedgersPerPoll : Option Nat

namespace SorobanSourceWatcherConfig

def contractId (config : SorobanSourceWatcherConfig) : JsString :=
  config.mockEndpointContractId.getD config.settlementContractId

def ledgersPerPoll (config : SorobanSourceWatcherConfig) : Nat := config.maxLedgersPerPoll.getD 100

end SorobanSourceWatcherConfig

/-- The package that converts values, and the numbers of the message types. -/
structure Sources (σ : Type u) where
  /-- `none` is an exception. -/
  scValToNative : σ → Option Native
  messageTypeFromDiscriminant : JsString → Option EventType

def hexToBytes (value : JsString) : Option Bytes :=
  let normalized := strip0x value
  if normalized = [] then none else Hex.parse normalized

def Native.nullish : Native → Bool
  | .undefined | .null => true
  | _ => false

def extractPayload : Native → Option Bytes
  | .bytes value => some value
  | .string value => hexToBytes value
  | .record _ _ _ payload data message =>
      if payload.nullish then
        if data.nullish then extractPayload message else extractPayload data
      else extractPayload payload
  | _ => none

def coerceIntentId : Native → Option JsString
  | .string value => some value
  | .bigint value => some (js (toString value))
  | .number printed => some printed
  | .bytes value => some (Hex.text value)
  | .address printed => some printed
  | _ => none

def extractIntentId (topicValue value : Native) : Option JsString :=
  (coerceIntentId topicValue).orElse fun _ =>
    match value with
    | .record intentId intent_id id _ _ _ =>
        (coerceIntentId intentId).orElse fun _ =>
          (coerceIntentId intent_id).orElse fun _ => coerceIntentId id
    | _ => none

/-- The first topic of the mock endpoint's layout. -/
def isPacketSent : Native → Bool
  | .string name => name = js "packet_sent" || name = js "PacketSent"
  | _ => false

def topicAt (topics : List Native) (i : Nat) : Native := (topics[i]?).getD .undefined

section Decoding

variable {σ : Type u} (sources : Sources σ)

def safeScValToNative (value : σ) : Native := (sources.scValToNative value).getD .undefined

def parseMessageType : Native → Option EventType
  | .number printed => sources.messageTypeFromDiscriminant printed
  | .string raw =>
      let normalized := toLowerCase raw
      if normalized = js "fillconfirmed" ∨ normalized = js "fill_confirmed" then some .fillConfirmed
      else if normalized = js "cancelintent" ∨ normalized = js "cancel_intent" then some .cancelIntent
      else if normalized = js "locked" then some .locked
      else none
  | _ => none

/-- The type and the intent are in the topics, in the endpoint's layout behind its name. -/
def decodeEvent (event : EventResponse σ) : Option OutboundMessageEvent :=
  match event.topic.map (safeScValToNative sources) with
  | [] => none
  | first :: rest => do
      let value := safeScValToNative sources event.value
      let topics := if isPacketSent first then rest else first :: rest
      let messageType ← parseMessageType sources (topicAt topics 0)
      let intentId ← extractIntentId (topicAt topics 1) value
      let payload ← extractPayload value
      return { messageType, intentId, payload, ledger := event.ledger, txHash := event.txHash }

end Decoding

/-! ## Polls -/

/-- The events of the chain in the order of their ledgers. -/
structure History (σ : Type u) where
  events : List (EventResponse σ)
  ordered : events.Pairwise fun a b => (a.ledger : Int) ≤ b.ledger

def eventLimit : Nat := 200

/-- The node returns the first events of the requested range, up to the limit. -/
def getEvents {σ : Type u} (history : History σ) (startLedger endLedger : Int) (contractId : JsString)
    (limit : Nat) : List (EventResponse σ) :=
  (history.events.filter fun event =>
    event.contractId = contractId ∧ startLedger ≤ event.ledger ∧ event.ledger ≤ endLedger).take limit

structure PollResult where
  messages : List OutboundMessageEvent
  nextLedger : Int

def resolveStartLedger (config : SorobanSourceWatcherConfig) (fromLedger : Option Int)
    (latestLedger : Nat) : Int :=
  match fromLedger.filter fun ledger => 0 < ledger with
  | some ledger => ledger
  | none =>
      match config.startLedger with
      | some ledger => ledger
      | none => max 1 (latestLedger - config.ledgersPerPoll + 1)

def poll {σ : Type u} (sources : Sources σ) (config : SorobanSourceWatcherConfig)
    (history : History σ) (fromLedger : Option Int) (latestLedger : Nat) : PollResult :=
  let startLedger := resolveStartLedger config fromLedger latestLedger
  if latestLedger < startLedger then ⟨[], latestLedger + 1⟩
  else
    let endLedger := min (latestLedger : Int) (startLedger + config.ledgersPerPoll - 1)
    let events := getEvents history startLedger endLedger config.contractId eventLimit
    { messages := events.filterMap (decodeEvent sources)
      nextLedger := if endLedger < latestLedger then endLedger + 1 else latestLedger + 1 }

/-! ## A session -/

section Session

variable {σ : Type u} (sources : Sources σ) (config : SorobanSourceWatcherConfig) (history : History σ)

/-- What the polls so far have returned, and what the next one resumes from. -/
structure Session where
  latestLedger : Nat
  fromLedger : Option Int
  /-- Where the first poll has started. -/
  firstLedger : Option Int
  messages : List OutboundMessageEvent

def Session.poll (s : Session) (latestLedger : Nat) : Session :=
  let result := Soroban.poll sources config history s.fromLedger latestLedger
  { latestLedger := latestLedger
    fromLedger := some result.nextLedger
    firstLedger := some (s.firstLedger.getD (resolveStartLedger config s.fromLedger latestLedger))
    messages := s.messages ++ result.messages }

/-- Each input is the latest ledger of the chain, which never goes back. -/
def system : System Session Nat where
  init s := s.firstLedger = none ∧ s.messages = []
  step s latestLedger s' :=
    s.latestLedger ≤ latestLedger ∧ s' = s.poll sources config history latestLedger

/-- The events of the contract in the ledgers from `first` on and before `next`. -/
def outbound (first next : Int) : List (EventResponse σ) :=
  between (fun event => (event.ledger : Int)) first next
    (history.events.filter fun event => event.contractId = config.contractId)

/-- From the first start up to the next ledger everything that decodes has been returned, each
    event once and in its order. -/
def Complete (s : Session) : Prop :=
  ∀ first ∈ s.firstLedger, ∀ next ∈ s.fromLedger,
    (s.messages.filter fun message => first ≤ message.ledger) =
      (outbound config history first next).filterMap (decodeEvent sources)

/-- Of the window that this poll scans nothing from `first` on that decodes is past the limit. -/
def Uncut (first : Int) (s : Session) (latestLedger : Nat) : Prop :=
  let result := poll sources config history s.fromLedger latestLedger
  ∀ event ∈ (outbound config history (resolveStartLedger config s.fromLedger latestLedger)
      result.nextLedger).drop eventLimit,
    first ≤ event.ledger → decodeEvent sources event = none

variable {sources config history}

theorem getEvents_eq (first last : Int) (limit : Nat) :
    getEvents history first last config.contractId limit =
      (outbound config history first (last + 1)).take limit := by
  unfold getEvents outbound between
  rw [List.filter_filter]
  congr
  funext event
  by_cases here : event.contractId = config.contractId
  · simp only [here, true_and, Bool.decide_and, Int.lt_add_one_iff, decide_true, Bool.and_true]
  · simp [here]

theorem decodeEvent_ledger {event : EventResponse σ} {message : OutboundMessageEvent}
    (decoded : decodeEvent sources event = some message) : message.ledger = event.ledger := by
  unfold decodeEvent at decoded
  split at decoded
  · cases decoded
  · simp only [Option.bind_eq_bind, Option.bind_eq_some_iff, Option.pure_def, Option.some.injEq]
      at decoded
    obtain ⟨_, -, _, -, _, -, rfl⟩ := decoded
    rfl

theorem resolveStartLedger_cases (fromLedger : Option Int) (latestLedger : Nat) :
    0 < resolveStartLedger config fromLedger latestLedger ∨
      (resolveStartLedger config fromLedger latestLedger = 0 ∧ config.startLedger = some 0) := by
  unfold resolveStartLedger
  split
  · rename_i ledger given
    obtain ⟨-, positive⟩ := Option.filter_eq_some_iff.mp given
    exact Or.inl (of_decide_eq_true positive)
  · split
    · rename_i ledger configured
      cases ledger with
      | zero => exact Or.inr ⟨rfl, configured⟩
      | succ n => exact Or.inl (by omega)
    · exact Or.inl (by omega)

/-- The next poll starts at this ledger, whatever the chain has come to. -/
def Resumes (config : SorobanSourceWatcherConfig) (next : Int) : Prop :=
  ∀ latestLedger, resolveStartLedger config (some next) latestLedger = next

theorem resumes_of_pos {next : Int} (positive : 0 < next) : Resumes config next := by
  intro latestLedger
  simp [resolveStartLedger, Option.filter, positive]

/-- One poll reads a page of the window from its start to the next ledger. -/
structure Scans (sources : Sources σ) (config : SorobanSourceWatcherConfig) (history : History σ)
    (startLedger : Int) (latestLedger : Nat) (result : PollResult) : Prop where
  messages : result.messages =
    ((outbound config history startLedger result.nextLedger).take eventLimit).filterMap
      (decodeEvent sources)
  forward : startLedger ≤ latestLedger + 1 → startLedger ≤ result.nextLedger
  latest : result.nextLedger ≤ latestLedger + 1
  resumes : Resumes config result.nextLedger

theorem poll_scans (fromLedger : Option Int) (latestLedger : Nat) :
    Scans sources config history (resolveStartLedger config fromLedger latestLedger) latestLedger
      (poll sources config history fromLedger latestLedger) := by
  have bottom := @resolveStartLedger_cases config fromLedger latestLedger
  unfold poll
  generalize resolveStartLedger config fromLedger latestLedger = startLedger at bottom ⊢
  by_cases ahead : (latestLedger : Int) < startLedger
  · simp only [if_pos ahead]
    constructor <;> dsimp only
    · rw [outbound, between_of_le _ (by omega)]
      rfl
    · exact fun inside => inside
    · exact le_refl _
    · exact resumes_of_pos (by omega)
  · simp only [if_neg ahead]
    generalize reached : min (latestLedger : Int) (startLedger + config.ledgersPerPoll - 1) = endLedger
    have next : (if endLedger < latestLedger then endLedger + 1 else (latestLedger : Int) + 1) =
        endLedger + 1 := by
      split <;> omega
    simp only [next]
    constructor <;> dsimp only
    · rw [getEvents_eq]
    · omega
    · omega
    · rcases bottom with positive | ⟨zero, configured⟩
      · exact resumes_of_pos (by omega)
      · -- Only a scan of no ledgers from ledger 0 resumes at 0.
        by_cases stuck : endLedger + 1 = 0
        · rw [stuck]
          intro latest
          simp [resolveStartLedger, Option.filter, configured]
        · exact resumes_of_pos (by omega)

theorem outbound_append {first middle last : Int} (early : first ≤ middle) (late : middle ≤ last) :
    outbound config history first middle ++ outbound config history middle last =
      outbound config history first last :=
  between_append (history.ordered.filter _) early late

/-- The decoder for events from `first` on. -/
def decodeFrom (sources : Sources σ) (first : Int) (event : EventResponse σ) :
    Option OutboundMessageEvent :=
  if first ≤ event.ledger then decodeEvent sources event else none

theorem filter_decoded (first : Int) (events : List (EventResponse σ)) :
    ((events.filterMap (decodeEvent sources)).filter fun message => first ≤ message.ledger) =
      events.filterMap (decodeFrom sources first) := by
  rw [List.filter_filterMap]
  congr
  funext event
  unfold decodeFrom
  cases decoded : decodeEvent sources event with
  | none => simp
  | some message =>
      rw [Option.filter_some, decodeEvent_ledger decoded]
      simp

theorem outbound_decodeFrom {low first next : Int} (below : low ≤ first) :
    (outbound config history low next).filterMap (decodeFrom sources first) =
      (outbound config history first next).filterMap (decodeEvent sources) := by
  simp only [outbound, between, List.filterMap_filter]
  refine congrArg (List.filterMap · history.events) (funext fun event => ?_)
  unfold decodeFrom
  by_cases inside : first ≤ event.ledger
  · have lower : low ≤ event.ledger := by omega
    simp [inside, lower]
  · simp [inside]

theorem uncut_iff {first : Int} {s : Session} {latestLedger : Nat} :
    Uncut sources config history first s latestLedger ↔
      ∀ event ∈ (outbound config history (resolveStartLedger config s.fromLedger latestLedger)
          (poll sources config history s.fromLedger latestLedger).nextLedger).drop eventLimit,
        decodeFrom sources first event = none := by
  unfold Uncut decodeFrom
  simp only [ite_eq_right_iff]

theorem uncut_of_short (short : history.events.length ≤ eventLimit) (first : Int) (s : Session)
    (latestLedger : Nat) : Uncut sources config history first s latestLedger := by
  intro event member
  have few (low high : Int) : (outbound config history low high).length ≤ eventLimit :=
    ((List.filter_sublist.trans List.filter_sublist).length_le).trans short
  rw [List.drop_eq_nil_of_le (few _ _)] at member
  cases member

/-- What the polls of a run have come to, seen from the first start. -/
structure Tracked (sources : Sources σ) (config : SorobanSourceWatcherConfig) (history : History σ)
    (first low next : Int) (s : Session) (moves : List (Session × Nat)) : Prop where
  below : low ≤ first
  forward : low ≤ next
  resumed : s.fromLedger = some next
  latest : next ≤ s.latestLedger + 1
  resumes : Resumes config next
  atMost : (s.messages.filter fun message => first ≤ message.ledger).length ≤
    ((outbound config history low next).filterMap (decodeFrom sources first)).length
  complete : (s.messages.filter fun message => first ≤ message.ledger) =
      (outbound config history low next).filterMap (decodeFrom sources first) ↔
    ∀ m ∈ moves, Uncut sources config history first m.1 m.2

theorem tracked_first {s : Session} (empty : s.messages = []) (latestLedger : Nat) {first : Int}
    (started : first = resolveStartLedger config s.fromLedger latestLedger) :
    ∃ low next, Tracked sources config history first low next
      (s.poll sources config history latestLedger) [(s, latestLedger)] := by
  have scans := @poll_scans σ sources config history s.fromLedger latestLedger
  rw [← started] at scans
  have read : (s.poll sources config history latestLedger).messages =
      (poll sources config history s.fromLedger latestLedger).messages := by
    rw [Session.poll, empty]
    rfl
  refine ⟨min first (poll sources config history s.fromLedger latestLedger).nextLedger,
    (poll sources config history s.fromLedger latestLedger).nextLedger, ?_⟩
  have window : outbound config history
      (min first (poll sources config history s.fromLedger latestLedger).nextLedger)
        (poll sources config history s.fromLedger latestLedger).nextLedger =
      outbound config history first
        (poll sources config history s.fromLedger latestLedger).nextLedger := by
    rcases le_total first (poll sources config history s.fromLedger latestLedger).nextLedger with
      ahead | behind
    · rw [min_eq_left ahead]
    · rw [min_eq_right behind, outbound, outbound, between_of_le _ (le_refl _), between_of_le _ behind]
  constructor
  · exact min_le_left _ _
  · exact min_le_right _ _
  · rfl
  · exact scans.latest
  · exact scans.resumes
  · rw [read, scans.messages, filter_decoded, window]
    exact page_length _ _ _
  · rw [read, scans.messages, filter_decoded, window, page_complete]
    simp only [List.forall_mem_singleton, uncut_iff, ← started]

theorem Tracked.next {first low next : Int} {s : Session} {moves : List (Session × Nat)}
    (tracked : Tracked sources config history first low next s moves) {latestLedger : Nat}
    (later : s.latestLedger ≤ latestLedger) :
    ∃ next', Tracked sources config history first low next'
      (s.poll sources config history latestLedger) (moves ++ [(s, latestLedger)]) := by
  have scans := @poll_scans σ sources config history s.fromLedger latestLedger
  have resumed : resolveStartLedger config s.fromLedger latestLedger = next := by
    rw [tracked.resumed]
    exact tracked.resumes latestLedger
  rw [resumed] at scans
  have latest := tracked.latest
  have forward := scans.forward (by omega)
  refine ⟨(poll sources config history s.fromLedger latestLedger).nextLedger, ?_⟩
  have expected := @outbound_append σ config history _ _ _ tracked.forward forward
  have read : ((s.poll sources config history latestLedger).messages.filter fun message =>
      first ≤ message.ledger) = (s.messages.filter fun message => first ≤ message.ledger) ++
        ((outbound config history next
          (poll sources config history s.fromLedger latestLedger).nextLedger).take
            eventLimit).filterMap (decodeFrom sources first) := by
    rw [Session.poll, List.filter_append, scans.messages, filter_decoded]
  have page := page_length (decodeFrom sources first) eventLimit
    (outbound config history next (poll sources config history s.fromLedger latestLedger).nextLedger)
  constructor
  · exact tracked.below
  · exact tracked.forward.trans forward
  · rfl
  · exact scans.latest
  · exact scans.resumes
  · rw [read, ← expected, List.filterMap_append, List.length_append, List.length_append]
    exact Nat.add_le_add tracked.atMost page
  · rw [read, ← expected, List.filterMap_append, append_complete tracked.atMost page,
      tracked.complete, page_complete, List.forall_mem_append]
    simp only [List.forall_mem_singleton, uncut_iff, resumed]

theorem run_tracked {s s' : Session} {moves : List (Session × Nat)} {first : Int}
    (init : (system sources config history).init s)
    (run : (system sources config history).Run s moves s') (started : s'.firstLedger = some first) :
    ∃ low next, Tracked sources config history first low next s' moves := by
  induction run with
  | nil => cases init.1.symm.trans started
  | @snoc moves v latestLedger v' before last ih =>
      obtain ⟨later, rfl⟩ := last
      cases already : v.firstLedger with
      | none =>
          cases before with
          | nil =>
              refine tracked_first init.2 latestLedger ?_
              rw [Session.poll, already] at started
              exact (Option.some.inj started).symm
          | snoc _ last =>
              rw [last.2] at already
              cases already
      | some ledger =>
          rw [Session.poll, already] at started
          obtain ⟨low, next, tracked⟩ := ih (already.trans started)
          obtain ⟨next', tracked⟩ := tracked.next later
          exact ⟨low, next', tracked⟩

/-- After any number of polls everything that decodes has been returned once if and only if none
    of them had more than the limit to scan, nothing past it that decodes. -/
theorem polls_complete_iff {s s' : Session} {moves : List (Session × Nat)} {first : Int}
    (init : (system sources config history).init s)
    (run : (system sources config history).Run s moves s') (started : s'.firstLedger = some first) :
    Complete sources config history s' ↔
      ∀ m ∈ moves, Uncut sources config history first m.1 m.2 := by
  obtain ⟨low, next, tracked⟩ := run_tracked init run started
  rw [← tracked.complete, outbound_decodeFrom tracked.below]
  unfold Complete
  rw [started, tracked.resumed]
  simp only [Option.mem_def, Option.some.injEq, forall_eq']

end Session

namespace Sample

def sources : Sources Native := ⟨some, fun _ => none⟩

def config : SorobanSourceWatcherConfig := ⟨js "CSETTLE", none, none, none⟩

/-- The confirmation of the `i`-th intent. -/
def event (ledger i : Nat) : EventResponse Native where
  contractId := js "CSETTLE"
  ledger := ledger
  txHash := js "ab"
  topic := [.string (js "fill_confirmed"), .bytes (encode 2 i)]
  value := .bytes (encode 2 i)

/-- As many confirmations in ledger 10 and one in ledger 12. -/
def history (n : Nat) : History Native where
  events := (List.range n).map (event 10) ++ [event 12 n]
  ordered := by
    rw [List.pairwise_append]
    refine ⟨?_, List.pairwise_singleton _ _, ?_⟩
    · rw [List.pairwise_map]
      exact List.pairwise_of_forall fun _ _ => le_refl _
    · intro a member b last
      obtain ⟨i, -, rfl⟩ := List.mem_map.mp member
      rw [List.mem_singleton.mp last]
      simp [event]

def fresh : Session := ⟨0, some 10, none, []⟩

def polled (n : Nat) : Session := fresh.poll sources config (history n) 10

def polledTwice (n : Nat) : Session := (polled n).poll sources config (history n) 12

theorem run (n : Nat) : (system sources config (history n)).Run fresh
    [(fresh, 10), (polled n, 12)] (polledTwice n) := by
  have first : (system sources config (history n)).step fresh 10 (polled n) := ⟨Nat.zero_le 10, rfl⟩
  have second : (system sources config (history n)).step (polled n) 12 (polledTwice n) :=
    ⟨show 10 ≤ 12 by decide, rfl⟩
  exact (System.Run.snoc .nil first).snoc second

end Sample

theorem polls_complete_sample :
    Complete Sample.sources Sample.config (Sample.history 2) (Sample.polledTwice 2) := by
  refine (@polls_complete_iff _ Sample.sources Sample.config (Sample.history 2) _ _ _ 10 ⟨rfl, rfl⟩
    (Sample.run 2) rfl).mpr ?_
  intro m _
  exact uncut_of_short (by decide) 10 m.1 m.2

/-- Of 201 confirmations in one ledger the last is in neither poll. -/
theorem dense_ledger_cut :
    (system Sample.sources Sample.config (Sample.history 201)).Run Sample.fresh
        [(Sample.fresh, 10), (Sample.polled 201, 12)] (Sample.polledTwice 201) ∧
      ¬ Complete Sample.sources Sample.config (Sample.history 201) (Sample.polledTwice 201) := by
  refine ⟨Sample.run 201, ?_⟩
  intro complete
  have lengths : (((Sample.polledTwice 201).messages.filter fun message => (10 : Int) ≤ message.ledger).length,
      ((outbound Sample.config (Sample.history 201) 10 13).filterMap
        (decodeEvent Sample.sources)).length) = (201, 202) := by
    decide +kernel
  have same := congrArg List.length (complete 10 rfl 13 (by decide +kernel))
  rw [Prod.mk.injEq] at lengths
  omega

end Perihelion.Relayer.Soroban

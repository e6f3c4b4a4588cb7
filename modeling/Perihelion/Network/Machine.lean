import Perihelion.Bridge.Delivery
import Perihelion.Escrow.Ledger
import Perihelion.Mempool.Admission
import Perihelion.Relayer.RefundScan
import Perihelion.SolverNode.ReleasedWatcher

/-! # The network

The two contracts, the services that watch the escrow's events, and the mempool to which they
report what they have seen.  A node answers a watcher with events of the escrow, though not always
with all of them; a report may arrive late, twice or never.
-/

namespace Perihelion.Network

open Transition
open Sdk (JsString)
open Relayer (hexText)
open Relayer.RefundScan (RefundEvent EvmRefundObservation)
open SolverNode.Released (ReleasedEvent ReleasedWatcherOptions Frame Poll)
open Mempool (Hash IntentStatus MempoolIntentRecord Server Arrival validateUpdate)

structure Setting where
  link : Bridge.Link
  /-- The bound on fills of `Bridge.system`. -/
  horizon : Nat
  watching : ReleasedWatcherOptions
  confirmations : Nat
  mempool : Mempool.Settings link.escrow

/-- A call of `reportStatus`. -/
structure Report where
  intentHash : JsString
  status : IntentStatus

structure World where
  bridge : Bridge.World
  /-- The solver's watcher of `Released` events. -/
  released : SolverNode.Released.World
  /-- The relayer's scan for refunds. -/
  refunds : Relayer.RefundScan.World
  server : Server
  /-- Every report that has been under way. -/
  reports : List Report

inductive Input (d : Escrow.Deployment) where
  | bridge (input : Bridge.Input)
  | released (input : SolverNode.Released.Input)
  | refunds (input : Relayer.RefundScan.Input)
  /-- `reportFilled`, of any solver and at any time. -/
  | reportFilled (hash : JsString)
  | server (arrival : Arrival d)

/-! ## What the services see -/

/-- The hash in a `Released` event. -/
def releasedHash (event : Escrow.Event) : Option Bytes32 :=
  match event.closing with
  | some (.release intentHash) => some intentHash
  | _ => none

/-- The hash in a `Refunded` or `RefundedLocalTimeout` event. -/
def refundedHash (event : Escrow.Event) : Option Bytes32 :=
  match event.closing with
  | some (.refund intentHash) => some intentHash
  | _ => none

def World.releases (w : World) : List Bytes32 := w.bridge.escrow.events.filterMap releasedHash

def World.refundings (w : World) : List Bytes32 := w.bridge.escrow.events.filterMap refundedHash

/-- The hashes as texts. -/
def texts (hashes : List Bytes32) : List JsString :=
  hashes.map fun h => hexText (Bytes32.toBytes h)

/-- The events in an answer to the watcher are events of the escrow. -/
def World.Answers (w : World) : SolverNode.Released.Input → Prop
  | .resume _ (.events events) => ∀ event ∈ events, event.intentHash ∈ texts w.releases
  | _ => True

/-- The relayer's node shows no refund that the escrow has not made. -/
def World.Shows (w : World) : Relayer.RefundScan.Input → Prop
  | .chain chain => ∀ event ∈ chain.refunds, event.intentHash ∈ w.refundings
  | _ => True

/-- Who else may report has not got the token, so that an update is a report of the services. -/
def World.Authorizes (n : Setting) (w : World) : Arrival n.link.escrow → Prop
  | .updateStatus authorization rawHash body =>
      ∀ update ∈ (validateUpdate n.mempool.options authorization rawHash body).toOption,
        ∃ report ∈ w.reports, (Relayer.toLowerCase report.intentHash, report.status) = update
  | _ => True

instance (w : World) (input : SolverNode.Released.Input) : Decidable (w.Answers input) :=
  match input with
  | .resume _ (.events _) => inferInstanceAs (Decidable (∀ _ ∈ _, _))
  | .resume _ .failed | .resume _ (.head _) | .resume _ (.reported _) | .resume _ .done | .start
  | .stop | .stopResolves | .pollOnce | .wake => isTrue trivial

instance (w : World) (input : Relayer.RefundScan.Input) : Decidable (w.Shows input) :=
  match input with
  | .chain _ => inferInstanceAs (Decidable (∀ _ ∈ _, _))
  | .poll _ _ | .messagesDone _ | .messagesFail _ | .logs _ | .rangeError | .logsFail | .passedOn =>
      isTrue trivial

instance (n : Setting) (w : World) (arrival : Arrival n.link.escrow) :
    Decidable (w.Authorizes n arrival) :=
  match arrival with
  | .updateStatus _ _ _ => inferInstanceAs (Decidable (∀ _ ∈ _, ∃ _ ∈ _, _ = _))
  | .submit _ _ | .verified _ _ _ | .sweep _ => isTrue trivial

/-! ## The steps -/

/-- The reports whose answers the watcher's polls wait for. -/
def asked (released : SolverNode.Released.World) : List Report :=
  released.polls.filterMap fun poll =>
    match poll.frame with
    | .report _ _ _ event _ => some ⟨event.intentHash, .settled⟩
    | _ => none

/-- `onRefundObserved`. -/
def onRefundObserved (observation : EvmRefundObservation) : Report :=
  ⟨observation.intentHash, .refunded⟩

def next (n : Setting) (w : World) : Input n.link.escrow → Option World
  | .bridge input =>
      (Bridge.next n.link n.horizon w.bridge input).map fun bridge => { w with bridge := bridge }
  | .released input =>
      if w.Answers input then
        (SolverNode.Released.next n.watching w.released input).map fun released =>
          { w with released := released, reports := w.reports ++ asked released }
      else none
  | .refunds input =>
      if w.Shows input then
        (Relayer.RefundScan.next n.link.escrow.keccak256 n.confirmations w.refunds input).map
          fun refunds =>
            { w with
              refunds := refunds
              reports := w.reports ++
                (refunds.passed.drop w.refunds.passed.length).map onRefundObserved }
      else none
  | .reportFilled hash => some { w with reports := w.reports ++ [⟨hash, .filled⟩] }
  | .server arrival =>
      if w.Authorizes n arrival then
        (n.mempool.next w.server arrival).map fun server => { w with server := server }
      else none

/-- The contracts are set up, and nobody has seen or stored anything. -/
structure Start (n : Setting) (w : World) : Prop where
  bridge : Bridge.Start n.link w.bridge
  released : w.released = .create n.watching
  refunds : ∃ maxBlockRange chain, w.refunds = .start n.confirmations maxBlockRange chain ∧
    ∀ event ∈ chain.refunds, event.intentHash ∈ w.refundings
  server : n.mempool.system.init w.server
  reports : w.reports = []

def system (n : Setting) : System World (Input n.link.escrow) where
  init := Start n
  step w input w' := next n w input = some w'

end Perihelion.Network

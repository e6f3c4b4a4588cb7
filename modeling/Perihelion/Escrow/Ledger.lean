import Perihelion.Escrow.Lifecycle
import Perihelion.Lib.Journal

/-! # What the event log tells

Solvers, relayers and dashboards see the escrow through its events.  A reader who starts from
the constants of the constructor and reads every event in order has the owner and what the
owner decides, every lock, what is owed of every asset, and every payment of tokens.  The
bucket counts, the nonces and the guardian's two deadlines are in no event.
-/

namespace Perihelion.Escrow

open BigEndian Fallible Transition

def Effect.event : Effect → Option Event
  | .emit event => some event
  | _ => none

def World.events (w : World) : List Event := w.trace.filterMap Effect.event

structure Ledger where
  owner : Address
  pendingOwner : Address
  guardian : Address
  stellarPeer : Bytes32
  confirmationGrace : Nat
  paused : Bool
  assetAllowed : Address → Bool
  maxIntentAmountPerAsset : Address → Nat
  maxIntentAmount : Nat
  rollingWindowDuration : Nat
  rollingWindowCap : Nat
  rollingWindowCapPerAsset : Address → Nat
  rollingWindowTriggered : Bool
  locks : Bytes32 → Lock
  totalLocked : Address → Nat
  payments : List Payment

namespace Ledger

/-- Before the first event. -/
def blank : Ledger where
  owner := 0
  pendingOwner := 0
  guardian := 0
  stellarPeer := 0
  confirmationGrace := 7200
  paused := false
  assetAllowed := fun _ => false
  maxIntentAmountPerAsset := fun _ => 0
  maxIntentAmount := 0
  rollingWindowDuration := 0
  rollingWindowCap := 0
  rollingWindowCapPerAsset := fun _ => 0
  rollingWindowTriggered := false
  locks := fun _ => default
  totalLocked := fun _ => 0
  payments := []

def record (g : Ledger) (intentHash : Bytes32) (lock : Lock) : Ledger :=
  { g with
    locks := Function.update g.locks intentHash lock
    totalLocked := Function.update g.totalLocked lock.asset (g.totalLocked lock.asset + lock.amount) }

/-- A closing event names no token: it is the one the lock was recorded with. -/
def close (g : Ledger) (purpose : Purpose) (intentHash : Bytes32) (mark : Lock → Lock)
    (receiver : Address) (amount : Nat) : Ledger :=
  let l := g.locks intentHash
  { g with
    locks := Function.update g.locks intentHash (mark l)
    totalLocked := Function.update g.totalLocked l.asset (g.totalLocked l.asset - amount)
    payments := g.payments ++ [⟨purpose, l.asset, receiver, amount⟩] }

def read (g : Ledger) : Event → Ledger
  | .locked intentHash solver user asset amount _ _ minDestAmount deadline =>
      g.record intentHash ⟨solver, user, asset, amount, minDestAmount, deadline, false, false⟩
  | .released intentHash solver amount _ _ _ =>
      g.close (.release intentHash) intentHash Lock.release solver amount
  | .refunded intentHash user amount _ | .refundedLocalTimeout intentHash user amount =>
      g.close (.refund intentHash) intentHash Lock.refund user amount
  | .skimmed token receiver amount =>
      { g with payments := g.payments ++ [⟨.skim, token, receiver, amount⟩] }
  | .peerSet peer => { g with stellarPeer := peer }
  | .confirmationGraceSet secondsGrace => { g with confirmationGrace := secondsGrace }
  | .guardianSet guardian => { g with guardian := guardian }
  | .pausedSet paused => { g with paused := paused }
  | .ownershipTransferStarted _ newOwner => { g with pendingOwner := newOwner }
  | .ownershipTransferred _ newOwner => { g with owner := newOwner, pendingOwner := 0 }
  | .ownershipTransferCancelled _ => { g with pendingOwner := 0 }
  | .assetAllowed asset allowed =>
      { g with assetAllowed := Function.update g.assetAllowed asset allowed }
  | .maxIntentAmountPerAssetSet asset maxAmount =>
      { g with maxIntentAmountPerAsset := Function.update g.maxIntentAmountPerAsset asset maxAmount }
  | .maxIntentAmountSet maxAmount => { g with maxIntentAmount := maxAmount }
  | .rollingWindowCapSet duration cap =>
      { g with rollingWindowDuration := duration, rollingWindowCap := cap }
  | .rollingWindowCapPerAssetSet asset duration cap =>
      { g with
        rollingWindowDuration := duration
        rollingWindowCapPerAsset := Function.update g.rollingWindowCapPerAsset asset cap }
  | .rollingWindowCapTriggered _ _ => { g with rollingWindowTriggered := true }
  | .rollingWindowCapReset => { g with rollingWindowTriggered := false }
  | .cancelIgnored _ _ | .nativeSkimmed _ _ => g

end Ledger

def World.ledger (w : World) : Ledger where
  owner := w.owner
  pendingOwner := w.pendingOwner
  guardian := w.guardian
  stellarPeer := w.stellarPeer
  confirmationGrace := w.confirmationGrace
  paused := w.paused
  assetAllowed := w.assetAllowed
  maxIntentAmountPerAsset := w.maxIntentAmountPerAsset
  maxIntentAmount := w.maxIntentAmount
  rollingWindowDuration := w.rollingWindowDuration
  rollingWindowCap := w.rollingWindowCap
  rollingWindowCapPerAsset := w.rollingWindowCapPerAsset
  rollingWindowTriggered := w.rollingWindowTriggered
  locks := w.locks
  totalLocked := w.totalLocked
  payments := w.funds.payments

def journal : Journal World Event Ledger where
  log := World.events
  read := Ledger.read
  view := World.ledger

@[simp] theorem World.emit_events (w : World) (event : Event) :
    (w.emit event).events = w.events ++ [event] := by
  simp [World.emit, World.log, World.events, Effect.event]

@[simp] theorem World.emit_ledger (w : World) (event : Event) : (w.emit event).ledger = w.ledger := by
  simp [World.emit, World.log, World.ledger, World.funds, Effect.payment]

/-- One event tells what was written just before it. -/
theorem tells_emit {w v : World} {event : Event} (events : v.events = w.events)
    (known : w.ledger.read event = v.ledger) : journal.Tells w (v.emit event) := by
  have log : (v.emit event).events = w.events ++ [event] := by rw [World.emit_events, events]
  have view : w.ledger.read event = (v.emit event).ledger := by rw [World.emit_ledger, known]
  exact .entry log view

/-- The effects that are neither an event nor a payment of tokens. -/
theorem tells_effect {w v : World} {effect : Effect} (trace : v.trace = w.trace ++ [effect])
    (event : effect.event = none) (ledger : v.ledger = w.ledger) : journal.Tells w v := by
  refine .quiet ?_ ledger
  change v.events = w.events
  rw [World.events, trace, List.filterMap_append]
  simp [World.events, event]

theorem World.sendBack_ledger (w : World) (c : Context) (amount : Nat) :
    (w.sendBack c amount).ledger = w.ledger := by
  unfold World.sendBack
  split
  · simp [World.ledger, World.funds, Effect.payment]
  · rfl

theorem tells_sendBack (w : World) (c : Context) (amount : Nat) :
    journal.Tells w (w.sendBack c amount) := by
  refine .quiet ?_ (World.sendBack_ledger w c amount)
  change (w.sendBack c amount).events = w.events
  unfold World.sendBack
  split
  · simp [World.events, Effect.event]
  · rfl

/-! ## Locking -/

theorem commitValueCaps_tells {asset : Address} {received : Nat} {w w' : World}
    (ran : commitValueCaps asset received w = .ok w') :
    w'.trace = w.trace ∧ w'.ledger = w.ledger := by
  unfold commitValueCaps at ran
  split at ran
  · simp only [bind_ok, pure_ok] at ran
    obtain ⟨_, -, rfl⟩ := ran
    exact ⟨rfl, rfl⟩
  · cases ran
    exact ⟨rfl, rfl⟩

theorem pullFunds_tells {c : Context} {intent : Intent} {w w' : World} {received : Nat}
    (ran : pullFunds c intent w = .ok (w', received)) : journal.Tells w w' := by
  rcases pullFunds_cases ran with pulled | ⟨-, -, -, rfl⟩
  · obtain ⟨trace, ledger⟩ := commitValueCaps_tells pulled.committed
    refine tells_effect trace rfl (ledger.trans ?_)
    simp [World.ledger, World.funds, Effect.payment]
  · have latched : journal.Tells w (w.latch intent.sourceAmount intent.sourceAsset) :=
      tells_emit rfl rfl
    exact latched.trans (tells_sendBack _ c c.value)

theorem recorded_tells (w : World) (c : Context) (intentHash : Bytes32) (intent : Intent)
    (received : Nat) : journal.Tells w (w.recorded c intentHash intent received) :=
  tells_emit rfl rfl

theorem dispatchFillInstruction_tells {c : Context} {intentHash : Bytes32} {intent : Intent}
    {w w' : World} (ran : dispatchFillInstruction c intentHash intent w = .ok w') :
    journal.Tells w w' := by
  obtain ⟨quoted, arrived, rfl⟩ := dispatchFillInstruction_paid ran
  refine Journal.Tells.trans (tells_effect rfl rfl ?_) (tells_sendBack _ c _)
  simp [World.paidFee, World.ledger, World.funds, Effect.payment]

theorem lock_tells {c : Context} {intent : Intent} {signature : Bytes} {w w' : World}
    (ran : lock c intent signature w = .ok w') : journal.Tells w w' := by
  simp only [lock, nonReentrant_ok, bind_ok, require_ok, exists_const, Prod.exists] at ran
  obtain ⟨-, v, ⟨-, -, intentHash, -, pulled, received, pull, recorded, record, dispatch⟩, rfl⟩ := ran
  obtain ⟨-, rfl⟩ := recordLock_ok.mp record
  have entered : journal.Tells w { w with reentrancy := 2 } := .quiet rfl rfl
  have left : journal.Tells v { v with reentrancy := 1 } := .quiet rfl rfl
  exact (((entered.trans (pullFunds_tells pull)).trans (recorded_tells pulled c intentHash intent
    received)).trans (dispatchFillInstruction_tells dispatch)).trans left

/-! ## Settling -/

theorem settled_tells (w : World) (c : Context) (purpose : Purpose) (intentHash : Bytes32)
    (mark : Lock → Lock) (receiver : Address) {event : Event}
    (told : ∀ g : Ledger, g.read event =
      g.close purpose intentHash mark receiver (w.locks intentHash).amount) :
    journal.Tells w ((w.settled c purpose intentHash mark receiver).emit event) := by
  refine tells_emit ?_ ?_
  · simp [World.settled, World.pay, World.events, Effect.event]
  · rw [told]
    simp [World.ledger, World.settled, World.pay, World.funds, Ledger.close, Effect.payment]

theorem handleMessage_tells {c : Context} {message : Bytes} {w w' : World}
    (ran : handleMessage c message w = .ok w') : journal.Tells w w' := by
  rcases handleMessage_ok.mp ran with ⟨-, -, ran⟩ | ⟨-, -, ran⟩
  · obtain ⟨m, -, -, -, -, rfl⟩ := onFillConfirmed_ok.mp ran
    exact settled_tells w c _ _ _ _ fun _ => rfl
  · obtain ⟨m, -, (⟨-, rfl⟩ | ⟨-, -, rfl⟩ | ⟨-, rfl⟩)⟩ := onCancelIntent_ok.mp ran
    · exact tells_emit rfl rfl
    · exact tells_emit rfl rfl
    · exact settled_tells w c _ _ _ _ fun _ => rfl

theorem lzReceive_tells {c : Context} {origin : Origin} {message : Bytes} {w w' : World}
    (ran : lzReceive c origin message w = .ok w') : journal.Tells w w' := by
  obtain ⟨-, -, -, -, v, handled, rfl⟩ := lzReceive_ok.mp ran
  have entered : journal.Tells w
      (consumeNonce origin.srcEid origin.nonce { w with reentrancy := 2 }) := .quiet rfl rfl
  have left : journal.Tells v { v with reentrancy := 1 } := .quiet rfl rfl
  exact (entered.trans (handleMessage_tells handled)).trans left

theorem cancelExpired_tells {c : Context} {intentHash : Bytes32} {w w' : World}
    (ran : cancelExpired c intentHash w = .ok w') : journal.Tells w w' := by
  obtain ⟨-, -, -, -, rfl⟩ := cancelExpired_ok.mp ran
  have settled : journal.Tells w ((w.settled c (.refund intentHash) intentHash Lock.refund
      (w.locks intentHash).user).emit (.refundedLocalTimeout intentHash (w.locks intentHash).user
        (w.locks intentHash).amount)) :=
    settled_tells w c _ _ _ _ fun _ => rfl
  exact settled.trans (.quiet rfl rfl)

/-! ## Administration -/

theorem skim_tells {c : Context} {token receiver : Address} {amount : Nat} {w w' : World}
    (ran : skim c token receiver amount w = .ok w') : journal.Tells w w' := by
  simp only [skim, onlyOwner, bind_ok, require_ok, exists_const, safeTransfer_ok, pure_ok] at ran
  obtain ⟨-, -, _, -, -, _, ⟨-, -, rfl⟩, rfl⟩ := ran
  refine tells_emit ?_ ?_
  · simp [World.pay, World.events, Effect.event]
  · simp [World.ledger, World.pay, World.funds, Ledger.read, Effect.payment]

theorem skimNative_tells {c : Context} {receiver : Address} {amount : Nat} {w w' : World}
    (ran : skimNative c receiver amount w = .ok w') : journal.Tells w w' := by
  simp only [skimNative, onlyOwner, bind_ok, require_ok, exists_const, expect_ok,
    callWithValue_some, pure_ok] at ran
  obtain ⟨-, -, -, _, ⟨-, rfl⟩, rfl⟩ := ran
  refine tells_emit ?_ ?_
  · simp [World.events, Effect.event]
  · simp [World.ledger, World.funds, Ledger.read, Effect.payment]

theorem resetRollingWindowCap_tells {c : Context} {w w' : World}
    (ran : resetRollingWindowCap c w = .ok w') : journal.Tells w w' := by
  simp only [resetRollingWindowCap, onlyOwner, bind_ok, require_ok, exists_const, pure_ok] at ran
  obtain ⟨-, -, rfl⟩ := ran
  split
  · exact tells_emit rfl rfl
  · exact tells_emit rfl rfl

theorem pause_tells {c : Context} {w w' : World} (ran : pause c w = .ok w') : journal.Tells w w' := by
  simp only [pause, bind_ok, require_ok, exists_const] at ran
  obtain ⟨-, ran⟩ := ran
  split at ran
  · simp only [bind_ok, require_ok, exists_const, pure_ok] at ran
    obtain ⟨-, _, -, rfl⟩ := ran
    exact tells_emit rfl rfl
  · cases ran
    exact tells_emit rfl rfl

/-- Every call tells all it writes. -/
theorem Call.run_tells {c : Context} {call : Call} {w w' : World} (ran : call.run c w = .ok w') :
    journal.Tells w w' := by
  cases call with
  | lock intent signature => exact lock_tells ran
  | lzReceive origin message => exact lzReceive_tells ran
  | cancelExpired intentHash => exact cancelExpired_tells ran
  | skim token receiver amount => exact skim_tells ran
  | skimNative receiver amount => exact skimNative_tells ran
  | resetRollingWindowCap => exact resetRollingWindowCap_tells ran
  | pause => exact pause_tells ran
  | setPeer | setAssetAllowed | cancelOwnershipTransfer =>
      simp only [Call.run, Escrow.setPeer, Escrow.setAssetAllowed, Escrow.cancelOwnershipTransfer,
        onlyOwner, bind_ok, require_ok, exists_const, pure_ok] at ran
      obtain ⟨-, -, rfl⟩ := ran
      exact tells_emit rfl rfl
  | setGuardian | setPaused | setMaxIntentAmountPerAsset | setMaxIntentAmount
  | transferOwnership | acceptOwnership =>
      simp only [Call.run, Escrow.setGuardian, Escrow.setPaused, Escrow.setMaxIntentAmountPerAsset,
        Escrow.setMaxIntentAmount, Escrow.transferOwnership, Escrow.acceptOwnership, onlyOwner,
        bind_ok, require_ok, exists_const, pure_ok] at ran
      obtain ⟨-, rfl⟩ := ran
      exact tells_emit rfl rfl
  | setConfirmationGrace | setRollingWindowCap =>
      simp only [Call.run, Escrow.setConfirmationGrace, Escrow.setRollingWindowCap, onlyOwner,
        bind_ok, require_ok, exists_const, pure_ok] at ran
      obtain ⟨-, -, -, rfl⟩ := ran
      exact tells_emit rfl rfl
  | setRollingWindowCapForAsset =>
      simp only [Call.run, Escrow.setRollingWindowCapForAsset, onlyOwner, bind_ok, require_ok,
        exists_const, pure_ok] at ran
      obtain ⟨-, -, -, -, rfl⟩ := ran
      exact tells_emit rfl rfl
  | decayGuardianPause =>
      simp only [Call.run, Escrow.decayGuardianPause, bind_ok, require_ok, exists_const, pure_ok]
        at ran
      obtain ⟨-, -, _, -, rfl⟩ := ran
      exact tells_emit rfl rfl

theorem next_tells {d : Deployment} {input : Input} {w w' : World}
    (stepped : next d w input = some w') : journal.Tells w w' := by
  cases input with
  | tx tx =>
      obtain ⟨-, ran⟩ := exec_ok.mp (next_tx.mp stepped).2
      have entered : journal.Tells w (w.enter tx) := .quiet rfl rfl
      exact entered.trans (Call.run_tells ran)
  | tokenArrives token amount | nativeArrives amount =>
      cases stepped
      exact .quiet rfl rfl

theorem construct_told {d : Deployment} {creation : Creation} {w : World}
    (constructed : construct d creation = .ok w) : journal.readAll .blank w.events = w.ledger := by
  simp only [construct, bind_ok, require_ok, exists_const, pure_ok] at constructed
  obtain ⟨-, rfl⟩ := constructed
  rfl

theorem ledger_of_reachable {d : Deployment} {w : World} (reach : (system d).Reachable w) :
    journal.readAll .blank w.events = w.ledger := by
  refine Journal.read_of_reachable (J := journal) ?_ (fun _ _ _ _ => next_tells) reach
  intro s init
  obtain ⟨creation, constructed⟩ := init
  exact construct_told constructed

/-- The events of a reachable state give its ledger, and so do the events since any earlier
    state to a reader who has the ledger of that one. -/
theorem events_tell {d : Deployment} {w w' : World} (reach : (system d).Reachable w)
    (later : (system d).Later w w') :
    journal.readAll .blank w'.events = w'.ledger ∧
      journal.readAll w.ledger (w'.events.drop w.events.length) = w'.ledger := by
  refine ⟨ledger_of_reachable (reach.later later), ?_⟩
  have told : journal.Tells w w' := Journal.tells_of_later (fun _ _ _ _ => next_tells) reach later
  exact told.resumed

theorem events_tell_sample :
    journal.readAll .blank Sample.refunded.events = Sample.refunded.ledger ∧
      journal.readAll Sample.locked.ledger
          (Sample.refunded.events.drop Sample.locked.events.length) = Sample.refunded.ledger :=
  events_tell Sample.locked_reachable
    (later_of_replay (show replay Sample.deployment Sample.locked [.tx Sample.refundTx] =
      some Sample.refunded by simp [Sample.refunded]))

/-! ## What a closing event proves -/

/-- The lock an event closes, and for what. -/
def Event.closing : Event → Option Purpose
  | .released intentHash _ _ _ _ _ => some (.release intentHash)
  | .refunded intentHash _ _ _ | .refundedLocalTimeout intentHash _ _ => some (.refund intentHash)
  | _ => none

theorem Ledger.read_payments (g : Ledger) (event : Event) :
    g.payments ⊆ (g.read event).payments := by
  cases event with
  | released | refunded | refundedLocalTimeout | skimmed => exact List.subset_append_left _ _
  | _ => exact List.Subset.refl _

theorem readAll_payments (events : List Event) (g : Ledger) :
    g.payments ⊆ (journal.readAll g events).payments := by
  induction events generalizing g with
  | nil => exact List.Subset.refl _
  | cons event events ih => exact List.Subset.trans (g.read_payments event) (ih (g.read event))

/-- A closing event tells a payment. -/
theorem readAll_paid {events : List Event} {event : Event} {purpose : Purpose}
    (member : event ∈ events) (closing : event.closing = some purpose) (g : Ledger) :
    ∃ payment ∈ (journal.readAll g events).payments, payment.purpose = purpose := by
  obtain ⟨before, after, rfl⟩ := List.append_of_mem member
  have paid : ∃ payment ∈ ((journal.readAll g before).read event).payments,
      payment.purpose = purpose := by
    cases event with
    | released | refunded | refundedLocalTimeout =>
        cases closing
        exact ⟨_, List.mem_append_right _ (List.mem_singleton.mpr rfl), rfl⟩
    | _ => cases closing
  obtain ⟨payment, there, same⟩ := paid
  refine ⟨payment, ?_, same⟩
  rw [Journal.readAll, List.foldl_append, List.foldl_cons]
  exact readAll_payments after _ there

/-- Every payment for a lock has left its mark on it. -/
structure Marked (f : Funds) (h : Bytes32) : Prop where
  accounted : Accounted f h
  released : ∀ payment ∈ f.payments, payment.purpose = .release h → (f.locks h).released = true
  refunded : ∀ payment ∈ f.payments, payment.purpose = .refund h →
    (f.locks h).refunded = true ∧ payment.receiver = (f.locks h).user

theorem Marked.unpaid {f : Funds} {h : Bytes32} (marked : Marked f h)
    (vacant : (f.locks h).user = 0) {payment : Payment} (member : payment ∈ f.payments) :
    payment.purpose.intentHash ≠ some h := by
  intro closes
  have none := marked.accounted.unpaid (marked.accounted.vacant vacant)
  have paid : payment ∈ f.payouts h := List.mem_filter.mpr ⟨member, decide_eq_true closes⟩
  rw [none] at paid
  cases paid

/-- A payment more, with a mark of its own, and no mark less. -/
theorem Marked.pay {f f' : Funds} {h : Bytes32} {payment : Payment} (marked : Marked f h)
    (accounted : Accounted f' h) (follows : Follows h f f')
    (payments : f'.payments = f.payments ++ [payment])
    (released : payment.purpose = .release h → (f'.locks h).released = true)
    (refunded : payment.purpose = .refund h →
      (f'.locks h).refunded = true ∧ payment.receiver = (f'.locks h).user) : Marked f' h where
  accounted := accounted
  released := by
    intro paid member purpose
    rw [payments] at member
    rcases List.mem_append.mp member with old | new
    · exact follows.released (marked.released paid old purpose)
    · cases List.mem_singleton.mp new
      exact released purpose
  refunded := by
    intro paid member purpose
    rw [payments] at member
    rcases List.mem_append.mp member with old | new
    · obtain ⟨flag, receiver⟩ := marked.refunded paid old purpose
      refine ⟨follows.refunded flag, ?_⟩
      by_cases vacant : (f.locks h).user = 0
      · exact absurd (congrArg Purpose.intentHash purpose) (marked.unpaid vacant old)
      · rw [receiver, (follows.terms vacant).user]
    · cases List.mem_singleton.mp new
      exact refunded purpose

theorem Marked.step {f f' : Funds} {move} {h : Bytes32} (marked : Marked f h)
    (step : Funds.Step f move f') : Marked f' h := by
  have accounted := marked.accounted.step step
  have follows := Follows.step marked.accounted step
  cases step with
  | same => exact marked
  | arrived token amount => exact ⟨accounted, marked.released, marked.refunded⟩
  | locked key lock vacant owned live deadline fits =>
      by_cases here : h = key
      · subst here
        refine ⟨accounted, ?_, ?_⟩
        · intro payment member purpose
          exact absurd (congrArg Purpose.intentHash purpose) (marked.unpaid vacant member)
        · intro payment member purpose
          exact absurd (congrArg Purpose.intentHash purpose) (marked.unpaid vacant member)
      · have same : ((f.arrive lock.asset lock.amount).record key lock).locks h = f.locks h := by
          simp [Funds.record, Funds.arrive, here]
        refine ⟨accounted, ?_, ?_⟩
        · rw [same]
          exact marked.released
        · rw [same]
          exact marked.refunded
  | released m timestamp debit =>
      refine marked.pay accounted follows rfl ?_ ?_
      · intro purpose
        cases purpose
        simp [Funds.pay, Funds.discharge, Lock.release]
      · intro purpose
        cases purpose
  | refunded key debit =>
      refine marked.pay accounted follows rfl ?_ ?_
      · intro purpose
        cases purpose
      · intro purpose
        cases purpose
        simp [Funds.pay, Funds.discharge, Lock.refund]
  | skimmed token receiver amount debit =>
      refine marked.pay accounted follows rfl ?_ ?_
      · intro purpose
        cases purpose
      · intro purpose
        cases purpose

theorem marked_of_reachable {d : Deployment} {w : World} (reach : (system d).Reachable w)
    (h : Bytes32) : Marked w.funds h := by
  refine funds_invariant (P := fun f => Marked f h) ?_ (fun _ _ _ marked step => marked.step step) reach
  intro balanceOf
  refine ⟨?_, ?_, ?_⟩
  · exact ⟨fun _ => rfl, by simp [default], fun _ => rfl, fun impossible => Bool.noConfusion impossible⟩
  · intro payment member
    cases member
  · intro payment member
    cases member

theorem payment_of_event {d : Deployment} {w : World} (reach : (system d).Reachable w)
    {event : Event} {purpose : Purpose} (member : event ∈ w.events)
    (closing : event.closing = some purpose) :
    ∃ payment ∈ w.funds.payments, payment.purpose = purpose := by
  have told := readAll_paid member closing .blank
  rw [ledger_of_reachable reach] at told
  exact told

theorem released_of_event {d : Deployment} {w : World} (reach : (system d).Reachable w)
    {event : Event} {h : Bytes32} (member : event ∈ w.events)
    (closing : event.closing = some (.release h)) : (w.locks h).released = true := by
  obtain ⟨payment, paid, purpose⟩ := payment_of_event reach member closing
  exact (marked_of_reachable reach h).released payment paid purpose

/-- The one payment for the lock went back to its user. -/
theorem refunded_of_event {d : Deployment} {w : World} (reach : (system d).Reachable w)
    {event : Event} {h : Bytes32} (member : event ∈ w.events)
    (closing : event.closing = some (.refund h)) :
    (w.locks h).refunded = true ∧ w.funds.payouts h =
      [⟨.refund h, (w.locks h).asset, (w.locks h).user, (w.locks h).amount⟩] := by
  obtain ⟨payment, paid, purpose⟩ := payment_of_event reach member closing
  have marked := marked_of_reachable reach h
  obtain ⟨flag, receiver⟩ := marked.refunded payment paid purpose
  have final : (w.funds.locks h).finalized = true := by simp [Lock.finalized, flag]
  obtain ⟨purpose', receiver', one⟩ := marked.accounted.paid final
  have among : payment ∈ w.funds.payouts h :=
    List.mem_filter.mpr ⟨paid, decide_eq_true (congrArg Purpose.intentHash purpose)⟩
  rw [one] at among ⊢
  cases List.mem_singleton.mp among
  refine ⟨flag, ?_⟩
  cases purpose
  cases receiver
  rfl

end Perihelion.Escrow

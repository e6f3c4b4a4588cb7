import Perihelion.Bridge.Agreement
import Perihelion.Escrow.Inbound
import Perihelion.Escrow.Refund

/-! # A delivered solver is repaid

From a lock over its FillInstruction, the fill and the FillConfirmed back to the
release: whoever the settlement contract confirms is the solver that locked, and the
escrow takes the confirmation and pays that solver, unless the user was refunded
before.
-/

namespace Perihelion.Bridge

open BigEndian Fallible Transition

def IsFillConfirmed (message : Bytes) : Prop :=
  message.take 2 = [Settlement.protocolVersion, Settlement.msgFillConfirmed]

/-- The input is taken, and releases the lock `h` to the solver that locked it. -/
def Repays (link : Link) (horizon : Nat) (w : World) (input : Input) (h : Bytes32) : Prop :=
  ∃ w', next link horizon w input = some w' ∧
    w'.escrow.locks = Function.update w.escrow.locks h (w.escrow.locks h).release ∧
    w'.escrow.funds.payments = w.escrow.funds.payments ++
      [⟨.release h, (w.escrow.locks h).asset, (w.escrow.locks h).solver,
        (w.escrow.locks h).amount⟩]

/-- Every FillConfirmed in flight repays, delivered before a refund under a fresh nonce,
    provided the token carries out the transfer. -/
def ConfirmationsRepay (link : Link) (horizon : Nat) : Prop :=
  ∀ w, (system link horizon).Reachable w → ∀ params, w.InFlight params →
    IsFillConfirmed params.message → ∀ h, Settlement.messageIntent params.message = h →
    (w.escrow.locks h).refunded = false →
    ∀ nonce value timestamp host, w.Admits timestamp →
      ¬ (nonce = 0 ∨ Escrow.isNonceConsumed w.escrow link.escrow.stellarEid nonce) →
      Escrow.TransferAccepted ((link.escrowTx params nonce value timestamp host).context link.escrow)
        (w.escrow.locks h).asset (w.escrow.locks h).solver (w.escrow.locks h).amount →
      Repays link horizon w (.toEscrow params nonce value timestamp host) h

/-! ## The release -/

/-- A confirmation for the locking solver of an open lock is always taken. -/
theorem release_available {d : Escrow.Deployment} {w : Escrow.World}
    (reach : (Escrow.system d).Reachable w) {tx : Escrow.Tx} {origin rest m}
    (call : tx.call =
      .lzReceive origin (Escrow.protocolVersion :: Escrow.msgFillConfirmed :: rest))
    (authenticated : Escrow.Authenticated d tx origin w)
    (decoded : Escrow.decodeFillConfirmed
      (Escrow.protocolVersion :: Escrow.msgFillConfirmed :: rest) = .ok m)
    (recorded : (w.locks m.intentHash).user ≠ 0)
    (live : (w.locks m.intentHash).finalized = false)
    (bySolver : m.solverEvm = (w.locks m.intentHash).solver)
    (delivered : (w.locks m.intentHash).minDestAmount ≤ m.fillAmount)
    (accepted : Escrow.TransferAccepted (tx.context d) (w.locks m.intentHash).asset
      (w.locks m.intentHash).solver (w.locks m.intentHash).amount) :
    ∃ w', Escrow.exec d tx w = .ok w' ∧ w'.stellarPeer = w.stellarPeer ∧
      w'.locks =
        Function.update w.locks m.intentHash (w.locks m.intentHash).release ∧
      w'.funds.payments = w.funds.payments ++
        [⟨.release m.intentHash, (w.locks m.intentHash).asset, (w.locks m.intentHash).solver,
          (w.locks m.intentHash).amount⟩] := by
  let entered := Escrow.consumeNonce origin.srcEid origin.nonce { w.enter tx with reentrancy := 2 }
  rw [← bySolver] at accepted ⊢
  have settles : Escrow.Settles (tx.context d) m.intentHash m.solverEvm entered :=
    ⟨Escrow.open_funds reach recorded live, accepted⟩
  have ran := Escrow.onFillConfirmed_ok.mpr
    ⟨m, decoded, settles, Or.inl bySolver, delivered, rfl⟩
  have handled := Escrow.handleMessage_ok.mpr (Or.inl ⟨rest, rfl, ran⟩)
  have done := (Escrow.exec_lzReceive call).mpr
    ⟨(Escrow.steady_of_reachable reach).idle, authenticated, _, handled, rfl⟩
  have funds := Escrow.World.settled_funds entered (tx.context d) (.release m.intentHash)
    m.intentHash Escrow.Lock.release m.solverEvm
  rw [← Escrow.World.emit_funds] at funds
  have peer := congrArg Escrow.Core.stellarPeer (Escrow.handleMessage_core handled).1
  have payments := congrArg Escrow.Funds.payments funds
  refine ⟨_, done, peer, rfl, payments⟩

/-! ## The confirmation -/

/-- What a FillConfirmed that was sent says, in terms of the lock. -/
structure Confirms (link : Link) (w : World) (h : Bytes32)
    (params : Settlement.MessagingParams) : Prop where
  recorded : (w.escrow.locks h).user ≠ 0
  dstEid : params.dstEid = link.evmEid
  receiver : params.receiver = word link.escrow.this
  message : ∃ (fillAmount : Settlement.I128) (fillLedger : Nat),
    params.message =
      Settlement.encodeFillConfirmed h (word (w.escrow.locks h).solver) fillAmount fillLedger ∧
    (w.escrow.locks h).minDestAmount ≤ fillAmount.toNat

theorem Coherent.confirms {link : Link} {w : World} (coherent : Coherent link w)
    {params : Settlement.MessagingParams} (sent : params ∈ w.settlement.sent)
    (kind : IsFillConfirmed params.message) :
    Confirms link w (Settlement.messageIntent params.message) params := by
  obtain ⟨entry, member, emitted⟩ := List.mem_filterMap.mp sent
  obtain ⟨before, after, split⟩ := List.append_of_mem member
  generalize same : Settlement.messageIntent params.message = h
  have sends : entry.sends h = true := by
    rw [Settlement.Entry.sends_eq, emitted, Option.any_some, Settlement.MessagingParams.about,
      same, beq_self_eq_true]
  have said : entry.message = some params.message := by
    rw [Settlement.Entry.message_eq, emitted, Option.map_some]
  have stage := Settlement.stage_of_reachable coherent.settlement h
  cases stage.outbound split sends with
  | confirmation record solver solverEvm payment found bySolver forSolver message paid never
      transferred ledger exact enough =>
      have matching := (coherent.agrees h).record record found
      obtain ⟨dstEid, receiver⟩ := (coherent.agrees h).addressed entry
        (List.mem_filter.mpr ⟨member, Settlement.Entry.concerns_of_sends sends⟩) params emitted
      obtain rfl : word (w.escrow.locks h).solver = solverEvm :=
        Option.some.inj (matching.solverEvm.symm.trans forSolver)
      have minimum := matching.minDestAmount
      refine ⟨matching.recorded, dstEid, receiver, record.fillAmount, record.fillLedger,
        Option.some.inj (said.symm.trans message), ?_⟩
      omega
  | cancellation record found message late unpaid =>
      have cancels := Option.some.inj (said.symm.trans message)
      unfold IsFillConfirmed at kind
      rw [cancels] at kind
      exact absurd kind (by simp [Settlement.encodeCancelIntent, Settlement.msgCancelIntent,
        Settlement.msgFillConfirmed])

theorem eq_of_length_le_one {α : Type u} {a b : α} {l : List α} (short : l.length ≤ 1)
    (first : a ∈ l) (second : b ∈ l) : a = b := by
  cases l with
  | nil => cases first
  | cons x rest =>
      cases rest with
      | nil => rw [List.mem_singleton.mp first, List.mem_singleton.mp second]
      | cons y rest => simp at short

/-- While its confirmation is in flight a lock is not released: there is no second message
    that could have released it. -/
theorem Coherent.unreleased {link : Link} {w : World} (coherent : Coherent link w)
    {params : Settlement.MessagingParams} (flying : w.InFlight params) :
    (w.escrow.locks (Settlement.messageIntent params.message)).released = false := by
  by_contra released
  generalize same : Settlement.messageIntent params.message = h at released
  have about : params.about h = true := beq_iff_eq.mpr same
  have short := Settlement.sent_le_one coherent.settlement h
  obtain ⟨earlier, taken, earlierAbout⟩ :=
    coherent.paid h (Bool.eq_true_of_not_eq_false released)
  have takenCount := List.count_pos_iff.mpr taken
  have counted := coherent.counted earlier
  unfold World.InFlight at flying
  have earlierSent : earlier ∈ w.settlement.sent := List.count_pos_iff.mp (by omega)
  have sent : params ∈ w.settlement.sent := List.count_pos_iff.mp (by omega)
  obtain rfl : earlier = params := eq_of_length_le_one short
    (List.mem_filter.mpr ⟨earlierSent, earlierAbout⟩) (List.mem_filter.mpr ⟨sent, about⟩)
  have once := List.count_le_length (a := earlier)
    (l := w.settlement.sent.filter (Settlement.MessagingParams.about h))
  rw [List.count_filter about] at once
  omega

/-- In every run without a fill in the last second of a `u64`. -/
theorem confirmations_repay {link : Link} {horizon : Nat} (early : horizon < uint64) :
    ConfirmationsRepay link horizon := by
  intro w reach params flying kind h about unrefunded nonce value timestamp host admits fresh accepted
  have coherent := coherent_of_reachable early reach
  have sent : params ∈ w.settlement.sent :=
    List.count_pos_iff.mp (Nat.lt_of_le_of_lt (Nat.zero_le _) flying)
  have confirms := coherent.confirms sent kind
  have unreleased := coherent.unreleased flying
  rw [about] at confirms unreleased
  obtain ⟨fillAmount, fillLedger, message, enough⟩ := confirms.message
  have live : (w.escrow.locks h).finalized = false := by
    simp [Escrow.Lock.finalized, unreleased, unrefunded]
  have layout : ∃ rest, params.message =
      Escrow.protocolVersion :: Escrow.msgFillConfirmed :: rest := ⟨_, message⟩
  obtain ⟨rest, layout⟩ := layout
  have decoded := decode_fillConfirmed h (w.escrow.locks h).solver fillAmount fillLedger
  rw [← message, layout] at decoded
  have call : (link.escrowTx params nonce value timestamp host).call =
      .lzReceive ⟨link.escrow.stellarEid, link.settlementId, nonce⟩
        (Escrow.protocolVersion :: Escrow.msgFillConfirmed :: rest) := by
    rw [← layout]
    rfl
  obtain ⟨e, done, peer, locks, payments⟩ := release_available coherent.escrow call
    ⟨rfl, coherent.linked.1.symm, fresh⟩ decoded confirms.recorded live rfl enough accepted
  refine ⟨{ w with escrow := e, received := w.received ++ [params] }, ?_, locks, payments⟩
  refine next_ok.mpr ⟨⟨admits, flying, confirms.dstEid, confirms.receiver⟩, ?_, ?_⟩
  · have advanced := Escrow.next_tx.mpr ⟨admits.1, done⟩
    simp only [Input.run, advanced, Option.map_some]
  · exact ⟨peer.trans coherent.linked.1, coherent.linked.2⟩

/-! ## Two runs -/

namespace Sample

def link : Link where
  escrow := Escrow.Sample.deployment
  settlement := Settlement.Sample.deployment
  evmEid := 30101
  settlementId := Escrow.Sample.peer
  here := rfl

def start : World := ⟨Escrow.Sample.ready, Settlement.Sample.ready, []⟩

theorem start_start : Start link start where
  escrow := Escrow.Sample.ready_reachable
  settlement := Settlement.Sample.ready_reachable
  linked := by decide +kernel
  vacant _ := rfl
  unknown _ := rfl
  received := rfl

/-- The last second of a `u64`. -/
def lastSecond : Nat := uint64 - 1

/-- Lock, hand the FillInstruction over, deliver, dispatch. -/
def run (intent : Escrow.Intent) (evmSolver : Bytes32) (locks arrives fills : Nat) : List Input := [
  .escrow (.tx (Escrow.Sample.tx Escrow.Sample.solver 8 locks (.lock intent []))),
  .toSettlement
    (Escrow.fillInstructionParams
      ((Escrow.Sample.tx Escrow.Sample.solver 8 locks (.lock intent [])).context
        Escrow.Sample.deployment)
      (Escrow.hashIntent Escrow.Sample.deployment intent) intent Escrow.Sample.ready)
    1 arrives 1200 Settlement.Sample.host,
  .settlement (Settlement.Sample.tx fills 1234
    (.deliverIntent Settlement.Sample.solver evmSolver
      (Escrow.hashIntent Escrow.Sample.deployment intent) 95)),
  .settlement (Settlement.Sample.tx fills 1250
    (.dispatchConfirmation Settlement.Sample.admin
      (Escrow.hashIntent Escrow.Sample.deployment intent) 5))]

def confirmation (intentHash evmSolver : Bytes32) : Settlement.MessagingParams :=
  Settlement.outboundParams 30101 Settlement.Sample.escrow
    (Settlement.encodeFillConfirmed intentHash evmSolver 95 1234)

def confirmed : World :=
  (System.replay (next link lastSecond) start
    (run Escrow.Sample.intent Settlement.Sample.solverEvm 1700000100 1700000200 1700000300)).get
      (by decide +kernel)

/-- The same intent with the last possible deadline. -/
def lastIntent : Escrow.Intent := { Escrow.Sample.intent with deadline := lastSecond }

/-- Another solver delivers it in the very second of the deadline. -/
def other : Bytes32 := 0xBAD

def lastConfirmed : World :=
  (System.replay (next link uint64) start
    (run lastIntent other (lastSecond - 1000) (lastSecond - 900) lastSecond)).get
      (by decide +kernel)

theorem reachable_of_replay {horizon : Nat} {w : World} {inputs : List Input}
    (replayed : System.replay (next link horizon) start inputs = some w) :
    (system link horizon).Reachable w :=
  System.Reachable.later (.init start_start)
    (System.Later.of_replay (fun _ _ _ stepped => stepped) replayed)

theorem confirmed_reachable : (system link lastSecond).Reachable confirmed :=
  reachable_of_replay (show System.replay (next link lastSecond) start
    (run Escrow.Sample.intent Settlement.Sample.solverEvm 1700000100 1700000200 1700000300) =
      some confirmed by simp [confirmed])

theorem lastConfirmed_reachable : (system link uint64).Reachable lastConfirmed :=
  reachable_of_replay (show System.replay (next link uint64) start
    (run lastIntent other (lastSecond - 1000) (lastSecond - 900) lastSecond) =
      some lastConfirmed by simp [lastConfirmed])

def lastHash : Bytes32 := Escrow.hashIntent Escrow.Sample.deployment lastIntent

/-- The confirmation of the second run is handed over in the same second. -/
def lastDelivery : Input :=
  .toEscrow (confirmation lastHash other) 1 0 lastSecond Escrow.Sample.host

/-- The confirmation about `h` can be handed over at `timestamp`, under nonce 1. -/
def Deliverable (w : World) (h evmSolver : Bytes32) (timestamp : Nat) : Prop :=
  w.InFlight (confirmation h evmSolver) ∧
    Settlement.messageIntent (confirmation h evmSolver).message = h ∧
    (w.escrow.locks h).refunded = false ∧ w.Admits timestamp ∧
    ¬ ((1 : UInt64) = 0 ∨ Escrow.isNonceConsumed w.escrow link.escrow.stellarEid 1) ∧
    ((link.escrowTx (confirmation h evmSolver) 1 0 timestamp Escrow.Sample.host).context
      link.escrow).codeAt (w.escrow.locks h).asset ∧ (w.escrow.locks h).asset ≠ link.escrow.this

instance (w : World) (h evmSolver : Bytes32) (timestamp : Nat) :
    Decidable (Deliverable w h evmSolver timestamp) :=
  inferInstanceAs (Decidable (_ ∧ _ ∧ _ ∧ _ ∧ _ ∧ _ ∧ _))

theorem confirmed_deliverable :
    Deliverable confirmed Escrow.Sample.intentHash Settlement.Sample.solverEvm
      1700000400 := by
  decide +kernel

theorem lastConfirmed_delivered :
    Deliverable lastConfirmed lastHash other lastSecond ∧
      (lastConfirmed.escrow.locks lastHash).solver = 0x501 ∧
      ((next link uint64 lastConfirmed lastDelivery).map fun w => w.escrow.funds.payments) =
        some [⟨.release lastHash, Escrow.Sample.token, 0xBAD, 100⟩] := by
  decide +kernel

end Sample

theorem confirmations_repay_sample :
    Repays Sample.link Sample.lastSecond Sample.confirmed
      (.toEscrow (Sample.confirmation Escrow.Sample.intentHash Settlement.Sample.solverEvm) 1 0
        1700000400 Escrow.Sample.host) Escrow.Sample.intentHash := by
  obtain ⟨flying, about, unrefunded, admits, fresh, code, asset⟩ :=
    Sample.confirmed_deliverable
  exact confirmations_repay (by decide) Sample.confirmed Sample.confirmed_reachable
    (Sample.confirmation Escrow.Sample.intentHash Settlement.Sample.solverEvm) flying rfl
    Escrow.Sample.intentHash about unrefunded 1 0 1700000400 Escrow.Sample.host admits fresh
    ⟨code, asset, encode 32 1, rfl, by decide +kernel⟩

/-- Once the clock stands at its last second, the early guard of the fill saturates, the
    reservation is over, and the escrow pays the solver that delivered, not the one that
    locked. -/
theorem lastSecond_pays_other :
    (system Sample.link uint64).Reachable Sample.lastConfirmed ∧
      (Sample.lastConfirmed.escrow.locks Sample.lastHash).solver = 0x501 ∧
      ((next Sample.link uint64 Sample.lastConfirmed Sample.lastDelivery).map
        fun w => w.escrow.funds.payments) =
          some [⟨.release Sample.lastHash, Escrow.Sample.token, 0xBAD, 100⟩] ∧
      ¬ ConfirmationsRepay Sample.link uint64 := by
  obtain ⟨⟨flying, about, unrefunded, admits, fresh, code, asset⟩, solver, paid⟩ :=
    Sample.lastConfirmed_delivered
  refine ⟨Sample.lastConfirmed_reachable, solver, paid, ?_⟩
  intro repay
  obtain ⟨w', stepped, -, payments⟩ := repay Sample.lastConfirmed Sample.lastConfirmed_reachable
    (Sample.confirmation Sample.lastHash Sample.other) flying rfl Sample.lastHash about unrefunded
    1 0 Sample.lastSecond Escrow.Sample.host admits fresh
    ⟨code, asset, encode 32 1, rfl, by decide +kernel⟩
  have stepped : next Sample.link uint64 Sample.lastConfirmed Sample.lastDelivery = some w' := stepped
  rw [stepped, Option.map_some, Option.some.injEq, payments] at paid
  have receiver := congrArg (List.map Escrow.Payment.receiver) paid
  rw [List.map_append, List.map_singleton, solver] at receiver
  have last := congrArg List.getLast? receiver
  rw [List.getLast?_append] at last
  exact absurd last (by decide)

end Perihelion.Bridge

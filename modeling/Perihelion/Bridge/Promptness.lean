import Perihelion.Bridge.Delivery
import Perihelion.Escrow.Controls
import Perihelion.Settlement.Confirmations
import Perihelion.Settlement.Markers

/-! # Time enough for a confirmation

A confirmation leaves Stellar at most `MIN_DISPATCH_WINDOW` after the deadline, and the time
lock opens `confirmationGrace` after it.  The difference is what the transport has: a
message that takes less finds its lock open, whoever tries to refund it meanwhile.
-/

namespace Perihelion.Bridge

open BigEndian Fallible Transition

/-- The grace that the owner has set is at least `grace`. -/
def Patient (grace : Nat) (w : World) (_ : Input) : Prop := grace ≤ w.escrow.confirmationGrace

instance (grace : Nat) (w : World) (input : Input) : Decidable (Patient grace w input) :=
  inferInstanceAs (Decidable (_ ≤ _))

def patient (link : Link) (horizon grace : Nat) : System World Input :=
  (system link horizon).under (Patient grace)

/-! ## Sent in time -/

theorem history_of_view {v : Settlement.World} {h : Bytes32} {entry : Settlement.Entry} :
    entry ∈ (v.view h).history ↔ entry ∈ v.trace ∧ entry.effect.concerns h = true :=
  List.mem_filter

theorem history_length_le {h : Bytes32} {v : Settlement.IntentView} (stage : Settlement.Stage h v) :
    v.history.length ≤ 2 ∧ (v.confirmationSent = true → v.history.length = 2) := by
  cases stage <;> simp [Settlement.IntentView.empty]

/-- The confirmation about `h` was sent within the dispatch window of its lock. -/
def Timely (w : World) : Prop :=
  ∀ entry ∈ w.settlement.trace, ∀ params, entry.sent = some params →
    IsFillConfirmed params.message →
      entry.timestamp ≤ (w.escrow.locks (Settlement.messageIntent params.message)).deadline +
        Settlement.minDispatchWindow

theorem confirmationSent_of_sent {d : Settlement.Deployment} {v : Settlement.World}
    (reach : (Settlement.system d).Reachable v) {params : Settlement.MessagingParams}
    (sent : params ∈ v.sent) (kind : IsFillConfirmed params.message) :
    v.confirmationSent (Settlement.messageIntent params.message) = true := by
  have agree := Settlement.markersAgree_of_view rfl (Settlement.stage_of_reachable reach
    (Settlement.messageIntent params.message))
  rcases meaning_of_sent reach sent rfl with ⟨-, record, payment, solver, confirmed⟩ | ⟨cancels, -⟩
  · exact (agree.confirmed record confirmed.found).mp confirmed.status
  · exact absurd kind (encodeCancelIntent_not_fillConfirmed cancels)

/-- The settlement contract moves, the locks stay. -/
theorem Timely.settle {link : Link} {w w' : World} (timely : Timely w) (coherent : Coherent link w)
    {tx : Settlement.Tx}
    (advanced : Settlement.next link.settlement w.settlement tx = some w'.settlement)
    (still : w'.escrow = w.escrow) : Timely w' := by
  obtain ⟨⟨-, clock, -⟩, ran⟩ := Settlement.next_ok.mp advanced
  have reached := coherent.settlement.step advanced
  intro entry member params emitted kind
  generalize about : Settlement.messageIntent params.message = h
  have concerns : entry.effect.concerns h = true := by
    apply Settlement.Entry.concerns_of_sends
    rw [Settlement.Entry.sends_eq, emitted, Option.any_some, Settlement.MessagingParams.about, about,
      beq_self_eq_true]
  have step := Settlement.exec_step (Settlement.named_of_reachable coherent.settlement) ran h
  obtain ⟨fresh, grown, timed⟩ := step.fresh
  have later := history_of_view.mpr ⟨member, concerns⟩
  rw [grown, List.mem_append] at later
  rw [still]
  rcases later with earlier | new
  · have before := timely entry (history_of_view.mp earlier).1 params emitted kind
    rw [about] at before
    exact before
  · have sent : params ∈ w'.settlement.sent := List.mem_filterMap.mpr ⟨entry, member, emitted⟩
    have marked := confirmationSent_of_sent reached sent kind
    rw [about] at marked
    have confirms : tx.call.confirms h := by
      rcases Settlement.exec_confirmationSent ran h with same | confirms
      · rw [marked] at same
        have full := (history_length_le (Settlement.stage_of_reachable coherent.settlement h)).2
          same.symm
        have most := (history_length_le (Settlement.stage_of_reachable reached h)).1
        rw [grown, List.length_append, full] at most
        have empty : fresh = [] := List.eq_nil_of_length_eq_zero (by omega)
        rw [empty] at new
        cases new
      · exact confirms
    obtain ⟨record, found, inTime⟩ := Settlement.exec_confirms_inTime ran confirms clock
    have deadline := ((coherent.agrees h).record record found).deadline
    rw [deadline] at inTime
    have stamped : entry.timestamp = tx.timestamp := timed entry new
    rw [stamped]
    exact inTime

/-- The escrow moves, nothing is sent. -/
theorem Timely.advance {link : Link} {w w' : World} (timely : Timely w) (coherent : Coherent link w)
    {input : Escrow.Input}
    (advanced : Escrow.next link.escrow w.escrow input = some w'.escrow)
    (still : w'.settlement = w.settlement) : Timely w' := by
  intro entry member params emitted kind
  rw [still] at member
  have sent : params ∈ w.settlement.sent := List.mem_filterMap.mpr ⟨entry, member, emitted⟩
  have confirms := coherent.confirms sent kind
  have follows := Escrow.follows_of_later coherent.escrow (System.Later.of_step advanced)
    (Settlement.messageIntent params.message)
  have same : (w'.escrow.locks _).deadline = (w.escrow.locks _).deadline :=
    (follows.terms confirms.recorded).deadline
  rw [same]
  exact timely entry member params emitted kind

theorem timely_of_reachable {link : Link} {horizon : Nat} {w : World} (early : horizon < uint64)
    (reach : (system link horizon).Reachable w) : Timely w := by
  refine reach.invariant (P := Timely) ?_ ?_
  · intro w start entry member params emitted kind
    have sent : params ∈ w.settlement.sent := List.mem_filterMap.mpr ⟨entry, member, emitted⟩
    have marked := confirmationSent_of_sent start.settlement sent kind
    have unmarked := congrArg Settlement.IntentView.confirmationSent
      (start.unknown (Settlement.messageIntent params.message))
    exact absurd (marked.symm.trans unmarked) (by simp [Settlement.IntentView.empty])
  · intro w input w' reached timely stepped
    have coherent := coherent_of_reachable early reached
    obtain ⟨-, ran, -⟩ := next_ok.mp stepped
    cases input with
    | escrow input =>
        obtain ⟨e, advanced, rfl⟩ := Option.map_eq_some_iff.mp ran
        exact timely.advance coherent advanced rfl
    | toEscrow params nonce value timestamp host =>
        obtain ⟨e, advanced, rfl⟩ := Option.map_eq_some_iff.mp ran
        exact timely.advance coherent advanced rfl
    | settlement tx =>
        obtain ⟨s, advanced, rfl⟩ := Option.map_eq_some_iff.mp ran
        exact timely.settle coherent advanced rfl
    | toSettlement params nonce timestamp sequence host =>
        obtain ⟨s, advanced, rfl⟩ := Option.map_eq_some_iff.mp ran
        exact timely.settle coherent advanced rfl

/-! ## Refunded late -/

/-- What has been refunded has been called off on Stellar, or waited for the grace. -/
def Overdue (grace : Nat) (w : World) (h : Bytes32) : Prop :=
  (∃ params ∈ w.settlement.sent,
      params.message = Settlement.encodeCancelIntent h Settlement.cancelReasonExpired) ∨
    (w.escrow.locks h).user ≠ 0 ∧ (w.escrow.locks h).deadline + grace ≤ w.escrow.timestamp

theorem Overdue.advance {link : Link} {grace : Nat} {w w' : World} {h : Bytes32}
    (overdue : Overdue grace w h) (reach : (Escrow.system link.escrow).Reachable w.escrow)
    {input : Escrow.Input}
    (advanced : Escrow.next link.escrow w.escrow input = some w'.escrow)
    (still : w'.settlement = w.settlement) : Overdue grace w' h := by
  rcases overdue with called | ⟨recorded, late⟩
  · left
    rw [still]
    exact called
  · have follows := Escrow.follows_of_later reach (System.Later.of_step advanced) h
    have same : Escrow.SameTerms (w.escrow.locks h) (w'.escrow.locks h) := follows.terms recorded
    have clock : w.escrow.timestamp ≤ w'.escrow.timestamp := by
      rcases Escrow.next_controls advanced with ⟨tx, -, later, now, -⟩ | ⟨-, now, -⟩
      · exact later.trans now.ge
      · exact now.ge
    right
    rw [same.user, same.deadline]
    exact ⟨recorded, late.trans clock⟩

theorem sent_mem_of_step {link : Link} {horizon : Nat} {w w' : World} {input : Input}
    (early : horizon < uint64) (reach : (system link horizon).Reachable w)
    (stepped : next link horizon w input = some w') {params : Settlement.MessagingParams}
    (sent : params ∈ w.settlement.sent) : params ∈ w'.settlement.sent :=
  List.count_pos_iff.mp (Nat.lt_of_lt_of_le (List.count_pos_iff.mpr sent)
    (sent_stays early reach (System.Later.of_step stepped) params))

/-- The transaction that refunds a lock finds it overdue. -/
theorem overdue_of_closing {link : Link} {grace : Nat} {w : World} {tx : Escrow.Tx}
    {e : Escrow.World} {h : Bytes32} (patience : grace ≤ w.escrow.confirmationGrace)
    (coherent : Coherent link w) (advanced : Escrow.next link.escrow w.escrow (.tx tx) = some e)
    (handed : ∀ origin message, tx.call = .lzReceive origin message →
      ∃ params ∈ w.settlement.sent, params.message = message)
    (live : (w.escrow.locks h).refunded = false) (refunded : (e.locks h).refunded = true)
    (received : List Settlement.MessagingParams) :
    Overdue grace { w with escrow := e, received := received } h := by
  have ran := (Escrow.next_tx.mp advanced).2
  rcases Escrow.exec_closing ran h with unclosed | closing
  · have before : (w.escrow.locks h).refunded = true := unclosed.refunded refunded
    rw [live] at before
    cases before
  · cases closing with
    | confirmed origin rest m call decoded about marked =>
        have kept : (e.locks h).refunded = (w.escrow.locks h).refunded := by
          rw [marked]
          rfl
        rw [refunded, live] at kept
        cases kept
    | recalled origin rest m call decoded about marked =>
        obtain ⟨params, sent, layout⟩ := handed _ _ call
        have intent : Settlement.messageIntent params.message = h := by
          rw [layout]
          exact (escrow_decodeCancelIntent_ok.mp decoded).2.2.1.symm.trans about
        rcases meaning_of_sent coherent.settlement sent intent with ⟨kind, -⟩ | ⟨cancels, -⟩
        · unfold IsFillConfirmed at kind
          rw [layout] at kind
          cases kind
        · exact Or.inl ⟨params, sent, cancels⟩
    | expired call late marked =>
        have final : (e.funds.locks h).finalized = true := by
          rw [show e.funds.locks h = _ from marked]
          exact Escrow.Lock.refund_finalized
        have accounted := Escrow.accounted_of_reachable (coherent.escrow.step advanced) h
        have deadline : (e.locks h).deadline = (w.escrow.locks h).deadline := by
          rw [marked]
          rfl
        right
        constructor
        · intro vacant
          rw [accounted.vacant vacant] at final
          cases final
        · show (e.locks h).deadline + grace ≤ e.timestamp
          rw [deadline, Escrow.exec_timestamp ran]
          omega

theorem overdue_of_refunded {link : Link} {horizon grace : Nat} {w : World}
    (early : horizon < uint64) (reach : (patient link horizon grace).Reachable w) {h : Bytes32}
    (refunded : (w.escrow.locks h).refunded = true) : Overdue grace w h := by
  refine reach.invariant
    (P := fun w => (w.escrow.locks h).refunded = true → Overdue grace w h) ?_ ?_ refunded
  · intro w start refunded
    have idle := (Escrow.accounted_of_reachable start.escrow h).vacant (start.vacant h)
    have flag : (w.escrow.funds.locks h).refunded = true := refunded
    simp [Escrow.Lock.finalized, flag] at idle
  · intro w input w' reached overdue stepped refunded
    obtain ⟨stepped, patience⟩ := stepped
    have reached := reached.of_under
    have coherent := coherent_of_reachable early reached
    obtain ⟨allowed, ran, -⟩ := next_ok.mp stepped
    cases before : (w.escrow.locks h).refunded with
    | true =>
        cases input with
        | escrow input =>
            obtain ⟨e, advanced, rfl⟩ := Option.map_eq_some_iff.mp ran
            exact (overdue before).advance coherent.escrow advanced rfl
        | toEscrow params nonce value timestamp host =>
            obtain ⟨e, advanced, rfl⟩ := Option.map_eq_some_iff.mp ran
            exact (overdue before).advance coherent.escrow advanced rfl
        | settlement tx | toSettlement params nonce timestamp sequence host =>
            have sent {params} := @sent_mem_of_step link horizon w w' _ early reached stepped params
            obtain ⟨s, -, rfl⟩ := Option.map_eq_some_iff.mp ran
            rcases overdue before with ⟨called, member, cancels⟩ | late
            · exact Or.inl ⟨called, sent member, cancels⟩
            · exact Or.inr late
    | false =>
        cases input with
        | escrow input =>
            obtain ⟨e, advanced, rfl⟩ := Option.map_eq_some_iff.mp ran
            cases input with
            | tx tx =>
                refine overdue_of_closing patience coherent advanced ?_ before refunded w.received
                intro origin message call
                have own := allowed.2
                rw [call] at own
                cases own
            | tokenArrives token amount | nativeArrives amount =>
                cases advanced
                rw [show (w.escrow.locks h).refunded = true from refunded] at before
                cases before
        | toEscrow params nonce value timestamp host =>
            obtain ⟨e, advanced, rfl⟩ := Option.map_eq_some_iff.mp ran
            refine overdue_of_closing patience coherent advanced ?_ before refunded
              (w.received ++ [params])
            intro origin message call
            obtain ⟨-, rfl⟩ := Escrow.Call.lzReceive.inj call
            exact ⟨params, Coherent.sent_of_inFlight allowed.2.1, rfl⟩
        | settlement tx | toSettlement params nonce timestamp sequence host =>
            obtain ⟨s, -, rfl⟩ := Option.map_eq_some_iff.mp ran
            rw [show (w.escrow.locks h).refunded = true from refunded] at before
            cases before

/-! ## Repaid -/

/-- Handed over less than `grace - MIN_DISPATCH_WINDOW` after it was sent, a confirmation
    repays: there is no state in which it finds the user refunded. -/
theorem prompt_confirmation_repays {link : Link} {horizon grace : Nat} {w : World}
    (early : horizon < uint64) (reach : (patient link horizon grace).Reachable w)
    {entry : Settlement.Entry} (member : entry ∈ w.settlement.trace)
    {params : Settlement.MessagingParams} (emitted : entry.sent = some params)
    (kind : IsFillConfirmed params.message) (flying : w.InFlight params) {h : Bytes32}
    (about : Settlement.messageIntent params.message = h) {nonce : UInt64} {value timestamp : Nat}
    {host : Escrow.Host} (admits : w.Admits timestamp)
    (prompt : timestamp + Settlement.minDispatchWindow < entry.timestamp + grace)
    (fresh : ¬ (nonce = 0 ∨ Escrow.isNonceConsumed w.escrow link.escrow.stellarEid nonce))
    (accepted : Escrow.TransferAccepted
      ((link.escrowTx params nonce value timestamp host).context link.escrow)
      (w.escrow.locks h).asset (w.escrow.locks h).solver (w.escrow.locks h).amount) :
    Repays link horizon w (.toEscrow params nonce value timestamp host) h := by
  subst about
  generalize same : Settlement.messageIntent params.message = h at accepted
  have coherent := coherent_of_reachable early reach.of_under
  have sent : params ∈ w.settlement.sent := List.mem_filterMap.mpr ⟨entry, member, emitted⟩
  have confirms := coherent.confirms sent kind
  have unreleased := coherent.unreleased flying
  have inTime := timely_of_reachable early reach.of_under entry member params emitted kind
  rw [same] at confirms unreleased inTime
  have unrefunded : (w.escrow.locks h).refunded = false := by
    by_contra refunded
    rcases overdue_of_refunded early reach (Bool.eq_true_of_not_eq_false refunded) with
      ⟨called, member, cancels⟩ | ⟨-, late⟩
    · have both : Settlement.messageIntent called.message = h := by
        rw [cancels, Settlement.messageIntent_encodeCancelIntent]
      have marked := confirmationSent_of_sent coherent.settlement sent kind
      rw [same] at marked
      rcases meaning_of_sent coherent.settlement member both with ⟨confirmed, -⟩ | ⟨-, unpaid⟩
      · exact encodeCancelIntent_not_fillConfirmed cancels confirmed
      · have agree := Settlement.markersAgree_of_view rfl
          (Settlement.stage_of_reachable coherent.settlement h)
        have settled := agree.sent marked
        rw [unpaid.unsettled] at settled
        cases settled
    · have clock := admits.1
      omega
  have live : (w.escrow.locks h).finalized = false := by
    simp [Escrow.Lock.finalized, unreleased, unrefunded]
  obtain ⟨fillAmount, fillLedger, message, enough⟩ := confirms.message
  obtain ⟨rest, layout⟩ : ∃ rest, params.message =
      Escrow.protocolVersion :: Escrow.msgFillConfirmed :: rest := ⟨_, message⟩
  have decoded := decode_fillConfirmed h (w.escrow.locks h).solver fillAmount fillLedger
  rw [← message, layout] at decoded
  have call : (link.escrowTx params nonce value timestamp host).call =
      .lzReceive ⟨link.escrow.stellarEid, link.settlementId, nonce⟩
        (Escrow.protocolVersion :: Escrow.msgFillConfirmed :: rest) := by
    rw [← layout]
    rfl
  obtain ⟨e, done, peer, locks, payments⟩ := release_available coherent.escrow call
    ⟨rfl, coherent.linked.1.symm, fresh⟩ decoded confirms.recorded live rfl enough accepted
  refine ⟨{ w with escrow := e, received := w.received ++ [params] }, ?_, locks, payments⟩
  refine next_ok.mpr ⟨⟨admits, flying, confirms.dstEid, confirms.receiver⟩, ?_, ?_⟩
  · have advanced := Escrow.next_tx.mpr ⟨admits.1, done⟩
    simp only [Input.run, advanced, Option.map_some]
  · exact ⟨peer.trans coherent.linked.1, coherent.linked.2⟩

namespace Sample

/-- The first run again, in which nobody touches the grace of two hours. -/
def patientlyConfirmed : World :=
  (System.replay (fun w input =>
    if Patient 7200 w input then next link lastSecond w input else none) start
      (run Escrow.Sample.intent Settlement.Sample.solverEvm 1700000100 1700000200 1700000300)).get
        (by decide +kernel)

theorem patientlyConfirmed_reachable :
    (patient link lastSecond 7200).Reachable patientlyConfirmed :=
  System.Reachable.later (.init start_start)
    (System.Later.of_get_under (S := system link lastSecond) (fun _ _ _ stepped => stepped) _)

/-- Sent at 1700000300, so it may arrive until 1700005699. -/
theorem patientlyConfirmed_deliverable :
    Deliverable patientlyConfirmed Escrow.Sample.intentHash Settlement.Sample.solverEvm
      1700005699 := by
  decide +kernel

end Sample

theorem prompt_confirmation_repays_sample :
    Repays Sample.link Sample.lastSecond Sample.patientlyConfirmed
      (.toEscrow (Sample.confirmation Escrow.Sample.intentHash Settlement.Sample.solverEvm) 1 0
        1700005699 Escrow.Sample.host) Escrow.Sample.intentHash := by
  have logged : ∃ entry ∈ Sample.patientlyConfirmed.settlement.trace, entry.timestamp = 1700000300 ∧
      entry.sent = some (Sample.confirmation Escrow.Sample.intentHash Settlement.Sample.solverEvm) := by
    decide +kernel
  obtain ⟨entry, member, sentAt, emitted⟩ := logged
  obtain ⟨flying, about, -, admits, fresh, code, asset⟩ := Sample.patientlyConfirmed_deliverable
  refine prompt_confirmation_repays (by decide) Sample.patientlyConfirmed_reachable member emitted rfl
    flying about admits ?_ fresh ⟨code, asset, encode 32 1, rfl, by decide +kernel⟩
  rw [sentAt]
  decide

end Perihelion.Bridge

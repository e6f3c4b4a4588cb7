import Perihelion.Bridge.Repayment
import Perihelion.Bridge.RoundTrip
import Perihelion.Escrow.Closings
import Perihelion.Escrow.Commissions

/-! # No release without delivery

The promise to the user.  What the escrow releases to a solver it releases after the
recipient that the signed intent names has been paid, in the asset that it names, at
least the minimum that it names.  A refund that a message brings means the opposite:
nothing has been paid for the intent, and nothing ever will be.
-/

namespace Perihelion.Bridge

open BigEndian Fallible Transition

/-! ## What a record names -/

/-- A text without the zero bytes at its end. -/
def unpadded (text : Bytes) : Bytes := text.take (Settlement.trimmedLen text)

theorem trimmedLen_append_zeros (text : Bytes) (n : Nat) :
    Settlement.trimmedLen (text ++ List.replicate n 0) = Settlement.trimmedLen text := by
  have zeros : (List.replicate n (0 : UInt8)).reverse.dropWhile (· == 0) = [] := by
    rw [List.reverse_replicate, List.dropWhile_replicate]
    rfl
  unfold Settlement.trimmedLen
  rw [List.reverse_append, List.dropWhile_append, zeros]
  rfl

theorem trimmedLen_le (text : Bytes) : Settlement.trimmedLen text ≤ text.length := by
  have shorter := (List.dropWhile_sublist (p := (· == (0 : UInt8))) (l := text.reverse)).length_le
  rw [List.length_reverse] at shorter
  exact shorter

/-- Padding to a fixed width is taken off again, with the zeros that the text ended in. -/
theorem unpadded_padRight {n : Nat} {text : Bytes} (fits : text.length ≤ n) :
    (padRight n text).take (Settlement.trimmedLen (padRight n text)) = unpadded text := by
  have padded : padRight n text = text ++ List.replicate (n - text.length) 0 := by
    rw [padRight, List.take_of_length_le fits]
  rw [padded, trimmedLen_append_zeros, unpadded, List.take_append_of_le_length (trimmedLen_le text)]

/-- A recipient can only be read from a destination that is a strkey as it stands. -/
theorem decodeStrkeyAddress_destination {destination : Bytes} {recipient : Settlement.Address}
    (fits : destination.length ≤ Escrow.maxDestinationLen)
    (ran : Settlement.decodeStrkeyAddress (padRight 56 destination) = .ok recipient) :
    Settlement.Address.fromStringBytes destination = some recipient := by
  simp only [Settlement.decodeStrkeyAddress, bind_ok, require_ok, exists_const, expect_ok] at ran
  obtain ⟨valid, read⟩ := ran
  have fits : destination.length ≤ 56 := fits
  rw [unpadded_padRight fits] at valid read
  have length := (Settlement.isValidStrkey_nonzero valid).1
  have whole : unpadded destination = destination := by
    have short := trimmedLen_le destination
    unfold unpadded at length ⊢
    rw [List.length_take] at length
    exact List.take_of_length_le (by omega)
  rw [whole] at read
  exact read

/-- The intent, the recipient and the asset that the settlement contract reads are the ones
    that were written. -/
theorem parseMessage_names {c : Settlement.Context} {d : Escrow.Deployment} {intentHash : Bytes32}
    {intent : Escrow.Intent} {solver : Escrow.Address} {v : Settlement.World}
    {fi : Settlement.FillInstruction}
    (destination : intent.destination.length ≤ Escrow.maxDestinationLen)
    (destAsset : intent.destAsset.length ≤ Escrow.maxDestAssetLen)
    (parsed : Settlement.parseMessage c
      (Escrow.encodeFillInstruction d intentHash intent solver) v = .ok (.fillInstruction fi)) :
    fi.intentHash = intentHash ∧
      Settlement.Address.fromStringBytes intent.destination = some fi.recipient ∧
      Settlement.resolveDestAssetId c (unpadded intent.destAsset) v = .ok fi.destAsset := by
  obtain ⟨rest, layout⟩ : ∃ rest, Escrow.encodeFillInstruction d intentHash intent solver =
      Settlement.protocolVersion :: Settlement.msgFillInstruction :: rest := ⟨_, rfl⟩
  have named := @fillInstruction_destination d intentHash intent solver
  have asset := @fillInstruction_destAsset d intentHash intent solver
  have hash := @fillInstruction_hash d intentHash intent solver
  rw [layout] at parsed named asset hash
  simp only [Settlement.parseMessage, Settlement.decodeMessage, if_true, bind_ok, require_ok,
    exists_const, pure_ok] at parsed
  obtain ⟨_, ⟨-, wire, decoded, rfl⟩, parsed⟩ := parsed
  simp only [if_true, bind_ok, require_ok, exists_const, pure_ok] at parsed
  obtain ⟨-, token, resolved, same⟩ := parsed
  obtain rfl := Settlement.LzMessage.fillInstruction.inj same
  simp only [Settlement.decodeFillInstruction, bind_ok, require_ok, exists_const, pure_ok,
    readField_ok] at decoded
  obtain ⟨-, _, ⟨-, rfl⟩, _, -, _, ⟨-, rfl⟩, recipient, read, _, ⟨-, rfl⟩, -, _, -, -, _, -, _, -, _, -,
    rfl⟩ := decoded
  have fits : intent.destAsset.length ≤ 69 := destAsset
  rw [named] at read
  dsimp only at resolved
  rw [show Settlement.maxDestAssetLen = 69 from rfl, asset, unpadded_padRight fits] at resolved
  refine ⟨?_, decodeStrkeyAddress_destination destination read, resolved⟩
  simp only [Settlement.WireFillInstruction.intoFillInstruction, hash, Bytes32.ofBytes_toBytes]

/-- The record of `h` states what the intent with the hash `h` names. -/
structure Commissioned (link : Link) (w : World) (h : Bytes32) (record : Settlement.IntentRecord)
    (intent : Escrow.Intent) : Prop where
  hash : Escrow.hashIntent link.escrow intent = h
  validated : Escrow.Validated link.escrow w.escrow intent
  owned : intent.user ≠ 0
  user : (w.escrow.locks h).user = intent.user
  asset : (w.escrow.locks h).asset = intent.sourceAsset
  minDestAmount : (w.escrow.locks h).minDestAmount = intent.minDestAmount
  recipient : Settlement.Address.fromStringBytes intent.destination = some record.recipient
  /-- Resolved when the intent was registered. -/
  destAsset : ∃ c v, c.toDeployment = link.settlement ∧
    (Settlement.system link.settlement).Later v w.settlement ∧
    Settlement.resolveDestAssetId c (unpadded intent.destAsset) v = .ok record.destAsset

theorem Commissioned.later {link : Link} {w w' : World} {h : Bytes32} {record record' intent}
    (commissioned : Commissioned link w h record intent) (same : record'.terms = record.terms)
    (reach : (Escrow.system link.escrow).Reachable w.escrow)
    (onwards : (Escrow.system link.escrow).Later w.escrow w'.escrow)
    (later : (Settlement.system link.settlement).Later w.settlement w'.settlement) :
    Commissioned link w' h record' intent := by
  have follows := Escrow.follows_of_later reach onwards h
  have recorded : (w.escrow.funds.locks h).user ≠ 0 := by
    rw [show (w.escrow.funds.locks h).user = intent.user from commissioned.user]
    exact commissioned.owned
  have kept : Escrow.SameTerms (w.escrow.locks h) (w'.escrow.locks h) := follows.terms recorded
  have recipient : record'.recipient = record.recipient := congrArg Settlement.Terms.recipient same
  have destAsset : record'.destAsset = record.destAsset := congrArg Settlement.Terms.destAsset same
  obtain ⟨c, v, deployed, earlier, resolved⟩ := commissioned.destAsset
  refine ⟨commissioned.hash, commissioned.validated.later onwards, commissioned.owned,
    kept.user.trans commissioned.user, kept.asset.trans commissioned.asset,
    kept.minDestAmount.trans commissioned.minDestAmount, ?_, ?_⟩
  · rw [recipient]
    exact commissioned.recipient
  · rw [destAsset]
    exact ⟨c, v, deployed, earlier.trans later, resolved⟩

/-- Every record has come from an intent of the escrow. -/
def Named (link : Link) (w : World) : Prop :=
  ∀ h record, w.settlement.intent h = some record → ∃ intent, Commissioned link w h record intent

theorem Named.advance {link : Link} {w w' : World} (named : Named link w) {input : Escrow.Input}
    (reach : (Escrow.system link.escrow).Reachable w.escrow)
    (advanced : Escrow.next link.escrow w.escrow input = some w'.escrow)
    (still : w'.settlement = w.settlement) : Named link w' := by
  intro h record found
  rw [still] at found
  obtain ⟨intent, commissioned⟩ := named h record found
  refine ⟨intent, commissioned.later rfl reach (System.Later.of_step advanced) ?_⟩
  rw [still]
  exact System.Later.refl _

theorem Named.settle {link : Link} {w w' : World} (named : Named link w) {tx : Settlement.Tx}
    (coherent : Coherent link w)
    (advanced : Settlement.next link.settlement w.settlement tx = some w'.settlement)
    (still : w'.escrow = w.escrow)
    (arrives : ∀ eid fi, tx.arrival link.settlement w.settlement = some (eid, fi) → ∀ record,
      record.terms = (fi.record eid tx.timestamp).terms →
        ∃ intent, Commissioned link w fi.intentHash record intent) : Named link w' := by
  have ran := (Settlement.next_ok.mp advanced).2
  have later := System.Later.of_step (S := Settlement.system link.settlement) advanced
  have kept : (Escrow.system link.escrow).Later w.escrow w'.escrow := by
    rw [still]
    exact System.Later.refl _
  intro h record found
  have step := Settlement.exec_step (Settlement.named_of_reachable coherent.settlement) ran h
  rcases step.terms record found with ⟨earlier, before, same⟩ | ⟨eid, fi, arrived, about, same⟩
  · obtain ⟨intent, commissioned⟩ := named h earlier before
    exact ⟨intent, commissioned.later same coherent.escrow kept later⟩
  · obtain ⟨intent, commissioned⟩ := arrives eid fi arrived record same
    rw [about] at commissioned
    exact ⟨intent, commissioned.later rfl coherent.escrow kept later⟩

/-- A FillInstruction handed over names what the intent it was sent for names. -/
theorem Coherent.names {link : Link} {w : World} (coherent : Coherent link w)
    {params : Escrow.MessagingParams} (sent : params ∈ w.escrow.sent) {nonce : UInt64}
    {timestamp sequence : Nat} {host : Settlement.Host} {eid fi}
    (arrival : (link.settlementTx params nonce timestamp sequence host).arrival link.settlement
      w.settlement = some (eid, fi)) {record : Settlement.IntentRecord}
    (same : record.terms = (fi.record eid timestamp).terms) :
    ∃ intent, Commissioned link w fi.intentHash record intent := by
  obtain ⟨intent, commissions⟩ := Escrow.commissions_of_reachable coherent.escrow params sent
  simp only [Settlement.Tx.arrival, Link.settlementTx, commissions.message] at arrival
  split at arrival
  · rename_i fi' parsed
    obtain ⟨-, rfl⟩ := Prod.mk.inj (Option.some.inj arrival)
    obtain ⟨hash, recipient, resolved⟩ := parseMessage_names commissions.destination
      commissions.destAsset parsed
    have named : record.recipient = fi'.recipient := congrArg Settlement.Terms.recipient same
    have asset : record.destAsset = fi'.destAsset := congrArg Settlement.Terms.destAsset same
    refine ⟨intent, hash.symm, commissions.validated, commissions.owned, ?_, ?_, ?_, ?_, ?_⟩
    · rw [hash]
      exact commissions.user
    · rw [hash]
      exact commissions.asset
    · rw [hash]
      exact commissions.minDestAmount
    · rw [named]
      exact recipient
    · rw [asset]
      exact ⟨_, w.settlement, rfl, System.Later.refl _, resolved⟩
  · cases arrival

theorem Named.step {link : Link} {horizon : Nat} {w w' : World} {input : Input}
    (named : Named link w) (coherent : Coherent link w)
    (stepped : next link horizon w input = some w') : Named link w' := by
  obtain ⟨allowed, ran, linked⟩ := next_ok.mp stepped
  cases input with
  | escrow input =>
      obtain ⟨e, advanced, rfl⟩ := Option.map_eq_some_iff.mp ran
      exact named.advance coherent.escrow advanced rfl
  | toEscrow params nonce value timestamp host =>
      obtain ⟨e, advanced, rfl⟩ := Option.map_eq_some_iff.mp ran
      exact named.advance coherent.escrow advanced rfl
  | settlement tx =>
      obtain ⟨s, advanced, rfl⟩ := Option.map_eq_some_iff.mp ran
      refine named.settle coherent advanced rfl ?_
      intro eid fi arrival
      rw [arrival_none w.settlement allowed.2.1] at arrival
      cases arrival
  | toSettlement params nonce timestamp sequence host =>
      obtain ⟨s, advanced, rfl⟩ := Option.map_eq_some_iff.mp ran
      refine named.settle coherent advanced rfl ?_
      intro eid fi arrival record same
      exact coherent.names allowed.2.1 arrival same

theorem named_of_reachable {link : Link} {horizon : Nat} {w : World} (early : horizon < uint64)
    (reach : (system link horizon).Reachable w) : Named link w := by
  refine reach.invariant (P := Named link) ?_ ?_
  · intro w start h record found
    have unknown := congrArg Settlement.IntentView.record (start.unknown h)
    have absent : w.settlement.intent h = none := unknown
    rw [absent] at found
    cases found
  · intro w input w' reached named stepped
    exact named.step (coherent_of_reachable early reached) stepped

/-! ## What a message means -/

/-- The life of an intent whose confirmation has been sent. -/
structure Confirmed (h : Bytes32) (v : Settlement.World) (record : Settlement.IntentRecord)
    (payment : Settlement.Entry) (solver : Settlement.Address) : Prop where
  found : v.intent h = some record
  status : record.status = .confirmationSent
  paid : v.trace.filter (Settlement.Entry.pays h) = [payment]
  transferred : payment.effect =
    .transfer (.fill h) record.destAsset solver record.recipient record.fillAmount
  positive : 0 < record.fillAmount.toInt
  enough : record.minDestAmount.toInt ≤ record.fillAmount.toInt

/-- Cancelled for good, and nothing paid. -/
structure Unpaid (h : Bytes32) (v : Settlement.World) : Prop where
  cancelled : v.cancelled h = true
  unsettled : v.settled h = false
  unpaid : v.trace.filter (Settlement.Entry.pays h) = []

/-- A message about `h` either confirms the one payment for it, or says that there is none. -/
theorem meaning_of_sent {d : Settlement.Deployment} {v : Settlement.World}
    (reach : (Settlement.system d).Reachable v) {params : Settlement.MessagingParams}
    (sent : params ∈ v.sent) {h : Bytes32} (about : Settlement.messageIntent params.message = h) :
    (IsFillConfirmed params.message ∧ ∃ record payment solver, Confirmed h v record payment solver) ∨
      (params.message = Settlement.encodeCancelIntent h Settlement.cancelReasonExpired ∧
        Unpaid h v) := by
  obtain ⟨entry, member, emitted⟩ := List.mem_filterMap.mp sent
  have sends : entry.sends h = true := by
    rw [Settlement.Entry.sends_eq, emitted, Option.any_some, Settlement.MessagingParams.about, about,
      beq_self_eq_true]
  have said : entry.message = some params.message := by
    rw [Settlement.Entry.message_eq, emitted, Option.map_some]
  have unpaying := Settlement.Entry.pays_of_message (h := h) said
  have member : entry ∈ (v.view h).history :=
    List.mem_filter.mpr ⟨member, Settlement.Entry.concerns_of_sends sends⟩
  have payments := @Settlement.filter_concerns h (Settlement.Entry.pays h)
    (fun _ => Settlement.Entry.concerns_of_pays) v.trace
  have stage := Settlement.stage_of_reachable reach h
  generalize same : v.view h = view at stage member
  have history : (v.trace.filter fun entry => entry.effect.concerns h) = view.history :=
    congrArg Settlement.IntentView.history same
  rw [history] at payments
  cases stage with
  | unknown | tombstone | locked | recalled => cases member
  | filled record delivery solver solverEvm status delivers =>
      obtain rfl := List.mem_singleton.mp member
      rw [delivers.pays.2] at sends
      cases sends
  | confirmed record delivery solver solverEvm confirmation status delivers confirms =>
      have other : entry ≠ delivery := by
        rintro rfl
        rw [delivers.pays.2] at sends
        cases sends
      obtain rfl : entry = confirmation := by
        simpa [other] using member
      have message := Option.some.inj (said.symm.trans confirms)
      left
      refine ⟨?_, record, delivery, solver, congrArg Settlement.IntentView.record same, status, ?_,
        delivers.effect, delivers.positive, delivers.enough⟩
      · rw [message]
        rfl
      · rw [payments]
        simp [delivers.pays.1, unpaying]
  | expired record cancellation status cancels late =>
      obtain rfl := List.mem_singleton.mp member
      right
      refine ⟨Option.some.inj (said.symm.trans cancels), ?_, ?_, ?_⟩
      · exact congrArg Settlement.IntentView.cancelled same
      · exact congrArg Settlement.IntentView.settled same
      · rw [payments]
        simp [unpaying]

theorem encodeCancelIntent_not_fillConfirmed {message : Bytes} {h : Bytes32} {reason : UInt8}
    (cancels : message = Settlement.encodeCancelIntent h reason) : ¬ IsFillConfirmed message := by
  intro confirms
  unfold IsFillConfirmed at confirms
  rw [cancels] at confirms
  exact absurd confirms (by simp [Settlement.encodeCancelIntent, Settlement.msgCancelIntent,
    Settlement.msgFillConfirmed])

/-! ## What the escrow pays -/

/-- The solver that locked has been paid, for a confirmation that has come. -/
structure Repaid (w : World) (h : Bytes32) : Prop where
  recorded : (w.escrow.locks h).user ≠ 0
  received : ∃ params ∈ w.received, Settlement.messageIntent params.message = h ∧
    IsFillConfirmed params.message
  payouts : w.escrow.funds.payouts h =
    [⟨.release h, (w.escrow.locks h).asset, (w.escrow.locks h).solver, (w.escrow.locks h).amount⟩]

theorem Repaid.later {link : Link} {w w' : World} {h : Bytes32} {input : Escrow.Input}
    (repaid : Repaid w h) (reach : (Escrow.system link.escrow).Reachable w.escrow)
    (advanced : Escrow.next link.escrow w.escrow input = some w'.escrow)
    (grown : w.received ⊆ w'.received) : Repaid w' h := by
  have follows := Escrow.follows_of_later reach (System.Later.of_step advanced) h
  have same : Escrow.SameTerms (w.escrow.locks h) (w'.escrow.locks h) := follows.terms repaid.recorded
  obtain ⟨params, member, about, confirms⟩ := repaid.received
  refine ⟨?_, ⟨params, grown member, about, confirms⟩, ?_⟩
  · rw [same.user]
    exact repaid.recorded
  · rw [same.asset, same.solver, same.amount]
    exact Escrow.payouts_stay reach advanced repaid.payouts

/-- A confirmation that the escrow takes names the solver that locked. -/
theorem Coherent.repays {link : Link} {w w' : World} (coherent : Coherent link w)
    {params : Settlement.MessagingParams} (sent : params ∈ w.settlement.sent) {nonce : UInt64}
    {value timestamp : Nat} {host : Escrow.Host}
    (advanced : Escrow.next link.escrow w.escrow
      (.tx (link.escrowTx params nonce value timestamp host)) = some w'.escrow)
    (taken : w'.received = w.received ++ [params]) {h : Bytes32}
    (fresh : (w.escrow.locks h).released = false)
    (released : (w'.escrow.locks h).released = true) : Repaid w' h := by
  have accounted := Escrow.accounted_of_reachable (coherent.escrow.step advanced) h
  rcases Escrow.exec_closing (Escrow.next_tx.mp advanced).2 h with unclosed | closing
  · have before : (w.escrow.locks h).released = true := unclosed.released released
    rw [fresh] at before
    cases before
  · cases closing with
    | recalled origin rest m call decoded about marked paid =>
        have kept : (w'.escrow.locks h).released = (w.escrow.locks h).released := by
          rw [marked]
          rfl
        rw [released, fresh] at kept
        cases kept
    | expired call => cases call
    | confirmed origin rest m call decoded about marked paid =>
        obtain ⟨-, layout⟩ := Escrow.Call.lzReceive.inj call
        have kind : IsFillConfirmed params.message := by
          rw [layout]
          rfl
        have confirms := coherent.confirms sent kind
        obtain ⟨fillAmount, fillLedger, message, -⟩ := confirms.message
        rw [← layout, message, decode_fillConfirmed] at decoded
        obtain rfl := Except.ok.inj decoded
        obtain rfl : Settlement.messageIntent params.message = h := about
        refine ⟨?_, ⟨params, ?_, rfl, kind⟩, ?_⟩
        · rw [marked]
          exact confirms.recorded
        · rw [taken]
          exact List.mem_append_right _ (List.mem_singleton_self params)
        · have final : (w'.escrow.funds.locks (Settlement.messageIntent params.message)).finalized =
              true := by
            rw [show w'.escrow.funds.locks _ = _ from marked]
            exact Escrow.Lock.release_finalized
          obtain ⟨purpose, receiver, one⟩ := accounted.paid final
          have none := paid.symm.trans one
          have short := congrArg List.length none
          rw [List.length_append] at short
          have empty : w.escrow.funds.payouts (Settlement.messageIntent params.message) = [] := by
            apply List.eq_nil_of_length_eq_zero
            simpa using short
          rw [paid, empty, marked]
          rfl

theorem Coherent.sent_of_inFlight {w : World} {params : Settlement.MessagingParams}
    (flying : w.InFlight params) : params ∈ w.settlement.sent :=
  List.count_pos_iff.mp (Nat.lt_of_le_of_lt (Nat.zero_le _) flying)

theorem repaid_of_reachable {link : Link} {horizon : Nat} {w : World} (early : horizon < uint64)
    (reach : (system link horizon).Reachable w) (h : Bytes32)
    (released : (w.escrow.locks h).released = true) : Repaid w h := by
  refine reach.invariant (P := fun w => (w.escrow.locks h).released = true → Repaid w h) ?_ ?_
    released
  · intro w start released
    have idle := (Escrow.accounted_of_reachable start.escrow h).vacant (start.vacant h)
    have flag : (w.escrow.funds.locks h).released = true := released
    simp [Escrow.Lock.finalized, flag] at idle
  · intro w input w' reached repaid stepped released
    have coherent := coherent_of_reachable early reached
    obtain ⟨allowed, ran, linked⟩ := next_ok.mp stepped
    cases input with
    | escrow input =>
        obtain ⟨e, advanced, rfl⟩ := Option.map_eq_some_iff.mp ran
        refine (repaid ?_).later coherent.escrow advanced (List.Subset.refl _)
        cases input with
        | tx tx =>
            rcases released_by_message (Escrow.next_tx.mp advanced).2 released with
              before | ⟨origin, message, call, -⟩
            · exact before
            · have own := allowed.2
              rw [call] at own
              cases own
        | tokenArrives token amount | nativeArrives amount =>
            cases advanced
            exact released
    | toEscrow params nonce value timestamp host =>
        obtain ⟨e, advanced, rfl⟩ := Option.map_eq_some_iff.mp ran
        cases before : (w.escrow.locks h).released with
        | true =>
            exact (repaid before).later coherent.escrow advanced (List.subset_append_left _ _)
        | false =>
            exact coherent.repays (Coherent.sent_of_inFlight allowed.2.1) advanced rfl before released
    | settlement tx =>
        obtain ⟨s, -, rfl⟩ := Option.map_eq_some_iff.mp ran
        exact ⟨(repaid released).recorded, (repaid released).received, (repaid released).payouts⟩
    | toSettlement params nonce timestamp sequence host =>
        obtain ⟨s, -, rfl⟩ := Option.map_eq_some_iff.mp ran
        exact ⟨(repaid released).recorded, (repaid released).received, (repaid released).payouts⟩

/-! ## The promise -/

/-- The intent of a released lock has been carried out as it was signed. -/
structure Fulfilled (link : Link) (w : World) (h : Bytes32) (intent : Escrow.Intent)
    (record : Settlement.IntentRecord) : Prop where
  commissioned : Commissioned link w h record intent
  /-- One payment on Stellar: to the recipient, in the asset, at least the minimum. -/
  confirmed : ∃ payment solver, Confirmed h w.settlement record payment solver
  enough : intent.minDestAmount ≤ record.fillAmount.toNat
  /-- One payment of the escrow: to the solver that locked. -/
  payouts : w.escrow.funds.payouts h = [⟨.release h, intent.sourceAsset,
    (w.escrow.locks h).solver, (w.escrow.locks h).amount⟩]

/-- What a released lock means follows from how the two contracts stand to each other. -/
theorem Repaid.fulfilled {link : Link} {w : World} {h : Bytes32} (repaid : Repaid w h)
    (coherent : Coherent link w) (named : Named link w) :
    ∃ intent record, Fulfilled link w h intent record := by
  obtain ⟨recorded, ⟨params, taken, about, kind⟩, payouts⟩ := repaid
  have counted := coherent.counted params
  have sent : params ∈ w.settlement.sent :=
    List.count_pos_iff.mp (Nat.lt_of_lt_of_le (List.count_pos_iff.mpr taken) counted)
  rcases meaning_of_sent coherent.settlement sent about with
    ⟨-, record, payment, solver, confirmed⟩ | ⟨cancels, -⟩
  · obtain ⟨intent, commissioned⟩ := named h record confirmed.found
    have minimum := ((coherent.agrees h).record record confirmed.found).minDestAmount
    refine ⟨intent, record, commissioned, ⟨payment, solver, confirmed⟩, ?_, ?_⟩
    · have enough := confirmed.enough
      have amount := Settlement.I128.toNat_of_pos confirmed.positive
      rw [commissioned.minDestAmount] at minimum
      omega
    · rw [← commissioned.asset]
      exact payouts
  · exact absurd kind (encodeCancelIntent_not_fillConfirmed cancels)

/-- In every run without a fill in the last second of a `u64`. -/
theorem released_fulfilled {link : Link} {horizon : Nat} {w : World} (early : horizon < uint64)
    (reach : (system link horizon).Reachable w) {h : Bytes32}
    (released : (w.escrow.locks h).released = true) :
    ∃ intent record, Fulfilled link w h intent record :=
  (repaid_of_reachable early reach h released).fulfilled (coherent_of_reachable early reach)
    (named_of_reachable early reach)

/-- Why a lock is refunded: its time lock is over, or the settlement contract has called the
    intent off and nothing is ever paid for it. -/
inductive Called (link : Link) (horizon : Nat) (w w' : World) (h : Bytes32) (input : Input) : Prop
  | expired (tx : Escrow.Tx) (own : input = .escrow (.tx tx)) (call : tx.call = .cancelExpired h)
      (late : (w.escrow.locks h).deadline + w.escrow.confirmationGrace ≤ tx.timestamp)
  | recalled (params nonce value timestamp host)
      (handed : input = .toEscrow params nonce value timestamp host)
      (message : params.message = Settlement.encodeCancelIntent h Settlement.cancelReasonExpired)
      (never : ∀ v, (system link horizon).Later w' v → Unpaid h v.settlement)

theorem sent_stays {link : Link} {horizon : Nat} {w v : World} (early : horizon < uint64)
    (reach : (system link horizon).Reachable w) (later : (system link horizon).Later w v)
    (params : Settlement.MessagingParams) :
    w.settlement.sent.count params ≤ v.settlement.sent.count params := by
  refine later.relates
    (R := fun w v => w.settlement.sent.count params ≤ v.settlement.sent.count params)
    (fun w => Nat.le_refl _) (fun w v u first second => first.trans second) ?_ reach
  intro w input w' reached stepped
  have named := Settlement.named_of_reachable (coherent_of_reachable early reached).settlement
  obtain ⟨-, ran, -⟩ := next_ok.mp stepped
  cases input with
  | escrow input =>
      obtain ⟨e, -, rfl⟩ := Option.map_eq_some_iff.mp ran
      exact Nat.le_refl _
  | toEscrow params nonce value timestamp host =>
      obtain ⟨e, -, rfl⟩ := Option.map_eq_some_iff.mp ran
      exact Nat.le_refl _
  | settlement tx =>
      obtain ⟨s, advanced, rfl⟩ := Option.map_eq_some_iff.mp ran
      exact Settlement.exec_sent named (Settlement.next_ok.mp advanced).2 params
  | toSettlement message nonce timestamp sequence host =>
      obtain ⟨s, advanced, rfl⟩ := Option.map_eq_some_iff.mp ran
      exact Settlement.exec_sent named (Settlement.next_ok.mp advanced).2 params

theorem refund_called {link : Link} {horizon : Nat} {w w' : World} {input : Input}
    (early : horizon < uint64) (reach : (system link horizon).Reachable w)
    (stepped : next link horizon w input = some w') {h : Bytes32}
    (live : (w.escrow.locks h).refunded = false) (refunded : (w'.escrow.locks h).refunded = true) :
    Called link horizon w w' h input := by
  have coherent := coherent_of_reachable early reach
  obtain ⟨allowed, ran, linked⟩ := next_ok.mp stepped
  cases input with
  | escrow input =>
      obtain ⟨e, advanced, rfl⟩ := Option.map_eq_some_iff.mp ran
      cases input with
      | tx tx =>
          rcases Escrow.exec_closing (Escrow.next_tx.mp advanced).2 h with unclosed | closing
          · have before : (w.escrow.locks h).refunded = true := unclosed.refunded refunded
            rw [live] at before
            cases before
          · cases closing with
            | confirmed origin rest m call | recalled origin rest m call =>
                have own := allowed.2
                rw [call] at own
                cases own
            | expired call late => exact .expired tx rfl call late
      | tokenArrives token amount | nativeArrives amount =>
          cases advanced
          rw [show (w.escrow.locks h).refunded = true from refunded] at live
          cases live
  | toEscrow params nonce value timestamp host =>
      obtain ⟨e, advanced, rfl⟩ := Option.map_eq_some_iff.mp ran
      have sent := Coherent.sent_of_inFlight allowed.2.1
      rcases Escrow.exec_closing (Escrow.next_tx.mp advanced).2 h with unclosed | closing
      · have before : (w.escrow.locks h).refunded = true := unclosed.refunded refunded
        rw [live] at before
        cases before
      · cases closing with
        | confirmed origin rest m call decoded about marked =>
            have kept : (e.locks h).refunded = (w.escrow.locks h).refunded := by
              rw [marked]
              rfl
            rw [show (e.locks h).refunded = true from refunded, live] at kept
            cases kept
        | expired call => cases call
        | recalled origin rest m call decoded about marked =>
            obtain ⟨-, layout⟩ := Escrow.Call.lzReceive.inj call
            have intent : Settlement.messageIntent params.message = h := by
              rw [layout]
              exact (escrow_decodeCancelIntent_ok.mp decoded).2.2.1.symm.trans about
            rcases meaning_of_sent coherent.settlement sent intent with ⟨kind, -⟩ | ⟨cancels, -⟩
            · unfold IsFillConfirmed at kind
              rw [layout] at kind
              cases kind
            · refine .recalled params nonce value timestamp host rfl cancels ?_
              intro v later
              have reached := reach.step stepped
              have grown := sent_stays early reached later params
              have sent' : params ∈ v.settlement.sent := List.count_pos_iff.mp
                (Nat.lt_of_lt_of_le (List.count_pos_iff.mpr sent) grown)
              have final := coherent_of_reachable early (reached.later later)
              rcases meaning_of_sent final.settlement sent' intent with ⟨kind, -⟩ | ⟨-, unpaid⟩
              · exact absurd kind (encodeCancelIntent_not_fillConfirmed cancels)
              · exact unpaid
  | settlement tx =>
      obtain ⟨s, -, rfl⟩ := Option.map_eq_some_iff.mp ran
      rw [show (w.escrow.locks h).refunded = true from refunded] at live
      cases live
  | toSettlement params nonce timestamp sequence host =>
      obtain ⟨s, -, rfl⟩ := Option.map_eq_some_iff.mp ran
      rw [show (w.escrow.locks h).refunded = true from refunded] at live
      cases live

namespace Sample

/-- The confirmation is handed over. -/
def released : World :=
  (System.replay (next link lastSecond) start
    (run Escrow.Sample.intent Settlement.Sample.solverEvm 1700000100 1700000200 1700000300 ++
      [.toEscrow (confirmation Escrow.Sample.intentHash Settlement.Sample.solverEvm) 1 0 1700000400
        Escrow.Sample.host])).get (by decide +kernel)

theorem released_reachable : (system link lastSecond).Reachable released :=
  reachable_of_replay (show System.replay (next link lastSecond) start
    (run Escrow.Sample.intent Settlement.Sample.solverEvm 1700000100 1700000200 1700000300 ++
      [.toEscrow (confirmation Escrow.Sample.intentHash Settlement.Sample.solverEvm) 1 0 1700000400
        Escrow.Sample.host]) = some released by simp [released])

/-- Nobody fills: registered, and called off in the second of the deadline. -/
def calledOff : World :=
  (System.replay (next link lastSecond) start
    ((run Escrow.Sample.intent Settlement.Sample.solverEvm 1700000100 1700000200 1700000300).take 2 ++
      [.settlement (Settlement.Sample.tx 1700010000 1300
        (.cancelExpiredIntent Settlement.Sample.admin Escrow.Sample.intentHash 5))])).get
          (by decide +kernel)

theorem calledOff_reachable : (system link lastSecond).Reachable calledOff :=
  reachable_of_replay (show System.replay (next link lastSecond) start
    ((run Escrow.Sample.intent Settlement.Sample.solverEvm 1700000100 1700000200 1700000300).take 2 ++
      [.settlement (Settlement.Sample.tx 1700010000 1300
        (.cancelExpiredIntent Settlement.Sample.admin Escrow.Sample.intentHash 5))]) =
    some calledOff by simp [calledOff])

def cancellation : Settlement.MessagingParams :=
  Settlement.outboundParams 30101 Settlement.Sample.escrow
    (Settlement.encodeCancelIntent Escrow.Sample.intentHash Settlement.cancelReasonExpired)

def withdrawal : Input := .toEscrow cancellation 1 0 1700010100 Escrow.Sample.host

end Sample

theorem released_fulfilled_sample :
    ∃ intent record, Fulfilled Sample.link Sample.released Escrow.Sample.intentHash intent record :=
  released_fulfilled (by decide) Sample.released_reachable (by decide +kernel)

theorem refund_called_sample :
    ∃ w', next Sample.link Sample.lastSecond Sample.calledOff Sample.withdrawal = some w' ∧
      Called Sample.link Sample.lastSecond Sample.calledOff w' Escrow.Sample.intentHash
        Sample.withdrawal := by
  have found : (next Sample.link Sample.lastSecond Sample.calledOff Sample.withdrawal).map
      (fun w' => (w'.escrow.locks Escrow.Sample.intentHash).refunded) = some true := by
    decide +kernel
  obtain ⟨w', stepped, refunded⟩ := Option.map_eq_some_iff.mp found
  refine ⟨w', stepped, ?_⟩
  exact refund_called (by decide) Sample.calledOff_reachable stepped (by decide +kernel) refunded

end Perihelion.Bridge

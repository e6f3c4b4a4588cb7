import Perihelion.Settlement.Steps

/-! # A filled intent can be confirmed

Until `deadline + MIN_DISPATCH_WINDOW` nothing inside the contract keeps a filled
intent from being confirmed: the peer it was registered from cannot go away, the
solver is recorded, and the reputation average stays far from overflow.
-/

namespace Perihelion.Settlement

open BigEndian Fallible Transition

/-! ## Reputation -/

/-- A latency in ledgers, or an average of such. -/
def Average (x : I128) : Prop := x.toNat < 2 ^ 32

theorem average_ofNat {n : Nat} (small : n < 2 ^ 32) : Average (BitVec.ofNat 128 n) := by
  unfold Average
  rw [BitVec.toNat_ofNat]
  omega

theorem I128.toInt_ofNat {n : Nat} (small : n < 2 ^ 127) : (BitVec.ofNat 128 n).toInt = n := by
  unfold BitVec.toInt
  rw [BitVec.toNat_ofNat, Nat.mod_eq_of_lt (by omega), if_pos (by omega)]

theorem I128.checked_ofNat (error : Failure) {n : Nat} (small : n < 2 ^ 127) :
    I128.checked error (n : Int) = .ok (BitVec.ofNat 128 n) := by
  unfold I128.checked
  rw [if_pos (by omega), BitVec.ofInt_natCast]

/-- Nine parts of the old average and one of the sample. -/
def smooth (old latency : Nat) : Nat := (9 * old + latency) / 10

/-- What the contract makes of a sample: 0 passes for no average. -/
def smoothOrStart (old latency : Nat) : Nat := if old = 0 then latency else smooth old latency

/-- On ledger counts nothing overflows. -/
theorem ewma_ofNat {old latency : Nat} (bound : old < 2 ^ 32) (small : latency < 2 ^ 32) :
    ewma (BitVec.ofNat 128 old) latency = .ok (BitVec.ofNat 128 (smoothOrStart old latency)) := by
  have same : (BitVec.ofNat 128 old).toNat = old := by
    rw [BitVec.toNat_ofNat]
    omega
  have zero : BitVec.ofNat 128 old = 0 ↔ old = 0 := by
    rw [← BitVec.toNat_inj, same]
    rfl
  unfold ewma smoothOrStart
  simp only [zero]
  split
  · rfl
  · have weighted := @I128.checked_ofNat .trap (old * 9) (by omega)
    have sum := @I128.checked_ofNat .trap (old * 9 + latency) (by omega)
    have mean : BitVec.ofInt 128 (((old * 9 + latency : Nat) : Int).tdiv 10) =
        BitVec.ofNat 128 (smooth old latency) := by
      rw [smooth, Nat.mul_comm 9, ← BitVec.ofInt_natCast]
      congr 1
    simp only [bind_ok, pure_ok, I128.toInt_ofNat (show old < 2 ^ 127 by omega)]
    push_cast at weighted sum
    refine ⟨_, weighted, BitVec.ofNat 128 (old * 9 + latency), ?_, ?_⟩
    · rw [I128.toInt_ofNat (by omega)]
      push_cast
      exact sum
    · rw [I128.toInt_ofNat (by omega), mean]

theorem smoothOrStart_lt {old latency bound : Nat} (below : old < bound) (small : latency < bound) :
    smoothOrStart old latency < bound := by
  unfold smoothOrStart smooth
  split
  · exact small
  · omega

/-- Averaging never overflows, and the result is an average again. -/
theorem ewma_average {old : I128} {latency : Nat} (average : Average old)
    (small : latency < 2 ^ 32) : ∃ new, ewma old latency = .ok new ∧ Average new := by
  have averaged := ewma_ofNat average small
  rw [BitVec.ofNat_toNat, BitVec.setWidth_eq] at averaged
  exact ⟨_, averaged, average_ofNat (smoothOrStart_lt average small)⟩

/-! ## What the entrypoints that touch an intent leave alone -/

structure IntentFrame (w w' : World) : Prop where
  endpoint : w'.endpoint = w.endpoint
  peer : w'.peer = w.peer
  timestamp : w'.timestamp = w.timestamp
  sequence : w'.sequence = w.sequence
  reputation : ∀ solver rep', w'.solverReputation solver = some rep' →
    w.solverReputation solver = some rep' ∨ ∃ latency, latency ≤ w.sequence ∧
      ewma ((w.solverReputation solver).getD ⟨0, 0, 0⟩).ewmaLatency latency = .ok rep'.ewmaLatency

theorem Silent.intentFrame {w w' : World} (silent : Silent w w') : IntentFrame w w' where
  endpoint := congrArg Core.endpoint silent.core
  peer := congrArg Core.peer silent.core
  timestamp := congrArg Core.timestamp silent.core
  sequence := congrArg Core.sequence silent.core
  reputation solver rep' found := by
    have same : w'.solverReputation = w.solverReputation :=
      congrArg Core.solverReputation silent.core
    exact Or.inl (same ▸ found)

/-- A change that the core does not see, before or after a frame. -/
theorem IntentFrame.congr {w v v' w' : World} (before : v.core = w.core) (frame : IntentFrame v v')
    (after : w'.core = v'.core) : IntentFrame w w' where
  endpoint := (congrArg Core.endpoint after).trans
    (frame.endpoint.trans (congrArg Core.endpoint before))
  peer := (congrArg Core.peer after).trans (frame.peer.trans (congrArg Core.peer before))
  timestamp := (congrArg Core.timestamp after).trans
    (frame.timestamp.trans (congrArg Core.timestamp before))
  sequence := (congrArg Core.sequence after).trans
    (frame.sequence.trans (congrArg Core.sequence before))
  reputation solver rep' found := by
    have first : v.solverReputation = w.solverReputation := congrArg Core.solverReputation before
    have last : w'.solverReputation = v'.solverReputation := congrArg Core.solverReputation after
    have sequence : v.sequence = w.sequence := congrArg Core.sequence before
    rw [← first, ← sequence]
    exact frame.reputation solver rep' (last ▸ found)

theorem updateSolverReputation_frame {solver latency} {w w' : World} (recent : latency ≤ w.sequence)
    (ran : updateSolverReputation solver latency w = .ok w') : IntentFrame w w' := by
  obtain ⟨rep, rfl, averaged⟩ := updateSolverReputation_ok ran
  refine ⟨rfl, rfl, rfl, rfl, ?_⟩
  intro other rep' found
  by_cases same : other = solver
  · subst same
    obtain rfl : rep = rep' := by simpa using found
    exact Or.inr ⟨latency, recent, averaged⟩
  · exact Or.inl (by simpa [same] using found)

theorem onFillInstruction_frame {eid fi} {w w' : World} (ran : onFillInstruction eid fi w = .ok w') :
    w'.core = w.core := by
  cases onFillInstruction_arrival ran with
  | known => rfl
  | refused _ _ _ _ caps | registered _ _ _ _ caps => exact (enforceValueCaps_silent caps).core

theorem onCancelInbound_frame (eid : Eid) (ci : CancelInstruction) (w : World) :
    (onCancelInbound eid ci w).core = w.core := by
  unfold onCancelInbound
  split
  · rfl
  · split
    · rfl
    · split <;> rfl

theorem applyInbound_frame {origin message} {w w' : World}
    (ran : applyInbound origin message w = .ok w') : w'.core = w.core := by
  cases message with
  | fillInstruction fi =>
      obtain ⟨-, v, accepted, handled⟩ := applyInbound_fill.mp ran
      exact (onFillInstruction_frame handled).trans (acceptNonce_silent accepted).core
  | cancel ci =>
      obtain ⟨v, accepted, rfl⟩ := applyInbound_cancel.mp ran
      exact (onCancelInbound_frame _ ci v).trans (acceptNonce_silent accepted).core

theorem IntentFrame.of_core {w w' : World} (same : w'.core = w.core) : IntentFrame w w' :=
  IntentFrame.congr rfl (Silent.refl w).intentFrame same

theorem Call.run_intent {c : Context} {call : Call} {w w' : World} (intent : call.admin = false)
    (ran : call.run c w = .ok w') : IntentFrame w w' := by
  cases call with
  | lzReceiveBytes origin message =>
      simp only [Call.run, Settlement.lzReceiveBytes, bind_ok] at ran
      obtain ⟨_, -, parsed, -, applied⟩ := ran
      exact .of_core (applyInbound_frame applied)
  | lzReceive origin message =>
      simp only [Call.run, Settlement.lzReceive, bind_ok] at ran
      obtain ⟨_, -, applied⟩ := ran
      exact .of_core (applyInbound_frame applied)
  | deliverIntent solver solverEvm intentHash fillAmount =>
      obtain ⟨record, -, -, -, rfl⟩ := deliverIntent_ok ran
      exact .of_core rfl
  | dispatchConfirmation caller intentHash lzFee =>
      simp only [Call.run, Settlement.dispatchConfirmation, requireAuth, bind_ok, require_ok,
        exists_const, expect_ok, sendFillConfirmed, pure_ok] at ran
      obtain ⟨-, -, record, -, -, -, solver, -, solverEvm, -, sent, sending, marked, marking,
        rewarded, rewarding, rfl⟩ := ran
      obtain ⟨endpoint, receiver, -, rfl⟩ := dispatch_sends sending
      have paid := payKeeperReward_silent (fun h => by simp) rewarding
      have frame := updateSolverReputation_frame (Nat.sub_le _ _) marking
      exact IntentFrame.congr (by rfl) frame paid.core
  | fillIntent solver solverEvm intentHash fillAmount lzFee =>
      simp only [Call.run, Settlement.fillIntent, requireAuth, requireNotPaused, bind_ok, require_ok,
        exists_const, transfer_ok, sendFillConfirmed, pure_ok] at ran
      obtain ⟨-, -, record, -, _, ⟨-, rfl⟩, sent, sending, marked, marking, rfl⟩ := ran
      obtain ⟨endpoint, receiver, -, rfl⟩ := dispatch_sends sending
      have frame := updateSolverReputation_frame (Nat.sub_le _ _) marking
      exact IntentFrame.congr (by rfl) frame (by rfl)
  | cancelExpiredIntent caller intentHash lzFee =>
      simp only [Call.run, Settlement.cancelExpiredIntent, requireAuth, bind_ok, require_ok,
        exists_const, expect_ok, sendCancel, pure_ok] at ran
      obtain ⟨-, -, -, record, -, -, -, sent, sending, rewarded, rewarding, rfl⟩ := ran
      obtain ⟨endpoint, receiver, -, rfl⟩ := dispatch_sends sending
      have paid := payKeeperReward_silent (fun h => by simp) rewarding
      exact .of_core paid.core
  | _ => cases intent

/-! ## What a confirmation needs is there -/

structure Connected (w : World) : Prop where
  endpoint : w.endpoint.isSome
  peer : ∀ h record, w.intent h = some record → (w.peer record.srcEid).isSome
  average : ∀ solver rep, w.solverReputation solver = some rep → Average rep.ewmaLatency
  ledger : w.timestamp < uint64 ∧ w.sequence < 2 ^ 32

theorem arrival_peer {d : Deployment} {tx : Tx} {w w' : World} {eid fi}
    (ran : exec d tx w = .ok w') (arrives : tx.arrival d w = some (eid, fi)) :
    (w.peer eid).isSome := by
  have authenticated {origin : Origin}
      (checked : authorizeInbound (tx.context d) origin (w.enter tx) = .ok ()) :
      (w.peer origin.srcEid).isSome := by
    simp only [authorizeInbound, bind_ok, require_ok, expect_ok] at checked
    obtain ⟨_, -, _, -, peer, configured, -⟩ := checked
    rw [show w.peer = (w.enter tx).peer from rfl, configured]
    rfl
  unfold exec at ran
  unfold Tx.arrival at arrives
  split at arrives
  · rename_i origin message call
    rw [call] at ran
    simp only [Call.run, lzReceiveBytes, bind_ok] at ran
    obtain ⟨_, checked, -⟩ := ran
    split at arrives
    · cases arrives
      exact authenticated checked
    · cases arrives
  · rename_i origin fi call
    rw [call] at ran
    simp only [Call.run, lzReceive, bind_ok] at ran
    obtain ⟨_, checked, -⟩ := ran
    cases arrives
    exact authenticated checked
  · cases arrives

theorem average_getD {w : World} (connected : Connected w) (solver : Address) :
    Average ((w.solverReputation solver).getD ⟨0, 0, 0⟩).ewmaLatency := by
  cases found : w.solverReputation solver with
  | none => exact average_ofNat (n := 0) (by decide)
  | some rep => exact connected.average solver rep found

/-- Every record of the next state was registered from an endpoint id that has a peer. -/
theorem Connected.peer_step {d : Deployment} {tx : Tx} {w w' : World} (connected : Connected w)
    (named : w.Named) (ran : exec d tx w = .ok w')
    (kept : ∀ eid, (w.peer eid).isSome → (w'.peer eid).isSome) {h : Bytes32}
    {record' : IntentRecord} (found' : w'.intent h = some record') :
    (w'.peer record'.srcEid).isSome := by
  apply kept
  rcases (exec_step named ran h).terms record' found' with
    ⟨record, found, same⟩ | ⟨eid, fi, arrives, -, same⟩
  · rw [show record'.srcEid = record.srcEid from congrArg Terms.srcEid same]
    exact connected.peer h record found
  · rw [show record'.srcEid = eid from congrArg Terms.srcEid same]
    exact arrival_peer ran arrives

theorem Connected.exec {d : Deployment} {tx : Tx} {w w' : World} (connected : Connected w)
    (named : w.Named) (ledger : tx.timestamp < uint64 ∧ tx.sequence < 2 ^ 32)
    (ran : exec d tx w = .ok w') : Connected w' := by
  cases admin : tx.call.admin with
  | true =>
      have frame := Call.run_admin admin ran
      refine ⟨frame.endpoint connected.endpoint, ?_, ?_, ?_⟩
      · intro h record' found'
        exact connected.peer_step named ran frame.peer found'
      · intro solver rep found
        rw [frame.solverReputation] at found
        exact connected.average solver rep found
      · rw [frame.timestamp, frame.sequence]
        exact ledger
  | false =>
      have frame := Call.run_intent admin ran
      refine ⟨?_, ?_, ?_, ?_⟩
      · rw [frame.endpoint]
        exact connected.endpoint
      · intro h record' found'
        refine connected.peer_step named ran ?_ found'
        intro eid given
        rw [frame.peer]
        exact given
      · intro solver rep' found
        rcases frame.reputation solver rep' found with before | ⟨latency, recent, averaged⟩
        · exact connected.average solver rep' before
        · obtain ⟨new, averaged', average⟩ := ewma_average (average_getD connected solver)
            (Nat.lt_of_le_of_lt recent ledger.2)
          obtain rfl : new = rep'.ewmaLatency := Except.ok.inj (averaged'.symm.trans averaged)
          exact average
      · rw [frame.timestamp, frame.sequence]
        exact ledger

theorem connected_of_reachable {d : Deployment} {w : World} (reach : (system d).Reachable w) :
    Connected w := by
  refine reach.invariant (P := Connected) ?_ ?_
  · intro w given
    obtain ⟨creation, made⟩ := given
    obtain ⟨empty, endpoint, reputation, ledger⟩ := construct_ok made
    refine ⟨by rw [endpoint]; rfl, ?_, ?_, ledger⟩
    · intro h record found
      have none : w.intent h = none := congrArg IntentView.record (empty h)
      rw [none] at found
      cases found
    · intro solver rep found
      rw [reputation] at found
      cases found
  · intro w tx w' reach connected stepped
    obtain ⟨⟨-, timestamp, -, sequence⟩, ran⟩ := next_ok.mp stepped
    exact connected.exec (named_of_reachable reach) ⟨timestamp, sequence⟩ ran

/-! ## Sending it -/

/-- The endpoint quotes no more than the fee for this message and takes it. -/
structure Carries (host : Host) (w : World) (payer : Address) (dstEid : Eid) (message : Bytes)
    (lzFee : I128) : Prop where
  quote : ∀ endpoint receiver, w.endpoint = some endpoint → w.peer dstEid = some receiver →
    ∃ required, host.quote endpoint (outboundParams dstEid receiver message) = some required ∧
      required.toInt ≤ lzFee.toInt
  send : ∀ endpoint receiver, w.endpoint = some endpoint → w.peer dstEid = some receiver →
    host.send endpoint (outboundParams dstEid receiver message) payer lzFee = true

/-- The reward is zero, or the contract can pay it. -/
def Funded (c : Context) (w : World) (caller : Address) (reward : I128) : Prop :=
  0 < reward.toInt → ∀ nativeToken, w.nativeToken = some nativeToken →
    c.transfer nativeToken c.this caller reward = true

theorem Carries.dispatch {c : Context} {w : World} {payer dstEid message lzFee}
    (carries : Carries c.toHost w payer dstEid message lzFee) (endpoint : w.endpoint.isSome)
    (peer : (w.peer dstEid).isSome) :
    ∃ endpoint params, dispatch c payer dstEid message lzFee w =
      .ok (w.log (.send endpoint params payer lzFee)) := by
  obtain ⟨endpoint, configured⟩ := Option.isSome_iff_exists.mp endpoint
  obtain ⟨receiver, peer⟩ := Option.isSome_iff_exists.mp peer
  obtain ⟨required, quoted, covered⟩ := carries.quote endpoint receiver configured peer
  exact ⟨endpoint, _, dispatch_ok.mpr ⟨receiver, endpoint, required, peer, configured, quoted, covered,
    carries.send endpoint receiver configured peer, rfl⟩⟩

theorem Funded.pays {c : Context} {w : World} {caller reward} (funded : Funded c w caller reward)
    (purpose intentHash eligible) :
    ∃ w', payKeeperReward c purpose intentHash caller reward eligible w = .ok w' := by
  unfold payKeeperReward
  split
  · rename_i due
    split
    · rename_i nativeToken configured
      simp only [bind_ok, transfer_ok, pure_ok]
      exact ⟨_, _, ⟨funded due.1 nativeToken configured, rfl⟩, rfl⟩
    · exact ⟨_, rfl⟩
  · exact ⟨_, rfl⟩

theorem updateSolverReputation_total {w : World} {solver latency} (small : latency < 2 ^ 32)
    (average : Average ((w.solverReputation solver).getD ⟨0, 0, 0⟩).ewmaLatency) :
    ∃ rep, updateSolverReputation solver latency w =
      .ok { w with solverReputation := Function.update w.solverReputation solver (some rep) } := by
  obtain ⟨new, averaged, -⟩ := ewma_average average small
  simp only [updateSolverReputation, bind_ok, pure_ok]
  exact ⟨_, new, averaged, rfl⟩

/-- The confirmation is sent and recorded; only the keeper's reward is left. -/
structure Confirmed (w : World) (tx : Tx) (h : Bytes32) (record : IntentRecord) (solver : Address)
    (solverEvm : Bytes32) (lzFee : I128) (v : World) : Prop where
  nativeToken : v.nativeToken = w.nativeToken
  confirmationSent : v.confirmationSent h = true
  intent : v.intent h = some { record with status := .confirmationSent }
  trace : ∃ endpoint receiver, v.trace = w.trace ++ [⟨tx.timestamp, tx.sequence,
    .send endpoint (outboundParams record.srcEid receiver
      (encodeFillConfirmed record.intentHash solverEvm record.fillAmount record.fillLedger))
      solver lzFee⟩]

/-- Whoever has it signed and paid for confirms a filled intent, if the reward is paid. -/
theorem dispatchConfirmation_reaches {d : Deployment} {w : World}
    (reach : (system d).Reachable w) {h : Bytes32} {record : IntentRecord}
    (found : w.intent h = some record) (filled : record.status = .filled) {tx : Tx} {caller lzFee}
    (call : tx.call = .dispatchConfirmation caller h lzFee)
    (inTime : tx.timestamp ≤ addSaturating uint64 record.deadline minDispatchWindow)
    (sequence : tx.sequence < 2 ^ 32) (authorized : tx.host.authorized caller = true)
    (carries : ∀ solver solverEvm, record.solver = some solver → record.solverEvm = some solverEvm →
      Carries tx.host w solver record.srcEid
        (encodeFillConfirmed record.intentHash solverEvm record.fillAmount record.fillLedger) lzFee) :
    ∃ solver solverEvm v, record.solver = some solver ∧ record.solverEvm = some solverEvm ∧
      Confirmed w tx h record solver solverEvm lzFee v ∧
      ∀ w', exec d tx w = .ok w' ↔
        ∃ rewarded, payKeeperReward (tx.context d) (.dispatchReward h) h caller
          (w.dispatchKeeperReward.getD 0)
          (caller ≠ solver && dispatchRewardGraceLedgers ≤ tx.sequence - record.fillLedger) v =
            .ok rewarded ∧ rewarded.publish (.confirmationSent h solver) = w' := by
  have connected := connected_of_reachable reach
  have stage := stage_of_reachable reach h
  obtain ⟨delivery, solver, solverEvm, delivers, view⟩ := stage.of_filled found filled
  have unsent : (w.enter tx).confirmationSent h = false :=
    congrArg IntentView.confirmationSent view
  have carries : Carries (tx.context d).toHost (w.enter tx) solver record.srcEid
      (encodeFillConfirmed record.intentHash solverEvm record.fillAmount record.fillLedger) lzFee := by
    have given := carries solver solverEvm delivers.bySolver delivers.forSolver
    exact ⟨given.quote, given.send⟩
  obtain ⟨_, _, sending⟩ := carries.dispatch connected.endpoint (connected.peer h record found)
  obtain ⟨endpoint, receiver, _, logged⟩ := dispatch_sends sending
  rw [logged] at sending
  have recent : tx.sequence - record.fillLedger < 2 ^ 32 :=
    Nat.lt_of_le_of_lt (Nat.sub_le _ _) sequence
  let sent : World := (w.enter tx).log (.send endpoint (outboundParams record.srcEid receiver
    (encodeFillConfirmed record.intentHash solverEvm record.fillAmount record.fillLedger)) solver lzFee)
  let recorded : World :=
    { sent with
      confirmationSent := Function.update w.confirmationSent h true
      intent := Function.update w.intent h (some { record with status := .confirmationSent }) }
  obtain ⟨rep, marking⟩ := @updateSolverReputation_total recorded solver _ recent
    (average_getD connected solver)
  let marked : World := { recorded with
    solverReputation := Function.update recorded.solverReputation solver (some rep) }
  have confirmed : Confirmed w tx h record solver solverEvm lzFee marked :=
    ⟨rfl, Function.update_self _ _ _, Function.update_self _ _ _, endpoint, receiver, rfl⟩
  refine ⟨solver, solverEvm, marked, delivers.bySolver, delivers.forSolver, confirmed, ?_⟩
  intro w'
  simp only [exec, call, Call.run, dispatchConfirmation, requireAuth, bind_ok, require_ok,
    exists_const, expect_ok, sendFillConfirmed, pure_ok]
  constructor
  · rintro ⟨-, -, record', found', -, -, solver', bySolver, solverEvm', forSolver, sent', sending',
      marked, marking', rewarded, rewarding, done⟩
    obtain rfl : record = record' := Option.some.inj (found.symm.trans found')
    obtain rfl : solver = solver' := Option.some.inj (delivers.bySolver.symm.trans bySolver)
    obtain rfl : solverEvm = solverEvm' := Option.some.inj (delivers.forSolver.symm.trans forSolver)
    obtain rfl : sent = sent' := Except.ok.inj (sending.symm.trans sending')
    obtain rfl := Except.ok.inj (marking.symm.trans marking')
    exact ⟨rewarded, rewarding, done⟩
  · rintro ⟨rewarded, rewarding, done⟩
    exact ⟨authorized, by simpa using unsent, record, found, filled, inTime, solver,
      delivers.bySolver, solverEvm, delivers.forSolver, _, sending, _, marking, rewarded,
      rewarding, done⟩

/-- Whoever has it signed and paid for may confirm a filled intent. -/
theorem dispatchConfirmation_served {d : Deployment} {w : World}
    (reach : (system d).Reachable w) {h : Bytes32} {record : IntentRecord}
    (found : w.intent h = some record) (filled : record.status = .filled) {tx : Tx} {caller lzFee}
    (call : tx.call = .dispatchConfirmation caller h lzFee)
    (inTime : tx.timestamp ≤ addSaturating uint64 record.deadline minDispatchWindow)
    (sequence : tx.sequence < 2 ^ 32) (authorized : tx.host.authorized caller = true)
    (carries : ∀ solver solverEvm, record.solver = some solver → record.solverEvm = some solverEvm →
      Carries tx.host w solver record.srcEid
        (encodeFillConfirmed record.intentHash solverEvm record.fillAmount record.fillLedger) lzFee)
    (funded : Funded (tx.context d) w caller (w.dispatchKeeperReward.getD 0)) :
    ∃ w', exec d tx w = .ok w' ∧ w'.intent h = some { record with status := .confirmationSent } := by
  obtain ⟨solver, solverEvm, v, _, _, confirmed, runs⟩ :=
    dispatchConfirmation_reaches reach found filled call inTime sequence authorized carries
  have funded : Funded (tx.context d) v caller (w.dispatchKeeperReward.getD 0) := by
    intro due nativeToken configured
    exact funded due nativeToken (confirmed.nativeToken ▸ configured)
  obtain ⟨rewarded, rewarding⟩ := funded.pays (.dispatchReward h) h
    (caller ≠ solver && dispatchRewardGraceLedgers ≤ tx.sequence - record.fillLedger)
  have paid := payKeeperReward_silent (fun h => by simp) rewarding
  have written : rewarded.intent h = some { record with status := .confirmationSent } :=
    (congrArg IntentView.record (paid.view h)).trans confirmed.intent
  exact ⟨_, (runs _).mpr ⟨rewarded, rewarding, rfl⟩, written⟩

/-- Signatures, tokens and an endpoint that stand in nobody's way, at this fee. -/
structure Obliging (host : Host) (lzFee : I128) : Prop where
  authorized : ∀ account, host.authorized account = true
  transfer : ∀ token sender receiver amount, host.transfer token sender receiver amount = true
  quote : ∀ endpoint params, ∃ required, host.quote endpoint params = some required ∧
    required.toInt ≤ lzFee.toInt
  send : ∀ endpoint params payer fee, host.send endpoint params payer fee = true

theorem dispatchConfirmation_available {d : Deployment} {w : World}
    (reach : (system d).Reachable w) {h : Bytes32} {record : IntentRecord}
    (found : w.intent h = some record) (filled : record.status = .filled) {tx : Tx} {caller lzFee}
    (call : tx.call = .dispatchConfirmation caller h lzFee)
    (inTime : tx.timestamp ≤ addSaturating uint64 record.deadline minDispatchWindow)
    (sequence : tx.sequence < 2 ^ 32) (obliging : Obliging tx.host lzFee) :
    ∃ w', exec d tx w = .ok w' := by
  have funded : Funded (tx.context d) w caller (w.dispatchKeeperReward.getD 0) :=
    fun _ _ _ => obliging.transfer _ _ _ _
  obtain ⟨w', ran, -⟩ := dispatchConfirmation_served reach found filled call inTime sequence
    (obliging.authorized caller)
    (fun _ _ _ _ => ⟨fun _ _ _ _ => obliging.quote _ _, fun _ _ _ _ => obliging.send _ _ _ _⟩) funded
  exact ⟨w', ran⟩

end Perihelion.Settlement

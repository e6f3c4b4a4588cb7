import Perihelion.Bridge.Machine

/-! # What the two contracts agree on

In a run without a fill in the last second of a `u64`, the record of an intent always
has the terms of its lock, and is filled for the solver that locked it; every message
about it goes to the escrow; and what the escrow has released, it has released for a
message it has taken.
-/

namespace Perihelion.Bridge

open BigEndian Fallible Transition

/-- A record that came from the lock. -/
structure Matches (link : Link) (l : Escrow.Lock) (record : Settlement.IntentRecord) : Prop where
  recorded : l.user ≠ 0
  srcEid : record.srcEid = link.evmEid
  minDestAmount : record.minDestAmount.toInt = l.minDestAmount
  deadline : record.deadline = l.deadline
  reservation : record.reservationExpires = record.deadline
  solverEvm : record.solverEvm = some (word l.solver)

/-- All that the settlement contract knows and says about one intent. -/
structure Agrees (link : Link) (l : Escrow.Lock) (v : Settlement.IntentView) : Prop where
  record : ∀ record, v.record = some record → Matches link l record
  addressed : ∀ entry ∈ v.history, ∀ params, entry.sent = some params →
    params.dstEid = link.evmEid ∧ params.receiver = word link.escrow.this

theorem Matches.sameTerms {link : Link} {l l' : Escrow.Lock} {record}
    (matching : Matches link l record) (same : Escrow.SameTerms l l') : Matches link l' record where
  recorded := by
    rw [same.user]
    exact matching.recorded
  srcEid := matching.srcEid
  minDestAmount := by
    rw [same.minDestAmount]
    exact matching.minDestAmount
  deadline := by
    rw [same.deadline]
    exact matching.deadline
  reservation := matching.reservation
  solverEvm := by
    rw [same.solver]
    exact matching.solverEvm

theorem Agrees.follows {link : Link} {h : Bytes32} {f f' : Escrow.Funds} {v}
    (agrees : Agrees link (f.locks h) v) (follows : Escrow.Follows h f f') :
    Agrees link (f'.locks h) v where
  record record found := by
    have matching := agrees.record record found
    exact matching.sameTerms (follows.terms matching.recorded)
  addressed := agrees.addressed

theorem Matches.status {link : Link} {l : Escrow.Lock} {record} (matching : Matches link l record)
    (status : Settlement.IntentStatus) : Matches link l { record with status := status } :=
  ⟨matching.recorded, matching.srcEid, matching.minDestAmount, matching.deadline,
    matching.reservation, matching.solverEvm⟩

/-- Well before the deadline a reserved record can only be filled for the locking solver.  In
    the last second of a `u64` the early guard saturates and the reservation is over. -/
theorem Matches.fill {link : Link} {l : Escrow.Lock} {record : Settlement.IntentRecord}
    {solver solverEvm fillAmount now} (matching : Matches link l record)
    (early : now + 1 < uint64)
    (fillable : Settlement.Fillable record solver solverEvm fillAmount now) (fillLedger : Nat) :
    Matches link l (record.fill solver solverEvm fillAmount fillLedger) := by
  have reserved : now < record.reservationExpires := by
    have guard := fillable.early
    rw [matching.reservation]
    unfold addSaturating Settlement.minDispatchWindow uint64 at guard
    unfold uint64 at early
    omega
  have same : solverEvm = word l.solver := by
    by_contra different
    exact fillable.exclusive _ matching.solverEvm ⟨Ne.symm different, reserved⟩
  exact ⟨matching.recorded, matching.srcEid, matching.minDestAmount, matching.deadline,
    matching.reservation, congrArg some same⟩

/-- What arrives about `h` has been read from the lock's own FillInstruction. -/
def Arrives (link : Link) (h : Bytes32) (l : Escrow.Lock) (o : Settlement.Occasion) : Prop :=
  ∀ eid fi, o.arrival = some (eid, fi) → fi.intentHash = h →
    l.user ≠ 0 ∧ eid = link.evmEid ∧ fi.minDestAmount.toInt = l.minDestAmount ∧
      fi.deadline = l.deadline ∧ fi.lockedSolver = some (word l.solver) ∧ fi.reservationWindow = 0

theorem Agrees.append {link : Link} {l : Escrow.Lock} {v : Settlement.IntentView} {o effect}
    (agrees : Agrees link l v)
    (addressed : ∀ params, Settlement.Entry.sent ⟨o.timestamp, o.sequence, effect⟩ = some params →
      params.dstEid = link.evmEid ∧ params.receiver = word link.escrow.this) :
    Agrees link l (v.append o effect) where
  record := agrees.record
  addressed entry member params sent := by
    rcases List.mem_append.mp member with earlier | fresh
    · exact agrees.addressed entry earlier params sent
    · obtain rfl := List.mem_singleton.mp fresh
      exact addressed params sent

theorem Agrees.replace {link : Link} {l : Escrow.Lock} {v v' : Settlement.IntentView}
    {record' : Settlement.IntentRecord} (agrees : Agrees link l v) (matching : Matches link l record')
    (written : v'.record = some record') (history : v'.history = v.history) : Agrees link l v' where
  record record found := by
    obtain rfl : record' = record := Option.some.inj (written.symm.trans found)
    exact matching
  addressed := by
    rw [history]
    exact agrees.addressed

theorem Agrees.step {link : Link} {l : Escrow.Lock} {h o v v'}
    (step : Settlement.IntentView.Step h o v v')
    (early : o.filling = true → o.timestamp + 1 < uint64)
    (peer : o.peer link.evmEid = some (word link.escrow.this)) (arrives : Arrives link h l o)
    (agrees : Agrees link l v) : Agrees link l v' := by
  induction step with
  | same => exact agrees
  | registered v eid fi arrival named live absent =>
      obtain ⟨recorded, rfl, minimum, deadline, locked, window⟩ := arrives eid fi arrival named
      refine agrees.replace ⟨recorded, rfl, minimum, deadline, ?_, locked⟩ rfl rfl
      simp [Settlement.FillInstruction.record, window]
  | tombstoned v live absent => exact ⟨agrees.record, agrees.addressed⟩
  | recalled v record live found locked =>
      exact agrees.replace ((agrees.record record found).status .cancelled) rfl rfl
  | delivered v record solver solverEvm fillAmount live found fillable filling =>
      have matching := (agrees.record record found).fill (early filling) fillable o.sequence
      apply Agrees.append
      · exact agrees.replace matching rfl rfl
      · intro params sent
        cases sent
  | dispatched v record solver solverEvm endpoint receiver payer lzFee found filled bySolver
      forSolver addressed =>
      have matching := agrees.record record found
      apply Agrees.append
      · exact agrees.replace (matching.status .confirmationSent) rfl rfl
      · intro params sent
        cases sent
        rw [matching.srcEid] at addressed
        exact ⟨matching.srcEid, Option.some.inj (addressed.symm.trans peer)⟩
  | expired v record endpoint receiver payer lzFee live found locked late addressed =>
      have matching := agrees.record record found
      apply Agrees.append
      · exact agrees.replace (matching.status .cancelled) rfl rfl
      · intro params sent
        cases sent
        rw [matching.srcEid] at addressed
        exact ⟨matching.srcEid, Option.some.inj (addressed.symm.trans peer)⟩
  | both v middle v' first second ihFirst ihSecond => exact ihSecond (ihFirst agrees)

/-! ## Runs -/

/-- A lock is released by nothing but a message about it. -/
theorem released_by_message {d : Escrow.Deployment} {tx : Escrow.Tx} {w w' : Escrow.World}
    {h : Bytes32} (ran : Escrow.exec d tx w = .ok w') (released : (w'.locks h).released = true) :
    (w.locks h).released = true ∨ ∃ origin message, tx.call = .lzReceive origin message ∧
      Settlement.messageIntent message = h := by
  obtain ⟨move, step, caused⟩ := Escrow.exec_move ran
  have released : (w'.funds.locks h).released = true := released
  change (w.funds.locks h).released = true ∨ _
  generalize w'.funds = f' at step released
  cases step with
  | same | arrived | skimmed => exact Or.inl released
  | locked key lock vacant owned live =>
      by_cases here : h = key
      · subst here
        simp [Escrow.Funds.record, live.1] at released
      · left
        simpa [Escrow.Funds.record, Escrow.Funds.arrive, here] using released
  | released m timestamp debit found delivered exclusive atMost =>
      obtain ⟨-, origin, message, call, decoded⟩ := caused
      by_cases here : h = m.intentHash
      · refine Or.inr ⟨origin, message, call, ?_⟩
        simp only [Escrow.decodeFillConfirmed, bind_ok, require_ok, exists_const, pure_ok] at decoded
        obtain ⟨-, -, rfl⟩ := decoded
        exact here.symm
      · left
        simpa [Escrow.Funds.pay, Escrow.Funds.discharge, here] using released
  | refunded key debit found atMost =>
      left
      by_cases here : h = key
      · subst here
        simpa [Escrow.Funds.pay, Escrow.Funds.discharge, Escrow.Lock.refund] using released
      · simpa [Escrow.Funds.pay, Escrow.Funds.discharge, here] using released

/-- The invariant of the joint run. -/
structure Coherent (link : Link) (w : World) : Prop where
  escrow : (Escrow.system link.escrow).Reachable w.escrow
  settlement : (Settlement.system link.settlement).Reachable w.settlement
  linked : w.Linked link
  agrees : ∀ h, Agrees link (w.escrow.locks h) (w.settlement.view h)
  counted : ∀ params, w.received.count params ≤ w.settlement.sent.count params
  paid : ∀ h, (w.escrow.locks h).released = true → ∃ params ∈ w.received, params.about h = true

theorem Start.coherent {link : Link} {w : World} (start : Start link w) : Coherent link w where
  escrow := start.escrow
  settlement := start.settlement
  linked := start.linked
  agrees h := by
    rw [start.unknown h]
    refine ⟨?_, ?_⟩
    · intro record absent
      cases absent
    · intro entry absent
      cases absent
  counted params := by
    rw [start.received]
    exact Nat.zero_le _
  paid h released := by
    have idle := (Escrow.accounted_of_reachable start.escrow h).vacant (start.vacant h)
    have flag : (w.escrow.funds.locks h).released = true := released
    simp [Escrow.Lock.finalized, flag] at idle

/-- The settlement contract moves: by an occasion that brings only what the escrow sent. -/
theorem Coherent.settle {link : Link} {w w' : World} {tx : Settlement.Tx} {s : Settlement.World}
    (coherent : Coherent link w)
    (advanced : Settlement.next link.settlement w.settlement tx = some s)
    (early : tx.call.fills = true → tx.timestamp + 1 < uint64)
    (arrives : ∀ h, Arrives link h (w.escrow.locks h) (tx.occasion link.settlement w.settlement))
    (moved : w' = { w with settlement := s }) (linked : w'.Linked link) : Coherent link w' := by
  subst moved
  have named := Settlement.named_of_reachable coherent.settlement
  have ran := (Settlement.next_ok.mp advanced).2
  refine ⟨coherent.escrow, .step coherent.settlement advanced, linked, ?_, ?_, coherent.paid⟩
  · intro h
    exact (coherent.agrees h).step (Settlement.exec_step named ran h) early coherent.linked.2 (arrives h)
  · intro params
    exact (coherent.counted params).trans (Settlement.exec_sent named ran params)

/-- The escrow moves by its own calls. -/
theorem Coherent.advance {link : Link} {w w' : World} {input : Escrow.Input} {e : Escrow.World}
    (coherent : Coherent link w) (advanced : Escrow.next link.escrow w.escrow input = some e)
    (received : List Settlement.MessagingParams)
    (moved : w' = { w with escrow := e, received := received }) (linked : w'.Linked link)
    (counted : ∀ params, received.count params ≤ w.settlement.sent.count params)
    (paid : ∀ h, (e.locks h).released = true → ∃ params ∈ received, params.about h = true) :
    Coherent link w' := by
  subst moved
  refine ⟨.step coherent.escrow advanced, coherent.settlement, linked, ?_, counted, paid⟩
  intro h
  exact (coherent.agrees h).follows
    (Escrow.follows_of_later coherent.escrow (System.Later.of_step advanced) h)

theorem arrival_none {d : Settlement.Deployment} {tx : Settlement.Tx} (w : Settlement.World)
    (own : inboundSettlement tx.call = false) : tx.arrival d w = none := by
  unfold Settlement.Tx.arrival
  cases call : tx.call with
  | lzReceiveBytes | lzReceive =>
      rw [call] at own
      cases own
  | _ => rfl

/-- A FillInstruction handed over brings the terms of the lock it was sent for. -/
theorem Coherent.arrives {link : Link} {w : World} (coherent : Coherent link w)
    {params : Escrow.MessagingParams} (sent : params ∈ w.escrow.sent) (nonce : UInt64)
    (timestamp sequence : Nat) (host : Settlement.Host) (h : Bytes32) :
    Arrives link h (w.escrow.locks h)
      ((link.settlementTx params nonce timestamp sequence host).occasion link.settlement
        w.settlement) := by
  obtain ⟨intentHash, intent, instructs⟩ :=
    Escrow.instructs_of_reachable coherent.escrow params sent
  intro eid fi arrival named
  simp only [Settlement.Tx.occasion, Settlement.World.occasion, Settlement.Tx.arrival,
    Link.settlementTx, instructs.message] at arrival
  split at arrival
  · rename_i fi' parsed
    obtain ⟨rfl, rfl⟩ := Prod.mk.inj (Option.some.inj arrival)
    obtain ⟨fi'', same, reads⟩ := parseMessage_fillInstruction instructs.fits.1 instructs.fits.2 parsed
    obtain rfl := Settlement.LzMessage.fillInstruction.inj same
    obtain rfl : intentHash = h := reads.intentHash.symm.trans named
    refine ⟨instructs.recorded, rfl, ?_, ?_, reads.lockedSolver, reads.reservationWindow⟩
    · rw [instructs.minDestAmount]
      exact reads.minDestAmount
    · rw [instructs.deadline]
      exact reads.deadline
  · cases arrival

theorem Coherent.step {link : Link} {horizon : Nat} {w w' : World} {input : Input}
    (coherent : Coherent link w) (early : horizon < uint64)
    (stepped : next link horizon w input = some w') : Coherent link w' := by
  obtain ⟨allowed, ran, linked⟩ := next_ok.mp stepped
  cases input with
  | escrow input =>
      obtain ⟨e, advanced, rfl⟩ := Option.map_eq_some_iff.mp ran
      refine coherent.advance advanced w.received rfl linked coherent.counted ?_
      intro h released
      cases input with
      | tx tx =>
          rcases released_by_message (Escrow.next_tx.mp advanced).2 released with
            before | ⟨origin, message, call, -⟩
          · exact coherent.paid h before
          · have own := allowed.2
            rw [call] at own
            cases own
      | tokenArrives token amount | nativeArrives amount =>
          cases advanced
          exact coherent.paid h released
  | settlement tx =>
      obtain ⟨s, advanced, rfl⟩ := Option.map_eq_some_iff.mp ran
      refine coherent.settle advanced ?_ ?_ rfl linked
      · intro fills
        exact Nat.lt_of_le_of_lt (allowed.2.2 fills) early
      · intro h eid fi arrival
        have none := @arrival_none link.settlement tx w.settlement allowed.2.1
        have arrival : tx.arrival link.settlement w.settlement = some (eid, fi) := arrival
        rw [none] at arrival
        cases arrival
  | toSettlement params nonce timestamp sequence host =>
      obtain ⟨s, advanced, rfl⟩ := Option.map_eq_some_iff.mp ran
      refine coherent.settle advanced ?_ ?_ rfl linked
      · intro fills
        cases fills
      · exact coherent.arrives allowed.2.1 nonce timestamp sequence host
  | toEscrow params nonce value timestamp host =>
      obtain ⟨e, advanced, rfl⟩ := Option.map_eq_some_iff.mp ran
      refine coherent.advance advanced (w.received ++ [params]) rfl linked ?_ ?_
      · intro other
        have flying : w.InFlight params := allowed.2.1
        have before := coherent.counted other
        unfold World.InFlight at flying
        rw [List.count_append, List.count_singleton]
        split
        · rename_i same
          obtain rfl : params = other := eq_of_beq same
          omega
        · omega
      · intro h released
        rcases released_by_message (Escrow.next_tx.mp advanced).2 released with
          before | ⟨origin, message, call, about⟩
        · obtain ⟨earlier, member, about⟩ := coherent.paid h before
          exact ⟨earlier, List.mem_append_left _ member, about⟩
        · obtain ⟨-, rfl⟩ := Escrow.Call.lzReceive.inj call
          exact ⟨params, List.mem_append_right _ (List.mem_singleton_self params),
            beq_iff_eq.mpr about⟩

theorem coherent_of_reachable {link : Link} {horizon : Nat} {w : World} (early : horizon < uint64)
    (reach : (system link horizon).Reachable w) : Coherent link w := by
  refine reach.invariant (P := Coherent link) ?_ ?_
  · intro w start
    exact start.coherent
  · intro w input w' _ coherent stepped
    exact coherent.step early stepped

end Perihelion.Bridge

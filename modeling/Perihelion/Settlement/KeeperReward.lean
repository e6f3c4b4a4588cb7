import Perihelion.Settlement.Exits

/-! # The keeper's reward and the confirmation

The reward for pushing a confirmation through is paid last, but within the same invocation: a
token that refuses it takes the message and the record back with it.
-/

namespace Perihelion.Settlement

open BigEndian Fallible Transition

/-- A reward is set, and the caller waited long enough for it. -/
def RewardDue (w : World) (tx : Tx) (record : IntentRecord) (caller : Address) : Prop :=
  0 < (w.dispatchKeeperReward.getD 0).toInt ∧ record.solver ≠ some caller ∧
    dispatchRewardGraceLedgers ≤ tx.sequence - record.fillLedger

/-- The contract pays in a token that does not carry the reward. -/
def RewardRefused (d : Deployment) (w : World) (tx : Tx) (caller : Address) : Prop :=
  ∃ nativeToken, w.nativeToken = some nativeToken ∧
    tx.host.transfer nativeToken d.this caller (w.dispatchKeeperReward.getD 0) = false

/-- The message of the fill left for the source chain, and its intent is marked so. -/
structure FillConfirmed (w : World) (tx : Tx) (h : Bytes32) (record : IntentRecord) (w' : World) :
    Prop where
  sent : ∃ endpoint params payer lzFee solverEvm after, record.solverEvm = some solverEvm ∧
    params.dstEid = record.srcEid ∧
    params.message =
      encodeFillConfirmed record.intentHash solverEvm record.fillAmount record.fillLedger ∧
    w'.trace = w.trace ++ ⟨tx.timestamp, tx.sequence, .send endpoint params payer lzFee⟩ :: after
  marked : w'.confirmationSent h = true
  recorded : w'.intent h = some { record with status := .confirmationSent }

section

variable {c : Context} {purpose : Purpose} {h : Bytes32} {caller : Address} {reward : I128}
  {eligible : Bool} {v v' : World}

/-- Only the token's refusal keeps the reward from being settled one way or the other. -/
theorem payKeeperReward_ok_iff :
    (∃ v', payKeeperReward c purpose h caller reward eligible v = .ok v') ↔
      ¬ ((0 < reward.toInt ∧ eligible = true) ∧
        ∃ nativeToken, v.nativeToken = some nativeToken ∧
          c.transfer nativeToken c.this caller reward = false) := by
  unfold payKeeperReward
  by_cases due : 0 < reward.toInt ∧ eligible = true
  · simp only [if_pos due]
    cases configured : v.nativeToken with
    | none => simp
    | some nativeToken =>
        simp only [transfer, bind_ok, require_ok, exists_const, pure_ok]
        cases pays : c.transfer nativeToken c.this caller reward with
        | true => simp [pays]
        | false => simp [pays, due]
  · simp [due]

/-- What the reward adds to the trace comes after what was there. -/
theorem payKeeperReward_trace
    (ran : payKeeperReward c purpose h caller reward eligible v = .ok v') :
    v'.confirmationSent = v.confirmationSent ∧ ∃ after, v'.trace = v.trace ++ after := by
  unfold payKeeperReward at ran
  split at ran
  · split at ran
    · simp only [transfer, bind_ok, require_ok, exists_const, pure_ok] at ran
      obtain ⟨_, ⟨_, rfl⟩, rfl⟩ := ran
      exact ⟨rfl, [_, _], List.append_assoc _ _ _⟩
    · obtain rfl := Except.ok.inj ran
      exact ⟨rfl, [_], rfl⟩
  · obtain rfl := Except.ok.inj ran
    exact ⟨rfl, [], (List.append_nil _).symm⟩

end

theorem Confirmed.fillConfirmed {w v rewarded : World} {tx : Tx} {h : Bytes32}
    {record : IntentRecord} {solver : Address} {solverEvm : Bytes32} {lzFee : I128}
    (confirmed : Confirmed w tx h record solver solverEvm lzFee v)
    (forSolver : record.solverEvm = some solverEvm) {c : Context} {caller reward eligible}
    (rewarding : payKeeperReward c (.dispatchReward h) h caller reward eligible v = .ok rewarded) :
    FillConfirmed w tx h record (rewarded.publish (.confirmationSent h solver)) := by
  obtain ⟨kept, after, traced⟩ := payKeeperReward_trace rewarding
  obtain ⟨endpoint, receiver, logged⟩ := confirmed.trace
  have paid := payKeeperReward_silent (fun h => by simp) rewarding
  let last : Entry := ⟨rewarded.timestamp, rewarded.sequence, .publish (.confirmationSent h solver)⟩
  constructor
  · refine ⟨endpoint, outboundParams record.srcEid receiver _, solver, lzFee, solverEvm,
      after ++ [last], forSolver, rfl, rfl, ?_⟩
    rw [World.publish, World.log, traced, logged, List.append_assoc, List.append_assoc]
    rfl
  · exact (congrFun kept h).trans confirmed.confirmationSent
  · exact (congrArg IntentView.record (paid.view h)).trans confirmed.intent

/-- A paid and signed dispatch of a filled intent goes through unless a reward is due that the
    token refuses. -/
theorem dispatch_confirmed_iff {d : Deployment} {w : World} (reach : (system d).Reachable w)
    {h : Bytes32} {record : IntentRecord} (found : w.intent h = some record)
    (filled : record.status = .filled) {tx : Tx} (later : tx.Later w) {caller : Address}
    {lzFee : I128} (call : tx.call = .dispatchConfirmation caller h lzFee)
    (inTime : tx.timestamp ≤ record.deadline + minDispatchWindow)
    (authorized : tx.host.authorized caller = true)
    (carries : ∀ solver solverEvm, record.solver = some solver → record.solverEvm = some solverEvm →
      Carries tx.host w solver record.srcEid
        (encodeFillConfirmed record.intentHash solverEvm record.fillAmount record.fillLedger)
        lzFee) :
    (∃ w', next d w tx = some w' ∧ FillConfirmed w tx h record w') ↔
      ¬ (RewardDue w tx record caller ∧ RewardRefused d w tx caller) := by
  have saturated : tx.timestamp ≤ addSaturating uint64 record.deadline minDispatchWindow := by
    have clock := later.timestamp.2
    unfold addSaturating
    omega
  obtain ⟨solver, solverEvm, v, bySolver, forSolver, confirmed, runs⟩ :=
    dispatchConfirmation_reaches reach found filled call saturated later.sequence.2 authorized carries
  have due : RewardDue w tx record caller ↔ 0 < (w.dispatchKeeperReward.getD 0).toInt ∧
      (caller ≠ solver && dispatchRewardGraceLedgers ≤ tx.sequence - record.fillLedger : Bool) := by
    have own : record.solver ≠ some caller ↔ caller ≠ solver := by
      rw [bySolver, Ne, Option.some.injEq, Ne, eq_comm]
    simp only [RewardDue, own, Bool.and_eq_true, decide_eq_true_eq]
  have refused : RewardRefused d w tx caller ↔ ∃ nativeToken, v.nativeToken = some nativeToken ∧
      (tx.context d).transfer nativeToken (tx.context d).this caller
        (w.dispatchKeeperReward.getD 0) = false := by
    rw [confirmed.nativeToken]
    rfl
  rw [due, refused, ← @payKeeperReward_ok_iff _ (.dispatchReward h) h]
  have ledger := And.intro later.timestamp.1 (And.intro later.timestamp.2 later.sequence)
  constructor
  · rintro ⟨w', step, -⟩
    obtain ⟨-, ran⟩ := next_ok.mp step
    obtain ⟨rewarded, rewarding, -⟩ := (runs w').mp ran
    exact ⟨rewarded, rewarding⟩
  · rintro ⟨rewarded, rewarding⟩
    exact ⟨_, next_ok.mpr ⟨ledger, (runs _).mpr ⟨rewarded, rewarding, rfl⟩⟩,
      confirmed.fillConfirmed forSolver rewarding⟩

namespace Sample

def keeper : Address := .account 0x6EE

def promiseTx : Tx := tx 1700000350 1240 (.setDispatchKeeperReward 10)

/-- The delivered sample intent, once the admin has promised its keeper ten stroops. -/
def rewarding : World := (replay deployment delivered [promiseTx]).get (by decide +kernel)

theorem rewarding_reachable : (system deployment).Reachable rewarding :=
  delivered_reachable.later
    (later_of_replay (show replay deployment delivered [promiseTx] = some rewarding by simp [rewarding]))

/-- A third party dispatches half an hour after the fill. -/
def keeperTx : Tx := tx 1700002200 1600 (.dispatchConfirmation keeper intentHash 5)

/-- The contract has none of its native token. -/
def brokeTx : Tx := { keeperTx with host := { host with transfer := fun _ _ _ _ => false } }

end Sample

/-- Ten stroops for the keeper, which the contract has. -/
theorem dispatch_confirmed_sample :
    ∃ w', next Sample.deployment Sample.rewarding Sample.keeperTx = some w' ∧
      (w'.intent Sample.intentHash).map IntentRecord.status = some .confirmationSent := by
  have recorded : (Sample.rewarding.intent Sample.intentHash).map
      (fun record => (record.status, record.deadline)) = some (.filled, 1700010000) := by
    decide +kernel
  obtain ⟨record, found, same⟩ := Option.map_eq_some_iff.mp recorded
  obtain ⟨filled, deadline⟩ := Prod.mk.inj same
  have payable : ¬ RewardRefused Sample.deployment Sample.rewarding Sample.keeperTx Sample.keeper := by
    rintro ⟨_, -, refused⟩
    cases refused
  obtain ⟨w', step, confirmed⟩ := (@dispatch_confirmed_iff Sample.deployment Sample.rewarding
    Sample.rewarding_reachable Sample.intentHash record found filled Sample.keeperTx
    ⟨by decide +kernel, by decide +kernel⟩ Sample.keeper 5 rfl (by rw [deadline]; decide) rfl
    (fun _ _ _ _ => Sample.carries _ _ _ _)).mpr fun refusal => payable refusal.2
  exact ⟨w', step, by rw [confirmed.recorded]; rfl⟩

/-- The contract is out of its native token: the keeper's dispatch fails as a whole. -/
theorem dispatch_undone :
    (system Sample.deployment).Reachable Sample.rewarding ∧
    (Sample.rewarding.intent Sample.intentHash).map
      (fun record => (record.status, record.deadline + minDispatchWindow)) =
        some (.filled, 1700011800) ∧
    Sample.brokeTx.Later Sample.rewarding ∧
    Sample.brokeTx.host.authorized Sample.keeper = true ∧
    (∀ payer srcEid message, Carries Sample.brokeTx.host Sample.rewarding payer srcEid message 5) ∧
    (match exec Sample.deployment Sample.brokeTx Sample.rewarding with
      | .error e => some e
      | .ok _ => none) = some .trap := by
  have later : Sample.brokeTx.Later Sample.rewarding := ⟨by decide +kernel, by decide +kernel⟩
  refine ⟨Sample.rewarding_reachable, by decide +kernel, later, rfl, ?_, by decide +kernel⟩
  intro payer srcEid message
  exact ⟨fun _ _ _ _ => ⟨5, rfl, by decide⟩, fun _ _ _ _ => rfl⟩

end Perihelion.Settlement

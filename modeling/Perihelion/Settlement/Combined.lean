import Perihelion.Settlement.Markers

/-! # Filling in one invocation or in two

`fill_intent` writes out again what `deliver_intent` and `dispatch_confirmation` do one after
the other.  It asks for the same things, ends in the same state and has the same effects; only
their order differs.
-/

namespace Perihelion.Settlement

open BigEndian Fallible Transition

/-- What a fill by `solver` writes about the intent, its confirmation included. -/
def World.confirmed (w : World) (record : IntentRecord) (solver : Address)
    (solverEvm h : Bytes32) (fillAmount average : I128) : World :=
  let rep := (w.solverReputation solver).getD ⟨0, 0, 0⟩
  { w with
    intent := Function.update w.intent h
      (some { record.fill solver solverEvm fillAmount w.sequence with status := .confirmationSent })
    settled := Function.update w.settled h true
    confirmationSent := Function.update w.confirmationSent h true
    solverReputation := Function.update w.solverReputation solver (some
      { fillCount := addSaturating uint64 rep.fillCount 1
        successCount := addSaturating uint64 rep.successCount 1
        ewmaLatency := average }) }

def World.logAll (w : World) (effects : List Effect) : World := effects.foldl World.log w

def IntentRecord.confirmation (record : IntentRecord) (receiver solverEvm : Bytes32)
    (fillAmount : I128) (fillLedger : Nat) : MessagingParams :=
  outboundParams record.srcEid receiver
    (encodeFillConfirmed record.intentHash solverEvm fillAmount fillLedger)

/-- What both ways ask of the state and of the surroundings. -/
structure Confirmable (c : Context) (solver : Address) (solverEvm h : Bytes32)
    (fillAmount lzFee : I128) (w : World) (record : IntentRecord) (endpoint : Address)
    (receiver : Bytes32) (average : I128) : Prop where
  authorized : c.authorized solver = true
  unpaused : w.paused.getD false = false
  live : isFinalized w h = false
  found : w.intent h = some record
  fillable : Fillable record solver solverEvm fillAmount w.timestamp
  pays : c.transfer record.destAsset solver record.recipient fillAmount = true
  peer : w.peer record.srcEid = some receiver
  configured : w.endpoint = some endpoint
  quoted : ∃ required,
    c.quote endpoint (record.confirmation receiver solverEvm fillAmount w.sequence) = some required ∧
      required.toInt ≤ lzFee.toInt
  sends : c.send endpoint (record.confirmation receiver solverEvm fillAmount w.sequence) solver
    lzFee = true
  averaged : ewma ((w.solverReputation solver).getD ⟨0, 0, 0⟩).ewmaLatency 0 = .ok average

section

variable {c : Context} {solver : Address} {solverEvm h : Bytes32} {fillAmount lzFee : I128}

def payment (record : IntentRecord) (solver : Address) (h : Bytes32) (fillAmount : I128) : Effect :=
  .transfer (.fill h) record.destAsset solver record.recipient fillAmount

def announced (record : IntentRecord) (solver : Address) (h : Bytes32) (fillAmount : I128) :
    Effect :=
  .publish (.filled h solver record.destAsset fillAmount record.srcEid)

theorem updateSolverReputation_iff {latency : Nat} {w w' : World} :
    updateSolverReputation solver latency w = .ok w' ↔
      ∃ average, ewma ((w.solverReputation solver).getD ⟨0, 0, 0⟩).ewmaLatency latency = .ok average ∧
        { w with
          solverReputation := Function.update w.solverReputation solver (some
            { fillCount := addSaturating uint64 ((w.solverReputation solver).getD ⟨0, 0, 0⟩).fillCount 1
              successCount :=
                addSaturating uint64 ((w.solverReputation solver).getD ⟨0, 0, 0⟩).successCount 1
              ewmaLatency := average }) } = w' := by
  simp only [updateSolverReputation, bind_ok, pure_ok]

theorem fillIntent_iff {w w' : World} :
    fillIntent c solver solverEvm h fillAmount lzFee w = .ok w' ↔
      ∃ record endpoint receiver average,
        Confirmable c solver solverEvm h fillAmount lzFee w record endpoint receiver average ∧
        (w.confirmed record solver solverEvm h fillAmount average).logAll
          [payment record solver h fillAmount,
            .send endpoint (record.confirmation receiver solverEvm fillAmount w.sequence) solver lzFee,
            announced record solver h fillAmount, .publish (.confirmationSent h solver)] = w' := by
  simp only [fillIntent, requireAuth, requireNotPaused, bind_ok, require_ok, exists_const,
    validateAndStageFill_ok, transfer_ok, sendFillConfirmed, dispatch_ok, updateSolverReputation_iff,
    pure_ok]
  constructor
  · intro given
    obtain ⟨authorized, unpaused, record, ⟨live, found, fillable⟩, _, ⟨pays, rfl⟩, _,
      ⟨receiver, endpoint, required, peer, configured, quoted, covered, sends, rfl⟩, _,
      ⟨average, averaged, rfl⟩, rfl⟩ := given
    refine ⟨record, endpoint, receiver, average, ?_, ?_⟩
    · constructor
      case quoted => exact ⟨required, quoted, covered⟩
      case averaged => exact (congrArg (ewma _) (Nat.sub_self w.sequence)).symm.trans averaged
      all_goals assumption
    · rfl
  · intro given
    obtain ⟨record, endpoint, receiver, average, asks, rfl⟩ := given
    obtain ⟨required, quoted, covered⟩ := asks.quoted
    have averaged := (congrArg (ewma _) (Nat.sub_self w.sequence)).trans asks.averaged
    exact ⟨asks.authorized, asks.unpaused, record, ⟨asks.live, asks.found, asks.fillable⟩, _,
      ⟨asks.pays, rfl⟩, _, ⟨receiver, endpoint, required, asks.peer, asks.configured, quoted, covered,
        asks.sends, rfl⟩, _, ⟨average, averaged, rfl⟩, rfl⟩

/-- What `deliver_intent` leaves behind. -/
def World.delivered (w : World) (record : IntentRecord) (solver : Address)
    (solverEvm h : Bytes32) (fillAmount : I128) : World :=
  World.logAll
    { w with
      intent := Function.update w.intent h
        (some (record.fill solver solverEvm fillAmount w.sequence))
      settled := Function.update w.settled h true }
    [payment record solver h fillAmount, announced record solver h fillAmount]

theorem deliverIntent_iff {w v : World} :
    deliverIntent c solver solverEvm h fillAmount w = .ok v ↔
      ∃ record, c.authorized solver = true ∧ w.paused.getD false = false ∧
        isFinalized w h = false ∧ w.intent h = some record ∧
        Fillable record solver solverEvm fillAmount w.timestamp ∧
        c.transfer record.destAsset solver record.recipient fillAmount = true ∧
        w.delivered record solver solverEvm h fillAmount = v := by
  simp only [deliverIntent, requireAuth, requireNotPaused, bind_ok, require_ok, exists_const,
    validateAndStageFill_ok, transfer_ok, pure_ok]
  constructor
  · intro given
    obtain ⟨authorized, unpaused, record, ⟨live, found, fillable⟩, _, ⟨pays, rfl⟩, rfl⟩ := given
    exact ⟨record, authorized, unpaused, live, found, fillable, pays, rfl⟩
  · intro given
    obtain ⟨record, authorized, unpaused, live, found, fillable, pays, rfl⟩ := given
    exact ⟨authorized, unpaused, record, ⟨live, found, fillable⟩, _, ⟨pays, rfl⟩, rfl⟩

/-- A fill that is early enough leaves time for its own confirmation. -/
theorem Fillable.inTime {record : IntentRecord} {now : Nat}
    (fillable : Fillable record solver solverEvm fillAmount now) (clock : now < uint64) :
    now ≤ addSaturating uint64 record.deadline minDispatchWindow := by
  have early := fillable.early
  unfold addSaturating at early ⊢
  omega

/-- The solver itself earns no reward for dispatching. -/
theorem payKeeperReward_notEligible {purpose : Purpose} {caller : Address} {reward : I128}
    {eligible : Bool} (notEligible : eligible = false) (w : World) :
    payKeeperReward c purpose h caller reward eligible w = .ok w := by
  unfold payKeeperReward
  rw [if_neg]
  simp [notEligible]

/-- The record may be written twice. -/
theorem World.confirmed_twice (w : World) (record : IntentRecord) (average : I128) :
    w.confirmed record solver solverEvm h fillAmount average =
      { w.confirmed record solver solverEvm h fillAmount average with
        intent := Function.update (Function.update w.intent h
            (some (record.fill solver solverEvm fillAmount w.sequence))) h
          (some { record.fill solver solverEvm fillAmount w.sequence with
            status := .confirmationSent }) } := by
  rw [Function.update_idem]
  rfl

theorem twoSteps_iff {w w' : World} (unsent : w.confirmationSent h = false)
    (clock : w.timestamp < uint64) :
    (∃ v, deliverIntent c solver solverEvm h fillAmount w = .ok v ∧
      dispatchConfirmation c solver h lzFee v = .ok w') ↔
      ∃ record endpoint receiver average,
        Confirmable c solver solverEvm h fillAmount lzFee w record endpoint receiver average ∧
        (w.confirmed record solver solverEvm h fillAmount average).logAll
          [payment record solver h fillAmount, announced record solver h fillAmount,
            .send endpoint (record.confirmation receiver solverEvm fillAmount w.sequence) solver lzFee,
            .publish (.confirmationSent h solver)] = w' := by
  have found (record : IntentRecord) :
      (w.delivered record solver solverEvm h fillAmount).intent h =
        some (record.fill solver solverEvm fillAmount w.sequence) := Function.update_self _ _ _
  simp only [deliverIntent_iff, dispatchConfirmation, requireAuth, bind_ok, require_ok, exists_const,
    expect_ok, sendFillConfirmed, dispatch_ok, updateSolverReputation_iff, pure_ok]
  constructor
  · intro given
    obtain ⟨_, ⟨record, authorized, unpaused, live, registered, fillable, pays, rfl⟩, -, -, filled,
      same, -, -, _, bySolver, _, forSolver, _,
      ⟨receiver, endpoint, required, peer, configured, quoted, covered, sends, rfl⟩, _,
      ⟨average, averaged, rfl⟩, _, rewarding, rfl⟩ := given
    obtain rfl := Option.some.inj ((found record).symm.trans same)
    obtain rfl := Option.some.inj bySolver
    obtain rfl := Option.some.inj forSolver
    rw [payKeeperReward_notEligible (by simp)] at rewarding
    obtain rfl := Except.ok.inj rewarding
    refine ⟨record, endpoint, receiver, average, ?_, ?_⟩
    · constructor
      case found => exact registered
      case quoted => exact ⟨required, quoted, covered⟩
      case averaged => exact (congrArg (ewma _) (Nat.sub_self w.sequence)).symm.trans averaged
      all_goals assumption
    · rw [World.confirmed_twice]
      rfl
  · intro given
    obtain ⟨record, endpoint, receiver, average, asks, rfl⟩ := given
    obtain ⟨required, quoted, covered⟩ := asks.quoted
    have averaged := (congrArg (ewma _) (Nat.sub_self w.sequence)).trans asks.averaged
    refine ⟨_, ⟨record, asks.authorized, asks.unpaused, asks.live, asks.found, asks.fillable,
      asks.pays, rfl⟩, asks.authorized, ?_, _, found record, rfl, asks.fillable.inTime clock,
      solver, rfl, solverEvm, rfl, _,
      ⟨receiver, endpoint, required, asks.peer, asks.configured, quoted, covered, asks.sends, rfl⟩, _,
      ⟨average, averaged, rfl⟩, _, payKeeperReward_notEligible (by simp) _, ?_⟩
    · simp [World.delivered, World.logAll, World.log, unsent]
    · rw [World.confirmed_twice]
      rfl

end

/-- The same state, and the same effects in another order. -/
structure SameOutcome (w w₁ w₂ : World) : Prop where
  state : { w₁ with trace := w₂.trace } = w₂
  effects : ∃ entries₁ entries₂ : List Entry, w₁.trace = w.trace ++ entries₁ ∧
    w₂.trace = w.trace ++ entries₂ ∧ entries₁.Perm entries₂

theorem World.logAll_eq (w : World) (effects : List Effect) :
    w.logAll effects =
      { w with
        trace := w.trace ++ effects.map fun effect => ⟨w.timestamp, w.sequence, effect⟩ } := by
  induction effects generalizing w with
  | nil => simp [World.logAll]
  | cons effect rest ih =>
      have first : w.logAll (effect :: rest) = (w.log effect).logAll rest := rfl
      rw [first, ih]
      simp [World.log]

theorem sameOutcome_of_perm (w : World) {v : World} (kept : v.trace = w.trace)
    {effects₁ effects₂ : List Effect} (reordered : effects₁.Perm effects₂) :
    SameOutcome w (v.logAll effects₁) (v.logAll effects₂) := by
  simp only [World.logAll_eq, kept]
  exact ⟨rfl, _, _, rfl, rfl, reordered.map _⟩

theorem MarkersAgree.unsent {w : World} {h : Bytes32} (agree : MarkersAgree w h)
    (live : isFinalized w h = false) : w.confirmationSent h = false := by
  cases sent : w.confirmationSent h with
  | false => rfl
  | true =>
      have settled := agree.sent sent
      simp [isFinalized, settled] at live

/-- `deliver_intent`, and in the same ledger the solver's own `dispatch_confirmation`. -/
def fillInTwoSteps (d : Deployment) (timestamp sequence : Nat) (host : Host) (solver : Address)
    (solverEvm h : Bytes32) (fillAmount lzFee : I128) (w : World) : Option World := do
  let v ← next d w ⟨timestamp, sequence, host, .deliverIntent solver solverEvm h fillAmount⟩
  next d v ⟨timestamp, sequence, host, .dispatchConfirmation solver h lzFee⟩

def fillAtOnce (d : Deployment) (timestamp sequence : Nat) (host : Host) (solver : Address)
    (solverEvm h : Bytes32) (fillAmount lzFee : I128) (w : World) : Option World :=
  next d w ⟨timestamp, sequence, host, .fillIntent solver solverEvm h fillAmount lzFee⟩

/-- In the same ledger the second invocation finds the state as the first has left it. -/
theorem fillInTwoSteps_iff {d : Deployment} {timestamp sequence : Nat} {host : Host}
    {solver : Address} {solverEvm h : Bytes32} {fillAmount lzFee : I128} {w w' : World}
    (c : Context) (context : c = { toDeployment := d, toHost := host }) :
    fillInTwoSteps d timestamp sequence host solver solverEvm h fillAmount lzFee w = some w' ↔
      (w.timestamp ≤ timestamp ∧ timestamp < uint64 ∧ w.sequence ≤ sequence ∧ sequence < 2 ^ 32) ∧
        ∃ v, deliverIntent c solver solverEvm h fillAmount { w with timestamp, sequence } = .ok v ∧
          dispatchConfirmation c solver h lzFee v = .ok w' := by
  subst context
  simp only [fillInTwoSteps, Option.bind_eq_bind, Option.bind_eq_some_iff, next_ok]
  constructor
  · intro given
    obtain ⟨v, ⟨ledger, delivered⟩, -, dispatched⟩ := given
    refine ⟨ledger, v, delivered, ?_⟩
    obtain ⟨record, -, -, -, -, -, -, rfl⟩ := deliverIntent_iff.mp delivered
    exact dispatched
  · intro given
    obtain ⟨ledger, v, delivered, dispatched⟩ := given
    refine ⟨v, ⟨ledger, delivered⟩, ?_⟩
    obtain ⟨record, -, -, -, -, -, -, rfl⟩ := deliverIntent_iff.mp delivered
    exact ⟨⟨Nat.le_refl _, ledger.2.1, Nat.le_refl _, ledger.2.2.2⟩, dispatched⟩

section

variable {d : Deployment} {timestamp sequence : Nat} {host : Host} {solver : Address}
  {solverEvm h : Bytes32} {fillAmount lzFee : I128} {w : World}

/-- The world of the invocation, and the markers in it. -/
theorem entered_unsent (reach : (system d).Reachable w)
    (live : isFinalized { w with timestamp, sequence } h = false) :
    World.confirmationSent { w with timestamp, sequence } h = false :=
  (markersAgree reach h).unsent live

theorem twoSteps_of_fillAtOnce (reach : (system d).Reachable w) {w₁ : World}
    (ran : fillAtOnce d timestamp sequence host solver solverEvm h fillAmount lzFee w = some w₁) :
    ∃ w₂, fillInTwoSteps d timestamp sequence host solver solverEvm h fillAmount lzFee w = some w₂ ∧
      SameOutcome w w₁ w₂ := by
  obtain ⟨ledger, filled⟩ := next_ok.mp ran
  obtain ⟨record, endpoint, receiver, average, asks, rfl⟩ := fillIntent_iff.mp filled
  have steps := (twoSteps_iff (entered_unsent reach asks.live) ledger.2.1).mpr
    ⟨record, endpoint, receiver, average, asks, rfl⟩
  refine ⟨_, (fillInTwoSteps_iff _ rfl).mpr ⟨ledger, steps⟩, ?_⟩
  apply sameOutcome_of_perm w (by rfl)
  exact .cons _ (.swap _ _ _)

theorem fillAtOnce_of_twoSteps (reach : (system d).Reachable w) {w₂ : World}
    (ran : fillInTwoSteps d timestamp sequence host solver solverEvm h fillAmount lzFee w = some w₂) :
    ∃ w₁, fillAtOnce d timestamp sequence host solver solverEvm h fillAmount lzFee w = some w₁ := by
  obtain ⟨ledger, steps⟩ := (fillInTwoSteps_iff _ rfl).mp ran
  have live : isFinalized { w with timestamp, sequence } h = false := by
    obtain ⟨_, delivered, -⟩ := steps
    obtain ⟨_, -, -, live, -⟩ := deliverIntent_iff.mp delivered
    exact live
  obtain ⟨record, endpoint, receiver, average, asks, rfl⟩ :=
    (twoSteps_iff (entered_unsent reach live) ledger.2.1).mp steps
  exact ⟨_, next_ok.mpr ⟨ledger, fillIntent_iff.mpr ⟨record, endpoint, receiver, average, asks, rfl⟩⟩⟩

end

/-- `fill_intent` succeeds exactly when the two invocations it replaces do, and then the state is
    the same and so are the effects, up to their order. -/
theorem fillIntent_two_steps {d : Deployment} {w : World} (reach : (system d).Reachable w)
    (timestamp sequence : Nat) (host : Host) (solver : Address) (solverEvm h : Bytes32)
    (fillAmount lzFee : I128) :
    ((fillAtOnce d timestamp sequence host solver solverEvm h fillAmount lzFee w).isSome ↔
      (fillInTwoSteps d timestamp sequence host solver solverEvm h fillAmount lzFee w).isSome) ∧
    ∀ w₁ w₂,
      fillAtOnce d timestamp sequence host solver solverEvm h fillAmount lzFee w = some w₁ →
      fillInTwoSteps d timestamp sequence host solver solverEvm h fillAmount lzFee w = some w₂ →
      SameOutcome w w₁ w₂ := by
  simp only [Option.isSome_iff_exists]
  refine ⟨⟨?_, ?_⟩, ?_⟩
  · intro given
    obtain ⟨w₁, ran⟩ := given
    obtain ⟨w₂, ran, -⟩ := twoSteps_of_fillAtOnce reach ran
    exact ⟨w₂, ran⟩
  · intro given
    obtain ⟨w₂, ran⟩ := given
    exact fillAtOnce_of_twoSteps reach ran
  · intro w₁ w₂ once twice
    obtain ⟨w₂', ran, same⟩ := twoSteps_of_fillAtOnce reach once
    obtain rfl := Option.some.inj (ran.symm.trans twice)
    exact same

/-- The registered sample intent, filled at once. -/
theorem fillIntent_two_steps_sample :
    (fillInTwoSteps Sample.deployment 1700000300 1234 Sample.host Sample.solver Sample.solverEvm
      Sample.intentHash 95 5 Sample.registered).isSome := by
  have filled : (fillAtOnce Sample.deployment 1700000300 1234 Sample.host Sample.solver
      Sample.solverEvm Sample.intentHash 95 5 Sample.registered).isSome := by
    decide +kernel
  exact (fillIntent_two_steps Sample.registered_reachable 1700000300 1234 Sample.host Sample.solver
    Sample.solverEvm Sample.intentHash 95 5).1.mp filled

end Perihelion.Settlement

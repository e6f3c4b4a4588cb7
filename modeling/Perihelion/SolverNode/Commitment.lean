import Perihelion.SolverNode.Profit
import Perihelion.SolverNode.Tick

/-! # Capital is not committed twice

While a fill is under way its amount is in the active bucket; afterwards it is in the held one
until the next tick, unless the fill has definitely failed.
-/

namespace Perihelion.SolverNode

open Sdk Fallible Transition

/-! ## The fills of a log -/

structure Fill where
  intent : Intent
  /-- `none` while it is in progress. -/
  result : Option FillResult

def Fill.amount (fill : Fill) : Int := bigInt fill.intent.minDestAmount

/-- It has succeeded, has lost the lock, has failed indefinitely or is in progress. -/
def Fill.committed (fill : Fill) : Bool :=
  match fill.result with
  | some (.definiteFailure _) => false
  | _ => true

def noteFill (fills : List Fill) : Event → List Fill
  | .evaluated .. => fills
  | .attempted record => ⟨record.intent, none⟩ :: fills
  | .ended _ result =>
      match fills with
      | [] => []
      | latest :: earlier => { latest with result := some result } :: earlier

/-- Latest first. -/
def fills (log : List Event) : List Fill := log.foldl noteFill []

def committedFor (asset : JsString) (fills : List Fill) : Int :=
  ((fills.filter fun fill => fill.intent.destAsset = asset && fill.committed).map Fill.amount).sum

theorem committedFor_cons (asset : JsString) (fill : Fill) (fills : List Fill) :
    committedFor asset (fill :: fills) =
      (if fill.intent.destAsset = asset ∧ fill.committed = true then fill.amount else 0) +
        committedFor asset fills := by
  unfold committedFor
  rw [List.filter_cons]
  simp only [Bool.and_eq_true, decide_eq_true_eq]
  split
  · rw [List.map_cons, List.sum_cons]
  · rw [Int.zero_add]

theorem log_snoc (setup : Setup) (moves : List (Session × Input)) (session : Session) (input : Input) :
    log setup (moves ++ [(session, input)]) =
      log setup moves ++ events setup session input := by
  unfold log
  rw [List.flatMap_append, List.flatMap_singleton]

theorem fills_append (first second : List Event) :
    fills (first ++ second) = second.foldl noteFill (fills first) :=
  List.foldl_append

/-! ## What the quote lets through -/

theorem profitCheck_fill {intent : Intent} {config : SolverConfig} {quote : Quote}
    {proceeds fees reservedFor : Int} {decision : FillDecision}
    (decided : profitCheck intent config quote proceeds fees reservedFor = .ok decision)
    (filled : decision.fill = true) :
    ∃ available, quote.available = .ok available ∧
      (bigInt intent.minDestAmount : Int) ≤ available - reservedFor := by
  unfold profitCheck at decided
  extract_lets minOut profit profitBpsScaled profitBps maxPlausibleBps at decided
  split at decided
  · cases decided
    cases filled
  · split at decided
    · cases decided
      cases filled
    · split at decided
      · cases decided
        cases filled
      · split at decided
        · cases decided
          cases filled
        · obtain ⟨available, asked, rest⟩ := (bind_ok _ _ _).mp decided
          refine ⟨available, asked, ?_⟩
          by_contra short
          rw [if_pos (by omega)] at rest
          cases rest
          cases filled

theorem evaluate_fill {viem : Viem} {intent : Intent} {config : SolverConfig} {quote : Quote}
    {inFlight : InFlightTracker} {nowSec : Int} {decision : FillDecision}
    (decided : evaluate viem intent config quote inFlight nowSec = .ok decision)
    (filled : decision.fill = true) :
    ∃ available, quote.available = .ok available ∧
      (bigInt intent.minDestAmount : Int) ≤ available - inFlight.reservedFor intent.destAsset := by
  unfold evaluate at decided
  split at decided
  · rename_i skipped
    cases decided
    rw [terminalSkip_fill skipped] at filled
    cases filled
  · split at decided
    · cases decided
      cases filled
    · exact profitCheck_fill decided filled

/-! ## What a record does to the buckets -/

/-- Either nothing is reserved and no fill begins, or the amount has been found to be there. -/
inductive Engages (solver : Solver) (record : IntentRecord) (answers : Answers) : Considered → Prop
  | not {considered} : considered.solver.inFlight = solver.inFlight →
      (considered.log = [] ∨ ∃ decision, considered.log = [.evaluated record decision]) →
      (∀ deadlineMs, considered.outcome ≠ .filling deadlineMs) → Engages solver record answers considered
  | fill {considered} (decision deadlineMs available) :
      considered.solver.inFlight = solver.inFlight.reserve record.intent.destAsset
        (bigInt record.intent.minDestAmount) →
      considered.log = [.evaluated record decision, .attempted record] →
      considered.outcome = .filling deadlineMs →
      answers.quote.available = .ok available →
      (bigInt record.intent.minDestAmount : Int) ≤
        available - solver.inFlight.reservedFor record.intent.destAsset →
      Engages solver record answers considered

theorem passOver_engages (config : SolverConfig) {solver verifying : Solver} (record : IntentRecord)
    (answers : Answers) (decision : FillDecision) (deadlineMs now : Int)
    (kept : verifying.inFlight = solver.inFlight) :
    Engages solver record answers
      (verifying.passOver config record decision deadlineMs now) := by
  unfold Solver.passOver
  extract_lets triggers maxTriggers counted log
  split
  · exact .not kept (.inr ⟨decision, rfl⟩) nofun
  · split
    · exact .not kept (.inr ⟨decision, rfl⟩) nofun
    · exact .not kept (.inr ⟨decision, rfl⟩) nofun

theorem consider_engages (setup : Setup) (solver : Solver) (record : IntentRecord) (answers : Answers) :
    Engages solver record answers (solver.consider setup record answers) := by
  unfold Solver.consider
  extract_lets deadlineMs checked verifying
  have kept : verifying.inFlight = solver.inFlight := rfl
  split
  · exact .not rfl (.inl rfl) nofun
  · split
    · exact .not rfl (.inl rfl) nofun
    · split
      · exact .not kept (.inl rfl) nofun
      · exact .not kept (.inl rfl) nofun
      · split
        · exact .not kept (.inl rfl) nofun
        · rename_i decision decided
          split
          · rename_i filled
            obtain ⟨available, asked, covered⟩ := evaluate_fill decided filled
            exact .fill decision deadlineMs available rfl rfl rfl asked covered
          · exact passOver_engages setup.config record answers decision deadlineMs _ kept

theorem takeUp_engages (setup : Setup) (now : Int) (solver : Solver) (record : IntentRecord)
    (answers : Answers) :
    Engages solver record answers (solver.takeUp setup now record answers) := by
  unfold Solver.takeUp
  extract_lets known noted retry asked
  split
  · exact .not rfl (.inl rfl) nofun
  · split
    · exact .not rfl (.inl rfl) nofun
    · cases consider_engages setup asked record answers with
      | not same logged idle => exact .not same logged idle
      | fill decision deadlineMs available reserved logged filling asked covered =>
          exact .fill decision deadlineMs available reserved logged filling asked covered

/-! ## What a settled fill does to them -/

theorem scheduleRetry_inFlight (solver : Solver) (hash : JsString) (deadlineMs now : Int) :
    (solver.scheduleRetry hash deadlineMs now).inFlight = solver.inFlight := by
  unfold Solver.scheduleRetry
  extract_lets
  split
  · rfl
  · rfl

theorem settleFill_inFlight (solver : Solver) (hash : JsString) (deadlineMs : Int)
    (result : FillResult) (now : Int) :
    (solver.settleFill hash deadlineMs result now).1.inFlight = solver.inFlight := by
  cases result with
  | success => rfl
  | fatal => rfl
  | lockOwnedByOther => rfl
  | definiteFailure => exact scheduleRetry_inFlight ..
  | failed => exact scheduleRetry_inFlight ..

theorem settleCapital_active {inFlight : InFlightTracker} {asset other : JsString} {amount : Int}
    (result : FillResult)
    (only : ∀ asset', inFlight.activeReservedFor asset' = if asset' = asset then amount else 0) :
    (Solver.settleCapital inFlight asset amount result).activeReservedFor other = 0 := by
  have released : (inFlight.release asset amount).activeReservedFor other = 0 := by
    rw [InFlightTracker.release_active, only, only, if_pos rfl]
    split
    · omega
    · rfl
  cases result with
  | definiteFailure => exact released
  | success => exact released
  | fatal => exact released
  | lockOwnedByOther => exact released
  | failed => exact released

theorem settleCapital_held (inFlight : InFlightTracker) (asset other : JsString) (amount : Int)
    (intent : Intent) (result : FillResult) :
    (Solver.settleCapital inFlight asset amount result).heldFor other =
      inFlight.heldFor other +
        if other = asset ∧ Fill.committed ⟨intent, some result⟩ = true then amount else 0 := by
  cases result with
  | definiteFailure => simp [Solver.settleCapital, Fill.committed]
  | success => simp [Solver.settleCapital, Fill.committed]
  | fatal => simp [Solver.settleCapital, Fill.committed]
  | lockOwnedByOther => simp [Solver.settleCapital, Fill.committed]
  | failed => simp [Solver.settleCapital, Fill.committed]

/-! ## Between the steps -/

def Phase.engaged (asset : JsString) : Phase → Int
  | .filling _ record _ =>
      if asset = record.intent.destAsset then bigInt record.intent.minDestAmount else 0
  | _ => 0

/-- The active bucket holds the fill in progress, and nothing between two fills. -/
def Engaged (session : Session) : Prop :=
  ∀ asset, session.solver.inFlight.activeReservedFor asset = session.phase.engaged asset

theorem engaged_outcome {outcome : Outcome} (idle : ∀ deadlineMs, outcome ≠ .filling deadlineMs)
    (now : Int) (record : IntentRecord) (asset : JsString) :
    (outcome.phase now record).engaged asset = 0 := by
  cases outcome with
  | returned => rfl
  | threw => rfl
  | filling deadlineMs => exact absurd rfl (idle deadlineMs)

theorem engaged_afterFill (now : Int) (thrown : Option JsString) (asset : JsString) :
    (Phase.afterFill now thrown).engaged asset = 0 := by
  cases thrown with
  | none => rfl
  | some => rfl

theorem next_fill {setup : Setup} {session session' : Session} {result : FillResult} {now : Int}
    (moved : next setup session (.fill result now) = some session') :
    ∃ listedAt record deadlineMs,
      session.phase = .filling listedAt record deadlineMs ∧
      session'.phase = .afterFill listedAt
        (session.solver.settleFill record.hash deadlineMs result now).2 ∧
      session'.solver.inFlight = Solver.settleCapital session.solver.inFlight record.intent.destAsset
        (bigInt record.intent.minDestAmount) result ∧
      events setup session (.fill result now) = [.ended record result] := by
  obtain ⟨solver, phase⟩ := session
  cases phase with
  | idle => cases moved
  | looping => cases moved
  | filling listedAt record deadlineMs =>
      cases moved
      have same := settleFill_inFlight solver record.hash deadlineMs result now
      refine ⟨listedAt, record, deadlineMs, rfl, rfl, ?_, rfl⟩
      show Solver.settleCapital (Solver.settleFill ..).1.inFlight _ _ result = _
      rw [same]

theorem next_record {setup : Setup} {session session' : Session} {record : IntentRecord}
    {answers : Answers} (moved : next setup session (.record record answers) = some session') :
    ∃ now considered, session.phase = .looping now ∧
      Engages session.solver record answers considered ∧
      session' = ⟨considered.solver, considered.outcome.phase now record⟩ ∧
      events setup session (.record record answers) = considered.log := by
  obtain ⟨solver, phase⟩ := session
  cases phase with
  | filling => cases moved
  | idle => cases moved
  | looping now =>
      cases moved
      exact ⟨now, _, rfl, takeUp_engages setup now solver record answers, rfl, rfl⟩

theorem next_tick {setup : Setup} {session session' : Session} {now listedAt : Int}
    (moved : next setup session (.tick now listedAt) = some session') :
    session'.phase = .looping listedAt ∧
      session'.solver.inFlight = session.solver.inFlight.flushHeld.1 ∧
      ∀ asset, session.phase.engaged asset = 0 := by
  obtain ⟨solver, phase⟩ := session
  cases phase with
  | filling => cases moved
  | idle =>
      cases moved
      exact ⟨rfl, rfl, fun _ => rfl⟩
  | looping =>
      cases moved
      exact ⟨rfl, rfl, fun _ => rfl⟩

theorem engaged_step {setup : Setup} {session session' : Session} {input : Input}
    (engaged : Engaged session) (moved : next setup session input = some session') :
    Engaged session' := by
  intro asset
  cases input with
  | tick now listedAt =>
      obtain ⟨looping, flushed, idle⟩ := next_tick moved
      rw [looping, flushed, InFlightTracker.flushHeld_active, engaged asset, idle]
      rfl
  | record record answers =>
      obtain ⟨now, considered, looping, taken, rfl, _⟩ := next_record moved
      have before := engaged asset
      rw [looping] at before
      cases taken with
      | not same _ idle =>
          rw [engaged_outcome idle, same, before]
          rfl
      | fill decision deadlineMs available reserved _ filling =>
          rw [filling, reserved, InFlightTracker.reserve_active, before]
          exact Int.zero_add _
  | fill result now =>
      obtain ⟨listedAt, record, deadlineMs, before, after, settled, _⟩ := next_fill moved
      rw [after, settled, engaged_afterFill]
      apply settleCapital_active
      intro asset'
      rw [engaged asset', before]
      rfl

theorem engaged_of_reachable {setup : Setup} {session : Session}
    (reach : (system setup).Reachable session) : Engaged session := by
  apply reach.invariant (P := Engaged)
  · rintro _ rfl asset
    rfl
  · intro _ _ _ _ engaged moved
    exact engaged_step engaged moved

/-! ## A tick -/

/-- What is committed in the tick is what the next quote deducts. -/
structure Accounted (session : Session) (log : List Event) : Prop where
  engaged : Engaged session
  deducted : ∀ asset, session.solver.inFlight.reservedFor asset = committedFor asset (fills log)
  pending : ∀ listedAt record deadlineMs, session.phase = .filling listedAt record deadlineMs →
    ∃ earlier, fills log = ⟨record.intent, none⟩ :: earlier

theorem Accounted.begin {setup : Setup} {session session' : Session} {now listedAt : Int}
    (engaged : Engaged session) (moved : next setup session (.tick now listedAt) = some session') :
    Accounted session' [] := by
  have after := engaged_step engaged moved
  obtain ⟨looping, flushed, _⟩ := next_tick moved
  refine ⟨after, ?_, ?_⟩
  · intro asset
    rw [InFlightTracker.reservedFor_eq, after asset, looping, flushed,
      InFlightTracker.flushHeld_held]
    rfl
  · intro listedAt' record deadlineMs filling
    rw [looping] at filling
    cases filling

theorem amount_nonneg (fill : Fill) : 0 ≤ fill.amount := Int.natCast_nonneg _

/-- What the provider has answered for an asset, if this input has made the solver ask. -/
def Answered (asset : JsString) (balance : Int) (input : Input) : Prop :=
  ∀ record answers available, input = .record record answers → record.intent.destAsset = asset →
    answers.quote.available = .ok available → available = balance

theorem Accounted.record {setup : Setup} {session session' : Session} {record : IntentRecord}
    {answers : Answers} {log : List Event} (accounted : Accounted session log)
    (moved : next setup session (.record record answers) = some session') :
    Accounted session' (log ++ events setup session (.record record answers)) ∧
    ∀ asset balance, Answered asset balance (.record record answers) →
      committedFor asset (fills log) ≤ max balance 0 →
      committedFor asset (fills (log ++ events setup session (.record record answers))) ≤
        max balance 0 := by
  have engaged := engaged_step accounted.engaged moved
  have deducted := accounted.deducted
  obtain ⟨now, considered, looping, taken, rfl, logged⟩ := next_record moved
  rw [fills_append, logged]
  cases taken with
  | not same quiet idle =>
      have nothing : considered.log.foldl noteFill (fills log) = fills log := by
        rcases quiet with none | ⟨decision, one⟩
        · rw [none, List.foldl_nil]
        · rw [one]
          rfl
      refine ⟨⟨engaged, ?_, ?_⟩, ?_⟩
      · intro asset
        rw [fills_append, nothing, same]
        exact deducted asset
      · intro listedAt record' deadlineMs filling
        cases outcome : considered.outcome with
        | filling deadlineMs' => exact absurd outcome (idle deadlineMs')
        | returned =>
            rw [outcome] at filling
            cases filling
        | threw =>
            rw [outcome] at filling
            cases filling
      · intro asset balance _ below
        rw [nothing]
        exact below
  | fill decision deadlineMs available reserved begun filling asked covered =>
      have started : considered.log.foldl noteFill (fills log) =
          ⟨record.intent, none⟩ :: fills log := by
        rw [begun]
        rfl
      refine ⟨⟨engaged, ?_, ?_⟩, ?_⟩
      · intro asset
        rw [fills_append, started, committedFor_cons, ← deducted, reserved]
        simp only [InFlightTracker.reservedFor_eq, InFlightTracker.reserve_active,
          InFlightTracker.reserve_held, Fill.committed, Fill.amount, and_true,
          eq_comm (b := asset)]
        omega
      · intro listedAt record' deadlineMs' now'
        rw [filling] at now'
        cases now'
        rw [fills_append, started]
        exact ⟨_, rfl⟩
      · intro asset balance answered below
        rw [started, committedFor_cons]
        split
        · rename_i own
          have same := answered record answers available rfl own.1 asked
          rw [own.1, deducted] at covered
          show (bigInt record.intent.minDestAmount : Int) + _ ≤ _
          omega
        · omega

theorem Accounted.fill {setup : Setup} {session session' : Session} {result : FillResult} {now : Int}
    {log : List Event} (accounted : Accounted session log)
    (moved : next setup session (.fill result now) = some session') :
    Accounted session' (log ++ events setup session (.fill result now)) ∧
    ∀ asset, committedFor asset (fills (log ++ events setup session (.fill result now))) ≤
      committedFor asset (fills log) := by
  have engaged := engaged_step accounted.engaged moved
  obtain ⟨listedAt, record, deadlineMs, filling, after, settled, logged⟩ := next_fill moved
  obtain ⟨earlier, latest⟩ := accounted.pending listedAt record deadlineMs filling
  have ended : fills (log ++ [.ended record result]) = ⟨record.intent, some result⟩ :: earlier := by
    rw [fills_append, latest]
    rfl
  rw [logged, ended, latest]
  refine ⟨⟨engaged, ?_, ?_⟩, ?_⟩
  · intro asset
    have idle : session'.solver.inFlight.activeReservedFor asset = 0 := by
      rw [engaged asset, after, engaged_afterFill]
    have before := accounted.deducted asset
    rw [latest, committedFor_cons, InFlightTracker.reservedFor_eq, accounted.engaged asset,
      filling] at before
    rw [ended, committedFor_cons, InFlightTracker.reservedFor_eq, idle, settled,
      settleCapital_held _ _ _ _ record.intent]
    by_cases own : asset = record.intent.destAsset
    · subst own
      simp only [Phase.engaged, Fill.committed, Fill.amount, true_and, if_true] at before ⊢
      omega
    · simp only [Phase.engaged, own, Ne.symm own, false_and, if_false] at before ⊢
      omega
  · intro listedAt' record' deadlineMs' filling'
    rw [after] at filling'
    cases thrown : (session.solver.settleFill record.hash deadlineMs result now).2 with
    | none =>
        rw [thrown] at filling'
        cases filling'
    | some =>
        rw [thrown] at filling'
        cases filling'
  · intro asset
    rw [committedFor_cons, committedFor_cons]
    have positive := amount_nonneg ⟨record.intent, none⟩
    have same : Fill.amount ⟨record.intent, some result⟩ = Fill.amount ⟨record.intent, none⟩ := rfl
    rw [same]
    by_cases own : record.intent.destAsset = asset
    · rw [if_pos (show _ ∧ Fill.committed ⟨record.intent, none⟩ = true from ⟨own, rfl⟩)]
      split
      · exact Int.le_refl _
      · omega
    · rw [if_neg (fun both => own both.1), if_neg (fun both => own both.1)]

theorem accounted_run {setup : Setup} {session v session' : Session} {now listedAt : Int}
    {moves : List (Session × Input)} (reach : (system setup).Reachable session)
    (began : next setup session (.tick now listedAt) = some v)
    (run : (system setup).Run v moves session')
    (sameTick : ∀ m ∈ moves, ∀ n l, m.2 ≠ .tick n l) :
    Accounted session' (log setup moves) ∧
    ∀ asset balance, (∀ m ∈ moves, Answered asset balance m.2) →
      committedFor asset (fills (log setup moves)) ≤ max balance 0 := by
  induction run with
  | nil =>
      refine ⟨.begin (engaged_of_reachable reach) began, ?_⟩
      intro asset balance _
      exact Int.le_max_right _ _
  | @snoc moves u input u' run last ih =>
      obtain ⟨accounted, bounded⟩ := ih fun m member => sameTick m (List.mem_append_left _ member)
      have own := sameTick (u, input) (List.mem_append_right _ List.mem_cons_self)
      rw [log_snoc]
      cases input with
      | tick n l => exact absurd rfl (own n l)
      | record record answers =>
          obtain ⟨after, within⟩ := accounted.record last
          refine ⟨after, ?_⟩
          intro asset balance answered
          apply within asset balance
          · exact answered (u, _) (List.mem_append_right _ List.mem_cons_self)
          · exact bounded asset balance fun m member => answered m (List.mem_append_left _ member)
      | fill result n =>
          obtain ⟨after, within⟩ := accounted.fill last
          refine ⟨after, ?_⟩
          intro asset balance answered
          have earlier := bounded asset balance fun m member =>
            answered m (List.mem_append_left _ member)
          exact (within asset).trans earlier

/-- While the balance that is read for an asset stays the same, what a tick has committed of it
    never exceeds that balance, at any moment of the tick. -/
theorem commitment_within_balance {setup : Setup} {session v session' : Session}
    {now listedAt : Int} {moves : List (Session × Input)}
    (reach : (system setup).Reachable session)
    (began : next setup session (.tick now listedAt) = some v)
    (run : (system setup).Run v moves session')
    (sameTick : ∀ m ∈ moves, ∀ n l, m.2 ≠ .tick n l) (asset : JsString) (balance : Int)
    (constant : ∀ m ∈ moves, Answered asset balance m.2) :
    committedFor asset (fills (log setup moves)) ≤ max balance 0 :=
  (accounted_run reach began run sameTick).2 asset balance constant

namespace Sample

def hash : JsString := js "0xc5044497aae50b4712ffbe528161296b43fe3b08ca1944044ff7b251fae53f7e"

def otherHash : JsString := js "0x2b1b79748cefa8545f7bfd0bb04dbef38d4bb0ebc74e4e6bc55e758baa675913"

/-- The hashes of the intents with the nonces 7 and 8. -/
def setup : Setup where
  config := config
  viem := ⟨fun s => s.length = 42 && s.take 2 = js "0x", fun _ => 0⟩
  hashIntent intent _ := .ok (if intent.nonce = js "7" then hash else otherHash)

def record (nonce : String) (hash : JsString) : IntentRecord where
  intent := intent nonce
  signature := js "0x" ++ List.replicate 130 49
  hash := hash
  status := .pending
  solver := none
  settlementTx := none
  createdAt := deadline

def answers (available : Int) : Answers where
  startedAt := 1700000000000
  verified := .ok true
  verifiedAt := 1700000000000
  quote := ⟨.ok 7, .ok 7, .ok rateScale, .ok 0, .ok available, none, none⟩

def begun : Session :=
  (next setup (start setup) (.tick 1700000000000 1700000000000)).get (by decide +kernel)

/-- The first fill fails indefinitely and its capital stays held. -/
def working : List Input :=
  [.record (record "7" hash) (answers 150), .fill (.failed (js "timeout")) 1700000001000,
    .record (record "8" otherHash) (answers 150)]

def worked : Session := (System.replay (next setup) begun working).get (by decide +kernel)

def workedMoves : List (Session × Input) := System.trail (next setup) begun working

theorem worked_run : (system setup).Run begun workedMoves worked :=
  System.Run.of_replay (S := system setup) (fun _ _ _ stepped => stepped) (by simp [worked])

end Sample

theorem commitment_within_balance_sample :
    (fills (log Sample.setup Sample.workedMoves)).length = 1 ∧
      committedFor (js "native") (fills (log Sample.setup Sample.workedMoves)) ≤ max 150 0 := by
  have began : next Sample.setup (start Sample.setup) (.tick 1700000000000 1700000000000) =
      some Sample.begun := by
    simp [Sample.begun]
  have inputs : ∀ m ∈ Sample.workedMoves, m.2 ∈ Sample.working := fun m member =>
    System.input_of_trail member
  refine ⟨by decide +kernel, ?_⟩
  refine commitment_within_balance (.init rfl) began Sample.worked_run ?_ (js "native") 150 ?_
  · intro m member n l tick
    have input := inputs m member
    rw [tick] at input
    simp [Sample.working] at input
  · intro m member record answers available asks _ answered
    have input := inputs m member
    rw [asks] at input
    simp only [Sample.working, List.mem_cons, Input.record.injEq, reduceCtorEq, List.not_mem_nil,
      or_false, false_or] at input
    rcases input with ⟨_, rfl⟩ | ⟨_, rfl⟩
    · cases answered
      rfl
    · cases answered
      rfl

end Perihelion.SolverNode

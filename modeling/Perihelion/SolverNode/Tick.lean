import Perihelion.Lib.DeadlineCache
import Perihelion.Lib.Transition
import Perihelion.Sdk.IntentRecord
import Perihelion.SolverNode.Quote

/-! # One tick of the solver

`tick` lists what is pending and works it record by record.  It awaits the executor for each
fill; what it does up to that and from there on is one function each.
-/

namespace Perihelion.SolverNode

open Sdk Transition
open Relayer (toLowerCase)

/-! ## Caches

All three are keyed by the hash as the mempool wrote it.
-/

/-- Hashes whose outcome is terminal, with the time of their insertion. -/
abbrev SeenLRU := DeadlineCache JsString Int

namespace SeenLRU

def has (seen : SeenLRU) (hash : JsString) (now : Int) : SeenLRU × Bool :=
  let looked := seen.lookup now hash
  (looked.1, looked.2.isSome)

def add (seen : SeenLRU) (hash : JsString) (deadlineMs now : Int) : SeenLRU :=
  seen.insert hash now deadlineMs

def evictExpired (seen : SeenLRU) (now : Int) : SeenLRU := seen.dropExpired now

end SeenLRU

structure RetryState where
  attempts : Nat
  nextRetryAt : Int

abbrev RetryStateLRU := DeadlineCache JsString RetryState

namespace RetryStateLRU

def get (retryState : RetryStateLRU) (hash : JsString) (now : Int) :
    RetryStateLRU × Option RetryState :=
  retryState.lookup now hash

def set (retryState : RetryStateLRU) (hash : JsString) (state : RetryState) (deadlineMs : Int) :
    RetryStateLRU :=
  retryState.insert hash state deadlineMs

def evictExpired (retryState : RetryStateLRU) (now : Int) : RetryStateLRU :=
  retryState.dropExpired now

end RetryStateLRU

/-- Only a negative verdict expires. -/
structure Verdict where
  valid : Bool
  expiresAt : Option Int

structure VerificationCache where
  maxSize : Nat
  cache : InsertionMap JsString Verdict

def negativeVerificationTtlMs : Int := 60000

namespace VerificationCache

def get (verdicts : VerificationCache) (key : JsString) (now : Int) :
    VerificationCache × Option Bool :=
  match verdicts.cache.get key with
  | none => (verdicts, none)
  | some entry =>
      if entry.expiresAt.any (· < now) then
        ({ verdicts with cache := verdicts.cache.delete key }, none)
      else ({ verdicts with cache := verdicts.cache.renew key entry }, some entry.valid)

/-- A key that is there keeps its place. -/
def set (verdicts : VerificationCache) (key : JsString) (valid : Bool) (now : Int) :
    VerificationCache :=
  let cache :=
    if key ∉ verdicts.cache.keys ∧ verdicts.maxSize ≤ verdicts.cache.size then
      verdicts.cache.dropOldest
    else verdicts.cache
  { verdicts with
    cache := cache.set key ⟨valid, if valid then none else some (now + negativeVerificationTtlMs)⟩ }

end VerificationCache

/-! ## The solver -/

structure Solver where
  seen : SeenLRU
  verificationCache : VerificationCache
  inFlight : InFlightTracker
  retryState : RetryStateLRU
  consecutiveImplausibleTriggers : Nat

def Solver.new (config : SolverConfig) : Solver where
  seen := .empty (config.seenCacheSize.getD 50000)
  verificationCache := ⟨config.verificationCacheSize.getD 10000, .empty⟩
  inFlight := .new
  retryState := .empty (config.retryCacheSize.getD 10000)
  consecutiveImplausibleTriggers := 0

structure Domain where
  chainId : Int
  verifyingContract : JsString

def perihelionDomain (config : SolverConfig) : Domain := ⟨config.sourceChainId, config.escrowAddress⟩

def verificationCacheKey (domain : Domain) (hash signature : JsString) : JsString :=
  js (toString domain.chainId) ++ js ":" ++ domain.verifyingContract ++ js ":" ++ hash ++ js ":" ++
    signature

/-- The configuration, and the pure functions that are viem's: `hashIntent` is its EIP-712
    hashing. -/
structure Setup where
  config : SolverConfig
  viem : Viem
  hashIntent : Intent → Domain → Except JsString JsString

def maxFillRetries : Nat := 3
def minSeenTtlMs : Int := 600000
def defaultMaxTriggers : Nat := 5

/-- A parsed record has an integer for its deadline. -/
def seenTtlMs (deadline : JsNumber) (now : Int) : Int :=
  let floor := now + minSeenTtlMs
  match deadline.asInteger with
  | some seconds =>
      let raw := (seconds * 1000).sign * (nearestDouble (seconds * 1000).natAbs : Int)
      if raw.natAbs < 2 ^ 1024 then max raw floor else floor
  | none => floor

/-- 1 s, 2 s, 4 s. -/
def retryBackoff (attempt : Nat) : Int := 1000 * 2 ^ attempt

/-- The message of the `FatalError`. -/
def solverHalted (triggers maxTriggers : Nat) : JsString :=
  js "Solver halted: repeated implausible profit triggers (" ++ js (toString triggers) ++
    js ") exceeded limit (" ++ js (toString maxTriggers) ++ js ") — check pricing configuration"

/-! ## One record up to the executor -/

/-- What the surroundings answer while a record is worked, with the clock when it is taken up
    and the one after its signature has been verified. -/
structure Answers where
  startedAt : Int
  verified : Except JsString Bool
  verifiedAt : Int
  quote : Quote

/-- What `executor.fill` comes to.  Of the classes it may throw `solver.ts` tells apart these;
    `LockOwnedByOtherError` is one that `executor.ts` does not export. -/
inductive FillResult where
  | success (settlementTx : JsString)
  | definiteFailure (err : JsString)
  | lockOwnedByOther (owner : JsString)
  | fatal (err : JsString)
  | failed (err : JsString)

inductive Event where
  | evaluated (record : IntentRecord) (decision : FillDecision)
  /-- `executor.fill` is called. -/
  | attempted (record : IntentRecord)
  /-- `executor.fill` has settled. -/
  | ended (record : IntentRecord) (result : FillResult)

/-- How `consider` goes on. -/
inductive Outcome where
  | returned (wasMismatch : Bool)
  | threw (err : JsString)
  /-- It waits for `executor.fill`. -/
  | filling (deadlineMs : Int)

structure Considered where
  solver : Solver
  log : List Event
  outcome : Outcome

/-- The verdict that is known, or else the one of the verifier. -/
def VerificationCache.check (verdicts : VerificationCache) (cacheKey : JsString) (answers : Answers) :
    VerificationCache × Except JsString Bool :=
  let known := verdicts.get cacheKey answers.startedAt
  match known.2, answers.verified with
  | some valid, _ => (known.1, .ok valid)
  | none, .error err => (known.1, .error err)
  | none, .ok valid => (known.1.set cacheKey valid answers.verifiedAt, .ok valid)

namespace Solver

def retire (solver : Solver) (hash : JsString) (deadlineMs now : Int) : Solver :=
  { solver with
    seen := solver.seen.add hash deadlineMs now
    retryState := solver.retryState.delete hash }

def verify (setup : Setup) (solver : Solver) (record : IntentRecord) (answers : Answers) :
    Solver × Except JsString Bool :=
  let cacheKey := verificationCacheKey (perihelionDomain setup.config) record.hash record.signature
  let checked := solver.verificationCache.check cacheKey answers
  ({ solver with verificationCache := checked.1 }, checked.2)

/-- A decision not to fill. -/
def passOver (config : SolverConfig) (solver : Solver) (record : IntentRecord)
    (decision : FillDecision) (deadlineMs now : Int) : Considered :=
  let triggers := solver.consecutiveImplausibleTriggers + (if decision.implausibleProfit then 1 else 0)
  let maxTriggers := config.maxImplausibleProfitTriggers.getD defaultMaxTriggers
  let counted := { solver with consecutiveImplausibleTriggers := triggers }
  let log := [.evaluated record decision]
  if decision.implausibleProfit ∧ maxTriggers ≤ triggers then
    ⟨counted, log, .threw (solverHalted triggers maxTriggers)⟩
  else if decision.terminal then
    ⟨counted.retire record.hash deadlineMs now, log, .returned false⟩
  else ⟨counted, log, .returned false⟩

/-- The capital is reserved before the executor is called. -/
def beginFill (solver : Solver) (record : IntentRecord) (decision : FillDecision)
    (deadlineMs now : Int) : Considered where
  solver :=
    { solver with
      consecutiveImplausibleTriggers := 0
      retryState := (RetryStateLRU.get solver.retryState record.hash now).1
      inFlight := solver.inFlight.reserve record.intent.destAsset
        (bigInt record.intent.minDestAmount) }
  log := [.evaluated record decision, .attempted record]
  outcome := .filling deadlineMs

def consider (setup : Setup) (solver : Solver) (record : IntentRecord) (answers : Answers) :
    Considered :=
  let deadlineMs := seenTtlMs record.intent.deadline answers.startedAt
  match setup.hashIntent record.intent (perihelionDomain setup.config) with
  | .error err => ⟨solver, [], .threw err⟩
  | .ok recomputedHash =>
      if toLowerCase recomputedHash ≠ toLowerCase record.hash then
        ⟨solver.retire record.hash deadlineMs answers.startedAt, [], .returned true⟩
      else
        let checked := solver.verify setup record answers
        let verifying := checked.1
        match checked.2 with
        | .error err => ⟨verifying, [], .threw err⟩
        | .ok false =>
            ⟨{ verifying with retryState := verifying.retryState.delete record.hash }, [],
              .returned false⟩
        | .ok true =>
            match evaluate setup.viem record.intent setup.config answers.quote verifying.inFlight
                (answers.verifiedAt / 1000) with
            | .error err => ⟨verifying, [], .threw err⟩
            | .ok decision =>
                if decision.fill then
                  verifying.beginFill record decision deadlineMs answers.verifiedAt
                else verifying.passOver setup.config record decision deadlineMs answers.verifiedAt

/-- One round of the loop over the pending records; `now` is the clock after they were listed. -/
def takeUp (setup : Setup) (now : Int) (solver : Solver) (record : IntentRecord) (answers : Answers) :
    Considered :=
  let known := SeenLRU.has solver.seen record.hash answers.startedAt
  let noted := { solver with seen := known.1 }
  if known.2 then ⟨noted, [], .returned false⟩
  else
    let retry := RetryStateLRU.get noted.retryState record.hash answers.startedAt
    let asked := { noted with retryState := retry.1 }
    if retry.2.any (now < ·.nextRetryAt) then ⟨asked, [], .returned false⟩
    else asked.consider setup record answers

/-! ## From the executor on -/

def scheduleRetry (solver : Solver) (hash : JsString) (deadlineMs now : Int) : Solver :=
  let known := RetryStateLRU.get solver.retryState hash now
  let attempts := (known.2.getD ⟨0, 0⟩).attempts + 1
  if maxFillRetries < attempts then
    { solver with retryState := known.1 }.retire hash deadlineMs now
  else
    { solver with
      retryState := RetryStateLRU.set known.1 hash ⟨attempts, now + retryBackoff (attempts - 1)⟩
        deadlineMs }

/-- The `try` and its `catch`, and the error that is thrown on. -/
def settleFill (solver : Solver) (hash : JsString) (deadlineMs : Int) (result : FillResult)
    (now : Int) : Solver × Option JsString :=
  match result with
  | .success _ => (solver.retire hash deadlineMs now, none)
  | .fatal err => (solver, some err)
  | .lockOwnedByOther _ => (solver.retire hash deadlineMs now, none)
  | .definiteFailure _ => (solver.scheduleRetry hash deadlineMs now, none)
  | .failed _ => (solver.scheduleRetry hash deadlineMs now, none)

/-- The `finally`. -/
def settleCapital (inFlight : InFlightTracker) (asset : JsString) (amount : Int)
    (result : FillResult) : InFlightTracker :=
  match result with
  | .definiteFailure _ => inFlight.release asset amount
  | _ => inFlight.holdForRefresh asset amount

/-- What `tick` does before it lists the records. -/
def beginTick (solver : Solver) (now : Int) : Solver :=
  { solver with
    seen := SeenLRU.evictExpired solver.seen now
    retryState := RetryStateLRU.evictExpired solver.retryState now
    inFlight := solver.inFlight.flushHeld.1 }

end Solver

/-! ## Steps -/

/-- Where `tick` has got to. -/
inductive Phase where
  | idle
  | looping (now : Int)
  | filling (now : Int) (record : IntentRecord) (deadlineMs : Int)

structure Session where
  solver : Solver
  phase : Phase

inductive Input where
  /-- A tick begins; the mempool has answered at `listedAt`, with no records where it failed. -/
  | tick (now listedAt : Int)
  | record (record : IntentRecord) (answers : Answers)
  | fill (result : FillResult) (now : Int)

def Outcome.phase (now : Int) (record : IntentRecord) : Outcome → Phase
  | .returned _ => .looping now
  | .threw _ => .idle
  | .filling deadlineMs => .filling now record deadlineMs

theorem Outcome.phase_filling {now listedAt : Int} {record record' : IntentRecord}
    {outcome : Outcome} {deadlineMs : Int}
    (filling : outcome.phase now record = .filling listedAt record' deadlineMs) :
    record' = record := by
  cases outcome with
  | returned => cases filling
  | threw => cases filling
  | filling =>
      cases filling
      rfl

def Phase.afterFill (now : Int) : Option JsString → Phase
  | none => .looping now
  | some _ => .idle

def step (setup : Setup) (session : Session) : Input → Option (Session × List Event)
  | .tick now listedAt =>
      match session.phase with
      | .filling .. => none
      | _ => some (⟨session.solver.beginTick now, .looping listedAt⟩, [])
  | .record record answers =>
      match session.phase with
      | .looping now =>
          let considered := session.solver.takeUp setup now record answers
          some (⟨considered.solver, considered.outcome.phase now record⟩, considered.log)
      | _ => none
  | .fill result now =>
      match session.phase with
      | .filling listedAt record deadlineMs =>
          let settled := session.solver.settleFill record.hash deadlineMs result now
          let inFlight := Solver.settleCapital settled.1.inFlight record.intent.destAsset
            (bigInt record.intent.minDestAmount) result
          some (⟨{ settled.1 with inFlight }, Phase.afterFill listedAt settled.2⟩,
            [.ended record result])
      | _ => none

def next (setup : Setup) (session : Session) (input : Input) : Option Session :=
  (step setup session input).map Prod.fst

def start (setup : Setup) : Session := ⟨Solver.new setup.config, .idle⟩

def system (setup : Setup) : System Session Input where
  init session := session = start setup
  step session input session' := next setup session input = some session'

def events (setup : Setup) (session : Session) (input : Input) : List Event :=
  ((step setup session input).map Prod.snd).getD []

/-- What the steps of a run have logged. -/
def log (setup : Setup) (moves : List (Session × Input)) : List Event :=
  moves.flatMap fun m => events setup m.1 m.2

end Perihelion.SolverNode

import Perihelion.SolverNode.Caches
import Perihelion.SolverNode.Commitment

/-! # Forged records

A record is forged if the hash it claims is not the one of its intent.  It is retired under the
hash it claims, which is the key of every cache: where a genuine record has the same hash it is
retired with it, and in a full cache it costs another record its place.
-/

namespace Perihelion.SolverNode

open Sdk Transition
open Relayer (toLowerCase)

def isForged (setup : Setup) (record : IntentRecord) : Bool :=
  match setup.hashIntent record.intent (perihelionDomain setup.config) with
  | .ok recomputedHash => toLowerCase recomputedHash ≠ toLowerCase record.hash
  | .error _ => false

def genuine (setup : Setup) : Input → Bool
  | .record record _ => !isForged setup record
  | _ => true

/-- The hash that an input claims for another intent. -/
def claimedHash (setup : Setup) : Input → Option JsString
  | .record record _ => if isForged setup record then some record.hash else none
  | _ => none

def forgedHashes (setup : Setup) (inputs : List Input) : List JsString :=
  inputs.filterMap (claimedHash setup)

/-- Without the forged records the same intents are evaluated and filled, in the same order and
    with the same results. -/
def Harmless (setup : Setup) (session : Session) (moves : List (Session × Input)) : Prop :=
  ∃ moves' session', (system setup).Run session moves' session' ∧
    moves'.map Prod.snd = (moves.map Prod.snd).filter (genuine setup) ∧
    log setup moves' = log setup moves

/-! ## Leaving the claimed hashes out of the seen ones -/

def Solver.without (solver : Solver) (marked : JsString → Bool) : Solver :=
  { solver with seen := solver.seen.without marked }

def Considered.without (considered : Considered) (marked : JsString → Bool) : Considered :=
  { considered with solver := considered.solver.without marked }

def Session.without (session : Session) (marked : JsString → Bool) : Session :=
  { session with solver := session.solver.without marked }

section without

variable {marked : JsString → Bool} {hash : JsString} {solver : Solver}

theorem retire_without (other : marked hash = false) (bounded : solver.seen.Bounded)
    (spares : solver.seen.Spares marked hash) (deadlineMs now : Int) :
    (solver.without marked).retire hash deadlineMs now =
      (solver.retire hash deadlineMs now).without marked := by
  have added := DeadlineCache.insert_without other bounded spares now deadlineMs
  unfold Solver.retire Solver.without SeenLRU.add
  rw [added]

theorem passOver_without (config : SolverConfig) {record : IntentRecord}
    (other : marked record.hash = false) (bounded : solver.seen.Bounded)
    (spares : solver.seen.Spares marked record.hash) (decision : FillDecision)
    (deadlineMs now : Int) :
    (solver.without marked).passOver config record decision deadlineMs now =
      (solver.passOver config record decision deadlineMs now).without marked := by
  have retired (triggers : Nat) :=
    @retire_without marked record.hash { solver with consecutiveImplausibleTriggers := triggers } other
      bounded spares deadlineMs now
  unfold Solver.passOver
  extract_lets triggers maxTriggers counted log triggers' counted'
  by_cases halted : decision.implausibleProfit = true ∧ maxTriggers ≤ triggers'
  · rw [if_pos halted]
    exact if_pos halted
  · rw [if_neg halted]
    refine (if_neg halted).trans ?_
    split
    · exact congrArg (fun solver => (⟨solver, log, .returned false⟩ : Considered)) (retired triggers')
    · rfl

theorem consider_without {setup : Setup} {record : IntentRecord} (other : marked record.hash = false)
    (bounded : solver.seen.Bounded) (spares : solver.seen.Spares marked record.hash)
    (answers : Answers) :
    (solver.without marked).consider setup record answers =
      (solver.consider setup record answers).without marked := by
  have checked : (solver.without marked).verify setup record answers =
      ((solver.verify setup record answers).1.without marked,
        (solver.verify setup record answers).2) := rfl
  have seen : (solver.verify setup record answers).1.seen = solver.seen := rfl
  unfold Solver.consider
  rw [checked]
  generalize solver.verify setup record answers = verified at seen ⊢
  obtain ⟨verifying, valid⟩ := verified
  cases setup.hashIntent record.intent (perihelionDomain setup.config) with
  | error err => rfl
  | ok recomputedHash =>
      by_cases mismatch : toLowerCase recomputedHash ≠ toLowerCase record.hash
      · simp only [if_pos mismatch]
        rw [retire_without other bounded spares]
        rfl
      · simp only [if_neg mismatch]
        cases valid with
        | error err => rfl
        | ok valid =>
            cases valid with
            | false => rfl
            | true =>
                dsimp only [Solver.without]
                cases evaluate setup.viem record.intent setup.config answers.quote
                    verifying.inFlight (answers.verifiedAt / 1000) with
                | error err => rfl
                | ok decision =>
                    by_cases filled : decision.fill = true
                    · simp only [if_pos filled]
                      rfl
                    · simp only [if_neg filled]
                      rw [← seen] at bounded spares
                      exact passOver_without setup.config other bounded spares decision _ _

/-- The condition is about what is left without the hash itself. -/
theorem spares_of_missed {seen : SeenLRU} {now : Int} (spares : seen.Spares marked hash)
    (missed : (SeenLRU.has seen hash now).2 = false) :
    (SeenLRU.has seen hash now).1.Spares marked hash := by
  have none : (seen.lookup now hash).2 = none := by
    rw [← Option.isNone_iff_eq_none, ← Option.isSome_eq_false_iff]
    exact missed
  have same : (SeenLRU.has seen hash now).1.delete hash = seen.delete hash :=
    DeadlineCache.lookup_none_delete none
  unfold DeadlineCache.Spares
  rw [same]
  exact spares

theorem takeUp_without {setup : Setup} {record : IntentRecord} {answers : Answers}
    (other : marked record.hash = false) (bounded : solver.seen.Bounded)
    (spares : (SeenLRU.has solver.seen record.hash answers.startedAt).2 = true ∨
      solver.seen.Spares marked record.hash) (now : Int) :
    (solver.without marked).takeUp setup now record answers =
      (solver.takeUp setup now record answers).without marked := by
  have looked := DeadlineCache.lookup_without other solver.seen answers.startedAt
  have known : SeenLRU.has (solver.without marked).seen record.hash answers.startedAt =
      ((SeenLRU.has solver.seen record.hash answers.startedAt).1.without marked,
        (SeenLRU.has solver.seen record.hash answers.startedAt).2) := by
    unfold SeenLRU.has Solver.without
    rw [looked]
  have kept : (SeenLRU.has solver.seen record.hash answers.startedAt).1.Bounded :=
    bounded.lookup answers.startedAt record.hash
  have room : (SeenLRU.has solver.seen record.hash answers.startedAt).2 = false →
      (SeenLRU.has solver.seen record.hash answers.startedAt).1.Spares marked record.hash := by
    intro missed
    rcases spares with found | spares
    · rw [missed] at found
      cases found
    · exact spares_of_missed spares missed
  unfold Solver.takeUp
  rw [known]
  generalize SeenLRU.has solver.seen record.hash answers.startedAt = looked at kept room ⊢
  obtain ⟨seen, found⟩ := looked
  cases found with
  | true => rfl
  | false =>
      extract_lets _ noted retry asked _ noted' retry' asked'
      rw [if_neg Bool.false_ne_true, if_neg Bool.false_ne_true]
      by_cases deferred : retry'.2.any (now < ·.nextRetryAt) = true
      · rw [if_pos deferred]
        exact if_pos deferred
      · rw [if_neg deferred]
        refine (if_neg deferred).trans ?_
        exact @consider_without marked asked' setup record other kept (room rfl) answers

theorem scheduleRetry_without (other : marked hash = false) (bounded : solver.seen.Bounded)
    (spares : solver.seen.Spares marked hash) (deadlineMs now : Int) :
    (solver.without marked).scheduleRetry hash deadlineMs now =
      (solver.scheduleRetry hash deadlineMs now).without marked := by
  unfold Solver.scheduleRetry
  extract_lets known attempts known' attempts'
  by_cases exhausted : maxFillRetries < attempts'
  · rw [if_pos exhausted]
    refine (if_pos exhausted).trans ?_
    exact @retire_without marked hash { solver with retryState := known'.1 } other bounded spares _ _
  · rw [if_neg exhausted]
    exact if_neg exhausted

theorem settleFill_without (other : marked hash = false) (bounded : solver.seen.Bounded)
    (spares : solver.seen.Spares marked hash) (deadlineMs : Int) (result : FillResult) (now : Int) :
    (solver.without marked).settleFill hash deadlineMs result now =
      ((solver.settleFill hash deadlineMs result now).1.without marked,
        (solver.settleFill hash deadlineMs result now).2) := by
  have retired := retire_without other bounded spares deadlineMs now
  have scheduled := scheduleRetry_without other bounded spares deadlineMs now
  cases result with
  | success => exact congrArg (·, none) retired
  | fatal => rfl
  | lockOwnedByOther => exact congrArg (·, none) retired
  | definiteFailure => exact congrArg (·, none) scheduled
  | failed => exact congrArg (·, none) scheduled

theorem consider_forged {setup : Setup} {record : IntentRecord} (forged : isForged setup record = true)
    (solver : Solver) (answers : Answers) :
    ∃ deadlineMs, solver.consider setup record answers =
      ⟨solver.retire record.hash deadlineMs answers.startedAt, [], .returned true⟩ := by
  unfold isForged at forged
  unfold Solver.consider
  extract_lets deadlineMs
  cases hashed : setup.hashIntent record.intent (perihelionDomain setup.config) with
  | error err =>
      rw [hashed] at forged
      cases forged
  | ok recomputedHash =>
      rw [hashed] at forged
      exact ⟨deadlineMs, if_pos (of_decide_eq_true forged)⟩

/-- A forged record is retired under the hash it claims, and nothing else happens. -/
theorem takeUp_forged {setup : Setup} {record : IntentRecord} {answers : Answers}
    (forged : isForged setup record = true) (own : marked record.hash = true)
    (bounded : solver.seen.Bounded)
    (spares : (SeenLRU.has solver.seen record.hash answers.startedAt).2 = true ∨
      solver.seen.Spares marked record.hash)
    (fresh : record.hash ∉ solver.retryState.keys) (now : Int) :
    (solver.takeUp setup now record answers).solver.without marked = solver.without marked ∧
      (solver.takeUp setup now record answers).log = [] ∧
      ∃ wasMismatch, (solver.takeUp setup now record answers).outcome = .returned wasMismatch := by
  have looked : (SeenLRU.has solver.seen record.hash answers.startedAt).1.without marked =
      solver.seen.without marked :=
    DeadlineCache.lookup_marked own solver.seen answers.startedAt
  cases found : (SeenLRU.has solver.seen record.hash answers.startedAt).2 with
  | true =>
      rw [takeUp_known found]
      refine ⟨?_, rfl, _, rfl⟩
      unfold Solver.without
      dsimp only
      rw [looked]
  | false =>
      have kept : (SeenLRU.has solver.seen record.hash answers.startedAt).1.Bounded :=
        bounded.lookup answers.startedAt record.hash
      have room := spares_of_missed (spares.resolve_left (by rw [found]; exact Bool.false_ne_true))
        found
      have absent : RetryStateLRU.get solver.retryState record.hash answers.startedAt =
          (solver.retryState, none) :=
        DeadlineCache.lookup_of_not_mem fresh answers.startedAt
      unfold Solver.takeUp
      generalize SeenLRU.has solver.seen record.hash answers.startedAt = known at looked found kept room ⊢
      extract_lets looking noted retry asked
      have same : retry = (solver.retryState, none) := absent
      have undisturbed : asked = { solver with seen := known.1 } := by
        show ({ solver with seen := known.1, retryState := retry.1 } : Solver) = _
        rw [same]
      have missed : looking.2 = false := found
      rw [missed, if_neg Bool.false_ne_true, same, if_neg (by simp), undisturbed]
      obtain ⟨deadlineMs, retired⟩ := consider_forged forged { solver with seen := known.1 } answers
      rw [retired]
      have added := DeadlineCache.insert_marked own kept room answers.startedAt deadlineMs
      refine ⟨?_, rfl, _, rfl⟩
      unfold Solver.retire Solver.without SeenLRU.add
      dsimp only
      rw [added, looked, DeadlineCache.delete_of_not_mem fresh]

end without

/-! ## Steps -/

/-- No genuine record has a marked hash, and while there are marked entries no other one is
    pushed out. -/
def Unobtrusive (setup : Setup) (marked : JsString → Bool) (session : Session) : Input → Prop
  | .tick .. => True
  | .record record answers =>
      (isForged setup record = false → marked record.hash = false) ∧
        ((SeenLRU.has session.solver.seen record.hash answers.startedAt).2 = true ∨
          session.solver.seen.Spares marked record.hash)
  | .fill .. =>
      match session.phase with
      | .filling _ record _ => session.solver.seen.Spares marked record.hash
      | _ => True

structure Clean (marked : JsString → Bool) (session : Session) : Prop where
  bounded : session.solver.seen.Bounded
  retry : ∀ hash ∈ session.solver.retryState.keys, marked hash = false
  filling : ∀ listedAt record deadlineMs, session.phase = .filling listedAt record deadlineMs →
    marked record.hash = false

theorem Touched.bounded {hash : JsString} {solver solver' : Solver} (touched : Touched hash solver solver')
    (bounded : solver.seen.Bounded) : solver'.seen.Bounded := by
  rcases touched.seen with same | ⟨deadlineMs, now, added⟩
  · rw [same]
    exact bounded
  · rw [added]
    exact bounded.insert hash now deadlineMs

theorem bounded_of_reachable {setup : Setup} {session : Session}
    (reach : (system setup).Reachable session) : session.solver.seen.Bounded := by
  apply reach.invariant (P := fun session => session.solver.seen.Bounded)
  · rintro _ rfl
    exact DeadlineCache.bounded_empty _
  · rintro ⟨solver, phase⟩ input session' _ bounded moved
    cases input with
    | tick now listedAt =>
        cases phase with
        | filling => cases moved
        | idle =>
            cases moved
            exact bounded.dropExpired now
        | looping =>
            cases moved
            exact bounded.dropExpired now
    | record record answers =>
        cases phase with
        | filling => cases moved
        | idle => cases moved
        | looping now =>
            cases moved
            have looked := bounded.lookup answers.startedAt record.hash
            exact (takeUp_touched setup now solver record answers).bounded looked
    | fill result now =>
        cases phase with
        | idle => cases moved
        | looping => cases moved
        | filling listedAt record deadlineMs =>
            cases moved
            exact (settleFill_touched solver record.hash deadlineMs result now).bounded bounded

section steps

variable {setup : Setup} {marked : JsString → Bool} {session session' : Session}

theorem Clean.tick (clean : Clean marked session) {now listedAt : Int}
    (moved : next setup session (.tick now listedAt) = some session') :
    Clean marked session' ∧
      next setup (session.without marked) (.tick now listedAt) = some (session'.without marked) := by
  obtain ⟨solver, phase⟩ := session
  have kept : Clean marked ⟨solver.beginTick now, .looping listedAt⟩ := by
    constructor
    · exact clean.bounded.dropExpired now
    · intro hash member
      exact clean.retry hash ((DeadlineCache.dropExpired_keys_sublist _ now).subset member)
    · intro _ _ _ filling
      cases filling
  have dropped := @DeadlineCache.dropExpired_without _ _ marked solver.seen now
  have same : (solver.without marked).beginTick now = (solver.beginTick now).without marked := by
    unfold Solver.beginTick Solver.without SeenLRU.evictExpired
    rw [dropped]
  cases phase with
  | filling => cases moved
  | idle =>
      cases moved
      exact ⟨kept, congrArg (fun solver => some (⟨solver, .looping listedAt⟩ : Session)) same⟩
  | looping =>
      cases moved
      exact ⟨kept, congrArg (fun solver => some (⟨solver, .looping listedAt⟩ : Session)) same⟩

theorem Clean.genuine (clean : Clean marked session) {record : IntentRecord} {answers : Answers}
    (honest : isForged setup record = false)
    (unobtrusive : Unobtrusive setup marked session (.record record answers))
    (moved : next setup session (.record record answers) = some session') :
    Clean marked session' ∧
      next setup (session.without marked) (.record record answers) = some (session'.without marked) ∧
      events setup (session.without marked) (.record record answers) =
        events setup session (.record record answers) := by
  obtain ⟨solver, phase⟩ := session
  obtain ⟨unmarked, spares⟩ := unobtrusive
  have other := unmarked honest
  cases phase with
  | filling => cases moved
  | idle => cases moved
  | looping now =>
      have touched := takeUp_touched setup now solver record answers
      have same := @takeUp_without _ solver setup record answers other clean.bounded spares now
      have looked := clean.bounded.lookup answers.startedAt record.hash
      cases moved
      refine ⟨⟨touched.bounded looked, ?_, ?_⟩, ?_, ?_⟩
      · intro hash member
        rcases touched.retry hash member with rfl | there
        · exact other
        · exact clean.retry hash there
      · intro listedAt record' deadlineMs filling
        rw [Outcome.phase_filling filling]
        exact other
      · exact congrArg (fun considered : Considered =>
          some (⟨considered.solver, considered.outcome.phase now record⟩ : Session)) same
      · show ((solver.without marked).takeUp setup now record answers).log = _
        rw [same]
        rfl

theorem Clean.forged (clean : Clean marked session) {record : IntentRecord} {answers : Answers}
    (forged : isForged setup record = true) (own : marked record.hash = true)
    (unobtrusive : Unobtrusive setup marked session (.record record answers))
    (moved : next setup session (.record record answers) = some session') :
    Clean marked session' ∧ session'.without marked = session.without marked ∧
      events setup session (.record record answers) = [] := by
  obtain ⟨solver, phase⟩ := session
  have fresh : record.hash ∉ solver.retryState.keys := by
    intro member
    have unmarked := clean.retry record.hash member
    rw [own] at unmarked
    cases unmarked
  cases phase with
  | filling => cases moved
  | idle => cases moved
  | looping now =>
      have touched := takeUp_touched setup now solver record answers
      have looked := clean.bounded.lookup answers.startedAt record.hash
      obtain ⟨same, quiet, wasMismatch, returned⟩ :=
        takeUp_forged forged own clean.bounded unobtrusive.2 fresh now
      have retry := congrArg Solver.retryState same
      cases moved
      refine ⟨⟨touched.bounded looked, ?_, ?_⟩, ?_, quiet⟩
      · intro hash member
        apply clean.retry hash
        show hash ∈ (Solver.retryState (solver.without marked)).keys
        rw [← retry]
        exact member
      · intro listedAt record' deadlineMs filling
        simp [returned, Outcome.phase] at filling
      · show (⟨Solver.without _ marked, _⟩ : Session) = ⟨solver.without marked, .looping now⟩
        rw [same, returned]
        rfl

theorem Clean.fill (clean : Clean marked session) {result : FillResult} {now : Int}
    (unobtrusive : Unobtrusive setup marked session (.fill result now))
    (moved : next setup session (.fill result now) = some session') :
    Clean marked session' ∧
      next setup (session.without marked) (.fill result now) = some (session'.without marked) ∧
      events setup (session.without marked) (.fill result now) =
        events setup session (.fill result now) := by
  obtain ⟨solver, phase⟩ := session
  cases phase with
  | looping => cases moved
  | idle => cases moved
  | filling listedAt record deadlineMs =>
      have other := clean.filling listedAt record deadlineMs rfl
      have touched := settleFill_touched solver record.hash deadlineMs result now
      have same := settleFill_without other clean.bounded unobtrusive deadlineMs result now
      cases moved
      refine ⟨⟨touched.bounded clean.bounded, ?_, ?_⟩, ?_, rfl⟩
      · intro hash member
        rcases touched.retry hash member with rfl | there
        · exact other
        · exact clean.retry hash there
      · intro _ _ _ filling
        cases thrown : (solver.settleFill record.hash deadlineMs result now).2 with
        | none => simp [thrown, Phase.afterFill] at filling
        | some => simp [thrown, Phase.afterFill] at filling
      · exact congrArg (fun settled : Solver × Option JsString =>
          some (⟨{ settled.1 with
              inFlight := Solver.settleCapital settled.1.inFlight record.intent.destAsset
                (bigInt record.intent.minDestAmount) result },
            Phase.afterFill listedAt settled.2⟩ : Session)) same

end steps

/-! ## Runs -/

/-- Step by step the run without the forged records stays the same but for the claimed hashes. -/
theorem run_without {setup : Setup} {marked : JsString → Bool} {session session' : Session}
    {moves : List (Session × Input)} (clean : Clean marked session)
    (run : (system setup).Run session moves session')
    (claimed : ∀ m ∈ moves, ∀ hash, claimedHash setup m.2 = some hash → marked hash = true)
    (unobtrusive : ∀ m ∈ moves, Unobtrusive setup marked m.1 m.2) :
    Clean marked session' ∧ ∃ moves',
      (system setup).Run (session.without marked) moves' (session'.without marked) ∧
      moves'.map Prod.snd = (moves.map Prod.snd).filter (genuine setup) ∧
      log setup moves' = log setup moves := by
  induction run with
  | nil => exact ⟨clean, [], .nil, rfl, rfl⟩
  | @snoc moves v input v' run last ih =>
      obtain ⟨before, moves', run', inputs, logged⟩ := ih
        (fun m member => claimed m (List.mem_append_left _ member))
        (fun m member => unobtrusive m (List.mem_append_left _ member))
      have own := unobtrusive (v, input) (List.mem_append_right _ List.mem_cons_self)
      -- a genuine input is one of the other run, too
      have same (kept : genuine setup input = true)
          (stepped : next setup (v.without marked) input = some (v'.without marked))
          (unlogged : events setup (v.without marked) input = events setup v input) :
          ∃ moves'', (system setup).Run (session.without marked) moves'' (v'.without marked) ∧
            moves''.map Prod.snd = ((moves ++ [(v, input)]).map Prod.snd).filter (genuine setup) ∧
            log setup moves'' = log setup (moves ++ [(v, input)]) := by
        refine ⟨_, run'.snoc stepped, ?_, ?_⟩
        · rw [List.map_append, inputs, List.map_append, List.filter_append]
          simp [kept]
        · rw [log_snoc, log_snoc, logged, unlogged]
      cases input with
      | tick now listedAt =>
          obtain ⟨after, stepped⟩ := before.tick last
          refine ⟨after, same rfl stepped ?_⟩
          obtain ⟨solver, phase⟩ := v
          cases phase with
          | filling => rfl
          | idle => rfl
          | looping => rfl
      | fill result now =>
          obtain ⟨after, stepped, quiet⟩ := before.fill own last
          exact ⟨after, same rfl stepped quiet⟩
      | record record answers =>
          cases forged : isForged setup record with
          | false =>
              obtain ⟨after, stepped, quiet⟩ := before.genuine forged own last
              exact ⟨after, same (by simp [SolverNode.genuine, forged]) stepped quiet⟩
          | true =>
              have marking : marked record.hash = true := by
                apply claimed (v, .record record answers)
                · exact List.mem_append_right _ List.mem_cons_self
                · simp [claimedHash, forged]
              obtain ⟨after, unchanged, quiet⟩ := before.forged forged marking own last
              refine ⟨after, moves', ?_, ?_, ?_⟩
              · rw [unchanged]
                exact run'
              · rw [inputs, List.map_append, List.filter_append]
                simp [SolverNode.genuine, forged]
              · rw [log_snoc, logged, quiet, List.append_nil]

/-- Whether a hash is one that a forged record of these inputs claims. -/
def claimedIn (setup : Setup) (inputs : List Input) (hash : JsString) : Bool :=
  hash ∈ forgedHashes setup inputs

/-- No cache, and no fill in progress, has a hash that is claimed. -/
structure Unclaimed (marked : JsString → Bool) (session : Session) : Prop where
  seen : ∀ hash ∈ session.solver.seen.keys, marked hash = false
  retry : ∀ hash ∈ session.solver.retryState.keys, marked hash = false
  filling : ∀ listedAt record deadlineMs, session.phase = .filling listedAt record deadlineMs →
    marked record.hash = false

/-- Forged records change nothing as long as no genuine record has a hash that one of them
    claims, letter for letter, and none of them costs another record its place among the seen
    ones. -/
theorem forged_records_harmless {setup : Setup} {session session' : Session}
    {moves : List (Session × Input)} (reach : (system setup).Reachable session)
    (run : (system setup).Run session moves session')
    (unclaimed : Unclaimed (claimedIn setup (moves.map Prod.snd)) session)
    (unobtrusive : ∀ m ∈ moves,
      Unobtrusive setup (claimedIn setup (moves.map Prod.snd)) m.1 m.2) :
    Harmless setup session moves := by
  have clean : Clean (claimedIn setup (moves.map Prod.snd)) session :=
    ⟨bounded_of_reachable reach, unclaimed.retry, unclaimed.filling⟩
  have claimed : ∀ m ∈ moves, ∀ hash, claimedHash setup m.2 = some hash →
      claimedIn setup (moves.map Prod.snd) hash = true := by
    intro m member hash own
    exact decide_eq_true (List.mem_filterMap.mpr ⟨m.2, List.mem_map_of_mem member, own⟩)
  obtain ⟨_, moves', run', inputs, logged⟩ := run_without clean run claimed unobtrusive
  have start : session.without (claimedIn setup (moves.map Prod.snd)) = session := by
    unfold Session.without Solver.without
    rw [DeadlineCache.without_of_free unclaimed.seen]
  rw [start] at run'
  exact ⟨moves', _, run', inputs, logged⟩

namespace Sample

/-- Claims a hash that no other record has. -/
def stray : IntentRecord := record "8" (js "0x" ++ List.replicate 64 97)

def honest : IntentRecord := record "7" hash

/-- Claims the hash of the honest record. -/
def impostor : IntentRecord := record "8" hash

def opening : Input := .tick 1700000000000 1700000000000

def strayInputs : List Input := [opening, .record stray (answers 150), .record honest (answers 150)]

def strayed : Session := (System.replay (next setup) (start setup) strayInputs).get (by decide +kernel)

def strayMoves : List (Session × Input) := System.trail (next setup) (start setup) strayInputs

def impostorInputs : List Input :=
  [opening, .record impostor (answers 150), .record honest (answers 150)]

def deceived : Session :=
  (System.replay (next setup) (start setup) impostorInputs).get (by decide +kernel)

def impostorMoves : List (Session × Input) := System.trail (next setup) (start setup) impostorInputs

def honestInputs : List Input := [opening, .record honest (answers 150)]

def honestMoves : List (Session × Input) := System.trail (next setup) (start setup) honestInputs

theorem run_of_replay {inputs : List Input} {session : Session}
    (replayed : System.replay (next setup) (start setup) inputs = some session) :
    (system setup).Run (start setup) (System.trail (next setup) (start setup) inputs) session :=
  System.Run.of_replay (S := system setup) (fun _ _ _ stepped => stepped) replayed

end Sample

theorem forged_records_harmless_sample : Harmless Sample.setup (start Sample.setup) Sample.strayMoves := by
  have run := @Sample.run_of_replay Sample.strayInputs Sample.strayed
    (by simp [Sample.strayed])
  have roomy : (Sample.strayMoves.all fun m =>
      decide (m.1.solver.seen.size < m.1.solver.seen.maxSize)) = true := by
    decide +kernel
  have unlike : claimedIn Sample.setup (Sample.strayMoves.map Prod.snd) Sample.hash = false := by
    decide +kernel
  apply forged_records_harmless (.init rfl) run
  · constructor
    · intro hash member
      cases member
    · intro hash member
      cases member
    · intro _ _ _ filling
      cases filling
  · intro m member
    have room := of_decide_eq_true (List.all_eq_true.mp roomy m member)
    have input := System.input_of_trail member
    simp only [Sample.strayInputs, List.mem_cons, List.not_mem_nil, or_false] at input
    rcases input with opening | stray | honest
    · rw [opening]
      trivial
    · rw [stray]
      refine ⟨?_, .inr (DeadlineCache.spares_of_room room _)⟩
      intro honest
      have forged : isForged Sample.setup Sample.stray = true := by decide +kernel
      rw [forged] at honest
      cases honest
    · rw [honest]
      exact ⟨fun _ => unlike, .inr (DeadlineCache.spares_of_room room _)⟩

/-- A record that claims the hash of another one, listed before it, keeps it from being
    evaluated. -/
theorem forged_record_hides : (system Sample.setup).Reachable (start Sample.setup) ∧
    (system Sample.setup).Run (start Sample.setup) Sample.impostorMoves Sample.deceived ∧
    ¬ Harmless Sample.setup (start Sample.setup) Sample.impostorMoves := by
  have run := @Sample.run_of_replay Sample.impostorInputs Sample.deceived
    (by simp [Sample.deceived])
  refine ⟨.init rfl, run, ?_⟩
  rintro ⟨moves', session', run', inputs, logged⟩
  have same : moves' = Sample.honestMoves := by
    have only := (System.Run.determined (fun _ _ _ stepped => stepped) run').2
    rw [inputs] at only
    rw [← only]
    rfl
  have lengths : (log Sample.setup Sample.honestMoves).length = 2 ∧
      (log Sample.setup Sample.impostorMoves).length = 0 := by
    decide +kernel
  rw [same] at logged
  rw [logged, lengths.2] at lengths
  cases lengths.1

end Perihelion.SolverNode

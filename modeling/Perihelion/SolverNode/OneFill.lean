import Perihelion.SolverNode.Caches
import Perihelion.SolverNode.Commitment

/-! # One fill for an intent

The hash of a record is compared without regard to case, but the seen ones are kept as they were
written.  A filled intent is recognised as long as it is served in the same letters.
-/

namespace Perihelion.SolverNode

open Sdk Transition
open Relayer (toLowerCase)

/-- Both hash to the same value. -/
def SameIntent (setup : Setup) (first second : IntentRecord) : Prop :=
  ∃ hash, setup.hashIntent first.intent (perihelionDomain setup.config) = .ok hash ∧
    setup.hashIntent second.intent (perihelionDomain setup.config) = .ok hash

/-- A fill has succeeded, and a record of the same intent is taken up later in the run. -/
structure Repeat (setup : Setup) (moves : List (Session × Input)) where
  before : List (Session × Input)
  filled : Session
  settlementTx : JsString
  settledAt : Int
  between : List (Session × Input)
  taken : Session
  record : IntentRecord
  answers : Answers
  after : List (Session × Input)
  listedAt : Int
  first : IntentRecord
  deadlineMs : Int
  split : moves = before ++ (filled, .fill (.success settlementTx) settledAt) ::
    (between ++ (taken, .record record answers) :: after)
  filling : filled.phase = .filling listedAt first deadlineMs
  same : SameIntent setup first record

/-- The clock where an input makes the solver look into the seen hashes. -/
def Input.looksAt : Input → Option Int
  | .tick now _ => some now
  | .record _ answers => some answers.startedAt
  | .fill .. => none

/-- The hash of the record, unless it is this one. -/
def otherHash (hash : JsString) : Input → Option JsString
  | .record record _ => if record.hash = hash then none else some record.hash
  | _ => none

namespace Repeat

variable {setup : Setup} {moves : List (Session × Input)}

theorem filled_mem (again : Repeat setup moves) :
    (again.filled, .fill (.success again.settlementTx) again.settledAt) ∈ moves := by
  obtain ⟨before, filled, settlementTx, settledAt, between, taken, record, answers, after, _, _, _,
    split, _, _⟩ := again
  subst split
  exact List.mem_append_right _ List.mem_cons_self

theorem taken_mem (again : Repeat setup moves) :
    (again.taken, .record again.record again.answers) ∈ moves := by
  obtain ⟨before, filled, settlementTx, settledAt, between, taken, record, answers, after, _, _, _,
    split, _, _⟩ := again
  subst split
  apply List.mem_append_right
  apply List.mem_cons_of_mem
  exact List.mem_append_right _ List.mem_cons_self

/-- The hashes that have been taken up between the two. -/
def others (again : Repeat setup moves) : List JsString :=
  again.between.filterMap fun m => otherHash again.first.hash m.2

/-- The seen entry is unexpired and has not been pushed out: fewer other hashes have come than the
    cache holds, or the entry is seen to be there. -/
inductive Retained (again : Repeat setup moves) : Prop
  | few : (∀ m ∈ again.between, ∀ now, m.2.looksAt = some now → now ≤ again.deadlineMs) →
      again.answers.startedAt ≤ again.deadlineMs →
      again.others.dedup.length < again.filled.solver.seen.maxSize → Retained again
  | there (entry : Timed Int) : again.taken.solver.seen.entries.get again.first.hash = some entry →
      again.answers.startedAt ≤ entry.deadline → Retained again

/-- The record triggers another `executor.fill`. -/
def Attempted (again : Repeat setup moves) : Prop :=
  .attempted again.record ∈ events setup again.taken (.record again.record again.answers)

end Repeat

/-! ## The entry of a filled intent -/

/-- The entry is there, and every hash that the solver works on is another one. -/
structure Guards (hash : JsString) (entry : Timed Int) (others : List JsString) (maxSize : Nat)
    (session : Session) : Prop where
  holds : session.solver.seen.Holds hash entry others
  filling : ∀ listedAt record deadlineMs, session.phase = .filling listedAt record deadlineMs →
    record.hash ≠ hash ∧ record.hash ∈ others
  size : session.solver.seen.maxSize = maxSize

section guards

variable {setup : Setup} {hash : JsString} {entry : Timed Int} {others : List JsString} {maxSize : Nat}

/-- Working another hash of the few leaves the entry there. -/
theorem Touched.holds {other : JsString} {solver solver' : Solver}
    (touched : Touched other solver solver') (holds : solver.seen.Holds hash entry others)
    (there : other ≠ hash) (among : other ∈ others) (size : solver.seen.maxSize = maxSize)
    (few : others.dedup.length < maxSize) :
    solver'.seen.Holds hash entry others ∧ solver'.seen.maxSize = maxSize := by
  rcases touched.seen with same | ⟨deadlineMs, now, added⟩
  · rw [same]
    exact ⟨holds, size⟩
  · rw [added]
    have room : (other :: others).dedup.length < solver.seen.maxSize := by
      rw [List.dedup_cons_of_mem among, size]
      exact few
    refine ⟨(holds.insert_other there room now deadlineMs).mono ?_, ?_⟩
    · exact List.cons_subset.mpr ⟨among, List.Subset.refl _⟩
    · exact (DeadlineCache.insert_maxSize ..).trans size

theorem known_of_holds {seen : SeenLRU} {now : Int} (holds : seen.Holds hash entry others)
    (unexpired : now ≤ entry.deadline) : (SeenLRU.has seen hash now).2 = true := by
  have found := (holds.lookup_self unexpired).1
  show (seen.lookup now hash).2.isSome = true
  rw [found]
  rfl

theorem Guards.step {session session' : Session} {input : Input}
    (guards : Guards hash entry others maxSize session)
    (moved : next setup session input = some session')
    (unexpired : ∀ now, input.looksAt = some now → now ≤ entry.deadline)
    (among : ∀ other, otherHash hash input = some other → other ∈ others)
    (few : others.dedup.length < maxSize) : Guards hash entry others maxSize session' := by
  obtain ⟨solver, phase⟩ := session
  cases input with
  | tick now listedAt =>
      have kept : Guards hash entry others maxSize ⟨solver.beginTick now, .looping listedAt⟩ := by
        refine ⟨guards.holds.dropExpired (unexpired now rfl), ?_, guards.size⟩
        intro _ _ _ filling
        cases filling
      cases phase with
      | filling => cases moved
      | idle =>
          cases moved
          exact kept
      | looping =>
          cases moved
          exact kept
  | record record answers =>
      cases phase with
      | filling => cases moved
      | idle => cases moved
      | looping now =>
          have live := unexpired answers.startedAt rfl
          cases moved
          by_cases own : record.hash = hash
          · subst own
            rw [takeUp_known (known_of_holds guards.holds live)]
            refine ⟨?_, ?_, ?_⟩
            · exact (guards.holds.lookup_self live).2.mono (List.nil_subset _)
            · intro _ _ _ filling
              cases filling
            · exact (DeadlineCache.lookup_maxSize ..).trans guards.size
          · have member : record.hash ∈ others := among record.hash (if_neg own)
            have looked := (guards.holds.lookup_other own answers.startedAt).mono
              (List.cons_subset.mpr ⟨member, List.Subset.refl _⟩)
            have size := (DeadlineCache.lookup_maxSize solver.seen answers.startedAt record.hash).trans
              guards.size
            obtain ⟨holds, size'⟩ := (takeUp_touched setup now solver record answers).holds looked own
              member size few
            refine ⟨holds, ?_, size'⟩
            intro listedAt record' deadlineMs filling
            rw [Outcome.phase_filling filling]
            exact ⟨own, member⟩
  | fill result now =>
      cases phase with
      | idle => cases moved
      | looping => cases moved
      | filling listedAt record deadlineMs =>
          obtain ⟨there, member⟩ := guards.filling listedAt record deadlineMs rfl
          cases moved
          obtain ⟨holds, size⟩ := (settleFill_touched solver record.hash deadlineMs result now).holds
            guards.holds there member guards.size few
          refine ⟨holds, ?_, size⟩
          intro _ _ _ filling
          cases thrown : (solver.settleFill record.hash deadlineMs result now).2 with
          | none => simp [thrown, Phase.afterFill] at filling
          | some => simp [thrown, Phase.afterFill] at filling

theorem Guards.run {session session' : Session} {moves : List (Session × Input)}
    (guards : Guards hash entry others maxSize session)
    (run : (system setup).Run session moves session')
    (unexpired : ∀ m ∈ moves, ∀ now, m.2.looksAt = some now → now ≤ entry.deadline)
    (among : ∀ m ∈ moves, ∀ other, otherHash hash m.2 = some other → other ∈ others)
    (few : others.dedup.length < maxSize) : Guards hash entry others maxSize session' := by
  induction run with
  | nil => exact guards
  | @snoc moves v input v' _ last ih =>
      have earlier := ih (fun m member => unexpired m (List.mem_append_left _ member))
        (fun m member => among m (List.mem_append_left _ member))
      have own : (v, input) ∈ moves ++ [(v, input)] := List.mem_append_right _ List.mem_cons_self
      exact earlier.step last (unexpired _ own) (among _ own) few

end guards

/-- A success puts the hash last among the seen ones. -/
theorem guards_of_success {setup : Setup} {session session' : Session} {settlementTx : JsString}
    {settledAt listedAt : Int} {record : IntentRecord} {deadlineMs : Int} (others : List JsString)
    (filling : session.phase = .filling listedAt record deadlineMs)
    (moved : next setup session (.fill (.success settlementTx) settledAt) = some session') :
    Guards record.hash ⟨settledAt, deadlineMs⟩ others session.solver.seen.maxSize session' := by
  obtain ⟨solver, phase⟩ := session
  cases filling
  cases moved
  refine ⟨?_, ?_, ?_⟩
  · exact (DeadlineCache.Holds.insert_self solver.seen record.hash settledAt deadlineMs).mono
      (List.nil_subset _)
  · intro _ _ _ filling
    cases filling
  · exact DeadlineCache.insert_maxSize ..

theorem not_attempted_of_known {setup : Setup} {session session' : Session} {record : IntentRecord}
    {answers : Answers} (moved : next setup session (.record record answers) = some session')
    (known : (SeenLRU.has session.solver.seen record.hash answers.startedAt).2 = true) :
    events setup session (.record record answers) = [] := by
  obtain ⟨solver, phase⟩ := session
  cases phase with
  | filling => cases moved
  | idle => cases moved
  | looping now =>
      show (solver.takeUp setup now record answers).log = []
      rw [takeUp_known known]

/-- Only a record that is handed to the executor leaves two events. -/
theorem attempts_of_length {setup : Setup} {session session' : Session} {record : IntentRecord}
    {answers : Answers} (moved : next setup session (.record record answers) = some session')
    (two : (events setup session (.record record answers)).length = 2) :
    (∃ listedAt deadlineMs, session'.phase = .filling listedAt record deadlineMs) ∧
      .attempted record ∈ events setup session (.record record answers) := by
  obtain ⟨now, considered, _, taken, same, logged⟩ := next_record moved
  rw [logged] at two ⊢
  cases taken with
  | not _ quiet _ =>
      rcases quiet with none | ⟨decision, one⟩
      · rw [none] at two
        cases two
      · rw [one] at two
        cases two
  | fill decision deadlineMs _ _ logs filling =>
      refine ⟨⟨now, deadlineMs, ?_⟩, ?_⟩
      · rw [same, filling]
        rfl
      · rw [logs]
        exact List.mem_cons_of_mem _ List.mem_cons_self

/-- A filled intent is not filled again while its entry is kept, if it is served in the letters in
    which it was filled. -/
theorem filled_once {setup : Setup} {session session' : Session} {moves : List (Session × Input)}
    (run : (system setup).Run session moves session')
    (letters : ∀ again : Repeat setup moves, again.record.hash = again.first.hash)
    (again : Repeat setup moves) (retained : again.Retained) : ¬ again.Attempted := by
  have same := letters again
  have whole := again.split ▸ run
  obtain ⟨v, _, settled, later⟩ := whole.cut
  obtain ⟨w, between, taken, _⟩ := later.cut
  have known : (SeenLRU.has again.taken.solver.seen again.record.hash
      again.answers.startedAt).2 = true := by
    rw [same]
    cases retained with
    | few unexpired live few =>
        have start := guards_of_success again.others again.filling settled
        have guards := start.run between unexpired
          (fun m member other own => List.mem_filterMap.mpr ⟨m, member, own⟩) few
        exact known_of_holds guards.holds live
    | there entry found live =>
        unfold SeenLRU.has DeadlineCache.lookup
        rw [found]
        simp [Int.not_lt.mpr live]
  unfold Repeat.Attempted
  rw [not_attempted_of_known taken known]
  exact List.not_mem_nil

namespace Sample

def served : IntentRecord := record "7" hash

/-- The same record with its hash in capital letters. -/
def shouted : IntentRecord :=
  record "7" (js "0xC5044497AAE50B4712FFBE528161296B43FE3B08CA1944044FF7B251FAE53F7E")

theorem record_intent (nonce : String) (hash : JsString) : (record nonce hash).intent = intent nonce :=
  rfl

def success : Input := .fill (.success (js "0x5e")) 1700000002000

def reopening : Input := .tick 1700000003000 1700000003000

def attempted : Session :=
  (next setup begun (.record served (answers 150))).get (by decide +kernel)

def filled : Session := (next setup attempted success).get (by decide +kernel)

def reopened : Session := (next setup filled reopening).get (by decide +kernel)

theorem attempted_next : next setup begun (.record served (answers 150)) = some attempted := by
  simp [attempted]

theorem filled_next : next setup attempted success = some filled := by
  simp [filled]

theorem reopened_next : next setup filled reopening = some reopened := by
  simp [reopened]

/-- A second record after the fill and the start of the next tick. -/
def againMoves (second : IntentRecord) : List (Session × Input) :=
  [(begun, .record served (answers 150)), (attempted, success), (filled, reopening),
    (reopened, .record second (answers 150))]

theorem again_run {second : IntentRecord} {last : Session}
    (stepped : next setup reopened (.record second (answers 150)) = some last) :
    (system setup).Run begun (againMoves second) last := by
  have first : (system setup).Run begun _ attempted := System.Run.nil.snoc attempted_next
  exact ((first.snoc filled_next).snoc reopened_next).snoc stepped

def deadlineOf : Phase → Int
  | .filling _ _ deadlineMs => deadlineMs
  | _ => 0

theorem attempted_phase : ∃ listedAt,
    attempted.phase = .filling listedAt served 1700010000000 := by
  have two : (events setup begun (.record served (answers 150))).length = 2 := by decide +kernel
  have due : deadlineOf attempted.phase = 1700010000000 := by decide +kernel
  obtain ⟨⟨listedAt, deadlineMs, filling⟩, _⟩ := attempts_of_length attempted_next two
  rw [filling] at due
  cases due
  exact ⟨listedAt, filling⟩

section repeated

variable {beginning filling settled taken : Session} {second : IntentRecord} {listedAt : Int}

/-- The second record is of the intent that has just been filled. -/
def repeated (waiting : filling.phase = .filling listedAt served 1700010000000)
    (same : second.intent = served.intent) :
    Repeat setup [(beginning, .record served (answers 150)), (filling, success),
      (settled, reopening), (taken, .record second (answers 150))] where
  before := [(beginning, .record served (answers 150))]
  filled := filling
  settlementTx := js "0x5e"
  settledAt := 1700000002000
  between := [(settled, reopening)]
  taken := taken
  record := second
  answers := answers 150
  after := []
  listedAt := listedAt
  first := served
  deadlineMs := 1700010000000
  split := rfl
  filling := waiting
  same := ⟨hash, rfl, by rw [same]; rfl⟩

theorem repeated_retained (waiting : filling.phase = .filling listedAt served 1700010000000)
    (same : second.intent = served.intent) (room : 0 < filling.solver.seen.maxSize) :
    (@repeated beginning filling settled taken _ _ waiting same).Retained := by
  apply Repeat.Retained.few
  · intro m member now looks
    cases List.mem_singleton.mp member
    cases looks
    show (1700000003000 : Int) ≤ 1700010000000
    decide
  · show (1700000000000 : Int) ≤ 1700010000000
    decide
  · exact room

theorem repeated_attempted (waiting : filling.phase = .filling listedAt served 1700010000000)
    (same : second.intent = served.intent)
    (again : .attempted second ∈ events setup taken (.record second (answers 150))) :
    (@repeated beginning filling settled taken _ _ waiting same).Attempted := again

end repeated

theorem attempted_room : 0 < attempted.solver.seen.maxSize := by decide +kernel

/-- Only the second step waits for the executor. -/
theorem again_letters (again : Repeat setup (againMoves served)) :
    again.record.hash = again.first.hash := by
  have records : ∀ m ∈ againMoves served, ∀ record answers, m.2 = .record record answers →
      record = served := by
    intro m member record answers asks
    simp only [againMoves, List.mem_cons, List.not_mem_nil, or_false] at member
    rcases member with rfl | rfl | rfl | rfl
    · cases asks
      rfl
    · cases asks
    · cases asks
    · cases asks
      rfl
  have fills : ∀ m ∈ againMoves served, ∀ result now, m.2 = .fill result now → m.1 = attempted := by
    intro m member result now settles
    simp only [againMoves, List.mem_cons, List.not_mem_nil, or_false] at member
    rcases member with rfl | rfl | rfl | rfl
    · cases settles
    · rfl
    · cases settles
    · cases settles
  have second : again.record = served := records _ again.taken_mem _ _ rfl
  have filled : again.filled = attempted := fills _ again.filled_mem _ _ rfl
  obtain ⟨listedAt, phase⟩ := attempted_phase
  have filling := again.filling
  rw [filled, phase] at filling
  have first : again.first = served := (Phase.filling.injEq .. ▸ filling).2.1.symm
  rw [second, first]

end Sample

theorem filled_once_sample : ∃ again : Repeat Sample.setup (Sample.againMoves Sample.served),
    again.Retained ∧ ¬ again.Attempted := by
  obtain ⟨listedAt, filling⟩ := Sample.attempted_phase
  have last : (next Sample.setup Sample.reopened
      (.record Sample.served (Sample.answers 150))).isSome = true := by
    decide +kernel
  obtain ⟨_, stepped⟩ := Option.isSome_iff_exists.mp last
  have retained := @Sample.repeated_retained Sample.begun Sample.attempted Sample.filled
    Sample.reopened Sample.served listedAt filling rfl Sample.attempted_room
  exact ⟨_, retained, filled_once (Sample.again_run stepped) Sample.again_letters _ retained⟩

/-- A filled intent that is served again with its hash in capitals is filled again. -/
theorem filled_again_in_capitals : isHash Sample.shouted.hash = true ∧
    (system Sample.setup).Reachable Sample.begun ∧
    ∃ last, (system Sample.setup).Run Sample.begun (Sample.againMoves Sample.shouted) last ∧
    ∃ again : Repeat Sample.setup (Sample.againMoves Sample.shouted),
      again.Retained ∧ again.Attempted := by
  have letters : isHash Sample.shouted.hash = true := by decide +kernel
  have began : next Sample.setup (start Sample.setup) (.tick 1700000000000 1700000000000) =
      some Sample.begun := by
    simp [Sample.begun]
  have last : (next Sample.setup Sample.reopened
      (.record Sample.shouted (Sample.answers 150))).isSome = true := by
    decide +kernel
  obtain ⟨last, stepped⟩ := Option.isSome_iff_exists.mp last
  obtain ⟨listedAt, filling⟩ := Sample.attempted_phase
  have two : (events Sample.setup Sample.reopened
      (.record Sample.shouted (Sample.answers 150))).length = 2 := by
    decide +kernel
  have again := (attempts_of_length stepped two).2
  have same : Sample.shouted.intent = Sample.served.intent :=
    (Sample.record_intent "7" _).trans (Sample.record_intent "7" _).symm
  have retained := @Sample.repeated_retained Sample.begun Sample.attempted Sample.filled
    Sample.reopened Sample.shouted listedAt filling same Sample.attempted_room
  have attempted := @Sample.repeated_attempted Sample.begun Sample.attempted Sample.filled
    Sample.reopened Sample.shouted listedAt filling same again
  exact ⟨letters, .step (.init rfl) began, last, Sample.again_run stepped, _, retained, attempted⟩

end Perihelion.SolverNode

import Perihelion.SolverNode.Resumption

/-! # Waiting for the registration

`readStatus` throws on every value that the contract returns.  What it would answer otherwise is
whether the intent is filled, which its callers compare with the names of statuses.  So neither the
start of an attempt nor its wait ever recognises a status: a wait ends with an ordinary error, at
the first poll that is answered or at the first after its cutoff.
-/

namespace Perihelion.SolverNode

open Sdk Logged

/-- The contract encodes an `Option<IntentStatus>` by the discriminant. -/
def retvalStatus : ScVal → Option Settlement.IntentStatus
  | .u32 n =>
      if n = 0 then some .locked
      else if n = 1 then some .filled
      else if n = 2 then some .confirmationSent
      else if n = 3 then some .cancelled
      else none
  | .void | .other => none

/-- The status that a reply carries. -/
def StatusReply.status : StatusReply → Option Settlement.IntentStatus
  | .returned retval => retvalStatus retval
  | _ => none

/-- A poll that finds the intent unregistered, with time left. -/
def Poll.Pending (cutoff : Int) (poll : Poll) : Prop :=
  (∀ err, poll.reply ≠ .threw err) ∧ poll.reply.status = none ∧ poll.now < cutoff

/-- Nothing has been sent to a chain. -/
def Unsent (log : List Effect) : Prop :=
  ∀ event ∈ log, (∀ intent signature value, event ≠ .lock intent signature value) ∧
    ∀ solver solverEvm hash amount fee, event ≠ .fillIntent solver solverEvm hash amount fee

/-- The network lets the fill through. -/
structure Serves (answers : FillAnswers) : Prop where
  getAccount : answers.getAccount = .ok ()
  quotedFee : ∃ fee, answers.quotedFee = .ok fee
  simulated : answers.simulated = .success

/-- The polls of an attempt up to one of them, all before it without a verdict. -/
def Polled (answers : FillAnswers) (cutoff : Int) (poll : Poll) : Prop :=
  ∃ before after, answers.polls = before ++ poll :: after ∧ ∀ earlier ∈ before, earlier.Pending cutoff

/-- What the statuses should bring about. -/
structure Heeds (libs : Libraries) (executor : Executor) (signed : SignedIntent) (cutoff : Int)
    (answers : FillAnswers) : Prop where
  settled : answers.status.status = some .filled ∨ answers.status.status = some .confirmationSent →
    (∃ filled, (fill libs executor signed answers).ending = .returned filled) ∧
      Unsent (fill libs executor signed answers).log
  registered : ∀ poll, Polled answers cutoff poll → poll.reply.status = some .locked →
    poll.now < cutoff → (waitForRegistration signed answers).ending = .returned () ∧
      (.stage signed.hash .wait ∈ (fill libs executor signed answers).log →
        answers.confirmed = .ok () → Serves answers →
        ∃ solver solverEvm hash amount fee,
          .fillIntent solver solverEvm hash amount fee ∈ (fill libs executor signed answers).log)
  cancelled : ∀ poll, Polled answers cutoff poll → poll.reply.status = some .cancelled →
    ∃ message, (waitForRegistration signed answers).ending = .failed (.definite message)
  bounded : ∀ before poll after, answers.polls = before ++ poll :: after → cutoff ≤ poll.now →
    (waitForRegistration signed { answers with polls := before ++ [poll] }).ending ≠ .waiting ∧
      (waitForRegistration signed answers).ending =
        (waitForRegistration signed { answers with polls := before ++ [poll] }).ending

/-! ## The loop -/

theorem readStatus_variant {hash : JsString} {reply : StatusReply} {variant : Variant}
    (read : readStatus hash reply = .ok variant) (text : JsString) : variant ≠ .string text := by
  rintro rfl
  cases reply with
  | threw err => cases read
  | unsuccessful =>
      cases bytes : hexToBytes hash with
      | error err => simp [readStatus, bytes, Except.map] at read
      | ok bytes' => simp [readStatus, bytes, Except.map] at read
  | returned retval =>
      obtain ⟨err, threw⟩ := readStatus_returned hash retval
      cases threw.symm.trans read

section loop

variable {hash : JsString} {cutoff : Int} {poll : Poll} {polls before after : List Poll}

/-- A poll either ends the wait with an ordinary error, or is followed by the next one. -/
theorem pollRegistration_cons : (∃ message, ∀ polls,
      pollRegistration hash cutoff (poll :: polls) = ⟨[], .failed (.other message)⟩) ∨
    poll.now < cutoff ∧ ∀ polls,
      pollRegistration hash cutoff (poll :: polls) = pollRegistration hash cutoff polls := by
  cases read : readStatus hash poll.reply with
  | error err =>
      refine Or.inl ⟨err, fun polls => ?_⟩
      unfold pollRegistration
      rw [read]
      rfl
  | ok variant =>
      have named := readStatus_variant read
      have asked (polls : List Poll) : pollRegistration hash cutoff (poll :: polls) =
          if cutoff ≤ poll.now then
            fail (.other (js "intent " ++ hash ++
              js " not registered before deadline headroom (status=" ++ variant.text ++ js ")"))
          else pollRegistration hash cutoff polls := by
        rw [pollRegistration, read]
        refine (bind_of_returned rfl _).trans ?_
        rw [if_neg (named _), if_neg (named _), if_neg (not_or.mpr ⟨named _, named _⟩)]
        rfl
      by_cases late : cutoff ≤ poll.now
      · exact Or.inl ⟨_, fun polls => (asked polls).trans (if_pos late)⟩
      · exact Or.inr ⟨Int.not_le.mp late, fun polls => (asked polls).trans (if_neg late)⟩

/-- The wait never returns, and never fails definitely. -/
theorem pollRegistration_ending : (pollRegistration hash cutoff polls).ending = .waiting ∨
    ∃ message, (pollRegistration hash cutoff polls).ending = .failed (.other message) := by
  induction polls with
  | nil => exact Or.inl rfl
  | cons poll polls ih =>
      rcases @pollRegistration_cons hash cutoff poll with ⟨message, ends⟩ | ⟨-, goes⟩
      · exact Or.inr ⟨message, by rw [ends]⟩
      · rw [goes]
        exact ih

/-- It is over with the first poll from the cutoff on, whatever comes after. -/
theorem pollRegistration_bounded (late : cutoff ≤ poll.now) :
    ∃ message, ∀ after, (pollRegistration hash cutoff (before ++ poll :: after)).ending =
      .failed (.other message) := by
  induction before with
  | nil =>
      rcases @pollRegistration_cons hash cutoff poll with ⟨message, ends⟩ | ⟨early, -⟩
      · exact ⟨message, fun after => by rw [List.nil_append, ends]⟩
      · exact absurd late (Int.not_le.mpr early)
  | cons first before ih =>
      rcases @pollRegistration_cons hash cutoff first with ⟨message, ends⟩ | ⟨-, goes⟩
      · exact ⟨message, fun after => by rw [List.cons_append, ends]⟩
      · obtain ⟨message, ends⟩ := ih
        exact ⟨message, fun after => by rw [List.cons_append, goes, ends]⟩

end loop

/-! ## The attempt -/

section attempt

variable {libs : Libraries} {executor : Executor} {signed : SignedIntent} {answers : FillAnswers}
  {deadline : Int}

theorem waitForRegistration_eq (whole : signed.intent.deadline.asInteger = some deadline)
    (answers : FillAnswers) : waitForRegistration signed answers =
      pollRegistration signed.hash (deadline - Executor.minFillHeadroomSecs) answers.polls := by
  have integer : toBigInt signed.intent.deadline = .ok deadline := by
    generalize signed.intent.deadline = number at whole
    cases number with
    | integer n =>
        obtain rfl := Option.some.inj whole
        rfl
    | other printed => cases whole
  unfold waitForRegistration
  rw [integer]
  exact bind_of_returned rfl _

theorem waitForRegistration_not_returned : (waitForRegistration signed answers).ending ≠ .returned () := by
  intro returned
  obtain ⟨deadline, -, polled⟩ := (bind_returned _ _ _).mp returned
  rcases @pollRegistration_ending signed.hash (deadline - Executor.minFillHeadroomSecs) answers.polls
    with waits | ⟨message, fails⟩
  · cases polled.symm.trans waits
  · cases polled.symm.trans fails

theorem lockStage_stage {locked : Progress}
    (returned : (lockStage libs executor signed answers).ending = .returned locked) :
    locked.stage = .wait := by
  unfold lockStage at returned
  obtain ⟨result, -, rest⟩ := (bind_returned _ _ _).mp returned
  extract_lets existing at rest
  split at rest
  · obtain ⟨solver, -, rest⟩ := (bind_returned _ _ _).mp rest
    split at rest
    · obtain ⟨_, -, rest⟩ := (bind_returned _ _ _).mp rest
      cases rest
    · split at rest
      · cases rest
      · obtain ⟨_, -, rest⟩ := (bind_returned _ _ _).mp rest
        cases rest
        rfl
  · obtain ⟨sent, -, rest⟩ := (bind_returned _ _ _).mp rest
    obtain ⟨_, -, rest⟩ := (bind_returned _ _ _).mp rest
    cases rest
    rfl

theorem waitStage_not_returned {lockTx : Option JsString} {reached : FillStage} :
    (waitStage executor signed answers lockTx).ending ≠ .returned reached := by
  intro returned
  unfold waitStage at returned
  split at returned
  · obtain ⟨_, -, rest⟩ := (bind_returned _ _ _).mp returned
    obtain ⟨_, waited, -⟩ := (bind_returned _ _ _).mp rest
    exact waitForRegistration_not_returned waited
  · obtain ⟨_, waited, -⟩ := (bind_returned _ _ _).mp returned
    exact waitForRegistration_not_returned waited

/-- An attempt never gets past its wait. -/
theorem fill_not_returned (loads : executor.loadStage = none) {filled : Filled} :
    (fill libs executor signed answers).ending ≠ .returned filled := by
  rw [fill_eq loads]
  intro returned
  obtain ⟨locked, locks, rest⟩ := (bind_returned _ _ _).mp returned
  obtain ⟨reached, waited, -⟩ := (bind_returned _ _ _).mp rest
  rw [if_pos (lockStage_stage locks)] at waited
  exact waitStage_not_returned waited

end attempt

/-- An attempt heeds the statuses exactly if there is none to heed: the intent is not filled at its
    start, and while it waits no poll in time finds it registered or cancelled. -/
theorem heeds_iff {libs : Libraries} {config : ExecutorConfig} {signed : SignedIntent} {deadline : Int}
    (whole : signed.intent.deadline.asInteger = some deadline) (answers : FillAnswers) :
    Heeds libs (Executor.new config) signed (deadline - Executor.minFillHeadroomSecs) answers ↔
      (answers.status.status ≠ some .filled ∧ answers.status.status ≠ some .confirmationSent) ∧
      ∀ poll, Polled answers (deadline - Executor.minFillHeadroomSecs) poll →
        ¬ (poll.reply.status = some .locked ∧ poll.now < deadline - Executor.minFillHeadroomSecs) ∧
          poll.reply.status ≠ some .cancelled := by
  constructor
  · intro heeds
    refine ⟨⟨?_, ?_⟩, fun poll polled => ⟨?_, ?_⟩⟩
    · intro filled
      obtain ⟨⟨_, returned⟩, -⟩ := heeds.settled (Or.inl filled)
      exact fill_not_returned rfl returned
    · intro confirmed
      obtain ⟨⟨_, returned⟩, -⟩ := heeds.settled (Or.inr confirmed)
      exact fill_not_returned rfl returned
    · rintro ⟨locked, inTime⟩
      exact waitForRegistration_not_returned (heeds.registered poll polled locked inTime).1
    · intro cancelled
      obtain ⟨message, fails⟩ := heeds.cancelled poll polled cancelled
      rw [waitForRegistration_eq whole] at fails
      rcases @pollRegistration_ending signed.hash (deadline - Executor.minFillHeadroomSecs)
        answers.polls with waits | ⟨_, other⟩
      · cases fails.symm.trans waits
      · cases fails.symm.trans other
  · rintro ⟨⟨notFilled, notConfirmed⟩, unnoticed⟩
    constructor
    · rintro (filled | confirmed)
      · exact absurd filled notFilled
      · exact absurd confirmed notConfirmed
    · intro poll polled locked inTime
      exact absurd ⟨locked, inTime⟩ (unnoticed poll polled).1
    · intro poll polled cancelled
      exact absurd cancelled (unnoticed poll polled).2
    · intro before poll after polls late
      obtain ⟨message, ends⟩ := @pollRegistration_bounded signed.hash
        (deadline - Executor.minFillHeadroomSecs) poll before late
      rw [waitForRegistration_eq whole, waitForRegistration_eq whole, polls, ends, ends]
      exact ⟨nofun, rfl⟩

namespace Sample

/-- An attempt on the sample intent that sees these statuses, and then asks no further. -/
def polling (status : StatusReply) (polls : List Poll) : FillAnswers :=
  { lockedAttempt.answers with status := status, polls := polls }

/-- `Locked`, two hours before the deadline. -/
def inTime : Poll := ⟨.returned (.u32 0), 1700002800⟩

/-- Not registered, half a minute before the deadline. -/
def tooLate : Poll := ⟨.returned .void, 1700009970⟩

end Sample

/-- A wait for a registration that does not come. -/
theorem heeds_sample : Heeds Sample.libs (Executor.new Sample.executorConfig) Sample.signed
    (1700010000 - Executor.minFillHeadroomSecs)
    (Sample.polling (.returned .void) [Sample.tooLate]) := by
  refine (@heeds_iff Sample.libs Sample.executorConfig Sample.signed 1700010000 rfl
    (Sample.polling (.returned .void) [Sample.tooLate])).mpr ⟨⟨nofun, nofun⟩, ?_⟩
  rintro poll ⟨before, after, polls, -⟩
  have member : poll ∈ [Sample.tooLate] := by
    rw [show [Sample.tooLate] = before ++ poll :: after from polls]
    exact List.mem_append_right _ List.mem_cons_self
  rw [List.mem_singleton.mp member]
  exact ⟨nofun, nofun⟩

/-- The registration is there two hours before the deadline, and ends the attempt with an error. -/
theorem registration_unnoticed :
    Sample.inTime.reply.status = some .locked ∧
    Sample.inTime.now < 1700010000 - Executor.minFillHeadroomSecs ∧
    Serves (Sample.polling (.returned .void) [Sample.inTime]) ∧
    (waitForRegistration Sample.signed (Sample.polling (.returned .void) [Sample.inTime])).ending =
      .failed (.other (js "Unexpected IntentStatus value: [object Object]")) ∧
    ¬ Heeds Sample.libs (Executor.new Sample.executorConfig) Sample.signed
      (1700010000 - Executor.minFillHeadroomSecs)
      (Sample.polling (.returned .void) [Sample.inTime]) := by
  have fails : (waitForRegistration Sample.signed
      (Sample.polling (.returned .void) [Sample.inTime])).ending =
      .failed (.other (js "Unexpected IntentStatus value: [object Object]")) := by
    rw [@waitForRegistration_eq Sample.signed 1700010000 rfl]
    rfl
  refine ⟨rfl, by decide, ⟨rfl, ⟨5, rfl⟩, rfl⟩, fails, ?_⟩
  intro heeds
  have polled : Polled (Sample.polling (.returned .void) [Sample.inTime])
      (1700010000 - Executor.minFillHeadroomSecs) Sample.inTime := ⟨[], [], rfl, nofun⟩
  cases fails.symm.trans (heeds.registered Sample.inTime polled rfl (by decide)).1

end Perihelion.SolverNode

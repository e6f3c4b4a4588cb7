import Perihelion.Escrow.Machine
import Perihelion.SolverNode.Executor
import Perihelion.SolverNode.Profit

/-! # Attempts at one fill

The escrow's getter names the solver first and the user second; `getLock` takes them the other way
round.  An attempt then compares the user with its own address, and takes the asset for the mark
of a release.
-/

namespace Perihelion.SolverNode

open Sdk Logged

/-- One call of `fill`, and the lock that the escrow had for the intent when it asked. -/
structure Attempt where
  lock : Escrow.Lock
  answers : FillAnswers
  /-- The getter's outputs, in the contract's order, unless the call fails. -/
  reads : answers.locks = .ok (locksOutput lock) ∨ ∃ err, answers.locks = .error err

/-- A live lock of the solver's own. -/
def OwnLock (own : Escrow.Address) (lock : Escrow.Lock) : Prop :=
  lock.user ≠ 0 ∧ lock.solver = own ∧ lock.released = false ∧ lock.refunded = false

instance (own : Escrow.Address) (lock : Escrow.Lock) : Decidable (OwnLock own lock) :=
  inferInstanceAs (Decidable (_ ∧ _))

/-- The lock of another solver. -/
def OtherLock (own : Escrow.Address) (lock : Escrow.Lock) : Prop := lock.user ≠ 0 ∧ lock.solver ≠ own

/-- A live lock of its own is taken up and not made again.  An intent is retired if it is
    another's, and only then. -/
structure Resumes (own : Escrow.Address) (hash : JsString) (attempt : Attempt) (log : List Effect) :
    Prop where
  resumed : OwnLock own attempt.lock → (∃ result, attempt.answers.locks = .ok result) →
    .stage hash .wait ∈ log
  once : OwnLock own attempt.lock → ∀ intent signature value, .lock intent signature value ∉ log
  kept : OwnLock own attempt.lock → .stage hash .lost ∉ log
  retired : (∃ result, attempt.answers.locks = .ok result) →
    (.stage hash .lost ∈ log ↔ OtherLock own attempt.lock)

/-- Reading user and solver in each other's place makes no difference. -/
def SwapHarmless (own : Escrow.Address) (lock : Escrow.Lock) : Prop :=
  ¬ OwnLock own lock ∧
    ((lock.solver ≠ 0 ∧ lock.user ≠ own) ∧ OtherLock own lock ∨
      (lock.solver = 0 ∨ lock.user = own) ∧ ¬ OtherLock own lock)

/-! ## The stages of one attempt -/

section attempt

variable {libs : Libraries} {executor : Executor} {signed : SignedIntent} {answers : FillAnswers}
  {hash : JsString}

/-- The status is never the text that would end the attempt. -/
theorem checkFillStatus_filled (hash : JsString) (reply : StatusReply) :
    (checkFillStatus hash reply).filled = false := by
  have settled : isSettled hash reply ≠ .ok true := by
    unfold isSettled
    cases reply with
    | threw err => simp [readStatus, Except.map]
    | unsuccessful => cases bytes : hexToBytes hash <;> simp [readStatus, bytes, Except.map]
    | returned retval =>
        obtain ⟨err, read⟩ := readStatus_returned hash retval
        rw [read]
        intro same
        cases same
  unfold checkFillStatus
  split
  · rename_i same
    exact absurd same settled
  · rfl

theorem log_setStage (persists : executor.persistStage = none) (stage : FillStage) :
    setStage executor hash stage = ⟨[.stage hash stage], .returned ⟨⟩⟩ := by
  unfold setStage
  rw [persists]
  rfl

/-- What follows the lock stage. -/
def onwards (libs : Libraries) (executor : Executor) (signed : SignedIntent) (answers : FillAnswers)
    (locked : Progress) : Promise Filled :=
  (if locked.stage = .wait then waitStage executor signed answers locked.lockTx
    else pure locked.stage) >>= fun reached =>
  if reached = .fill then fillStage libs executor signed answers { locked with stage := reached }
  else fail (.other (js "fill for " ++ signed.hash ++ js " cannot proceed from stage " ++ reached.text))

/-- Without a persisted stage every attempt begins with the lock. -/
theorem fill_eq (loads : executor.loadStage = none) :
    fill libs executor signed answers =
      lockStage libs executor signed answers >>= onwards libs executor signed answers := by
  unfold fill
  simp only [checkFillStatus_filled, Bool.false_eq_true, if_false, loadStage, loads]
  refine congrArg (lockStage libs executor signed answers >>= ·) (funext fun locked => ?_)
  unfold onwards
  by_cases waiting : locked.stage = .wait
  · simp only [if_pos waiting]
  · simp only [if_neg waiting]

theorem log_answer {α : Type} (reply : Except JsString α) : (answer reply).log = [] :=
  log_ofExcept _

theorem log_pollRegistration (cutoff : Int) (polls : List Poll) :
    (pollRegistration hash cutoff polls).log = [] := by
  rw [List.eq_nil_iff_forall_not_mem]
  intro event logged
  induction polls with
  | nil => simp [pollRegistration] at logged
  | cons poll polls ih =>
      unfold pollRegistration at logged
      rcases (mem_log_bind _ _ _).mp logged with asked | ⟨variant, -, logged⟩
      · simp [log_answer] at asked
      · split at logged
        · simp at logged
        · split at logged
          · simp at logged
          · split at logged
            · simp at logged
            · split at logged
              · simp at logged
              · exact ih logged

theorem log_waitForRegistration : (waitForRegistration signed answers).log = [] := by
  rw [List.eq_nil_iff_forall_not_mem]
  intro event logged
  rcases (mem_log_bind _ _ _).mp logged with asked | ⟨deadline, -, polled⟩
  · simp [log_answer] at asked
  · simp [log_pollRegistration] at polled

theorem log_waitForSourceConfirmations : (waitForSourceConfirmations executor answers).log = [] := by
  unfold waitForSourceConfirmations
  split
  · rfl
  · exact log_answer _

theorem mem_waitStage (persists : executor.persistStage = none) {lockTx : Option JsString}
    {event : Effect} (logged : event ∈ (waitStage executor signed answers lockTx).log) :
    event = .stage signed.hash .fill := by
  have staged : event ∈ (setStage executor signed.hash .fill).log → event = .stage signed.hash .fill := by
    rw [log_setStage persists]
    exact List.mem_singleton.mp
  unfold waitStage at logged
  split at logged
  · simp only [mem_log_bind, log_waitForSourceConfirmations, log_waitForRegistration, log_pure,
      List.not_mem_nil, false_or, and_false, exists_false, or_false] at logged
    obtain ⟨_, _, _, _, logged⟩ := logged
    exact staged logged
  · simp only [mem_log_bind, log_waitForRegistration, log_pure, List.not_mem_nil, false_or,
      and_false, exists_false, or_false] at logged
    obtain ⟨_, _, logged⟩ := logged
    exact staged logged

/-- The effects of the last two stages. -/
def Late (hash : JsString) : Effect → Prop
  | .stage h stage => h = hash ∧ (stage = .fill ∨ stage = .done)
  | .lock _ _ _ => False
  | .fillIntent _ _ _ _ _ => True

theorem mem_fillOnSoroban {event : Effect}
    (logged : event ∈ (fillOnSoroban libs executor signed answers).log) : Late signed.hash event := by
  unfold fillOnSoroban at logged
  simp only [mem_log_bind, log_answer, List.not_mem_nil, false_or] at logged
  obtain ⟨_, _, hashBytes, _, quotedFee, _, logged⟩ := logged
  split at logged
  · simp at logged
  · split at logged
    · simp at logged
    · simp at logged
    · simp only [mem_log_bind, log_note, log_answer, List.not_mem_nil, and_false, exists_false,
        or_false, List.mem_singleton] at logged
      rw [logged]
      trivial

theorem mem_fillStage (persists : executor.persistStage = none) {progress : Progress} {event : Effect}
    (logged : event ∈ (fillStage libs executor signed answers progress).log) :
    Late signed.hash event := by
  unfold fillStage at logged
  simp only [mem_log_bind, log_setStage persists, log_pure, List.not_mem_nil, and_false, exists_false,
    or_false] at logged
  rcases logged with earlier | ⟨_, _, logged⟩
  · exact mem_fillOnSoroban earlier
  · rw [List.mem_singleton.mp logged]
    exact ⟨rfl, Or.inr rfl⟩

theorem mem_onwards (persists : executor.persistStage = none) {locked : Progress} {event : Effect}
    (logged : event ∈ (onwards libs executor signed answers locked).log) : Late signed.hash event := by
  unfold onwards at logged
  rcases (mem_log_bind _ _ _).mp logged with waiting | ⟨reached, -, logged⟩
  · split at waiting
    · rw [mem_waitStage persists waiting]
      exact ⟨rfl, Or.inl rfl⟩
    · simp at waiting
  · split at logged
    · exact mem_fillStage persists logged
    · simp at logged

theorem mem_lockOnEvm {event : Effect} (logged : event ∈ (lockOnEvm libs signed answers).log) :
    ∃ intent value, event = .lock intent signed.signature value := by
  unfold lockOnEvm at logged
  simp only [mem_log_bind, log_answer, List.not_mem_nil, false_or, log_note] at logged
  obtain ⟨intent, _, nativeFee, _, sent | ⟨_, _, logged⟩⟩ := logged
  · exact ⟨intent, nativeFee, List.mem_singleton.mp sent⟩
  · split at logged
    · simp at logged
    · simp at logged
    · simp [mem_log_bind, log_answer] at logged

theorem lockOnEvm_sends {result : LockResult}
    (returned : (lockOnEvm libs signed answers).ending = .returned result) :
    ∃ intent value, .lock intent signed.signature value ∈ (lockOnEvm libs signed answers).log := by
  unfold lockOnEvm at returned ⊢
  obtain ⟨intent, encoded, rest⟩ := (bind_returned _ _ _).mp returned
  obtain ⟨nativeFee, quoted, -⟩ := (bind_returned _ _ _).mp rest
  refine ⟨intent, nativeFee, ?_⟩
  simp only [mem_log_bind, log_note]
  exact Or.inr ⟨intent, encoded, Or.inr ⟨nativeFee, quoted, Or.inl List.mem_cons_self⟩⟩

/-- What the lock stage does with the lock that it reads. -/
theorem lockStage_eq (persists : executor.persistStage = none) {lock : Escrow.Lock}
    (reads : answers.locks = .ok (locksOutput lock)) :
    (lock.solver = 0 ∧ lockStage libs executor signed answers =
        (lockOnEvm libs signed answers >>= fun locked =>
          setStage executor signed.hash .wait >>= fun _ =>
            pure ⟨.wait, some locked.txHash, locked.gasWei, locked.lzFeeWei⟩)) ∨
      ((lock.solver ≠ 0 ∧ lock.user ≠ executor.address libs) ∧ ∃ failure,
        lockStage libs executor signed answers = ⟨[.stage signed.hash .lost], .failed failure⟩) ∨
      ((lock.solver ≠ 0 ∧ lock.user = executor.address libs) ∧ ∃ failure,
        lockStage libs executor signed answers = ⟨[], .failed failure⟩) := by
  have asked (f : List AbiValue → Promise Progress) :
      answer answers.locks >>= f = f (locksOutput lock) := by
    rw [reads]
    exact bind_of_returned rfl f
  have named (f : Escrow.Address → Promise Progress) :
      answer (AbiValue.toLowerCase (.address lock.user)) >>= f = f lock.user := bind_of_returned rfl f
  by_cases vacant : lock.solver = 0
  · refine Or.inl ⟨vacant, ?_⟩
    unfold lockStage
    rw [asked]
    simp [getLock, locksOutput, vacant]
  · have present : AbiValue.address lock.solver ≠ .address 0 := fun same =>
      vacant (AbiValue.address.inj same)
    by_cases swapped : lock.user = executor.address libs
    · refine Or.inr (Or.inr ⟨⟨vacant, swapped⟩, ?_⟩)
      unfold lockStage
      rw [asked]
      refine ⟨.definite (js "intent " ++ signed.hash ++ js " lock already " ++ js "released"), ?_⟩
      exact (if_pos present).trans ((named _).trans (if_neg (not_not.mpr swapped)))
    · refine Or.inr (Or.inl ⟨⟨vacant, swapped⟩, ?_⟩)
      unfold lockStage
      rw [asked]
      refine ⟨.definite (js "intent " ++ signed.hash ++ js " already locked by another solver " ++
        libs.getAddress lock.user), ?_⟩
      refine (if_pos present).trans ((named _).trans ((if_pos swapped).trans ?_))
      rw [log_setStage persists]
      rfl

/-- Nothing happens in an attempt that cannot read the lock. -/
theorem log_of_unread (loads : executor.loadStage = none) {err : JsString}
    (fails : answers.locks = .error err) : (fill libs executor signed answers).log = [] := by
  rw [fill_eq loads, List.eq_nil_iff_forall_not_mem]
  intro event logged
  have stuck : lockStage libs executor signed answers = ⟨[], .failed (.other err)⟩ := by
    unfold lockStage
    rw [fails]
    rfl
  rw [stuck] at logged
  rcases (mem_log_bind _ _ _).mp logged with earlier | ⟨_, ended, -⟩
  · cases earlier
  · cases ended

/-- Who is retired is read off the two addresses in each other's place, and the wait is reached
    only behind a lock of the attempt's own. -/
theorem fill_effects (persists : executor.persistStage = none) (loads : executor.loadStage = none)
    {lock : Escrow.Lock} (reads : answers.locks = .ok (locksOutput lock)) :
    (.stage signed.hash .lost ∈ (fill libs executor signed answers).log ↔
      lock.solver ≠ 0 ∧ lock.user ≠ executor.address libs) ∧
    (.stage signed.hash .wait ∈ (fill libs executor signed answers).log →
      ∃ intent signature value,
        .lock intent signature value ∈ (fill libs executor signed answers).log) := by
  rw [fill_eq loads]
  rcases @lockStage_eq libs executor signed answers persists lock reads with
    ⟨vacant, locks⟩ | ⟨other, failure, locks⟩ | ⟨own, failure, locks⟩
  · have staged {stage : FillStage} (early : stage ≠ .fill ∧ stage ≠ .done)
        (logged : .stage signed.hash stage ∈
          (lockStage libs executor signed answers >>= onwards libs executor signed answers).log) :
        stage = .wait ∧ ∃ result, (lockOnEvm libs signed answers).ending = .returned result := by
      rcases (mem_log_bind _ _ _).mp logged with locking | ⟨_, _, later⟩
      · rw [locks] at locking
        rcases (mem_log_bind _ _ _).mp locking with sent | ⟨result, sent, waiting⟩
        · obtain ⟨_, _, same⟩ := mem_lockOnEvm sent
          cases same
        · rcases (mem_log_bind _ _ _).mp waiting with marked | ⟨_, _, none⟩
          · rw [log_setStage persists] at marked
            cases List.mem_singleton.mp marked
            exact ⟨rfl, result, sent⟩
          · cases none
      · rcases (mem_onwards persists later).2 with same | same
        · exact absurd same early.1
        · exact absurd same early.2
    constructor
    · apply iff_of_false
      · intro lost
        cases (@staged .lost (by decide) lost).1
      · intro given
        exact given.1 vacant
    · intro waits
      obtain ⟨-, result, returned⟩ := @staged .wait (by decide) waits
      obtain ⟨intent, value, sent⟩ := lockOnEvm_sends returned
      refine ⟨intent, signed.signature, value, (mem_log_bind _ _ _).mpr (Or.inl ?_)⟩
      rw [locks]
      exact (mem_log_bind _ _ _).mpr (Or.inl sent)
  · rw [locks]
    have log : (⟨[.stage signed.hash .lost], .failed failure⟩ >>= onwards libs executor signed answers :
        Promise Filled).log = [.stage signed.hash .lost] := rfl
    rw [log]
    refine ⟨iff_of_true List.mem_cons_self other, ?_⟩
    intro waits
    cases List.mem_singleton.mp waits
  · rw [locks]
    have log : (⟨[], .failed failure⟩ >>= onwards libs executor signed answers :
        Promise Filled).log = [] := rfl
    rw [log]
    exact ⟨iff_of_false List.not_mem_nil fun given => given.2 own.2, nofun⟩

end attempt

/-- An attempt does what is claimed exactly if it cannot read the lock, or if it makes no
    difference that it takes the user for the solver. -/
theorem resumes_iff {libs : Libraries} {config : ExecutorConfig} {signed : SignedIntent}
    (attempt : Attempt) :
    Resumes (libs.privateKeyToAccount config.evmPrivateKey) signed.hash attempt
        (fill libs (Executor.new config) signed attempt.answers).log ↔
      (∃ err, attempt.answers.locks = .error err) ∨
        SwapHarmless (libs.privateKeyToAccount config.evmPrivateKey) attempt.lock := by
  rcases attempt.reads with reads | ⟨err, fails⟩
  · obtain ⟨lost, waits⟩ := @fill_effects libs (Executor.new config) signed attempt.answers rfl rfl
      attempt.lock reads
    have read : ∃ result, attempt.answers.locks = .ok result := ⟨_, reads⟩
    have answered : ¬ ∃ err, attempt.answers.locks = .error err := by
      rintro ⟨err, fails⟩
      cases reads.symm.trans fails
    have own : (Executor.new config).address libs = libs.privateKeyToAccount config.evmPrivateKey := rfl
    rw [own] at lost
    constructor
    · intro resumes
      refine Or.inr ⟨?_, ?_⟩
      · intro owned
        obtain ⟨_, _, _, sent⟩ := waits (resumes.resumed owned read)
        exact resumes.once owned _ _ _ sent
      · have same := lost.symm.trans (resumes.retired read)
        by_cases other : OtherLock (libs.privateKeyToAccount config.evmPrivateKey) attempt.lock
        · exact Or.inl ⟨same.mpr other, other⟩
        · refine Or.inr ⟨?_, other⟩
          have passed := fun given => other (same.mp given)
          by_cases vacant : attempt.lock.solver = 0
          · exact Or.inl vacant
          · exact Or.inr (not_not.mp fun different => passed ⟨vacant, different⟩)
    · rintro (fails | ⟨notOwn, verdict⟩)
      · exact absurd fails answered
      · have retired : .stage signed.hash .lost ∈
            (fill libs (Executor.new config) signed attempt.answers).log ↔
            OtherLock (libs.privateKeyToAccount config.evmPrivateKey) attempt.lock := by
          rw [lost]
          rcases verdict with ⟨swapped, other⟩ | ⟨swapped, other⟩
          · exact iff_of_true swapped other
          · refine iff_of_false ?_ other
            rintro ⟨present, different⟩
            exact swapped.elim present different
        exact ⟨fun owned => absurd owned notOwn, fun owned => absurd owned notOwn,
          fun owned => absurd owned notOwn, fun _ => retired⟩
  · have log := @log_of_unread libs (Executor.new config) signed attempt.answers rfl err fails
    rw [log]
    refine iff_of_true ⟨?_, fun _ _ _ _ => List.not_mem_nil, fun _ => List.not_mem_nil, ?_⟩
      (Or.inl ⟨err, fails⟩)
    · rintro _ ⟨result, reads⟩
      cases fails.symm.trans reads
    · rintro ⟨result, reads⟩
      cases fails.symm.trans reads

/-- Over all attempts at a fill, in any number and whatever fails in between. -/
theorem attempts_resume_iff {libs : Libraries} {config : ExecutorConfig} {signed : SignedIntent}
    (attempts : List Attempt) :
    (∀ attempt ∈ attempts, Resumes (libs.privateKeyToAccount config.evmPrivateKey) signed.hash attempt
        (fill libs (Executor.new config) signed attempt.answers).log) ↔
      ∀ attempt ∈ attempts, (∃ err, attempt.answers.locks = .error err) ∨
        SwapHarmless (libs.privateKeyToAccount config.evmPrivateKey) attempt.lock := by
  constructor
  · intro resume attempt member
    exact (resumes_iff attempt).mp (resume attempt member)
  · intro harmless attempt member
    exact (resumes_iff attempt).mpr (harmless attempt member)

namespace Sample

/-- The key is that of the solver that has locked the sample intent on the escrow. -/
def libs : Libraries where
  isAddress := viem.isAddress
  toAddress := viem.toAddress
  privateKeyToAccount _ := Escrow.Sample.solver
  getAddress account := js "0x" ++ js (toString account.toNat)
  toBytes32 _ := 0
  encodingError _ := js "InvalidAddressError"
  publicKey _ := js "GADQOBYHA4DQOBYHA4DQOBYHA4DQOBYHA4DQOBYHA4DQOBYHA4DQOZPI"

def executorConfig : ExecutorConfig := ⟨js "0x01", js "S", none, none, none, none⟩

def signed : SignedIntent :=
  ⟨intent "7", js "0x11", js "0xc5044497aae50b4712ffbe528161296b43fe3b08ca1944044ff7b251fae53f7e"⟩

/-- Only the getter is asked before the attempt ends. -/
def lockedAttempt : Attempt where
  lock := Escrow.Sample.locked.locks Escrow.Sample.intentHash
  answers := {
    status := .returned .void
    locks := .ok (locksOutput (Escrow.Sample.locked.locks Escrow.Sample.intentHash))
    quoteFee := .ok 5
    written := .broadcast (js "0x22")
    receipt := .ok ⟨none, none⟩
    confirmed := .ok ()
    polls := []
    getAccount := .ok ()
    quotedFee := .ok 5
    simulated := .success
    submitted := .ok (js "33") }
  reads := Or.inl rfl

end Sample

/-- The solver locks the sample intent; its next attempt retires the intent as another's. -/
theorem own_lock_retired :
    (Escrow.system Escrow.Sample.deployment).Reachable Escrow.Sample.locked ∧
    Sample.lockedAttempt.lock = Escrow.Sample.locked.locks Escrow.Sample.intentHash ∧
    OwnLock (Sample.libs.privateKeyToAccount Sample.executorConfig.evmPrivateKey)
      Sample.lockedAttempt.lock ∧
    .stage Sample.signed.hash .lost ∈
      (fill Sample.libs (Executor.new Sample.executorConfig) Sample.signed
        Sample.lockedAttempt.answers).log := by
  refine ⟨Escrow.Sample.locked_reachable, by simp only [Sample.lockedAttempt], by decide +kernel, ?_⟩
  have reads : Sample.lockedAttempt.answers.locks = .ok (locksOutput Sample.lockedAttempt.lock) := by
    simp only [Sample.lockedAttempt]
  exact (@fill_effects Sample.libs (Executor.new Sample.executorConfig) Sample.signed
    Sample.lockedAttempt.answers rfl rfl Sample.lockedAttempt.lock reads).1.mpr (by decide +kernel)

end Perihelion.SolverNode

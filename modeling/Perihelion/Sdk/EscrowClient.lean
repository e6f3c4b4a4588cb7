import Perihelion.Escrow.Lifecycle
import Perihelion.Escrow.Pausing
import Perihelion.Escrow.Refund

/-! # The SDK's reading of a refund

`refundStatus` evaluates the checks of `cancelExpired` at one block.  Its verdict is
exact there.  How long it stands depends on the grace, which the owner may raise.
-/

namespace Perihelion.Sdk

open BigEndian Fallible Transition Escrow

/-- Why `cancelExpired` would revert, named after the contract's errors. -/
inductive RefundBlocker
  | notLocked
  | alreadyFinalized
  | deadlineNotPassed
  deriving DecidableEq

def RefundBlocker.revert : RefundBlocker → Revert
  | .notLocked => .notLocked
  | .alreadyFinalized => .alreadyFinalized
  | .deadlineNotPassed => .deadlineNotPassed

structure RefundStatus where
  refundable : Bool
  reason : Option RefundBlocker
  lock : Option Lock
  refundableAt : Option Nat
  blockNumber : Nat
  blockTimestamp : Nat

/-- A block, with the escrow as it stands after it. -/
structure Block where
  number : Nat
  timestamp : Nat
  escrow : World
  past : escrow.timestamp ≤ timestamp

/-- The getter answers zeros for an unknown hash. -/
def readLock (intentHash : Bytes32) (block : Block) : Option Lock :=
  let l := block.escrow.locks intentHash
  if l.user = 0 then none else some l

def refundStatus (intentHash : Bytes32) (block : Block) : RefundStatus :=
  let grace := block.escrow.confirmationGrace
  match readLock intentHash block with
  | none => ⟨false, some .notLocked, none, none, block.number, block.timestamp⟩
  | some l =>
      let refundableAt := l.deadline + grace
      if l.released || l.refunded then
        ⟨false, some .alreadyFinalized, some l, some refundableAt, block.number, block.timestamp⟩
      else if block.timestamp < refundableAt then
        ⟨false, some .deadlineNotPassed, some l, some refundableAt, block.number, block.timestamp⟩
      else ⟨true, none, some l, some refundableAt, block.number, block.timestamp⟩

/-! ## The verdict is exact -/

/-- What `cancelExpired` checks of a lock before it moves anything. -/
structure Due (w : World) (intentHash : Bytes32) (now : Nat) : Prop where
  recorded : (w.locks intentHash).user ≠ 0
  live : (w.locks intentHash).finalized = false
  late : (w.locks intentHash).deadline + w.confirmationGrace ≤ now

/-- Whoever calls `cancelExpired` at `now`, only the token's own answer can make it revert. -/
def PassesChecks (d : Deployment) (w : World) (intentHash : Bytes32) (now : Nat) : Prop :=
  ∀ tx : Tx, tx.call = .cancelExpired intentHash → tx.value = 0 → tx.timestamp = now →
    ∀ e, exec d tx w = .error e → e = .transferFailed ∨ e = .malformedAbi

theorem refundable_iff_due {intentHash : Bytes32} {block : Block} :
    (refundStatus intentHash block).refundable = true ↔
      Due block.escrow intentHash block.timestamp := by
  unfold refundStatus readLock
  by_cases vacant : (block.escrow.locks intentHash).user = 0
  · simp only [vacant, if_true, Bool.false_eq_true, false_iff]
    exact fun due => due.recorded vacant
  · simp only [vacant, if_false]
    split
    · rename_i final
      simp only [Bool.false_eq_true, false_iff]
      exact fun due => absurd (final.symm.trans due.live) (by simp)
    · rename_i live
      split
      · rename_i early
        simp only [Bool.false_eq_true, false_iff]
        exact fun due => absurd due.late (Nat.not_le.mpr early)
      · rename_i late
        simp only [true_iff]
        exact ⟨vacant, Bool.eq_false_of_not_eq_true live, Nat.not_lt.mp late⟩

/-- Once it is done with its own checks a settlement fails only through the token. -/
theorem settle_error {c : Context} {purpose intentHash mark receiver} {w : World} {e : Revert}
    (owed : (w.locks intentHash).amount ≤ w.totalLocked (w.locks intentHash).asset)
    (failed : settle c purpose intentHash mark receiver w = .error e) :
    e = .transferFailed ∨ e = .malformedAbi := by
  simp only [settle, bind_error, subChecked_error, subChecked_ok] at failed
  rcases failed with ⟨short, -⟩ | ⟨_, -, failed⟩
  · omega
  · simp only [safeTransfer, bind_error, require_error, expect_error] at failed
    rcases failed with ⟨-, failed⟩ | ⟨-, -, ⟨-, failed⟩ | ⟨-, -, ⟨-, failed⟩ | ⟨data, -, failed⟩⟩⟩
    · exact Or.inl failed.symm
    · exact Or.inl failed.symm
    · exact Or.inl failed.symm
    · rcases failed with failed | ⟨_, -, ⟨-, failed⟩ | ⟨_, -, impossible⟩⟩
      · unfold tokenSucceeded decodeBool at failed
        split at failed
        · cases failed
        · split at failed
          · cases failed
            exact Or.inr rfl
          · split at failed
            · cases failed
            · cases failed
            · cases failed
              exact Or.inr rfl
      · exact Or.inl failed.symm
      · cases impossible

theorem cancelExpired_error {c : Context} {intentHash : Bytes32} {w : World} {e : Revert}
    (idle : w.reentrancy = 1) (due : Due w intentHash w.timestamp)
    (fits : (w.locks intentHash).deadline + w.confirmationGrace < uint256)
    (owed : (w.locks intentHash).amount ≤ w.totalLocked (w.locks intentHash).asset)
    (failed : Escrow.cancelExpired c intentHash w = .error e) :
    e = .transferFailed ∨ e = .malformedAbi := by
  have late := due.late
  simp only [Escrow.cancelExpired, nonReentrant, bind_error, require_error, require_ok,
    exists_const, addBelow_error, addBelow_ok] at failed
  rcases failed with ⟨busy, -⟩ | ⟨-, failed | ⟨_, -, impossible⟩⟩
  · exact absurd idle busy
  · rcases failed with ⟨vacant, -⟩ | ⟨-, ⟨final, -⟩ | ⟨-, ⟨overflow, -⟩ | ⟨_, ⟨-, rfl⟩, failed⟩⟩⟩
    · exact absurd due.recorded vacant
    · exact absurd (by rw [due.live]; exact Bool.false_ne_true) final
    · omega
    · rcases failed with ⟨early, -⟩ | ⟨-, failed | ⟨_, -, impossible⟩⟩
      · exact absurd late early
      · exact settle_error (w := { w with reentrancy := 2 }) owed failed
      · cases impossible
  · cases impossible

/-- The reason given names the error that `cancelExpired` reverts with at that block. -/
theorem exec_refused {d : Deployment} {block : Block} (reach : (system d).Reachable block.escrow)
    {intentHash : Bytes32} {blocker : RefundBlocker}
    (reason : (refundStatus intentHash block).reason = some blocker) {tx : Tx}
    (call : tx.call = .cancelExpired intentHash) (noValue : tx.value = 0)
    (now : tx.timestamp = block.timestamp) :
    exec d tx block.escrow = .error blocker.revert := by
  have idle := (steady_of_reachable reach).idle
  have deadline := deadline_lt reach intentHash
  have grace := (steady_of_reachable reach).graceMax
  have room : uint64 + maxConfirmationGrace < uint256 := by decide
  have fits : (block.escrow.locks intentHash).deadline + block.escrow.confirmationGrace < uint256 := by
    omega
  -- The checks come in the contract's order, so the first that fails decides.
  refine (bind_error _ _ _).mpr (Or.inr ⟨(), (require_ok _ _ _).mpr (Or.inl noValue), ?_⟩)
  rw [call]
  refine (bind_error _ _ _).mpr (Or.inr ⟨(), (require_ok _ _ _).mpr idle, ?_⟩)
  refine (bind_error _ _ _).mpr (Or.inl ?_)
  simp only [World.enter, now, bind_error, require_error, require_ok, exists_const, addBelow_ok,
    addBelow_error, fits, true_and, exists_eq_left']
  unfold refundStatus readLock at reason
  by_cases vacant : (block.escrow.locks intentHash).user = 0
  · simp only [vacant, if_true, Option.some.injEq] at reason
    exact Or.inl ⟨not_not.mpr vacant, congrArg RefundBlocker.revert reason⟩
  · simp only [vacant, if_false] at reason
    split at reason
    · rename_i final
      cases reason
      exact Or.inr ⟨vacant, Or.inl ⟨not_not.mpr final, rfl⟩⟩
    · rename_i live
      split at reason
      · rename_i early
        cases reason
        exact Or.inr ⟨vacant, Or.inr ⟨live, Or.inr (Or.inl ⟨Nat.not_le.mpr early, rfl⟩)⟩⟩
      · cases reason

theorem refundable_of_no_reason {intentHash : Bytes32} {block : Block}
    (unblocked : (refundStatus intentHash block).reason = none) :
    (refundStatus intentHash block).refundable = true := by
  unfold refundStatus at unblocked ⊢
  split
  · rename_i absent
    rw [absent] at unblocked
    cases unblocked
  · rename_i l found
    simp only [found] at unblocked
    split at unblocked
    · cases unblocked
    · split at unblocked
      · cases unblocked
      · rename_i live late
        rw [if_neg live, if_neg late]

/-- Nobody answers. -/
def silent : Host where
  hasCode _ := false
  isValidSignature _ _ _ := none
  transfer _ _ _ := none
  transferFrom _ _ _ := none
  quote _ _ := none
  send _ _ _ := none
  acceptsNative _ _ _ := none

/-- In a reachable state the checks are the three that the SDK repeats. -/
theorem passes_iff_due {d : Deployment} {w : World} (reach : (system d).Reachable w)
    {intentHash : Bytes32} {now : Nat} (later : w.timestamp ≤ now) :
    PassesChecks d w intentHash now ↔ Due w intentHash now := by
  constructor
  · intro passes
    have read := @refundable_iff_due intentHash ⟨0, now, w, later⟩
    apply read.mp
    cases reason : (refundStatus intentHash ⟨0, now, w, later⟩).reason with
    | none => exact refundable_of_no_reason reason
    | some blocker =>
        let tx : Tx := ⟨0, 0, now, silent, .cancelExpired intentHash⟩
        have refused := exec_refused reach reason (show tx.call = _ from rfl) rfl rfl
        have own := passes tx rfl rfl rfl _ refused
        cases blocker <;> simp [RefundBlocker.revert] at own
  · intro due tx call noValue now e failed
    have deadline := deadline_lt reach intentHash
    have grace := (steady_of_reachable reach).graceMax
    have room : uint64 + maxConfirmationGrace < uint256 := by decide
    have entered : Due (w.enter tx) intentHash (w.enter tx).timestamp :=
      ⟨due.recorded, due.live, by subst now; exact due.late⟩
    simp only [exec, bind_error, require_error, require_ok, exists_const] at failed
    rcases failed with ⟨valued, -⟩ | ⟨-, failed⟩
    · exact absurd (Or.inl noValue) valued
    · rw [call] at failed
      refine cancelExpired_error (w := w.enter tx) (steady_of_reachable reach).idle entered ?_ ?_ failed
      · show (w.locks intentHash).deadline + w.confirmationGrace < uint256
        omega
      · exact open_owed reach due.recorded due.live

/-! ## How long it stands -/

/-- From `since` on nothing but the token stops the refund, while the lock is open. -/
def Stands (d : Deployment) (intentHash : Bytes32) (since : Nat) (w : World) : Prop :=
  (w.locks intentHash).finalized = false →
    ∀ now, since ≤ now → w.timestamp ≤ now → PassesChecks d w intentHash now

/-- A new grace under which an open lock is due no later than it was set. -/
def KeepsDue (intentHash : Bytes32) (since : Nat) (w : World) : Input → Prop
  | .tx tx => ∀ secondsGrace, tx.call = .setConfirmationGrace secondsGrace →
      (w.locks intentHash).finalized = false →
      (w.locks intentHash).deadline + secondsGrace ≤ max since tx.timestamp
  | _ => True

theorem Due.mono {w : World} {intentHash : Bytes32} {now now' : Nat} (due : Due w intentHash now)
    (later : now ≤ now') : Due w intentHash now' :=
  ⟨due.recorded, due.live, due.late.trans later⟩

section run

variable {d : Deployment} {w w' : World} {intentHash : Bytes32} {since : Nat}

theorem stands_iff (reach : (system d).Reachable w)
    (recorded : (w.locks intentHash).user ≠ 0) :
    Stands d intentHash since w ↔ ((w.locks intentHash).finalized = false →
      (w.locks intentHash).deadline + w.confirmationGrace ≤ max since w.timestamp) := by
  constructor
  · intro stands live
    have passes := stands live _ (Nat.le_max_left since w.timestamp) (Nat.le_max_right _ _)
    exact ((passes_iff_due reach (Nat.le_max_right _ _)).mp passes).late
  · intro late live now begun later
    apply (passes_iff_due reach later).mpr
    have due : Due w intentHash (max since w.timestamp) := ⟨recorded, live, late live⟩
    exact due.mono (Nat.max_le.mpr ⟨begun, later⟩)

/-- An open lock was open before, on the same terms. -/
theorem open_before (reach : (system d).Reachable w) (run : (system d).Later w w')
    (recorded : (w.locks intentHash).user ≠ 0) (live : (w'.locks intentHash).finalized = false) :
    (w.locks intentHash).finalized = false ∧
      (w'.locks intentHash).deadline = (w.locks intentHash).deadline := by
  have follows := follows_of_later reach run intentHash
  refine ⟨?_, (follows.terms recorded).deadline⟩
  simp only [Lock.finalized, Bool.or_eq_false_iff] at live ⊢
  constructor
  · apply Bool.eq_false_of_not_eq_true
    intro released
    exact absurd (live.1.symm.trans (follows.released released)) (by simp)
  · apply Bool.eq_false_of_not_eq_true
    intro refunded
    exact absurd (live.2.symm.trans (follows.refunded refunded)) (by simp)

theorem setConfirmationGrace_effect {tx : Tx} (ran : exec d tx w = .ok w') {grace : Nat}
    (call : tx.call = .setConfirmationGrace grace) :
    w'.locks = w.locks ∧ w'.confirmationGrace = grace := by
  obtain ⟨-, ran⟩ := exec_ok.mp ran
  rw [call] at ran
  simp only [Call.run, Escrow.setConfirmationGrace, onlyOwner, bind_ok, require_ok, exists_const,
    pure_ok] at ran
  obtain ⟨-, -, -, rfl⟩ := ran
  exact ⟨rfl, rfl⟩

/-- One step leaves a standing verdict standing exactly if it is no such rise of the grace. -/
theorem stands_step (reach : (system d).Reachable w) (recorded : (w.locks intentHash).user ≠ 0)
    (stands : Stands d intentHash since w) {input : Input} (stepped : next d w input = some w') :
    Stands d intentHash since w' ↔ KeepsDue intentHash since w input := by
  have moved : (system d).Later w w' := .of_step stepped
  have follows := follows_of_later reach moved intentHash
  have recorded' : (w'.locks intentHash).user ≠ 0 := by
    have user := (follows.terms recorded).user
    exact fun vacant => recorded (user.symm.trans vacant)
  have deadline : (w'.locks intentHash).deadline = (w.locks intentHash).deadline :=
    (follows.terms recorded).deadline
  have before := (stands_iff reach recorded).mp stands
  rw [stands_iff (reach.later moved) recorded', deadline]
  have open_ : (w'.locks intentHash).finalized = false → (w.locks intentHash).finalized = false :=
    fun live => (open_before reach moved recorded live).1
  rcases next_controls stepped with ⟨tx, rfl, later, now, move⟩ | ⟨other, now, same⟩
  · rw [now]
    by_cases resets : ∃ grace, tx.call = .setConfirmationGrace grace
    · obtain ⟨grace, call⟩ := resets
      obtain ⟨locks, grace'⟩ := setConfirmationGrace_effect (next_tx.mp stepped).2 call
      rw [locks, grace']
      constructor
      · intro due secondsGrace called live
        obtain rfl : grace = secondsGrace := by
          rw [call] at called
          exact Call.setConfirmationGrace.inj called
        exact due live
      · intro kept live
        exact kept grace call live
    · have grace : w'.confirmationGrace = w.confirmationGrace := by
        apply ControlMove.grace_kept move
        intro grace call
        exact resets ⟨grace, call⟩
      constructor
      · intro _ secondsGrace call
        exact absurd ⟨secondsGrace, call⟩ resets
      · intro _ live
        have due := before (open_ live)
        rw [grace]
        omega
  · have grace : w'.confirmationGrace = w.confirmationGrace :=
      congrArg Controls.confirmationGrace same
    rw [now, grace]
    constructor
    · intro _
      cases input with
      | tx tx => exact absurd rfl (other tx)
      | tokenArrives | nativeArrives => trivial
    · intro _ live
      exact before (open_ live)

end run

/-- `cancelExpired` passes its checks at the block of a `refundable` verdict.  It keeps passing
    them in every later state and at every later time, until the lock is closed, exactly in the
    runs that set no grace under which the lock would be due only later. -/
theorem refundable_stays {d : Deployment} {block : Block} {intentHash : Bytes32}
    (reach : (system d).Reachable block.escrow)
    (refundable : (refundStatus intentHash block).refundable = true) :
    PassesChecks d block.escrow intentHash block.timestamp ∧
    ∀ moves w, (system d).Run block.escrow moves w →
      ((∀ v ∈ moves.map Prod.fst ++ [w], Stands d intentHash block.timestamp v) ↔
        ∀ m ∈ moves, KeepsDue intentHash block.timestamp m.1 m.2) := by
  have due := refundable_iff_due.mp refundable
  refine ⟨(passes_iff_due reach block.past).mpr due, ?_⟩
  intro moves w run
  induction run with
  | nil =>
      have stands : Stands d intentHash block.timestamp block.escrow := by
        intro _ now begun later
        exact (passes_iff_due reach later).mpr (due.mono begun)
      simp [stands]
  | @snoc moves v input v' before last ih =>
      have recorded : (v.locks intentHash).user ≠ 0 := by
        have user := ((follows_of_later reach before.later intentHash).terms due.recorded).user
        exact fun vacant => due.recorded (user.symm.trans vacant)
      have moved : Stands d intentHash block.timestamp v →
          (Stands d intentHash block.timestamp v' ↔ KeepsDue intentHash block.timestamp v input) :=
        fun stands => stands_step (before.reachable reach) recorded stands last
      simp only [List.map_append, List.map_cons, List.map_nil, List.forall_mem_append,
        List.forall_mem_singleton] at ih ⊢
      constructor
      · rintro ⟨visited, final⟩
        exact ⟨ih.mp visited, (moved visited.2).mp final⟩
      · rintro ⟨kept, final⟩
        have visited := ih.mpr kept
        exact ⟨visited, (moved visited.2).mpr final⟩

namespace Sample

open Escrow.Sample

/-- The block from which the lock of the run is due. -/
def dueBlock : Block := ⟨1, 1700017200, locked, by decide +kernel⟩

def graceTx (secondsGrace : Nat) : Tx := tx owner 0 1700017200 (.setConfirmationGrace secondsGrace)

def regraced : World := (next deployment locked (.tx (graceTx 3600))).get (by decide +kernel)

def deferred : World := (next deployment locked (.tx (graceTx 604800))).get (by decide +kernel)

def laterBlock : Block := ⟨2, 1700017300, deferred, by decide +kernel⟩

def refundTx : Tx := tx 0xB0B 0 1700017300 (.cancelExpired intentHash)

theorem regraced_next : next deployment locked (.tx (graceTx 3600)) = some regraced := by
  simp [regraced]

theorem deferred_next : next deployment locked (.tx (graceTx 604800)) = some deferred := by
  simp [deferred]

end Sample

theorem refundable_stays_sample :
    PassesChecks Escrow.Sample.deployment Escrow.Sample.locked Escrow.Sample.intentHash 1700017200 ∧
      Stands Escrow.Sample.deployment Escrow.Sample.intentHash 1700017200 Sample.regraced := by
  have stays := @refundable_stays Escrow.Sample.deployment Sample.dueBlock Escrow.Sample.intentHash
    Escrow.Sample.locked_reachable (by decide +kernel)
  have run : (system Escrow.Sample.deployment).Run Escrow.Sample.locked
      ([] ++ [(Escrow.Sample.locked, .tx (Sample.graceTx 3600))]) Sample.regraced :=
    .snoc .nil Sample.regraced_next
  have kept : KeepsDue Escrow.Sample.intentHash 1700017200 Escrow.Sample.locked
      (.tx (Sample.graceTx 3600)) := by
    intro secondsGrace call _
    cases call
    decide +kernel
  refine ⟨stays.1, (stays.2 _ _ run).mpr ?_ Sample.regraced (by simp)⟩
  intro m member
  obtain rfl := List.mem_singleton.mp member
  exact kept

/-- A rise of the grace takes a `refundable` verdict back: the lock is still open, and
    `cancelExpired` reverts. -/
theorem refundable_withdrawn :
    (system Escrow.Sample.deployment).Reachable Sample.dueBlock.escrow ∧
      (refundStatus Escrow.Sample.intentHash Sample.dueBlock).refundable = true ∧
      ∃ w, next Escrow.Sample.deployment Sample.dueBlock.escrow (.tx (Sample.graceTx 604800)) = some w ∧
        (w.locks Escrow.Sample.intentHash).finalized = false ∧
        Sample.dueBlock.timestamp ≤ Sample.refundTx.timestamp ∧
        w.timestamp ≤ Sample.refundTx.timestamp ∧
        exec Escrow.Sample.deployment Sample.refundTx w = .error .deadlineNotPassed := by
  refine ⟨Escrow.Sample.locked_reachable, by decide +kernel, Sample.deferred, Sample.deferred_next,
    by decide +kernel, by decide +kernel, by decide +kernel, ?_⟩
  have reach : (system Escrow.Sample.deployment).Reachable Sample.laterBlock.escrow :=
    .step Escrow.Sample.locked_reachable Sample.deferred_next
  have reason : (refundStatus Escrow.Sample.intentHash Sample.laterBlock).reason =
      some .deadlineNotPassed := by
    decide +kernel
  exact exec_refused reach reason rfl rfl rfl

end Perihelion.Sdk

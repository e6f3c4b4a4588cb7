import Perihelion.Escrow.Steps
import Perihelion.Lib.PositionBook
import Mathlib.Data.FinEnum

/-! # Solvency of the escrow

The locks are a book of positions: a lock is opened once, claims its amount while
neither flag is set, and is closed by whichever terminal path wins.  The escrow
simulates the book, so `totalLocked` is the sum of the open locks and the token
balance covers it.
-/

namespace Perihelion.Escrow

open BigEndian Fallible Transition PositionBook

def Lock.position (l : Lock) : Option (Position Address) :=
  if l.user = 0 then none else some ⟨l.asset, l.amount, !l.finalized⟩

def Funds.book (f : Funds) : Book Bytes32 Address where
  position := Lock.position ∘ f.locks
  owed := f.totalLocked
  held := f.balanceOf

theorem Lock.position_vacant {l : Lock} (vacant : l.user = 0) : l.position = none := if_pos vacant

theorem Lock.position_recorded {l : Lock} (recorded : l.user ≠ 0) :
    l.position = some ⟨l.asset, l.amount, !l.finalized⟩ := if_neg recorded

theorem Funds.Open.position {f : Funds} {intentHash : Bytes32} (opened : f.Open intentHash) :
    f.book.position intentHash =
      some ⟨(f.locks intentHash).asset, (f.locks intentHash).amount, true⟩ := by
  simp [Funds.book, Lock.position_recorded opened.locked, opened.live]

/-- Closing a lock and paying for it closes its position. -/
theorem Funds.Open.closes {f : Funds} {intentHash : Bytes32} (opened : f.Open intentHash)
    {mark : Lock → Lock} (payment : Payment) (debit : Nat)
    (marks : (mark (f.locks intentHash)).finalized = true)
    (user : (mark (f.locks intentHash)).user = (f.locks intentHash).user)
    (asset : (mark (f.locks intentHash)).asset = (f.locks intentHash).asset)
    (amount : (mark (f.locks intentHash)).amount = (f.locks intentHash).amount)
    (token : payment.token = (f.locks intentHash).asset)
    (atMost : debit ≤ (f.locks intentHash).amount) :
    (Book.system Bytes32 Address).Later f.book ((f.discharge intentHash mark).pay payment debit).book := by
  have after : (mark (f.locks intentHash)).position =
      some ⟨(f.locks intentHash).asset, (f.locks intentHash).amount, false⟩ := by
    rw [Lock.position_recorded (user ▸ opened.locked), asset, amount, marks]
    rfl
  have same : ((f.discharge intentHash mark).pay payment debit).book =
      { position := Function.update f.book.position intentHash
          (some ⟨(f.locks intentHash).asset, (f.locks intentHash).amount, false⟩)
        owed := Function.update f.book.owed (f.locks intentHash).asset
          (f.book.owed (f.locks intentHash).asset - (f.locks intentHash).amount)
        held := Function.update f.book.held (f.locks intentHash).asset
          (f.book.held (f.locks intentHash).asset - debit) } := by
    simp only [Funds.book, Funds.discharge, Funds.pay, token, Function.comp_update, after]
  rw [same]
  exact System.Later.of_step (S := Book.system Bytes32 Address)
    (Book.Step.closed intentHash _ debit opened.position rfl atMost)

theorem Funds.Step.book {f f' : Funds} {move} (step : Funds.Step f move f') :
    (Book.system Bytes32 Address).Later f.book f'.book := by
  cases step with
  | same => exact System.Later.refl _
  | arrived token amount =>
      exact System.Later.of_step (S := Book.system Bytes32 Address)
        (Book.Step.deposited token amount)
  | locked intentHash lock vacant owned live deadline fits =>
      have empty : f.book.position intentHash = none := by
        simp [Funds.book, Lock.position_vacant vacant]
      have filled : lock.position = some ⟨lock.asset, lock.amount, true⟩ := by
        simp [Lock.position_recorded owned, Lock.finalized, live.1, live.2]
      have same : ((f.arrive lock.asset lock.amount).record intentHash lock).book =
          { position := Function.update f.book.position intentHash
              (some ⟨lock.asset, lock.amount, true⟩)
            owed := Function.update f.book.owed lock.asset (f.book.owed lock.asset + lock.amount)
            held := Function.update f.book.held lock.asset
              (f.book.held lock.asset + lock.amount) } := by
        simp only [Funds.book, Funds.arrive, Funds.record, Function.comp_update, filled]
      rw [same]
      exact System.Later.of_step (S := Book.system Bytes32 Address)
        (Book.Step.opened intentHash lock.asset lock.amount empty)
  | released m timestamp debit found delivered exclusive atMost =>
      exact found.closes _ debit (by simp [Lock.finalized, Lock.release]) rfl rfl rfl rfl atMost
  | refunded intentHash debit found atMost =>
      exact found.closes _ debit (by simp [Lock.finalized, Lock.refund]) rfl rfl rfl rfl atMost
  | skimmed token receiver amount debit surplus atMost =>
      rcases surplus with rfl | surplus
      · obtain rfl : debit = 0 := by omega
        have same : (f.pay ⟨.skim, token, receiver, 0⟩ 0).book = f.book := by
          simp [Funds.pay, Funds.book]
        rw [same]
        exact System.Later.refl _
      · exact System.Later.of_step (S := Book.system Bytes32 Address)
          (Book.Step.skimmed token amount debit surplus atMost)

theorem book_simulation (d : Deployment) :
    System.Simulation (system d) (Book.system Bytes32 Address) fun w => w.funds.book where
  start := by
    intro w given
    obtain ⟨creation, made⟩ := given
    rw [(construct_ok made).1]
    exact ⟨fun _ => rfl, fun _ => rfl⟩
  moves := by
    intro w input w' _ stepped
    obtain ⟨move, step⟩ := next_move stepped
    exact step.book

theorem book_sound {d : Deployment} {w : World} (reach : (system d).Reachable w) :
    w.funds.book.Sound :=
  Book.sound_of_reachable ((book_simulation d).reachable reach)

/-- What a recorded lock holds of a token while both its flags are false. -/
def openAmount (w : World) (token : Address) (intentHash : Bytes32) : Nat :=
  let l := w.locks intentHash
  if l.user ≠ 0 ∧ l.asset = token ∧ l.released = false ∧ l.refunded = false then l.amount else 0

theorem openAmount_claim (w : World) (token : Address) (intentHash : Bytes32) :
    openAmount w token intentHash = w.funds.book.claim token intentHash := by
  unfold openAmount Book.claim
  have view : w.funds.book.position intentHash = (w.locks intentHash).position := rfl
  rw [view]
  by_cases vacant : (w.locks intentHash).user = 0
  · rw [Lock.position_vacant vacant, if_neg fun opened => opened.1 vacant]
    rfl
  · rw [Lock.position_recorded vacant]
    simp only [Option.elim, Position.claim, Lock.finalized, Bool.not_eq_true',
      Bool.or_eq_false_iff]
    refine if_congr ?_ rfl rfl
    constructor
    · intro opened
      exact ⟨opened.2.2, opened.2.1⟩
    · intro claimed
      exact ⟨vacant, claimed.2, claimed.1⟩

theorem open_owed {d : Deployment} {w : World} (reach : (system d).Reachable w)
    {intentHash : Bytes32} (locked : (w.locks intentHash).user ≠ 0)
    (live : (w.locks intentHash).finalized = false) :
    (w.locks intentHash).amount ≤ w.totalLocked (w.locks intentHash).asset := by
  have found : w.funds.book.position intentHash =
      some ⟨(w.locks intentHash).asset, (w.locks intentHash).amount, true⟩ := by
    simp [Funds.book, World.funds, Lock.position_recorded locked, live]
  exact (book_sound reach).amount_le_owed found rfl

/-! ## No underflow

The three decrements of `totalLocked` are checked subtractions, and an underflow is
the only way they fail.
-/

theorem tokenSucceeded_error {data : Bytes} {e : Revert} (failed : tokenSucceeded data = .error e) :
    e = .malformedAbi := by
  unfold tokenSucceeded at failed
  split at failed
  · cases failed
  · unfold decodeBool at failed
    split at failed
    · exact (Except.error.inj failed).symm
    · split at failed
      · cases failed
      · cases failed
      · exact (Except.error.inj failed).symm

theorem safeTransfer_error {c : Context} {purpose token receiver amount} {w : World} {e : Revert}
    (failed : safeTransfer c purpose token receiver amount w = .error e) :
    e = .transferFailed ∨ e = .malformedAbi := by
  simp only [safeTransfer, bind_error, require_error, require_ok, exists_const, expect_error,
    expect_ok] at failed
  rcases failed with ⟨-, rfl⟩ | ⟨-, ⟨-, rfl⟩ | ⟨-, ⟨-, rfl⟩ | ⟨data, -, undecoded | ⟨_, -, rejected⟩⟩⟩⟩
  · exact Or.inl rfl
  · exact Or.inl rfl
  · exact Or.inl rfl
  · exact Or.inr (tokenSucceeded_error undecoded)
  · rcases rejected with ⟨-, rfl⟩ | ⟨-, impossible⟩
    · exact Or.inl rfl
    · cases impossible

theorem settle_panic {c : Context} {purpose intentHash mark receiver} {w : World}
    (failed : settle c purpose intentHash mark receiver w = .error .panic) :
    w.totalLocked (w.locks intentHash).asset < (w.locks intentHash).amount := by
  simp only [settle, bind_error, subChecked_error] at failed
  rcases failed with ⟨short, -⟩ | ⟨_, -, failed⟩
  · exact short
  · rcases safeTransfer_error failed with impossible | impossible <;> cases impossible

/-- The debts of a state are covered lock by lock. -/
def Covered (w : World) : Prop :=
  ∀ intentHash, (w.locks intentHash).user ≠ 0 → (w.locks intentHash).finalized = false →
    (w.locks intentHash).amount ≤ w.totalLocked (w.locks intentHash).asset

theorem decodeFillConfirmed_error {message : Bytes} {e : Revert}
    (failed : decodeFillConfirmed message = .error e) : e = .malformedPayload := by
  simp only [decodeFillConfirmed, bind_error, require_error, require_ok, exists_const] at failed
  rcases failed with ⟨-, rfl⟩ | ⟨-, ⟨-, rfl⟩ | ⟨-, impossible⟩⟩
  · rfl
  · rfl
  · cases impossible

theorem decodeCancelIntent_error {message : Bytes} {e : Revert}
    (failed : decodeCancelIntent message = .error e) : e = .malformedPayload := by
  simp only [decodeCancelIntent, bind_error, require_error, require_ok, exists_const] at failed
  rcases failed with ⟨-, rfl⟩ | ⟨-, ⟨-, rfl⟩ | ⟨-, impossible⟩⟩
  · rfl
  · rfl
  · cases impossible

theorem onFillConfirmed_no_panic {c : Context} {message} {w : World} (covered : Covered w) :
    onFillConfirmed c message w ≠ .error .panic := by
  intro failed
  simp only [onFillConfirmed, bind_error, require_error, require_ok, exists_const,
    reduceCtorEq, and_false, false_or, Bool.not_eq_true] at failed
  rcases failed with undecoded | ⟨m, -, recorded, -, live, -, failed | ⟨_, -, impossible⟩⟩
  · cases decodeFillConfirmed_error undecoded
  · have owed := covered m.intentHash recorded live
    have short := settle_panic failed
    omega
  · cases impossible

theorem onCancelIntent_no_panic {c : Context} {message} {w : World} (covered : Covered w) :
    onCancelIntent c message w ≠ .error .panic := by
  intro failed
  simp only [onCancelIntent, bind_error] at failed
  rcases failed with undecoded | ⟨m, -, failed⟩
  · cases decodeCancelIntent_error undecoded
  · split at failed
    · cases failed
    · rename_i recorded
      split at failed
      · cases failed
      · rename_i live
        simp only [bind_error] at failed
        rcases failed with failed | ⟨_, -, impossible⟩
        · have owed := covered m.intentHash recorded (Bool.eq_false_of_not_eq_true live)
          have short := settle_panic failed
          omega
        · cases impossible

theorem handleMessage_no_panic {c : Context} {message} {w : World} (covered : Covered w) :
    handleMessage c message w ≠ .error .panic := by
  intro failed
  unfold handleMessage at failed
  split at failed
  · simp only [bind_error, require_error, reduceCtorEq, and_false, false_or, require_ok,
      exists_const] at failed
    obtain ⟨-, failed⟩ := failed
    split at failed
    · exact onFillConfirmed_no_panic covered failed
    · split at failed
      · exact onCancelIntent_no_panic covered failed
      · cases failed
  · cases failed

theorem lzReceive_no_panic {c : Context} {origin message} {w : World} (covered : Covered w) :
    lzReceive c origin message w ≠ .error .panic := by
  intro failed
  simp only [lzReceive, nonReentrant, bind_error, require_error, reduceCtorEq, and_false, false_or,
    require_ok, exists_const] at failed
  obtain ⟨-, ⟨-, -, -, failed⟩ | ⟨_, -, impossible⟩⟩ := failed
  · exact handleMessage_no_panic (w := consumeNonce _ _ { w with reentrancy := 2 }) covered failed
  · cases impossible

theorem cancelExpired_no_panic {c : Context} {intentHash} {w : World} (covered : Covered w)
    (soon : (w.locks intentHash).deadline + w.confirmationGrace < uint256) :
    cancelExpired c intentHash w ≠ .error .panic := by
  intro failed
  simp only [cancelExpired, nonReentrant, bind_error, require_error, reduceCtorEq, and_false,
    false_or, require_ok, exists_const, addBelow_error, addBelow_ok, Bool.not_eq_true] at failed
  obtain ⟨-, ⟨recorded, live, failed⟩ | ⟨_, -, impossible⟩⟩ := failed
  · rcases failed with ⟨overflow, -⟩ | ⟨_, -, -, failed | ⟨_, -, impossible⟩⟩
    · omega
    · have owed := covered intentHash recorded live
      have short := settle_panic failed
      simp only at short
      omega
    · cases impossible
  · cases impossible

/-- A recorded deadline fits the `uint64` it is stored in. -/
theorem deadline_lt {d : Deployment} {w : World} (reach : (system d).Reachable w)
    (intentHash : Bytes32) : (w.locks intentHash).deadline < uint64 := by
  refine funds_invariant (P := fun f => ∀ h, (f.locks h).deadline < uint64) ?_ ?_ reach intentHash
  · intro _ h
    exact Nat.two_pow_pos 64
  · intro f move f' bounded step h
    have update (key : Bytes32) (l : Lock) (small : l.deadline < uint64) :
        (Function.update f.locks key l h).deadline < uint64 := by
      by_cases here : h = key
      · subst here
        rwa [Function.update_self]
      · rw [Function.update_of_ne here]
        exact bounded h
    cases step with
    | same | arrived | skimmed => exact bounded h
    | locked key lock vacant owned live deadline fits => exact update key lock deadline
    | released m timestamp debit => exact update m.intentHash _ (bounded m.intentHash)
    | refunded key debit => exact update key _ (bounded key)

def Call.settles : Call → Bool
  | .lzReceive .. | .cancelExpired _ => true
  | _ => false

theorem settling_no_panic {d : Deployment} {w : World} (reach : (system d).Reachable w) {tx : Tx}
    (settles : tx.call.settles = true) : exec d tx w ≠ .error .panic := by
  intro failed
  have covered : Covered (w.enter tx) := fun h => open_owed reach
  simp only [exec, bind_error, require_error, reduceCtorEq, and_false, false_or, require_ok,
    exists_const] at failed
  obtain ⟨-, failed⟩ := failed
  cases call : tx.call with
  | lzReceive origin message =>
      rw [call] at failed
      exact lzReceive_no_panic covered failed
  | cancelExpired intentHash =>
      rw [call] at failed
      refine cancelExpired_no_panic covered ?_ failed
      have deadline := deadline_lt reach intentHash
      have grace := (steady_of_reachable reach).graceMax
      have room : uint64 + maxConfirmationGrace < uint256 := by decide
      show (w.locks intentHash).deadline + w.confirmationGrace < uint256
      omega
  | _ => simp [call, Call.settles] at settles

/-- Every liability counter is the sum of its open locks, is covered by the balance,
    and no decrement of it can underflow. -/
theorem totalLocked_solvent {d : Deployment} {w : World} (reach : (system d).Reachable w) :
    (∀ token, w.totalLocked token = ∑ intentHash, openAmount w token intentHash ∧
      w.totalLocked token ≤ w.balanceOf token) ∧
    ∀ tx : Tx, tx.call.settles = true → exec d tx w ≠ .error .panic := by
  have sound := book_sound reach
  refine ⟨fun token => ⟨?_, sound.covered token⟩, fun tx => settling_no_panic reach⟩
  have counted := sound.owed_eq token
  simp only [openAmount_claim]
  exact counted

theorem totalLocked_solvent_sample :
    Sample.locked.totalLocked Sample.token ≤ Sample.locked.balanceOf Sample.token ∧
      Sample.locked.totalLocked Sample.token = 100 :=
  ⟨((totalLocked_solvent Sample.locked_reachable).1 Sample.token).2, by decide +kernel⟩

end Perihelion.Escrow

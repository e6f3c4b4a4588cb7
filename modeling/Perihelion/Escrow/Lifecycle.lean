import Perihelion.Escrow.Steps

/-! # The life of one lock

A lock is recorded once, keeps its terms, and is closed at most once.  The payments
made under its hash are read off the trace: none while it is open, and afterwards
exactly the one that closed it.
-/

namespace Perihelion.Escrow

open BigEndian Fallible Transition

/-- The lock a payment closes, if it closes one. -/
def Purpose.intentHash : Purpose → Option Bytes32
  | .release intentHash | .refund intentHash => some intentHash
  | .skim => none

def Funds.payouts (f : Funds) (intentHash : Bytes32) : List Payment :=
  f.payments.filter fun payment => payment.purpose.intentHash = some intentHash

structure SameTerms (l l' : Lock) : Prop where
  solver : l'.solver = l.solver
  user : l'.user = l.user
  asset : l'.asset = l.asset
  amount : l'.amount = l.amount
  minDestAmount : l'.minDestAmount = l.minDestAmount
  deadline : l'.deadline = l.deadline

/-- Flags and payments of one hash agree. -/
structure Accounted (f : Funds) (intentHash : Bytes32) : Prop where
  vacant : (f.locks intentHash).user = 0 → (f.locks intentHash).finalized = false
  exclusive : ¬ ((f.locks intentHash).released = true ∧ (f.locks intentHash).refunded = true)
  unpaid : (f.locks intentHash).finalized = false → f.payouts intentHash = []
  paid : (f.locks intentHash).finalized = true → ∃ purpose receiver, f.payouts intentHash =
    [⟨purpose, (f.locks intentHash).asset, receiver, (f.locks intentHash).amount⟩]

/-- What a later state may change of one hash: it may be locked once, then settled once. -/
structure Follows (intentHash : Bytes32) (f f' : Funds) : Prop where
  terms : (f.locks intentHash).user ≠ 0 → SameTerms (f.locks intentHash) (f'.locks intentHash)
  released : (f.locks intentHash).released = true → (f'.locks intentHash).released = true
  refunded : (f.locks intentHash).refunded = true → (f'.locks intentHash).refunded = true

theorem Lock.release_finalized {l : Lock} : l.release.finalized = true := by
  simp [Lock.finalized, Lock.release]

theorem Lock.refund_finalized {l : Lock} : l.refund.finalized = true := by
  simp [Lock.finalized, Lock.refund]

theorem SameTerms.refl (l : Lock) : SameTerms l l := ⟨rfl, rfl, rfl, rfl, rfl, rfl⟩

theorem SameTerms.trans {l l' l'' : Lock} (first : SameTerms l l') (second : SameTerms l' l'') :
    SameTerms l l'' where
  solver := second.solver.trans first.solver
  user := second.user.trans first.user
  asset := second.asset.trans first.asset
  amount := second.amount.trans first.amount
  minDestAmount := second.minDestAmount.trans first.minDestAmount
  deadline := second.deadline.trans first.deadline

theorem Follows.refl (intentHash : Bytes32) (f : Funds) : Follows intentHash f f :=
  ⟨fun _ => SameTerms.refl _, fun flag => flag, fun flag => flag⟩

theorem Follows.trans (intentHash : Bytes32) (f f' f'' : Funds) (first : Follows intentHash f f')
    (second : Follows intentHash f' f'') : Follows intentHash f f'' where
  terms recorded :=
    have same := first.terms recorded
    same.trans (second.terms (same.user ▸ recorded))
  released flag := second.released (first.released flag)
  refunded flag := second.refunded (first.refunded flag)

theorem Follows.of_eq {intentHash : Bytes32} {f f' : Funds}
    (same : f'.locks intentHash = f.locks intentHash) : Follows intentHash f f' :=
  ⟨fun _ => same ▸ SameTerms.refl _, fun flag => same ▸ flag, fun flag => same ▸ flag⟩

theorem Accounted.of_eq {intentHash : Bytes32} {f f' : Funds} (accounted : Accounted f intentHash)
    (same : f'.locks intentHash = f.locks intentHash)
    (payouts : f'.payouts intentHash = f.payouts intentHash) : Accounted f' intentHash where
  vacant := by
    rw [same]
    exact accounted.vacant
  exclusive := by
    rw [same]
    exact accounted.exclusive
  unpaid := by
    rw [same, payouts]
    exact accounted.unpaid
  paid := by
    rw [same, payouts]
    exact accounted.paid

/-- Paying appends to the payouts of the hash it closes and of no other. -/
theorem Funds.pay_payouts (f : Funds) (payment : Payment) (debit : Nat) (intentHash : Bytes32) :
    (f.pay payment debit).payouts intentHash = f.payouts intentHash ++
      if payment.purpose.intentHash = some intentHash then [payment] else [] := by
  simp only [Funds.payouts, Funds.pay, List.filter_append, List.filter_cons, List.filter_nil,
    decide_eq_true_eq]

/-- A lock that was open is closed by one payment of its amount. -/
theorem Accounted.close {f : Funds} {key intentHash : Bytes32} {mark : Lock → Lock}
    {payment : Payment} {debit : Nat} (accounted : Accounted f intentHash) (opened : f.Open key)
    (terms : SameTerms (f.locks key) (mark (f.locks key)))
    (marked : (mark (f.locks key)).finalized = true)
    (one : ¬ ((mark (f.locks key)).released = true ∧ (mark (f.locks key)).refunded = true))
    (closes : payment.purpose.intentHash = some key)
    (token : payment.token = (f.locks key).asset) (amount : payment.amount = (f.locks key).amount) :
    Accounted ((f.discharge key mark).pay payment debit) intentHash := by
  by_cases here : intentHash = key
  · subst here
    have after : ((f.discharge intentHash mark).pay payment debit).locks intentHash =
        mark (f.locks intentHash) := by
      simp [Funds.pay, Funds.discharge]
    have none : (f.discharge intentHash mark).payouts intentHash = [] := accounted.unpaid opened.live
    refine ⟨?_, ?_, ?_, ?_⟩
    · rw [after, terms.user]
      exact fun vacant => absurd vacant opened.locked
    · rw [after]
      exact one
    · rw [after, marked]
      exact fun impossible => Bool.noConfusion impossible
    · intro _
      refine ⟨payment.purpose, payment.receiver, ?_⟩
      rw [Funds.pay_payouts, none, if_pos closes, after, terms.asset, terms.amount, ← token, ← amount]
      rfl
  · have other : ¬ payment.purpose.intentHash = some intentHash := by
      rw [closes]
      exact fun same => here (Option.some.inj same).symm
    apply accounted.of_eq
    · simp [Funds.pay, Funds.discharge, here]
    · rw [Funds.pay_payouts, if_neg other, List.append_nil]
      rfl

theorem Accounted.step {f f' : Funds} {move} {intentHash : Bytes32}
    (accounted : Accounted f intentHash) (step : Funds.Step f move f') :
    Accounted f' intentHash := by
  cases step with
  | same => exact accounted
  | arrived token amount => exact accounted.of_eq rfl rfl
  | locked key lock vacant owned live deadline fits =>
      by_cases here : intentHash = key
      · subst here
        have after : ((f.arrive lock.asset lock.amount).record intentHash lock).locks intentHash =
            lock := by
          simp [Funds.record]
        have opened : lock.finalized = false := by simp [Lock.finalized, live.1, live.2]
        have none : f.payouts intentHash = [] := accounted.unpaid (accounted.vacant vacant)
        refine ⟨fun _ => ?_, ?_, fun _ => none, ?_⟩
        · rw [after]
          exact opened
        · rw [after, live.1]
          exact fun both => Bool.noConfusion both.1
        · rw [after, opened]
          exact fun impossible => Bool.noConfusion impossible
      · apply accounted.of_eq
        · simp [Funds.record, Funds.arrive, here]
        · rfl
  | released m timestamp debit found delivered exclusive atMost =>
      have flags := found.live
      simp only [Lock.finalized, Bool.or_eq_false_iff] at flags
      refine accounted.close found ⟨rfl, rfl, rfl, rfl, rfl, rfl⟩ Lock.release_finalized ?_ rfl rfl rfl
      simp [Lock.release, flags.2]
  | refunded key debit found atMost =>
      have flags := found.live
      simp only [Lock.finalized, Bool.or_eq_false_iff] at flags
      refine accounted.close found ⟨rfl, rfl, rfl, rfl, rfl, rfl⟩ Lock.refund_finalized ?_ rfl rfl rfl
      simp [Lock.refund, flags.1]
  | skimmed token receiver amount debit surplus atMost =>
      apply accounted.of_eq
      · rfl
      · rw [Funds.pay_payouts, if_neg (by simp [Purpose.intentHash]), List.append_nil]

theorem Follows.discharge {f : Funds} {key intentHash : Bytes32} {mark : Lock → Lock}
    (payment : Payment) (debit : Nat)
    (terms : SameTerms (f.locks key) (mark (f.locks key)))
    (released : (f.locks key).released = true → (mark (f.locks key)).released = true)
    (refunded : (f.locks key).refunded = true → (mark (f.locks key)).refunded = true) :
    Follows intentHash f ((f.discharge key mark).pay payment debit) := by
  by_cases here : intentHash = key
  · subst here
    have after : ((f.discharge intentHash mark).pay payment debit).locks intentHash =
        mark (f.locks intentHash) := by
      simp [Funds.pay, Funds.discharge]
    exact ⟨fun _ => after ▸ terms, fun flag => after ▸ released flag,
      fun flag => after ▸ refunded flag⟩
  · apply Follows.of_eq
    simp [Funds.pay, Funds.discharge, here]

theorem Follows.step {f f' : Funds} {move} {intentHash : Bytes32}
    (accounted : Accounted f intentHash) (step : Funds.Step f move f') :
    Follows intentHash f f' := by
  cases step with
  | same => exact Follows.refl intentHash f
  | arrived token amount => exact Follows.of_eq rfl
  | locked key lock vacant owned live deadline fits =>
      by_cases here : intentHash = key
      · subst here
        have idle := accounted.vacant vacant
        simp only [Lock.finalized, Bool.or_eq_false_iff] at idle
        exact ⟨fun recorded => absurd vacant recorded, by simp [idle.1], by simp [idle.2]⟩
      · apply Follows.of_eq
        simp [Funds.record, Funds.arrive, here]
  | released m timestamp debit found delivered exclusive atMost =>
      exact Follows.discharge _ _ ⟨rfl, rfl, rfl, rfl, rfl, rfl⟩ (fun _ => rfl) (fun flag => flag)
  | refunded key debit found atMost =>
      exact Follows.discharge _ _ ⟨rfl, rfl, rfl, rfl, rfl, rfl⟩ (fun flag => flag) (fun _ => rfl)
  | skimmed token receiver amount debit surplus atMost => exact Follows.of_eq rfl

theorem accounted_of_reachable {d : Deployment} {w : World} (reach : (system d).Reachable w)
    (intentHash : Bytes32) : Accounted w.funds intentHash := by
  refine funds_invariant (P := fun f => Accounted f intentHash) ?_ ?_ reach
  · intro balanceOf
    exact ⟨fun _ => rfl, by simp [default], fun _ => rfl, fun impossible => Bool.noConfusion impossible⟩
  · intro f move f' accounted step
    exact accounted.step step

theorem follows_of_later {d : Deployment} {w w' : World} (reach : (system d).Reachable w)
    (run : (system d).Later w w') (intentHash : Bytes32) : Follows intentHash w.funds w'.funds := by
  refine System.Later.relates (R := fun w w' => Follows intentHash w.funds w'.funds) ?_ ?_ ?_
    reach run
  · intro w
    exact Follows.refl intentHash w.funds
  · intro w w' w'' first second
    exact Follows.trans intentHash _ _ _ first second
  · intro w input w' reached stepped
    obtain ⟨move, step⟩ := next_move stepped
    exact Follows.step (accounted_of_reachable reached intentHash) step

/-- Why a payment may be made by `tx` in the state `w`. -/
def Payment.Justified (w : World) (tx : Tx) (payment : Payment) : Prop :=
  match payment.purpose with
  | .skim => True
  | .refund intentHash => payment.receiver = (w.locks intentHash).user
  | .release intentHash =>
      ∃ origin message m, tx.call = .lzReceive origin message ∧
        decodeFillConfirmed message = .ok m ∧ m.intentHash = intentHash ∧
        (w.locks intentHash).minDestAmount ≤ m.fillAmount ∧
        (tx.timestamp < (w.locks intentHash).deadline →
          payment.receiver = (w.locks intentHash).solver)

theorem exec_payments {d : Deployment} {tx : Tx} {w w' : World} (ran : exec d tx w = .ok w') :
    ∃ fresh, w'.funds.payments = w.funds.payments ++ fresh ∧
      ∀ payment ∈ fresh, payment.Justified w tx := by
  obtain ⟨move, step, caused⟩ := exec_move ran
  generalize w'.funds = f' at step
  cases step with
  | same | arrived | locked => exact ⟨[], (List.append_nil _).symm, by simp⟩
  | released m timestamp debit found delivered exclusive atMost =>
      obtain ⟨rfl, origin, message, call, decoded⟩ := caused
      refine ⟨_, rfl, ?_⟩
      intro payment member
      obtain rfl := List.mem_singleton.mp member
      exact ⟨origin, message, m, call, decoded, rfl, delivered, exclusive⟩
  | refunded key debit found atMost =>
      refine ⟨_, rfl, ?_⟩
      intro payment member
      obtain rfl := List.mem_singleton.mp member
      exact rfl
  | skimmed token receiver amount debit surplus atMost =>
      refine ⟨_, rfl, ?_⟩
      intro payment member
      obtain rfl := List.mem_singleton.mp member
      exact trivial

/-- The history of one hash, from a state `w` of a run to any later state `w'`. -/
structure LockHistory (d : Deployment) (w w' : World) (intentHash : Bytes32) : Prop where
  terms : (w.locks intentHash).user ≠ 0 → SameTerms (w.locks intentHash) (w'.locks intentHash)
  lockedOnce : (w.locks intentHash).user ≠ 0 → ∀ tx intent signature w'',
    tx.call = .lock intent signature → exec d tx w' = .ok w'' → hashIntent d intent ≠ intentHash
  exclusive : ¬ ((w'.locks intentHash).released = true ∧ (w'.locks intentHash).refunded = true)
  released : (w.locks intentHash).released = true → (w'.locks intentHash).released = true
  refunded : (w.locks intentHash).refunded = true → (w'.locks intentHash).refunded = true
  payouts : w'.funds.payouts intentHash = [] ∨ ∃ purpose receiver, w'.funds.payouts intentHash =
    [⟨purpose, (w'.locks intentHash).asset, receiver, (w'.locks intentHash).amount⟩]
  justified : ∀ tx w'', exec d tx w' = .ok w'' → ∃ fresh,
    w''.funds.payments = w'.funds.payments ++ fresh ∧ ∀ payment ∈ fresh, payment.Justified w' tx

theorem lock_history {d : Deployment} {w w' : World} (reach : (system d).Reachable w)
    (run : (system d).Later w w') (intentHash : Bytes32) : LockHistory d w w' intentHash := by
  have follows := follows_of_later reach run intentHash
  have accounted := accounted_of_reachable (reach.later run) intentHash
  refine ⟨follows.terms, ?_, accounted.exclusive, follows.released, follows.refunded, ?_, ?_⟩
  · intro recorded tx intent signature w'' call ran same
    have ran := (exec_ok.mp ran).2
    rw [call] at ran
    obtain ⟨-, _, _, valid, -⟩ := lock_ok ran
    obtain ⟨rfl, vacant, -⟩ := validateIntent_ok valid
    have user := (follows.terms recorded).user
    rw [← same] at user recorded
    exact recorded (user.symm.trans vacant)
  · cases final : (w'.funds.locks intentHash).finalized with
    | false => exact Or.inl (accounted.unpaid final)
    | true => exact Or.inr (accounted.paid final)
  · intro tx w'' ran
    exact exec_payments ran

namespace Sample

def refundTx : Tx := tx solver 0 1700020000 (.cancelExpired intentHash)

def refunded : World := (replay deployment locked [.tx refundTx]).get (by decide +kernel)

end Sample

theorem lock_history_sample :
    (Sample.locked.locks Sample.intentHash).user ≠ 0 ∧
      LockHistory Sample.deployment Sample.locked Sample.refunded Sample.intentHash :=
  ⟨by decide +kernel, lock_history Sample.locked_reachable
    (later_of_replay
      (show replay Sample.deployment Sample.locked [.tx Sample.refundTx] = some Sample.refunded by
        simp [Sample.refunded]))
    Sample.intentHash⟩

end Perihelion.Escrow

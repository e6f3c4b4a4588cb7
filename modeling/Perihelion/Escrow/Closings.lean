import Perihelion.Escrow.Lifecycle

/-! # How a lock is closed

A flag of a lock is raised by one of three calls: a FillConfirmed releases it, a
CancelIntent or the time lock refunds it.  Each raises its flag and makes the payment in
the same transaction.
-/

namespace Perihelion.Escrow

open BigEndian Fallible Transition

/-- The call of `tx` closes the lock `h`, and pays for it. -/
inductive Closing (d : Deployment) (tx : Tx) (w w' : World) (h : Bytes32) : Prop
  | confirmed (origin rest m)
      (call : tx.call = .lzReceive origin (protocolVersion :: msgFillConfirmed :: rest))
      (decoded : decodeFillConfirmed (protocolVersion :: msgFillConfirmed :: rest) = .ok m)
      (about : m.intentHash = h) (marked : w'.locks h = (w.locks h).release)
      (paid : w'.funds.payouts h = w.funds.payouts h ++
        [⟨.release h, (w.locks h).asset, m.solverEvm, (w.locks h).amount⟩])
  | recalled (origin rest m)
      (call : tx.call = .lzReceive origin (protocolVersion :: msgCancelIntent :: rest))
      (decoded : decodeCancelIntent (protocolVersion :: msgCancelIntent :: rest) = .ok m)
      (about : m.intentHash = h) (marked : w'.locks h = (w.locks h).refund)
      (paid : w'.funds.payouts h = w.funds.payouts h ++
        [⟨.refund h, (w.locks h).asset, (w.locks h).user, (w.locks h).amount⟩])
  | expired (call : tx.call = .cancelExpired h)
      (late : (w.locks h).deadline + w.confirmationGrace ≤ tx.timestamp)
      (marked : w'.locks h = (w.locks h).refund)
      (paid : w'.funds.payouts h = w.funds.payouts h ++
        [⟨.refund h, (w.locks h).asset, (w.locks h).user, (w.locks h).amount⟩])

/-- No flag of the lock is raised. -/
structure Unclosed (h : Bytes32) (f f' : Funds) : Prop where
  released : (f'.locks h).released = true → (f.locks h).released = true
  refunded : (f'.locks h).refunded = true → (f.locks h).refunded = true

theorem Unclosed.of_eq {h : Bytes32} {f f' : Funds} (same : f'.locks h = f.locks h) :
    Unclosed h f f' := by
  constructor
  · rw [same]
    exact id
  · rw [same]
    exact id

/-- What settling does to the lock it settles, and to no other. -/
theorem settled_closes (w : World) (c : Context) (purpose : Purpose) {key : Bytes32}
    (mark : Lock → Lock) (receiver : Address) (purposed : purpose.intentHash = some key)
    (h : Bytes32) :
    let v := w.settled c purpose key mark receiver
    (h = key ∧ v.locks h = mark (w.locks h) ∧ v.funds.payouts h = w.funds.payouts h ++
        [⟨purpose, (w.locks h).asset, receiver, (w.locks h).amount⟩]) ∨
      (v.locks h = w.locks h ∧ h ≠ key) := by
  intro v
  have funds := World.settled_funds w c purpose key mark receiver
  by_cases here : h = key
  · subst here
    have paid : v.funds.payouts h = _ := congrArg (Funds.payouts · h) funds
    rw [Funds.pay_payouts, if_pos purposed] at paid
    refine Or.inl ⟨rfl, ?_, paid⟩
    have locks : v.locks h = _ := congrArg (fun f => f.locks h) funds
    rw [locks]
    simp only [Funds.pay, Funds.discharge, Function.update_self]
    rfl
  · have locks : v.locks h = _ := congrArg (fun f => f.locks h) funds
    refine Or.inr ⟨?_, here⟩
    rw [locks]
    simp only [Funds.pay, Funds.discharge, Function.update_of_ne here]
    rfl

theorem handleMessage_closing {d : Deployment} {tx : Tx} {w w' : World} {origin message}
    (call : tx.call = .lzReceive origin message) {v : World}
    (handled : handleMessage (tx.context d) message v = .ok w') (funds : v.funds = w.funds)
    (h : Bytes32) : Unclosed h w.funds w'.funds ∨ Closing d tx w w' h := by
  have locks : v.locks = w.locks := congrArg Funds.locks funds
  rcases handleMessage_ok.mp handled with ⟨rest, rfl, ran⟩ | ⟨rest, rfl, ran⟩
  · obtain ⟨m, decoded, settles, -, -, rfl⟩ := onFillConfirmed_ok.mp ran
    rcases settled_closes v (tx.context d) (.release m.intentHash) Lock.release m.solverEvm rfl h with
      ⟨rfl, marked, paid⟩ | ⟨same, -⟩
    · rw [locks] at marked
      rw [locks, funds] at paid
      right
      refine .confirmed origin rest m call decoded rfl marked ?_
      rw [World.emit_funds]
      exact paid
    · left
      apply Unclosed.of_eq
      rw [World.emit_funds, ← funds]
      exact same
  · obtain ⟨m, decoded, (⟨-, rfl⟩ | ⟨-, -, rfl⟩ | ⟨settles, rfl⟩)⟩ := onCancelIntent_ok.mp ran
    · left
      apply Unclosed.of_eq
      rw [World.emit_funds, funds]
    · left
      apply Unclosed.of_eq
      rw [World.emit_funds, funds]
    · rcases settled_closes v (tx.context d) (.refund m.intentHash) Lock.refund
        (v.locks m.intentHash).user rfl h with ⟨rfl, marked, paid⟩ | ⟨same, -⟩
      · rw [locks] at marked
        rw [locks, funds] at paid
        right
        refine .recalled origin rest m call decoded rfl ?_ ?_
        · rw [locks]
          exact marked
        · rw [World.emit_funds, locks]
          exact paid
      · left
        apply Unclosed.of_eq
        rw [World.emit_funds, ← funds]
        exact same

/-- Nothing else closes a lock. -/
theorem exec_closing {d : Deployment} {tx : Tx} {w w' : World} (ran : exec d tx w = .ok w')
    (h : Bytes32) : Unclosed h w.funds w'.funds ∨ Closing d tx w w' h := by
  obtain ⟨-, ran⟩ := exec_ok.mp ran
  cases call : tx.call with
  | lock intent signature =>
      rw [call] at ran
      obtain ⟨-, intentHash, received, -, -, -, funds, -⟩ := lock_ok ran
      left
      rw [funds]
      by_cases here : h = intentHash
      · subst here
        constructor <;> simp [Funds.record, newLock]
      · apply Unclosed.of_eq
        simp only [Funds.record, Funds.arrive, Function.update_of_ne here]
        rfl
  | lzReceive origin message =>
      rw [call] at ran
      obtain ⟨-, -, -, -, v, handled, rfl⟩ := lzReceive_ok.mp ran
      rcases handleMessage_closing call handled rfl h with unclosed | closing
      · exact Or.inl unclosed
      · right
        cases closing with
        | confirmed origin' rest m call' decoded about marked paid =>
            exact .confirmed origin' rest m call' decoded about marked paid
        | recalled origin' rest m call' decoded about marked paid =>
            exact .recalled origin' rest m call' decoded about marked paid
        | expired call' => cases call.symm.trans call'
  | cancelExpired intentHash =>
      rw [call] at ran
      obtain ⟨-, settles, -, late, rfl⟩ := cancelExpired_ok.mp ran
      rcases settled_closes (w.enter tx) (tx.context d) (.refund intentHash) Lock.refund
        ((w.enter tx).locks intentHash).user rfl h with ⟨rfl, marked, paid⟩ | ⟨same, -⟩
      · refine Or.inr (.expired call late marked ?_)
        have emitted := World.emit_funds ((w.enter tx).settled (tx.context d) (.refund h) h Lock.refund
          ((w.enter tx).locks h).user) (.refundedLocalTimeout h ((w.enter tx).locks h).user
            ((w.enter tx).locks h).amount)
        exact (congrArg (Funds.payouts · h) emitted).trans paid
      · exact Or.inl (Unclosed.of_eq same)
  | skim token receiver amount =>
      rw [call] at ran
      obtain ⟨-, funds, -, -⟩ := skim_ok ran
      left
      apply Unclosed.of_eq
      rw [funds]
      rfl
  | _ =>
      have frame := Call.run_admin (by rw [call]; rfl) ran
      left
      apply Unclosed.of_eq
      exact congrArg (fun f => f.locks h) frame.funds

/-- Payments are only ever added. -/
theorem next_payouts {d : Deployment} {input : Input} {w w' : World}
    (stepped : next d w input = some w') (h : Bytes32) :
    w.funds.payouts h <+: w'.funds.payouts h := by
  cases input with
  | tx tx =>
      obtain ⟨fresh, appended, -⟩ := exec_payments (next_tx.mp stepped).2
      unfold Funds.payouts
      rw [appended, List.filter_append]
      exact List.prefix_append _ _
  | tokenArrives token amount | nativeArrives amount =>
      cases stepped
      exact List.prefix_rfl

/-- The one payment of a closed lock stays the only one. -/
theorem payouts_stay {d : Deployment} {input : Input} {w w' : World}
    (reach : (system d).Reachable w) (stepped : next d w input = some w') {h : Bytes32}
    {payment : Payment} (paid : w.funds.payouts h = [payment]) :
    w'.funds.payouts h = [payment] := by
  have grown := next_payouts stepped h
  have accounted := accounted_of_reachable (reach.step stepped) h
  rw [paid] at grown
  cases final : (w'.funds.locks h).finalized with
  | false =>
      rw [accounted.unpaid final] at grown
      exact absurd (List.prefix_nil.mp grown) (List.cons_ne_nil _ _)
  | true =>
      obtain ⟨purpose, receiver, one⟩ := accounted.paid final
      rw [one] at grown ⊢
      obtain ⟨rest, same⟩ := grown
      rw [(List.cons.inj same).1]

end Perihelion.Escrow

import Perihelion.Settlement.Sent
import Perihelion.Settlement.Quiet
import Perihelion.Settlement.Status
import Perihelion.Settlement.KeeperReward

/-! # The reserve

The contract pays keepers out of a reserve of its own.  Nothing but a confirmation or a cancellation
draws on it, so that an intent, which has one of the two at most, costs it one reward at most.
-/

namespace Perihelion.Settlement

open BigEndian Fallible Transition

/-- A reward, and the ledger it was paid in. -/
structure Payout where
  intentHash : Bytes32
  receiver : Address
  amount : I128
  timestamp : Nat
  sequence : Nat
  deriving DecidableEq

def Entry.payout (entry : Entry) : Option Payout :=
  match entry.effect with
  | .transfer (.dispatchReward intentHash) _ _ receiver amount
  | .transfer (.cancelReward intentHash) _ _ receiver amount =>
      some ⟨intentHash, receiver, amount, entry.timestamp, entry.sequence⟩
  | _ => none

def World.payouts (w : World) : List Payout := w.trace.filterMap Entry.payout

/-- The ledgers in which a message about the intent left. -/
def Entry.departure (h : Bytes32) (entry : Entry) : Option (Nat × Nat) :=
  match entry.effect with
  | .send _ params _ _ =>
      if messageIntent params.message = h then some (entry.timestamp, entry.sequence) else none
  | _ => none

def World.departures (w : World) (h : Bytes32) : List (Nat × Nat) :=
  w.trace.filterMap (Entry.departure h)

/-! ## What is logged -/

theorem World.payouts_log (w : World) (effect : Effect) :
    (w.log effect).payouts =
      w.payouts ++ (Entry.payout ⟨w.timestamp, w.sequence, effect⟩).toList := by
  unfold World.payouts World.log
  rw [List.filterMap_append]
  cases logged : Entry.payout ⟨w.timestamp, w.sequence, effect⟩ with
  | none => simp [logged]
  | some payout => simp [logged]

@[simp] theorem World.payouts_publish (w : World) (event : Event) :
    (w.publish event).payouts = w.payouts :=
  (w.payouts_log _).trans (List.append_nil _)

theorem World.departures_log (w : World) (effect : Effect) (h : Bytes32) :
    (w.log effect).departures h =
      w.departures h ++ (Entry.departure h ⟨w.timestamp, w.sequence, effect⟩).toList := by
  unfold World.departures World.log
  rw [List.filterMap_append]
  cases logged : Entry.departure h ⟨w.timestamp, w.sequence, effect⟩ with
  | none => simp [logged]
  | some departure => simp [logged]

theorem World.departures_view (w : World) (h : Bytes32) :
    w.departures h = (w.view h).history.filterMap (Entry.departure h) := by
  unfold World.departures World.view
  rw [List.filterMap_filter]
  congr 1
  funext entry
  unfold Entry.departure Effect.concerns
  split <;> simp_all

/-! ## One call -/

/-- What a call draws on the reserve: nothing, or one reward for an intent that it finishes and whose
    message it sends. -/
inductive Draws (w w' : World) : Prop
  | nothing (same : w'.payouts = w.payouts)
  | reward (payout : Payout) (paid : w'.payouts = w.payouts ++ [payout])
      (live : w.confirmationSent payout.intentHash = false ∧ w.cancelled payout.intentHash = false)
      (final : w'.confirmationSent payout.intentHash = true ∨ w'.cancelled payout.intentHash = true)
      (left : (payout.timestamp, payout.sequence) ∈ w'.departures payout.intentHash)

section

variable {c : Context} {w w' : World}

/-- Nothing is paid, or the reward is, here and now. -/
theorem payKeeperReward_payouts {purpose intentHash caller reward eligible}
    (isReward : purpose = .dispatchReward intentHash ∨ purpose = .cancelReward intentHash)
    (ran : payKeeperReward c purpose intentHash caller reward eligible w = .ok w') :
    (w'.payouts = w.payouts ∨
        w'.payouts = w.payouts ++ [⟨intentHash, caller, reward, w.timestamp, w.sequence⟩]) ∧
      w'.confirmationSent = w.confirmationSent ∧ w'.cancelled = w.cancelled ∧
      ∀ h, w'.departures h = w.departures h := by
  unfold payKeeperReward at ran
  split at ran
  · split at ran
    · simp only [bind_ok, transfer_ok, pure_ok] at ran
      obtain ⟨_, ⟨-, rfl⟩, rfl⟩ := ran
      refine ⟨Or.inr ?_, rfl, rfl, ?_⟩
      · rw [World.payouts_publish, World.payouts_log]
        rcases isReward with rfl | rfl <;> rfl
      · intro h
        rw [World.publish, World.departures_log, World.departures_log]
        exact (List.append_nil _).trans (List.append_nil _)
    · cases ran
      exact ⟨Or.inl (World.payouts_publish _ _), rfl, rfl,
        fun h => (World.departures_log _ _ h).trans (List.append_nil _)⟩
  · cases ran
    exact ⟨Or.inl rfl, rfl, rfl, fun _ => rfl⟩

theorem dispatch_departs {payer dstEid message lzFee}
    (ran : dispatch c payer dstEid message lzFee w = .ok w') : w'.payouts = w.payouts ∧
      (w.timestamp, w.sequence) ∈ w'.departures (messageIntent message) ∧
        w'.timestamp = w.timestamp ∧ w'.sequence = w.sequence ∧
          w'.confirmationSent = w.confirmationSent ∧ w'.cancelled = w.cancelled := by
  obtain ⟨endpoint, receiver, -, rfl⟩ := dispatch_sends ran
  refine ⟨(w.payouts_log _).trans (List.append_nil _), ?_, rfl, rfl, rfl, rfl⟩
  rw [World.departures_log]
  apply List.mem_append_right
  simp [Entry.departure, outboundParams]

theorem dispatchConfirmation_draws {caller intentHash lzFee} (named : w.Named)
    (stage : Stage intentHash (w.view intentHash))
    (ran : dispatchConfirmation c caller intentHash lzFee w = .ok w') : Draws w w' := by
  simp only [dispatchConfirmation, requireAuth, bind_ok, require_ok, exists_const, expect_ok,
    sendFillConfirmed, pure_ok] at ran
  obtain ⟨-, unsent, record, found, filled, -, solver, -, solverEvm, -, sent, sending, marked, marking,
    rewarded, rewarding, rfl⟩ := ran
  obtain ⟨rep, rfl, -⟩ := updateSolverReputation_ok marking
  obtain ⟨quiet, departed, clock, ledger, -, -⟩ := dispatch_departs sending
  obtain ⟨paid, confirmed, -, departures⟩ := payKeeperReward_payouts (Or.inl rfl) rewarding
  rw [messageIntent_encodeFillConfirmed, named intentHash record found, ← clock, ← ledger] at departed
  rcases paid with same | paid
  · exact .nothing ((World.payouts_publish _ _).trans (same.trans quiet))
  · have uncancelled : w.cancelled intentHash = false := by
      obtain ⟨_, _, _, -, view⟩ := stage.of_filled found filled
      exact congrArg IntentView.cancelled view
    refine .reward _ ((World.payouts_publish _ _).trans (paid.trans (congrArg (· ++ _) quiet)))
      ⟨Bool.eq_false_of_not_eq_true unsent, uncancelled⟩ (Or.inl ?_) ?_
    · show rewarded.confirmationSent intentHash = true
      rw [confirmed]
      exact Function.update_self _ _ _
    · rw [World.publish, World.departures_log, departures]
      exact List.mem_append_left _ departed

theorem cancelExpiredIntent_draws {caller intentHash lzFee} (named : w.Named)
    (stage : Stage intentHash (w.view intentHash))
    (ran : cancelExpiredIntent c caller intentHash lzFee w = .ok w') : Draws w w' := by
  simp only [cancelExpiredIntent, requireAuth, bind_ok, require_ok, exists_const, expect_ok,
    sendCancel, pure_ok] at ran
  obtain ⟨-, uncancelled, -, record, found, locked, -, sent, sending, rewarded, rewarding, rfl⟩ := ran
  obtain ⟨quiet, departed, clock, ledger, -, cancelled⟩ := dispatch_departs sending
  obtain ⟨paid, -, marked, departures⟩ := payKeeperReward_payouts (Or.inr rfl) rewarding
  have matching : record.intentHash = intentHash := named intentHash record found
  rw [messageIntent_encodeCancelIntent, matching] at departed
  rcases paid with same | paid
  · exact .nothing ((World.payouts_publish _ _).trans (same.trans quiet))
  · have unsent : w.confirmationSent intentHash = false :=
      congrArg IntentView.confirmationSent (stage.of_locked found locked)
    refine .reward _ ((World.payouts_publish _ _).trans (paid.trans (congrArg (· ++ _) quiet)))
      ⟨unsent, Bool.eq_false_of_not_eq_true uncancelled⟩ (Or.inr ?_) ?_
    · show rewarded.cancelled intentHash = true
      rw [marked, cancelled]
      exact Function.update_self _ _ _
    · rw [World.publish, World.departures_log, departures, clock, ledger]
      exact List.mem_append_left _ departed

theorem fillIntent_payouts {solver solverEvm intentHash fillAmount lzFee}
    (ran : fillIntent c solver solverEvm intentHash fillAmount lzFee w = .ok w') :
    w'.payouts = w.payouts := by
  simp only [fillIntent, bind_ok, transfer_ok, sendFillConfirmed, pure_ok] at ran
  obtain ⟨_, -, _, -, record, -, _, ⟨-, rfl⟩, sent, sending, marked, marking, rfl⟩ := ran
  obtain ⟨rep, rfl, -⟩ := updateSolverReputation_ok marking
  rw [World.payouts_publish, World.payouts_publish]
  exact (dispatch_departs sending).1.trans ((World.payouts_log _ _).trans (List.append_nil _))

theorem Call.run_draws {call : Call} (named : w.Named) (stage : ∀ h, Stage h (w.view h))
    (ran : call.run c w = .ok w') : Draws w w' := by
  cases spends : call.spends with
  | false => exact .nothing ((Call.run_quiet spends ran).filterMap fun _ _ _ => rfl)
  | true =>
      cases call with
      | deliverIntent =>
          obtain ⟨_, -, -, -, rfl⟩ := deliverIntent_ok ran
          exact .nothing ((World.payouts_publish _ _).trans
            ((World.payouts_log _ _).trans (List.append_nil _)))
      | fillIntent => exact .nothing (fillIntent_payouts ran)
      | dispatchConfirmation caller intentHash lzFee =>
          exact dispatchConfirmation_draws named (stage intentHash) ran
      | cancelExpiredIntent caller intentHash lzFee =>
          exact cancelExpiredIntent_draws named (stage intentHash) ran
      | _ => cases spends

end

/-! ## Runs -/

theorem IntentView.Step.marks {h : Bytes32} {o : Occasion} {v v' : IntentView}
    (step : IntentView.Step h o v v') :
    (v.confirmationSent = true → v'.confirmationSent = true) ∧
      (v.cancelled = true → v'.cancelled = true) := by
  induction step with
  | same | registered | delivered => exact ⟨id, id⟩
  | tombstoned | recalled | expired => exact ⟨id, fun _ => rfl⟩
  | dispatched => exact ⟨fun _ => rfl, id⟩
  | both _ _ _ _ _ ihFirst ihSecond =>
      exact ⟨fun sent => ihSecond.1 (ihFirst.1 sent), fun cancelled => ihSecond.2 (ihFirst.2 cancelled)⟩

/-- Who has been paid for an intent was paid once, and in the ledger of its message. -/
structure Frugal (w : World) : Prop where
  once : ∀ h, (w.payouts.filter (·.intentHash = h)).length ≤
    if w.confirmationSent h || w.cancelled h then 1 else 0
  left : ∀ payout ∈ w.payouts, (payout.timestamp, payout.sequence) ∈ w.departures payout.intentHash

theorem Frugal.step {d : Deployment} {tx : Tx} {w w' : World} (frugal : Frugal w) (named : w.Named)
    (stage : ∀ h, Stage h (w.view h)) (ran : exec d tx w = .ok w') : Frugal w' := by
  have marks h := (exec_step named ran h).marks
  have departed h departure (left : departure ∈ w.departures h) : departure ∈ w'.departures h := by
    rw [World.departures_view] at *
    exact ((exec_step named ran h).history.filterMap _).subset left
  have kept h : (w.payouts.filter (·.intentHash = h)).length ≤
      if w'.confirmationSent h || w'.cancelled h then 1 else 0 := by
    refine Nat.le_trans (frugal.once h) ?_
    obtain ⟨sent, cancelled⟩ := marks h
    by_cases before : (w.confirmationSent h || w.cancelled h) = true
    · have after : (w'.confirmationSent h || w'.cancelled h) = true := by
        rcases Bool.or_eq_true_iff.mp before with marked | marked
        · exact Bool.or_eq_true_iff.mpr (Or.inl (sent marked))
        · exact Bool.or_eq_true_iff.mpr (Or.inr (cancelled marked))
      rw [if_pos before, if_pos after]
    · rw [if_neg before]
      exact Nat.zero_le _
  have draws : Draws (w.enter tx) w' := Call.run_draws named stage ran
  cases draws with
  | nothing same =>
      have same : w'.payouts = w.payouts := same
      constructor
      case once =>
        intro h
        rw [same]
        exact kept h
      case left =>
        intro payout member
        rw [same] at member
        exact departed _ _ (frugal.left payout member)
  | reward payout paid live final left =>
      have paid : w'.payouts = w.payouts ++ [payout] := paid
      obtain ⟨unsent, uncancelled⟩ := live
      constructor
      case once =>
        intro h
        rw [paid, List.filter_append, List.length_append]
        by_cases same : payout.intentHash = h
        · subst same
          -- nobody had been paid for it
          have none := frugal.once payout.intentHash
          have unsent : w.confirmationSent payout.intentHash = false := unsent
          have uncancelled : w.cancelled payout.intentHash = false := uncancelled
          rw [unsent, uncancelled, if_neg (by decide)] at none
          rw [if_pos (Bool.or_eq_true_iff.mpr final)]
          simp only [decide_true, List.filter_cons_of_pos, List.filter_nil, List.length_singleton]
          omega
        · simp only [same, decide_false, Bool.false_eq_true, not_false_eq_true,
            List.filter_cons_of_neg, List.filter_nil, List.length_nil, Nat.add_zero]
          exact kept h
      case left =>
        intro other member
        rw [paid] at member
        rcases List.mem_append.mp member with member | member
        · exact departed _ _ (frugal.left other member)
        · rw [List.mem_singleton.mp member]
          exact left

namespace Sample

/-- The keeper's ten stroops have been paid. -/
def rewarded : World := (replay deployment rewarding [keeperTx]).get (by decide +kernel)

end Sample

end Perihelion.Settlement

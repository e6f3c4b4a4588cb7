import Perihelion.Settlement.Steps

/-! # One message for each intent

What the trace of a run says about the messages: at most one for each intent, a
confirmation of the one payment that precedes it, or a cancellation where nothing was
ever paid.
-/

namespace Perihelion.Settlement

open BigEndian Fallible Transition

/-- A message about the intent. -/
def Entry.sends (h : Bytes32) (entry : Entry) : Bool :=
  match entry.effect with
  | .send _ params _ _ => messageIntent params.message == h
  | _ => false

/-- A payment for the intent. -/
def Entry.pays (h : Bytes32) (entry : Entry) : Bool :=
  match entry.effect with
  | .transfer (.fill intentHash) _ _ _ _ => intentHash == h
  | _ => false

/-- What a message about `h` says, and what happened around it. -/
inductive Outbound (w : World) (h : Bytes32) (before : List Entry) (entry : Entry)
    (after : List Entry) : Prop
  | confirmation (record solver solverEvm payment) (found : w.intent h = some record)
      (bySolver : record.solver = some solver) (forSolver : record.solverEvm = some solverEvm)
      (message : entry.message =
        some (encodeFillConfirmed h solverEvm record.fillAmount record.fillLedger))
      (paid : before.filter (Entry.pays h) = [payment]) (never : after.filter (Entry.pays h) = [])
      (transferred : payment.effect =
        .transfer (.fill h) record.destAsset solver record.recipient record.fillAmount)
      (ledger : payment.sequence = record.fillLedger)
      (exact : (record.fillAmount.toNat : Int) = record.fillAmount.toInt)
      (enough : record.minDestAmount.toInt ≤ record.fillAmount.toInt)
  | cancellation (record) (found : w.intent h = some record)
      (message : entry.message = some (encodeCancelIntent h cancelReasonExpired))
      (late : record.deadline ≤ entry.timestamp)
      (unpaid : (before ++ entry :: after).filter (Entry.pays h) = [])

theorem Entry.concerns_of_sends {h : Bytes32} {entry : Entry} (sends : entry.sends h = true) :
    entry.effect.concerns h = true := by
  unfold Entry.sends at sends
  split at sends
  · rename_i params _ _ effect
    simpa [effect, Effect.concerns] using sends
  · cases sends

theorem Entry.concerns_of_pays {h : Bytes32} {entry : Entry} (pays : entry.pays h = true) :
    entry.effect.concerns h = true := by
  unfold Entry.pays at pays
  split at pays
  · rename_i effect
    simpa [effect, Effect.concerns] using pays
  · cases pays

theorem filter_concerns {h : Bytes32} {p : Entry → Bool}
    (about : ∀ entry, p entry = true → entry.effect.concerns h = true) (trace : List Entry) :
    trace.filter p = (trace.filter fun entry => entry.effect.concerns h).filter p := by
  rw [List.filter_filter]
  refine List.filter_congr fun entry _ => ?_
  cases holds : p entry with
  | true => simp [about entry holds]
  | false => rfl

theorem Delivers.pays {h record entry solver solverEvm}
    (delivers : Delivers h record entry solver solverEvm) :
    entry.pays h = true ∧ entry.sends h = false := by
  simp [Entry.pays, Entry.sends, delivers.effect]

theorem Entry.pays_of_message {h : Bytes32} {entry : Entry} {message : Bytes}
    (sent : entry.message = some message) : entry.pays h = false := by
  unfold Entry.message at sent
  unfold Entry.pays
  split at sent
  · rename_i effect
    rw [effect]
  · cases sent

theorem I128.toNat_of_pos {x : I128} (positive : 0 < x.toInt) : (x.toNat : Int) = x.toInt := by
  have small := x.isLt
  unfold BitVec.toInt at positive ⊢
  split
  · rfl
  · rename_i negative
    rw [if_neg negative] at positive
    omega

/-- The history around a message, if the trace is split there. -/
theorem history_split {h : Bytes32} {w : World} {before after : List Entry} {entry : Entry}
    (split : w.trace = before ++ entry :: after) (sends : entry.sends h = true) :
    (w.view h).history =
      (before.filter fun entry => entry.effect.concerns h) ++
        entry :: (after.filter fun entry => entry.effect.concerns h) := by
  have concerns := Entry.concerns_of_sends sends
  simp only [World.view, split, List.filter_append, List.filter_cons, concerns, if_true]

theorem Stage.sends_le_one {h : Bytes32} {v : IntentView} (stage : Stage h v) :
    (v.history.filter (Entry.sends h)).length ≤ 1 := by
  cases stage with
  | unknown => simp [IntentView.empty]
  | tombstone | locked | recalled => simp
  | filled record delivery solver solverEvm status delivers => simp [delivers.pays.2]
  | confirmed record delivery solver solverEvm confirmation status delivers confirms =>
      rw [List.filter_cons, if_neg (by simp [delivers.pays.2])]
      exact List.length_filter_le _ _
  | expired record cancellation => exact List.length_filter_le _ _

theorem singleton_split {α : Type u} {a b : α} {before after : List α}
    (split : [a] = before ++ b :: after) : before = [] ∧ a = b ∧ after = [] := by
  cases before with
  | nil => simpa [eq_comm] using split
  | cons first rest => simp at split

theorem pair_split {α : Type u} {a b c : α} {before after : List α}
    (split : [a, b] = before ++ c :: after) (other : a ≠ c) :
    before = [a] ∧ b = c ∧ after = [] := by
  cases before with
  | nil => exact absurd (List.cons.inj split).1 other
  | cons first rest =>
      obtain ⟨same, split⟩ := List.cons.inj split
      obtain ⟨rfl, same', rfl⟩ := singleton_split split
      exact ⟨by rw [same], same', rfl⟩

/-- A message in the history of an intent, with what the history holds before and after it. -/
theorem Stage.outbound {w : World} {h : Bytes32} {before after : List Entry} {entry : Entry}
    (stage : Stage h (w.view h)) (split : w.trace = before ++ entry :: after)
    (sends : entry.sends h = true) : Outbound w h before entry after := by
  have history := history_split split sends
  have payments (trace : List Entry) := @filter_concerns h (Entry.pays h)
    (fun _ => Entry.concerns_of_pays) trace
  generalize same : w.view h = v at stage history
  have found : w.intent h = v.record := congrArg IntentView.record same
  cases stage with
  | unknown | tombstone | locked | recalled =>
      simp [IntentView.empty] at history
  | filled record delivery solver solverEvm status delivers =>
      obtain ⟨-, only, -⟩ := singleton_split history
      rw [← only, delivers.pays.2] at sends
      cases sends
  | confirmed record delivery solver solverEvm confirmation status delivers confirms =>
      have other : delivery ≠ entry := by
        intro same
        rw [← same, delivers.pays.2] at sends
        cases sends
      obtain ⟨earlier, rfl, later⟩ := pair_split history other
      refine .confirmation record solver solverEvm delivery found delivers.bySolver
        delivers.forSolver confirms ?_ ?_ delivers.effect delivers.sequence
        (I128.toNat_of_pos delivers.positive) delivers.enough
      · rw [payments, earlier]
        simp [delivers.pays.1]
      · rw [payments, later]
        rfl
  | expired record cancellation status cancels late =>
      obtain ⟨earlier, rfl, later⟩ := singleton_split history
      refine .cancellation record found cancels late ?_
      rw [List.filter_append, payments before, earlier, List.filter_cons,
        Entry.pays_of_message cancels, payments after, later]
      rfl

theorem outbound_once {d : Deployment} {w : World} (reach : (system d).Reachable w)
    (h : Bytes32) :
    (w.trace.filter (Entry.sends h)).length ≤ 1 ∧
      ∀ before entry after, w.trace = before ++ entry :: after → entry.sends h = true →
        Outbound w h before entry after := by
  have stage := stage_of_reachable reach h
  refine ⟨?_, fun before entry after split sends => stage.outbound split sends⟩
  rw [@filter_concerns h (Entry.sends h) (fun _ => Entry.concerns_of_sends)]
  exact stage.sends_le_one

theorem outbound_once_sample :
    (Sample.dispatched.trace.filter (Entry.sends Sample.intentHash)).length ≤ 1 ∧
      ∀ before entry after, Sample.dispatched.trace = before ++ entry :: after →
        entry.sends Sample.intentHash = true →
          Outbound Sample.dispatched Sample.intentHash before entry after :=
  outbound_once Sample.dispatched_reachable Sample.intentHash

end Perihelion.Settlement

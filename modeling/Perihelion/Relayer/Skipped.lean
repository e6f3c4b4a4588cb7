import Perihelion.Relayer.SorobanDelivery
import Perihelion.Settlement.Status

/-! # Messages that are skipped

The relayer passes a message over for good when `isDelivered` says that the settlement contract
has dealt with it.  The status that it reads only advances, so it says so from then on, and the
message would have changed no intent.
-/

namespace Perihelion.Relayer.Soroban

open BigEndian Fallible Transition
open Sdk (JsString js)
open Settlement (IntentStatus LzMessage status Advances)

/-- The discriminants of `IntentStatus`. -/
def code : IntentStatus → Nat
  | .locked => 0
  | .filled => 1
  | .confirmationSent => 2
  | .cancelled => 3

/-- What a simulation of `status` shows. -/
def shown : Option IntentStatus → ViewReply
  | none => .returned (some .null)
  | some status => .returned (some (.number (js (toString (code status)))))

theorem readStatus_shown (s : Option IntentStatus) : readStatus (shown s) = s := by
  cases s with
  | none => rfl
  | some status => cases status <;> decide

/-- The node's answer, if there is one, is the contract's. -/
def Truthful (reply : ViewReply) (s : Option IntentStatus) : Prop :=
  ∀ retval, reply = .returned retval → reply = shown s

/-- What counts as delivered. -/
def Delivered : MessageType → Option IntentStatus → Prop
  | .fillInstruction, s => s ≠ none
  | .cancelIntent, s => s = some .cancelled
  | .fillConfirmed, s => s = some .filled ∨ s = some .confirmationSent

theorem isIntentHash_text (h : Bytes32) : isIntentHash (hexText (Bytes32.toBytes h)) = true :=
  @Evm.isHexWord_text _ 32 (Bytes32.toBytes_length h)

theorem isDelivered_shown (type : MessageType) (h : Bytes32) (s : Option IntentStatus) :
    isDelivered type (hexText (Bytes32.toBytes h)) (shown s) = true ↔ Delivered type s := by
  unfold isDelivered
  rw [if_pos (isIntentHash_text h), readStatus_shown]
  cases type with
  | fillInstruction => simp [Delivered, Option.isSome_iff_ne_none]
  | cancelIntent | fillConfirmed => simp [Delivered]

theorem Delivered.advances {type : MessageType} {s s' : Option IntentStatus}
    (delivered : Delivered type s) (advances : Advances s s') : Delivered type s' := by
  cases type with
  | fillInstruction =>
      intro unknown
      subst unknown
      cases s with
      | none => exact delivered rfl
      | some status => cases status <;> simp [Advances] at advances
  | cancelIntent =>
      obtain rfl := delivered
      exact advances
  | fillConfirmed =>
      rcases delivered with rfl | rfl
      · exact advances
      · exact .inr advances

/-- The message of a type about an intent. -/
def Is (type : MessageType) (h : Bytes32) : LzMessage → Prop
  | .fillInstruction fi => type = .fillInstruction ∧ fi.intentHash = h
  | .cancel ci => type = .cancelIntent ∧ ci.intentHash = h

theorem delivered_ignored {d : Settlement.Deployment} {tx : Settlement.Tx} {w w' : Settlement.World}
    {type : MessageType} {h : Bytes32} {message : LzMessage}
    (reach : (Settlement.system d).Reachable w) (delivered : Delivered type (status w h))
    (hands : tx.message d w = some message) (about : Is type h message)
    (ran : Settlement.exec d tx w = .ok w') (h' : Bytes32) : w'.view h' = w.view h' := by
  obtain ⟨origin, applied⟩ := Settlement.exec_message hands ran
  have stage : Settlement.Stage h ((w.enter tx).view h) := Settlement.stage_of_reachable reach h
  have entered : Delivered type (status (w.enter tx) h) := delivered
  cases message with
  | fillInstruction fi =>
      obtain ⟨rfl, rfl⟩ := about
      exact Settlement.known_fill_ignored stage entered applied h'
  | cancel ci =>
      obtain ⟨rfl, rfl⟩ := about
      exact Settlement.final_cancel_ignored (Settlement.isFinalized_of_cancelled stage entered)
        applied h'

theorem skipped_for_good {d : Settlement.Deployment} {w w' : Settlement.World} {type : MessageType}
    {h : Bytes32} {reply : ViewReply} (reach : (Settlement.system d).Reachable w)
    (later : (Settlement.system d).Later w w') (truthful : Truthful reply (status w h))
    (skipped : isDelivered type (hexText (Bytes32.toBytes h)) reply = true) :
    isDelivered type (hexText (Bytes32.toBytes h)) (shown (status w' h)) = true ∧
      ∀ tx message w'', tx.message d w' = some message → Is type h message →
        Settlement.exec d tx w' = .ok w'' → ∀ h', w''.view h' = w'.view h' := by
  have first : Delivered type (status w h) := by
    have whole : reply = shown (status w h) := by
      cases reply with
      | threw | unsuccessful =>
          exfalso
          revert skipped
          cases type <;> simp [isDelivered, readStatus]
      | returned retval => exact truthful retval rfl
    rw [whole] at skipped
    exact (isDelivered_shown type h _).mp skipped
  have still := first.advances (Settlement.status_advances reach later h)
  refine ⟨(isDelivered_shown type h _).mpr still, ?_⟩
  intro tx message w'' hands about ran
  exact delivered_ignored (reach.later later) still hands about ran

theorem skipped_for_good_sample :
    isDelivered .fillInstruction (hexText (Bytes32.toBytes Settlement.Sample.intentHash))
        (shown (status Settlement.Sample.delivered Settlement.Sample.intentHash)) = true ∧
      ∀ tx message w'', tx.message Settlement.Sample.deployment Settlement.Sample.delivered = some message →
        Is .fillInstruction Settlement.Sample.intentHash message →
        Settlement.exec Settlement.Sample.deployment tx Settlement.Sample.delivered = .ok w'' →
        ∀ h', w''.view h' = Settlement.Sample.delivered.view h' := by
  have later : (Settlement.system Settlement.Sample.deployment).Later Settlement.Sample.registered
      Settlement.Sample.delivered :=
    Settlement.later_of_replay (show Settlement.replay Settlement.Sample.deployment
      Settlement.Sample.registered [Settlement.Sample.deliverTx] = some Settlement.Sample.delivered by
        simp [Settlement.Sample.delivered])
  have truthful : Truthful (.returned (some (.number (js "0"))))
      (status Settlement.Sample.registered Settlement.Sample.intentHash) := by
    have locked : status Settlement.Sample.registered Settlement.Sample.intentHash = some .locked := by
      decide +kernel
    intro _ _
    rw [locked]
    rfl
  exact skipped_for_good Settlement.Sample.registered_reachable later truthful (by decide +kernel)

end Perihelion.Relayer.Soroban

import Mathlib.Data.List.Infix
import Perihelion.Settlement.Outbound

/-! # What the settlement contract has sent

The messages handed to the endpoint, in order.  Those about one intent are in the
history of that intent, so they only grow in number, and there is at most one.
-/

namespace Perihelion.Settlement

open BigEndian Fallible Transition

def Entry.sent (entry : Entry) : Option MessagingParams :=
  match entry.effect with
  | .send _ params _ _ => some params
  | _ => none

def World.sent (w : World) : List MessagingParams := w.trace.filterMap Entry.sent

def MessagingParams.about (h : Bytes32) (params : MessagingParams) : Bool :=
  messageIntent params.message == h

theorem Entry.sends_eq (h : Bytes32) (entry : Entry) :
    entry.sends h = entry.sent.any (MessagingParams.about h) := by
  unfold Entry.sends Entry.sent
  cases entry.effect <;> rfl

theorem Entry.message_eq (entry : Entry) :
    entry.message = entry.sent.map MessagingParams.message := by
  unfold Entry.message Entry.sent
  cases entry.effect <;> rfl

/-- Filtering the messages is filtering the entries that send them. -/
theorem filter_sent (h : Bytes32) (trace : List Entry) :
    (trace.filterMap Entry.sent).filter (MessagingParams.about h) =
      (trace.filter (Entry.sends h)).filterMap Entry.sent := by
  induction trace with
  | nil => rfl
  | cons entry rest ih =>
      cases sent : entry.sent with
      | none =>
          rw [List.filterMap_cons_none sent, List.filter_cons, Entry.sends_eq, sent]
          exact ih
      | some params =>
          rw [List.filterMap_cons_some sent, List.filter_cons, List.filter_cons,
            Entry.sends_eq, sent, Option.any_some]
          cases params.about h with
          | false => exact ih
          | true => rw [if_pos rfl, if_pos rfl, List.filterMap_cons_some sent, ih]

theorem World.sent_about (w : World) (h : Bytes32) :
    w.sent.filter (MessagingParams.about h) =
      ((w.view h).history.filter (Entry.sends h)).filterMap Entry.sent := by
  unfold World.sent
  rw [filter_sent, @filter_concerns h (Entry.sends h) (fun _ => Entry.concerns_of_sends)]
  rfl

/-- The history of an intent is only ever appended to. -/
theorem IntentView.Step.history {h o v v'} (step : IntentView.Step h o v v') :
    v.history <+: v'.history := by
  induction step with
  | same | registered | tombstoned | recalled => exact List.prefix_rfl
  | delivered | dispatched | expired => exact List.prefix_append _ _
  | both v middle v' first second ihFirst ihSecond => exact ihFirst.trans ihSecond

theorem exec_sent {d : Deployment} {tx : Tx} {w w' : World} (named : w.Named)
    (ran : exec d tx w = .ok w') (params : MessagingParams) :
    w.sent.count params ≤ w'.sent.count params := by
  let h := messageIntent params.message
  have about : params.about h = true := by simp [MessagingParams.about, h]
  have grown := (exec_step named ran h).history
  rw [← List.count_filter about, ← @List.count_filter _ _ _ _ _ w'.sent about, World.sent_about,
    World.sent_about]
  exact ((grown.filter _).filterMap _).sublist.count_le params

theorem sent_le_one {d : Deployment} {w : World} (reach : (system d).Reachable w) (h : Bytes32) :
    (w.sent.filter (MessagingParams.about h)).length ≤ 1 := by
  rw [World.sent_about]
  exact (List.length_filterMap_le _ _).trans (stage_of_reachable reach h).sends_le_one

end Perihelion.Settlement

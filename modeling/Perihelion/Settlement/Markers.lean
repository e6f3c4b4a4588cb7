import Perihelion.Settlement.Steps

/-! # Markers and record agree

Three markers and the status of the record tell the same story, in whatever order
the entrypoints write them.
-/

namespace Perihelion.Settlement

open BigEndian Fallible Transition

/-- The markers exclude each other as they should, the status of a record says which of
    them are set, and the view that reads the markers first returns it. -/
structure MarkersAgree (w : World) (h : Bytes32) : Prop where
  exclusive : ¬ (w.settled h = true ∧ w.cancelled h = true)
  sent : w.confirmationSent h = true → w.settled h = true
  locked : ∀ record, w.intent h = some record → (record.status = .locked ↔
    w.settled h = false ∧ w.cancelled h = false ∧ w.confirmationSent h = false)
  filled : ∀ record, w.intent h = some record → (record.status = .filled ↔
    w.settled h = true ∧ w.confirmationSent h = false)
  confirmed : ∀ record, w.intent h = some record →
    (record.status = .confirmationSent ↔ w.confirmationSent h = true)
  cancelled : ∀ record, w.intent h = some record →
    (record.status = .cancelled ↔ w.cancelled h = true)
  view : ∀ record, w.intent h = some record → status w h = some record.status

theorem World.fields_of_view {w : World} {h : Bytes32} {v : IntentView} (same : w.view h = v) :
    w.intent h = v.record ∧ w.settled h = v.settled ∧ w.cancelled h = v.cancelled ∧
      w.confirmationSent h = v.confirmationSent := by
  subst same
  exact ⟨rfl, rfl, rfl, rfl⟩

theorem markersAgree_of_view {w : World} {h : Bytes32} {v : IntentView} (same : w.view h = v)
    (stage : Stage h v) : MarkersAgree w h := by
  obtain ⟨record, settled, cancelled, sent⟩ := World.fields_of_view same
  cases stage with
  | unknown | tombstone =>
      constructor <;> simp [record, settled, cancelled, sent, IntentView.empty]
  | locked found condition | recalled found condition | expired found _ condition
  | filled found _ _ _ condition | confirmed found _ _ _ _ condition =>
      constructor <;> simp [status, record, settled, cancelled, sent, condition]

theorem markersAgree {d : Deployment} {w : World} (reach : (system d).Reachable w)
    (h : Bytes32) : MarkersAgree w h :=
  markersAgree_of_view rfl (stage_of_reachable reach h)

theorem markersAgree_sample : MarkersAgree Sample.dispatched Sample.intentHash :=
  markersAgree Sample.dispatched_reachable Sample.intentHash

/-- The monitoring query lists exactly the intents that `status` calls filled. -/
theorem mem_listUndispatchedIntents {d : Deployment} {w : World} (reach : (system d).Reachable w)
    (hashes : List Bytes32) (h : Bytes32) :
    h ∈ listUndispatchedIntents w hashes ↔ h ∈ hashes ∧ status w h = some .filled := by
  have stage := stage_of_reachable reach h
  generalize same : w.view h = v at stage
  obtain ⟨record, settled, cancelled, sent⟩ := World.fields_of_view same
  cases stage with
  | unknown | tombstone =>
      simp [listUndispatchedIntents, status, record, settled, cancelled, sent, IntentView.empty]
  | locked found condition | recalled found condition | expired found _ condition
  | filled found _ _ _ condition | confirmed found _ _ _ _ condition =>
      simp [listUndispatchedIntents, status, record, settled, cancelled, sent, condition]

end Perihelion.Settlement

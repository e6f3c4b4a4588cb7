import Perihelion.SolverNode.Tick

/-! # What a step does to the caches

A step touches the keys of one record.  It adds the record's hash to the seen ones at most once,
and only if it has not found it there.
-/

namespace Perihelion.SolverNode

open Sdk

/-- What working a record, or ending its fill, may have done to the caches. -/
structure Touched (hash : JsString) (solver solver' : Solver) : Prop where
  seen : solver'.seen = solver.seen ∨
    ∃ deadlineMs now, solver'.seen = SeenLRU.add solver.seen hash deadlineMs now
  retry : ∀ k ∈ solver'.retryState.keys, k = hash ∨ k ∈ solver.retryState.keys

theorem Touched.kept {hash : JsString} {solver solver' : Solver} (seen : solver'.seen = solver.seen)
    (retry : solver'.retryState.keys ⊆ solver.retryState.keys) : Touched hash solver solver' :=
  ⟨.inl seen, fun _ member => .inr (retry member)⟩

theorem Touched.retire (solver : Solver) (hash : JsString) (deadlineMs now : Int) :
    Touched hash solver (solver.retire hash deadlineMs now) where
  seen := .inr ⟨deadlineMs, now, rfl⟩
  retry _ member := .inr ((solver.retryState.delete_keys_sublist hash).subset member)

/-- After a step that has left the caches as they were, or has only dropped retries. -/
theorem Touched.after {hash : JsString} {solver between solver' : Solver}
    (touched : Touched hash between solver') (seen : between.seen = solver.seen)
    (retry : between.retryState.keys ⊆ solver.retryState.keys) : Touched hash solver solver' where
  seen := by
    rw [← seen]
    exact touched.seen
  retry k member := by
    rcases touched.retry k member with own | there
    · exact .inl own
    · exact .inr (retry there)

theorem passOver_touched (config : SolverConfig) (solver : Solver) (record : IntentRecord)
    (decision : FillDecision) (deadlineMs now : Int) :
    Touched record.hash solver (solver.passOver config record decision deadlineMs now).solver := by
  unfold Solver.passOver
  extract_lets triggers maxTriggers counted log
  split
  · exact .kept rfl (List.Subset.refl _)
  · split
    · exact (Touched.retire counted record.hash deadlineMs now).after rfl (List.Subset.refl _)
    · exact .kept rfl (List.Subset.refl _)

theorem consider_touched (setup : Setup) (solver : Solver) (record : IntentRecord)
    (answers : Answers) :
    Touched record.hash solver (solver.consider setup record answers).solver := by
  unfold Solver.consider
  extract_lets deadlineMs checked verifying
  have retry : verifying.retryState.keys ⊆ solver.retryState.keys := List.Subset.refl _
  split
  · exact .kept rfl (List.Subset.refl _)
  · split
    · exact .retire solver record.hash deadlineMs _
    · split
      · exact .kept rfl retry
      · exact .kept rfl (solver.retryState.delete_keys_sublist _).subset
      · split
        · exact .kept rfl retry
        · split
          · exact .kept rfl (solver.retryState.lookup_keys_subset _ _)
          · exact (passOver_touched setup.config verifying record _ deadlineMs _).after rfl retry

theorem scheduleRetry_touched (solver : Solver) (hash : JsString) (deadlineMs now : Int) :
    Touched hash solver (solver.scheduleRetry hash deadlineMs now) := by
  unfold Solver.scheduleRetry
  extract_lets known attempts
  have keys : known.1.keys ⊆ solver.retryState.keys := solver.retryState.lookup_keys_subset now hash
  split
  · exact (Touched.retire { solver with retryState := known.1 } hash deadlineMs now).after rfl keys
  · refine ⟨.inl rfl, ?_⟩
    intro k member
    rw [RetryStateLRU.set, DeadlineCache.insert_keys] at member
    rcases List.mem_append.mp member with there | own
    · have before := (known.1.delete_keys_sublist hash).subset
        ((DeadlineCache.makeRoom_keys_sublist _).subset there)
      exact .inr (keys before)
    · exact .inl (List.mem_singleton.mp own)

theorem settleFill_touched (solver : Solver) (hash : JsString) (deadlineMs : Int)
    (result : FillResult) (now : Int) :
    Touched hash solver (solver.settleFill hash deadlineMs result now).1 := by
  cases result with
  | success => exact .retire solver hash deadlineMs now
  | fatal => exact .kept rfl (List.Subset.refl _)
  | lockOwnedByOther => exact .retire solver hash deadlineMs now
  | definiteFailure => exact scheduleRetry_touched solver hash deadlineMs now
  | failed => exact scheduleRetry_touched solver hash deadlineMs now

/-- A record whose hash is among the seen ones goes no further. -/
theorem takeUp_known {setup : Setup} {now : Int} {solver : Solver} {record : IntentRecord}
    {answers : Answers} (known : (SeenLRU.has solver.seen record.hash answers.startedAt).2 = true) :
    solver.takeUp setup now record answers =
      ⟨{ solver with seen := (SeenLRU.has solver.seen record.hash answers.startedAt).1 }, [],
        .returned false⟩ := by
  unfold Solver.takeUp
  extract_lets
  exact if_pos known

/-- What a record does to the caches after it has been looked up. -/
theorem takeUp_touched (setup : Setup) (now : Int) (solver : Solver) (record : IntentRecord)
    (answers : Answers) :
    Touched record.hash
      { solver with seen := (SeenLRU.has solver.seen record.hash answers.startedAt).1 }
      (solver.takeUp setup now record answers).solver := by
  unfold Solver.takeUp
  extract_lets known noted retry asked
  have keys : retry.1.keys ⊆ noted.retryState.keys :=
    solver.retryState.lookup_keys_subset answers.startedAt record.hash
  split
  · exact .kept rfl (List.Subset.refl _)
  · split
    · exact .kept rfl keys
    · exact (consider_touched setup asked record answers).after rfl keys

end Perihelion.SolverNode

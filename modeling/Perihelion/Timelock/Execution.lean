import Perihelion.Timelock.Council

/-! # Executions

An operation that was executed keeps its flag for good: it cannot be proposed again,
since it still exists, nor cancelled, since it was executed.  So the flag counts the
executions of its id, over any number of proposals of it.
-/

namespace Perihelion.Timelock

open BigEndian Fallible Transition

/-- An id that names nothing holds the zero slot, and the flag counts the executions. -/
structure Recorded (w : World) (id : Bytes32) : Prop where
  blank : (w.operations id).exists_ = false → w.operations id = default
  executions : w.log.count (.executed id) = if (w.operations id).executed then 1 else 0

theorem voteEvents_count (w : World) (id : Bytes32) (a : Address) (op : Operation) (other : Bytes32) :
    (voteEvents w id a op).count (.executed other) = 0 := by
  rw [List.count_eq_zero]
  intro member
  simp only [voteEvents, List.mem_append] at member
  rcases member with ready | confirmed
  · split at ready
    · simp at ready
    · cases ready
  · simp at confirmed

theorem Change.elsewhere {c : Context} {w : World} {call : Call} {id other : Bytes32}
    {events : List Event} {p : Proposal} (change : Change c w call id events p) (h : other ≠ id) :
    events.count (.executed other) = 0 := by
  have different : id ≠ other := fun same => h same.symm
  cases change with
  | propose => simp [voteEvents_count]
  | confirm => exact voteEvents_count ..
  | revoke | cancelVote | cancelled => simp
  | execute => simp [different]

/-- Only a pending operation changes, and it is executed where that is recorded. -/
theorem Change.records {c : Context} {w : World} {call : Call} {id : Bytes32} {events : List Event}
    {p : Proposal} (change : Change c w call id events p) :
    (w.operations id).executed = false ∧
      events.count (.executed id) = (if p.operation.executed then 1 else 0) ∧
      (p.operation.exists_ = false → p.operation = default) := by
  cases change with
  | propose _ _ pending =>
      have counted := voteEvents_count w id c.sender (w.operations id) id
      exact ⟨pending, by simp [counted, Proposal.voted, Operation.voted, pending], by
        simp [Proposal.voted, Operation.voted]⟩
  | confirm known pending =>
      have counted := voteEvents_count w id c.sender (w.operations id) id
      exact ⟨pending, by simp [counted, Proposal.voted, Operation.voted, World.proposal, pending], by
        simp [Proposal.voted, Operation.voted, World.proposal, known]⟩
  | revoke known pending => exact ⟨pending, by simp [pending], by simp [known]⟩
  | execute _ _ known pending => exact ⟨pending, by simp, by simp [known]⟩
  | cancelVote known pending => exact ⟨pending, by simp [World.proposal, pending], by simp [World.proposal, known]⟩
  | cancelled _ pending => exact ⟨pending, by simp [default], fun _ => rfl⟩

theorem Spares.count {w w' : World} {events : List Event} (spares : Spares w w' events) (id : Bytes32) :
    events.count (.executed id) = 0 := by
  rw [List.count_eq_zero]
  intro member
  have wrong := spares.configures _ member
  simp [Event.configures] at wrong

theorem operations_eq {w w' : World} {id : Bytes32} (same : w'.proposal id = w.proposal id) :
    w'.operations id = w.operations id :=
  congrArg Proposal.operation same

theorem Recorded.act {d : Deployment} {w w' : World} {move : Move} {id : Bytes32}
    (recorded : Recorded w id) (h : act d w move = some w') : Recorded w' id := by
  cases act_acts h with
  | @touches a msgValue call touched events p _ _ change touches =>
      by_cases same : id = touched
      · subst same
        obtain ⟨pending, counted, blank⟩ := change.records
        have now : w'.operations id = p.operation := congrArg Proposal.operation touches.here
        refine ⟨now ▸ blank, ?_⟩
        rw [touches.log, List.count_append, recorded.executions, counted, pending, now]
        simp
      · have now := operations_eq (touches.elsewhere id same)
        refine ⟨now ▸ recorded.blank, ?_⟩
        rw [touches.log, List.count_append, change.elsewhere same, recorded.executions, now,
          Nat.zero_add]
  | configures _ spares =>
      have now := operations_eq (spares.proposals id)
      refine ⟨now ▸ recorded.blank, ?_⟩
      rw [spares.log, List.count_append, spares.count, recorded.executions, now, Nat.zero_add]
  | idles _ idles =>
      have now := operations_eq (idles.proposals id)
      exact ⟨now ▸ recorded.blank, by rw [idles.log, recorded.executions, now]⟩

/-- Nothing is kept under any id at first, and no call was made. -/
theorem construct_blank {creation : Creation} {w : World} (h : creation.world = .ok w) (id : Bytes32) :
    w.proposal id = ⟨default, fun _ => false, 0, fun _ => false⟩ ∧ w.reentrancy = 1 ∧
      ∀ e ∈ w.log, e.configures = true := by
  simp only [Creation.world, construct, bind_ok, require_ok, pure_ok] at h
  obtain ⟨_, _, _, _, config, _, rfl⟩ := h
  refine ⟨rfl, rfl, ?_⟩
  intro e member
  simp only [List.mem_cons, List.mem_reverse, List.mem_map] at member
  rcases member with rfl | rfl | ⟨o, _, rfl⟩
  · rfl
  · rfl
  · rfl

theorem Recorded.of_blank {w : World} {id : Bytes32} (blank : w.operations id = default)
    (quiet : ∀ e ∈ w.log, e.configures = true) : Recorded w id := by
  refine ⟨fun _ => blank, ?_⟩
  rw [blank, List.count_eq_zero.mpr]
  · rfl
  · intro member
    have wrong := quiet _ member
    simp [Event.configures] at wrong

theorem recorded_of_contract {d : Deployment} {condition : World → Address → Call → Prop} {w : World}
    (reach : (contract d condition).Reachable w) (id : Bytes32) : Recorded w id := by
  induction reach with
  | init start =>
      obtain ⟨creation, created⟩ := start
      obtain ⟨blank, _, quiet⟩ := construct_blank created id
      exact .of_blank (congrArg Proposal.operation blank) quiet
  | step _ last ih => exact ih.act last.1

/-! ## The open call -/

theorem Call.guard_raised {n : Nat} (raised : n = 2) (call : Call) : call.guard n = 2 := by
  cases call <;> simp [Call.guard, raised]

theorem enter_guard {d : Deployment} {a : Address} {msgValue : Nat} {call : Call} {w w' : World}
    (h : enter d a msgValue call w = .ok w') : w'.reentrancy = call.guard w.reentrancy := by
  cases subject : call.subject (d.context a) with
  | some id => exact (enter_touches h subject).2.1
  | none =>
      obtain ⟨_, events, spares⟩ := enter_spares h subject
      rw [spares.reentrancy]
      cases call with
      | execute => cases subject
      | propose | confirm | revokeConfirmation | cancel | addOwner | removeOwner | setThreshold
        | setDelay | receive | getter => rfl

/-- While a call is open the guard is up, so no other one opens. -/
theorem guard_of_frame {d : Deployment} {s : State} (reach : (system d).Reachable s) :
    ∀ f ∈ s.frame, s.world.reentrancy = 2 := by
  refine System.Reachable.invariant (S := system d) (P := fun s => ∀ f ∈ s.frame, s.world.reentrancy = 2)
    ?_ ?_ reach
  · intro s start f open_
    rw [start.1] at open_
    cases open_
  · intro s input s' _ guarded h f open_
    cases next_stepped h with
    | called a msgValue call w entered =>
        have after := enter_guard entered
        cases call with
        | execute => exact after
        | propose | confirm | revokeConfirmation | cancel | addOwner | removeOwner | setThreshold
          | setDelay | receive | getter => exact after.trans (Call.guard_raised (guarded f open_) _)
    | selfCalled f call w earlier called entered =>
        exact (enter_guard entered).trans (Call.guard_raised (guarded f earlier) _)
    | returned | failed => cases open_
    | arrived | passed => exact guarded f open_

/-- Only a call from outside executes: the timelock calling itself finds the guard up. -/
theorem execute_opens {d : Deployment} {s s' : State} {input : Input} {a target : Address} {value : Nat}
    {data : Bytes} {salt : Bytes32} (reach : (system d).Reachable s)
    (h : next d s input = some s')
    (performs : performed d s input = some (a, .execute target value data salt)) :
    (∃ msgValue w, enter d a msgValue (.execute target value data salt) s.world = .ok w ∧
      s' = { world := w, frame := some ⟨target, value, data, false, s.world⟩ }) := by
  cases next_stepped h with
  | called b msgValue call w entered =>
      cases performs
      exact ⟨msgValue, w, entered, rfl⟩
  | selfCalled f call w open_ called _ =>
      obtain ⟨_, entered⟩ := performed_enters h performs
      obtain ⟨_, _, _, _, change, _⟩ := enter_touches entered rfl
      cases change with
      | execute _ free =>
          rw [guard_of_frame reach f open_] at free
          cases free
  | returned | failed | arrived | passed => cases performs

/-! ## The log of a run -/

theorem act_log {d : Deployment} {w w' : World} {move : Move} (h : act d w move = some w') :
    w.log <:+ w'.log := by
  cases act_acts h with
  | touches _ _ _ touches => exact ⟨_, touches.log.symm⟩
  | configures _ spares => exact ⟨_, spares.log.symm⟩
  | idles _ idles => exact idles.log ▸ List.suffix_refl _

/-- What is in the log while no call is open stays there. -/
theorem log_of_later {d : Deployment} {s s' : State} (closed : s.frame = none)
    (run : (system d).Later s s') :
    s.world.log <:+ s'.world.log ∧ ∀ f ∈ s'.frame, s.world.log <:+ f.before.log := by
  refine System.Later.invariant (S := system d)
    (P := fun v => s.world.log <:+ v.world.log ∧ ∀ f ∈ v.frame, s.world.log <:+ f.before.log)
    ?_ ⟨List.suffix_refl _, by simp [closed]⟩ run
  intro v input v' ⟨here, before⟩ h
  cases next_leads h with
  | moves move acted _ kept =>
      refine ⟨here.trans (act_log acted), ?_⟩
      intro f' open_
      rcases kept f' open_ with same | ⟨f, earlier, same⟩
      · exact same ▸ here
      · exact same ▸ before f earlier
  | restores f open_ restored shut => exact ⟨restored ▸ before f open_, by simp [shut]⟩

/-- Every id is executed at most once, also over several proposals of it and across
    reentrant calls: at each execution a quorum of the owners confirms, its window is
    open and the call that is made is the one the id is the hash of. -/
theorem executes_once {d : Deployment} {s : State} (reach : (system d).Reachable s) :
    (∀ id, s.world.log.count (.executed id) ≤ 1) ∧
    (∀ id s', s.frame = none → (system d).Later s s' →
      s.world.log.count (.executed id) ≤ s'.world.log.count (.executed id)) ∧
    ∀ input s' a target value data salt id, next d s input = some s' →
      performed d s input = some (a, .execute target value data salt) →
      id = hashOperation d.keccak256 target value data salt →
      s.world.log.count (.executed id) = 0 ∧ s'.world.log.count (.executed id) = 1 ∧
      s'.frame = some ⟨target, value, data, false, s.world⟩ ∧
      s.world.Quorum (fun o => s.world.confirmedBy id o = true) ∧
      (s.world.operations id).readyAt ≠ 0 ∧
      (s.world.operations id).readyAt ≤ s.world.timestamp ∧
      s.world.timestamp ≤ (s.world.operations id).readyAt + gracePeriod := by
  have worlds := (contract_of_reachable (reachable_performs reach)).1
  refine ⟨?_, ?_, ?_⟩
  · intro id
    rw [(recorded_of_contract worlds id).executions]
    split
    · exact Nat.le_refl 1
    · exact Nat.zero_le 1
  · intro id s' closed later
    exact (log_of_later closed later).1.sublist.count_le _
  · intro input s' a target value data salt id stepped performs named
    obtain ⟨msgValue, w, entered, rfl⟩ := execute_opens reach stepped performs
    obtain ⟨_, _, events, p, change, touches⟩ := enter_touches entered (congrArg some named.symm)
    have before := (recorded_of_contract worlds id).executions
    obtain ⟨pending, counted, _⟩ := change.records
    cases change with
    | execute _ _ _ _ enough started due fresh =>
        have quorum := ((valid_of_contract worlds).quorum_iff _).mpr enough
        refine ⟨by rw [before, pending]; rfl, ?_, rfl, quorum, started, due, fresh⟩
        show w.log.count _ = 1
        rw [touches.log, List.count_append, before, pending]
        simp

theorem executes_once_agreed :
    next Sample.deployment Sample.agreed (Sample.executeUnpause Sample.carol) ≠ none ∧
    Sample.agreed.world.Quorum (fun o => Sample.agreed.world.confirmedBy Sample.unpauseId o = true) := by
  have accepted : (next Sample.deployment Sample.agreed (Sample.executeUnpause Sample.carol)).isSome := by
    decide +kernel
  obtain ⟨s', stepped⟩ := Option.isSome_iff_exists.mp accepted
  have named : Sample.unpauseId = hashOperation Sample.deployment.keccak256 Sample.escrow 0
      Sample.unpauseData 0 := by decide +kernel
  obtain ⟨_, _, _, quorum, _⟩ :=
    (executes_once Sample.agreed_reachable).2.2 _ s' _ _ _ _ _ _ stepped rfl named
  exact ⟨by simp [stepped], quorum⟩

end Perihelion.Timelock

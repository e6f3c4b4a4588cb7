import Perihelion.Timelock.Clock

/-! # Votes for and against a proposal

Both kinds of vote are a flag for each owner beside a counter, and both outlive the
owner.  A flag whose owner was removed makes the cached count of the cancel votes
too high, and it is not cleared when the proposal is deleted.
-/

namespace Perihelion.Timelock

open BigEndian Fallible Transition

/-- What was emitted since the latest proposal of the id. -/
def current (id : Bytes32) (log : List Event) : List Event :=
  log.takeWhile fun e => e.proposes id = false

/-- The address cast its cancel vote on the proposal that stands now. -/
def CancelSubmitted (id : Bytes32) (log : List Event) (a : Address) : Prop :=
  ∃ n, .cancelConfirmed id a n ∈ current id log

/-- The address confirmed the proposal that stands now. -/
def Confirms (id : Bytes32) (log : List Event) (a : Address) : Prop :=
  ∃ n, .confirmed id a n ∈ current id log

theorem current_grow {id : Bytes32} {events log log' : List Event} (grown : log' = events ++ log)
    (quiet : ∀ e ∈ events, e.proposes id = false) : current id log' = events ++ current id log := by
  rw [grown, current, List.takeWhile_append_of_pos]
  · rfl
  · intro e member
    simpa using quiet e member

theorem current_proposed {id : Bytes32} {a target : Address} {value : Nat} {events log log' : List Event}
    (grown : log' = (events ++ [.proposed id a target value]) ++ log)
    (quiet : ∀ e ∈ events, e.proposes id = false) : current id log' = events := by
  rw [List.append_assoc] at grown
  rw [current_grow grown quiet, List.singleton_append, current, List.takeWhile_cons_of_neg,
    List.append_nil]
  simp [Event.proposes]

section grow

variable {id : Bytes32} {a : Address} {events log log' : List Event}

theorem CancelSubmitted.emitted {n : Nat} (cast : .cancelConfirmed id a n ∈ events)
    (grown : log' = events ++ log) (quiet : ∀ e ∈ events, e.proposes id = false) :
    CancelSubmitted id log' a :=
  ⟨n, current_grow grown quiet ▸ List.mem_append_left _ cast⟩

theorem Confirms.emitted {n : Nat} (cast : .confirmed id a n ∈ events) (grown : log' = events ++ log)
    (quiet : ∀ e ∈ events, e.proposes id = false) : Confirms id log' a :=
  ⟨n, current_grow grown quiet ▸ List.mem_append_left _ cast⟩

theorem CancelSubmitted.grow (submitted : CancelSubmitted id log a) (grown : log' = events ++ log)
    (quiet : ∀ e ∈ events, e.proposes id = false) : CancelSubmitted id log' a := by
  obtain ⟨n, member⟩ := submitted
  exact ⟨n, current_grow grown quiet ▸ List.mem_append_right _ member⟩

theorem Confirms.grow (confirms : Confirms id log a) (grown : log' = events ++ log)
    (quiet : ∀ e ∈ events, e.proposes id = false) : Confirms id log' a := by
  obtain ⟨n, member⟩ := confirms
  exact ⟨n, current_grow grown quiet ▸ List.mem_append_right _ member⟩

end grow

theorem mem_voteEvents (w : World) (id : Bytes32) (a : Address) (op : Operation) :
    .confirmed id a (op.confirmations + 1) ∈ voteEvents w id a op := by
  simp [voteEvents]

/-- A change of one proposal that is no proposal of it. -/
theorem Change.proposes_here {c : Context} {w : World} {call : Call} {id : Bytes32}
    {events : List Event} {p : Proposal} (change : Change c w call id events p)
    (known : (w.operations id).exists_ = true) : ∀ e ∈ events, e.proposes id = false := by
  cases change with
  | propose _ new =>
      rw [new] at known
      cases known
  | confirm => exact voteEvents_proposes w id id c.sender _
  | revoke | execute | cancelVote | cancelled => simp [Event.proposes]

/-! ## Votes against -/

/-- No owner leaves who has a cancel vote on a pending operation. -/
def CancelSound (w : World) (_ : Address) : Call → Prop
  | .removeOwner a => ∀ id, (w.operations id).exists_ = true → (w.operations id).executed = false →
      w.cancelConfirmedBy id a = false
  | _ => True

structure CancelKept (w : World) (id : Bytes32) : Prop where
  blank : (w.operations id).exists_ = false →
    w.cancelConfirmations id = 0 ∧ ∀ a, w.cancelConfirmedBy id a = false
  counted : (w.operations id).exists_ = true → (w.operations id).executed = false →
    Ballot.Counted (w.cancelConfirmedBy id) (w.cancelConfirmations id)
  cast : (w.operations id).exists_ = true → (w.operations id).executed = false →
    ∀ a, w.cancelConfirmedBy id a = true → a ∈ w.owners ∧ CancelSubmitted id w.log a

theorem CancelKept.known {w : World} {id : Bytes32} (known : (w.operations id).exists_ = true)
    (counted : Ballot.Counted (w.cancelConfirmedBy id) (w.cancelConfirmations id))
    (cast : ∀ a, w.cancelConfirmedBy id a = true → a ∈ w.owners ∧ CancelSubmitted id w.log a) :
    CancelKept w id where
  blank gone := absurd known (by simp [gone])
  counted _ _ := counted
  cast _ _ := cast

theorem CancelKept.unknown {w : World} {id : Bytes32} (gone : (w.operations id).exists_ = false)
    (zero : w.cancelConfirmations id = 0) (nobody : ∀ a, w.cancelConfirmedBy id a = false) :
    CancelKept w id where
  blank _ := ⟨zero, nobody⟩
  counted known := absurd known (by simp [gone])
  cast known := absurd known (by simp [gone])

/-- The votes that a cancel leaves, the sender's included: counted, cast on this proposal, and
    all of them owners'. -/
theorem CancelKept.voted {w w' : World} {id : Bytes32} {a : Address} (rest : List Event)
    (kept : CancelKept w id) (valid : w.toConfig.Valid) (isOwner : w.isOwner a = true)
    (known : (w.operations id).exists_ = true) (pending : (w.operations id).executed = false)
    (fresh : w.cancelConfirmedBy id a = false)
    (log : w'.log = (rest ++ [.cancelConfirmed id a (w.cancelConfirmations id + 1)]) ++ w.log)
    (quiet : ∀ e ∈ rest, e.proposes id = false) :
    Ballot.Counted (Function.update (w.cancelConfirmedBy id) a true) (w.cancelConfirmations id + 1) ∧
      ∀ o, Function.update (w.cancelConfirmedBy id) a true o = true →
        o ∈ w.owners ∧ CancelSubmitted id w'.log o := by
  have silent : ∀ e ∈ rest ++ [.cancelConfirmed id a (w.cancelConfirmations id + 1)],
      e.proposes id = false := by
    intro e member
    rcases List.mem_append.mp member with old | new
    · exact quiet e old
    · rw [List.mem_singleton.mp new]
      rfl
  refine ⟨(kept.counted known pending).cast fresh, ?_⟩
  intro o held
  rcases Ballot.held_of_cast held with rfl | before
  · have now : .cancelConfirmed id o (w.cancelConfirmations id + 1) ∈
        rest ++ [.cancelConfirmed id o (w.cancelConfirmations id + 1)] := by simp
    exact ⟨(valid.isOwner_iff o).mp isOwner, .emitted now log silent⟩
  · obtain ⟨member, submitted⟩ := kept.cast known pending o before
    exact ⟨member, submitted.grow log silent⟩

theorem CancelKept.touches {c : Context} {w w' : World} {call : Call} {id : Bytes32}
    {events : List Event} {p : Proposal} (kept : CancelKept w id) (valid : w.toConfig.Valid)
    (isOwner : w.isOwner c.sender = true) (change : Change c w call id events p)
    (touches : Touches w w' id events p) : CancelKept w' id := by
  have operation : w'.operations id = p.operation := congrArg Proposal.operation touches.here
  have count : w'.cancelConfirmations id = p.cancelConfirmations :=
    congrArg Proposal.cancelConfirmations touches.here
  have votes : w'.cancelConfirmedBy id = p.cancelConfirmedBy :=
    congrArg Proposal.cancelConfirmedBy touches.here
  have owners : w'.owners = w.owners := congrArg Config.owners touches.config
  -- A call that leaves the cancel votes of a known proposal alone.
  have unvoted : (w.operations id).exists_ = true → (w.operations id).executed = false →
      p.operation.exists_ = true → p.cancelConfirmations = w.cancelConfirmations id →
      p.cancelConfirmedBy = w.cancelConfirmedBy id → CancelKept w' id := by
    intro known pending stays sameCount sameVotes
    refine .known (operation ▸ stays) ?_ ?_
    · rw [count, votes, sameCount, sameVotes]
      exact kept.counted known pending
    · intro a held
      rw [votes, sameVotes] at held
      obtain ⟨member, submitted⟩ := kept.cast known pending a held
      exact ⟨owners ▸ member, submitted.grow touches.log (change.proposes_here known)⟩
  cases change with
  | propose _ new pending fresh =>
      obtain ⟨zero, nobody⟩ := kept.blank new
      have empty : w'.cancelConfirmedBy id = fun _ => false := votes.trans (funext nobody)
      refine .known (operation ▸ rfl) ?_ ?_
      · rw [empty, count.trans zero]
        exact .none
      · intro a held
        rw [empty] at held
        cases held
  | confirm known pending => exact unvoted known pending known rfl rfl
  | revoke known pending => exact unvoted known pending known rfl rfl
  | execute _ _ known pending => exact unvoted known pending known rfl rfl
  | cancelVote known pending fresh short =>
      obtain ⟨counted, cast⟩ := kept.voted [] valid isOwner known pending fresh touches.log (by simp)
      refine .known (operation ▸ known) ?_ ?_
      · rw [count, votes]
        exact counted
      · intro a held
        rw [votes] at held
        exact owners ▸ cast a held
  | cancelled known pending fresh enough =>
      obtain ⟨_, cast⟩ := kept.voted [.cancelled id] valid isOwner known pending fresh
        touches.log (by simp [Event.proposes])
      refine .unknown (operation ▸ rfl) count ?_
      rw [votes]
      exact Ballot.strike_all fun o held => (cast o held).1

theorem Reconfigures.stays {c : Context} {config config' : Config} {call : Call}
    (change : Reconfigures c config call config') {a : Address} (member : a ∈ config.owners)
    (left : call ≠ .removeOwner a) : a ∈ config'.owners := by
  cases change with
  | addOwner => exact List.mem_append_left _ member
  | @removeOwner b =>
      have other : a ≠ b := fun same => left (same ▸ rfl)
      have remains := (List.mem_erase_of_ne other).mpr member
      exact (Ballot.swapPop_erase b config.owners).mem_iff.mpr remains
  | setThreshold | setDelay | receive | getter => exact member

theorem CancelKept.act {d : Deployment} {w w' : World} {move : Move} (kept : ∀ id, CancelKept w id)
    (valid : w.toConfig.Valid) (met : Meets CancelSound w move) (h : act d w move = some w')
    (id : Bytes32) : CancelKept w' id := by
  -- A move that leaves the proposal alone, and every owner with a vote on it in office.
  have carry : ∀ {events : List Event}, w'.proposal id = w.proposal id →
      ((w.operations id).exists_ = true → (w.operations id).executed = false →
        ∀ a ∈ w.owners, w.cancelConfirmedBy id a = true → a ∈ w'.owners) →
      w'.log = events ++ w.log → (∀ e ∈ events, e.proposes id = false) → CancelKept w' id := by
    intro events same stay log quiet
    have operation := operations_eq same
    have count : w'.cancelConfirmations id = w.cancelConfirmations id :=
      congrArg Proposal.cancelConfirmations same
    have votes : w'.cancelConfirmedBy id = w.cancelConfirmedBy id :=
      congrArg Proposal.cancelConfirmedBy same
    refine ⟨?_, ?_, ?_⟩
    · rw [operation, count, votes]
      exact (kept id).blank
    · rw [operation, count, votes]
      exact (kept id).counted
    · rw [operation, votes]
      intro known pending a held
      obtain ⟨member, submitted⟩ := (kept id).cast known pending a held
      exact ⟨stay known pending a member held, submitted.grow log quiet⟩
  cases act_acts h with
  | @touches a msgValue call touched events p _ isOwner change touches =>
      by_cases same : id = touched
      · subst same
        exact (kept id).touches valid isOwner change touches
      · refine carry (touches.elsewhere id same) ?_ touches.log (change.proposes_elsewhere same)
        intro _ _ o member _
        rw [congrArg Config.owners touches.config]
        exact member
  | @configures a msgValue call events change spares =>
      refine carry (spares.proposals id) ?_ spares.log (spares.proposes id)
      intro known pending o member held
      refine change.stays member ?_
      rintro rfl
      rw [met id known pending] at held
      cases held
  | idles _ idles =>
      refine @carry [] (idles.proposals id) ?_ idles.log (by simp)
      intro _ _ o member _
      rw [congrArg Config.owners idles.config]
      exact member

theorem cancel_kept {d : Deployment} {w : World} (reach : (contract d CancelSound).Reachable w) :
    ∀ id, CancelKept w id := by
  induction reach with
  | init start =>
      intro id
      obtain ⟨creation, created⟩ := start
      have blank := (construct_blank created id).1
      have gone := congrArg (fun p : Proposal => p.operation.exists_) blank
      exact .unknown gone (congrArg Proposal.cancelConfirmations blank)
        (congrFun (congrArg Proposal.cancelConfirmedBy blank))
  | step earlier last ih =>
      exact CancelKept.act ih (valid_of_contract earlier) last.2 last.1

/-- While the condition holds a cancel deletes an operation only once a quorum of the owners
    has voted against the proposal that stands. -/
theorem cancels_with_quorum {d : Deployment} {s s' : State} {input : Input} {a : Address} {id : Bytes32}
    (reach : ((system d).under (Performs d CancelSound)).Reachable s)
    (stepped : next d s input = some s') (performs : performed d s input = some (a, .cancel id))
    (deleted : (s'.world.operations id).exists_ = false) :
    s.world.Quorum (CancelSubmitted id s'.world.log) := by
  have worlds := (contract_of_reachable reach).1
  obtain ⟨msgValue, entered⟩ := performed_enters stepped performs
  obtain ⟨isOwner, _, events, p, change, touches⟩ :=
    enter_touches entered (show Call.subject _ _ = some id from rfl)
  have operation : s'.world.operations id = p.operation := congrArg Proposal.operation touches.here
  cases change with
  | cancelVote known =>
      rw [operation] at deleted
      exact absurd known (by simpa [World.proposal] using deleted)
  | cancelled known pending fresh enough =>
      obtain ⟨counted, cast⟩ := (cancel_kept worlds id).voted [.cancelled id]
        (valid_of_contract worlds) isOwner known pending fresh touches.log (by simp [Event.proposes])
      obtain ⟨holders, nodup, same, size⟩ := counted
      exact ⟨holders, nodup, fun o member => cast o ((same o).mp member), size ▸ enough⟩

namespace Sample

theorem calm_cancelSound {m : State × Input} (h : calm m = true) :
    Performs deployment CancelSound m.1 m.2 := by
  intro a call performs
  simp only [calm, performs] at h
  cases call with
  | removeOwner => cases h
  | propose | confirm | revokeConfirmation | execute | cancel | addOwner | setThreshold | setDelay
    | receive | getter => trivial

/-- Bob and carol agree to unpause, then alice votes against it. -/
def objection : List Input :=
  [proposeUnpause bob, .call carol 0 (.confirm unpauseId), .call alice 0 (.cancel unpauseId)]

def objected : State := (replay deployment created objection).get (by decide +kernel)

theorem objected_reachable : ((system deployment).under (Performs deployment CancelSound)).Reachable objected := by
  have run : (system deployment).Run created (System.trail (next deployment) created objection) objected :=
    .of_replay (fun _ _ _ stepped => stepped)
      (show replay deployment created objection = some objected by simp [objected])
  have calm : ∀ m ∈ System.trail (next deployment) created objection, calm m = true := by decide +kernel
  exact (run.under fun m member => calm_cancelSound (calm m member)).reachable
    (.init ⟨rfl, creation, rfl⟩)

/-- Alice votes against, and is removed. -/
def ousted : State :=
  (replay deployment created
    ([proposeUnpause alice, .call alice 0 (.cancel unpauseId)] ++ removal)).get (by decide +kernel)

theorem ousted_reachable : (system deployment).Reachable ousted :=
  created_reachable.later
    (later_of_replay
      (show replay deployment created
        ([proposeUnpause alice, .call alice 0 (.cancel unpauseId)] ++ removal) = some ousted by
        simp [ousted]))

def votesAgainst (a : Address) : Event → Bool
  | .cancelConfirmed _ o _ => o == a
  | _ => false

end Sample

theorem cancels_with_quorum_objected :
    (next Sample.deployment Sample.objected (.call Sample.bob 0 (.cancel Sample.unpauseId))).isSome ∧
    ∃ log, Sample.objected.world.Quorum (CancelSubmitted Sample.unpauseId log) := by
  have accepted : (next Sample.deployment Sample.objected
      (.call Sample.bob 0 (.cancel Sample.unpauseId))).isSome := by decide +kernel
  obtain ⟨s', stepped⟩ := Option.isSome_iff_exists.mp accepted
  have deleted : ((next Sample.deployment Sample.objected
      (.call Sample.bob 0 (.cancel Sample.unpauseId))).map
        fun s => (s.world.operations Sample.unpauseId).exists_) = some false := by decide +kernel
  rw [stepped, Option.map_some, Option.some.injEq] at deleted
  exact ⟨accepted, s'.world.log, cancels_with_quorum Sample.objected_reachable stepped rfl deleted⟩

/-- The vote of a removed owner is counted: bob alone deletes the operation. -/
theorem cancels_without_quorum :
    ∃ s s', (system Sample.deployment).Reachable s ∧
      next Sample.deployment s (.call Sample.bob 0 (.cancel Sample.unpauseId)) = some s' ∧
      (s.world.operations Sample.unpauseId).exists_ = true ∧
      (s'.world.operations Sample.unpauseId).exists_ = false ∧
      ¬ s.world.Quorum (CancelSubmitted Sample.unpauseId s'.world.log) := by
  have facts : ((next Sample.deployment Sample.ousted
      (.call Sample.bob 0 (.cancel Sample.unpauseId))).map fun s =>
        ((s.world.operations Sample.unpauseId).exists_, s.world.log.any (Sample.votesAgainst Sample.carol)))
      = some (false, false) := by decide +kernel
  rw [Option.map_eq_some_iff] at facts
  obtain ⟨s', stepped, facts⟩ := facts
  rw [Prod.mk.injEq] at facts
  refine ⟨Sample.ousted, s', Sample.ousted_reachable, stepped, by decide +kernel, facts.1, ?_⟩
  rintro ⟨quorum, nodup, hold, enough⟩
  have owners : Sample.ousted.world.owners = [Sample.carol, Sample.bob] := by decide +kernel
  have threshold : Sample.ousted.world.threshold = 2 := by decide +kernel
  have only : ∀ o ∈ quorum, o ∈ [Sample.carol, Sample.bob] ∧ (o == Sample.bob) = true := by
    intro o member
    obtain ⟨owner, n, submitted⟩ := hold o member
    rw [owners] at owner
    refine ⟨owner, ?_⟩
    rcases List.mem_cons.mp owner with rfl | rest
    · have never := List.any_eq_false.mp facts.2 _ ((List.takeWhile_sublist _).subset submitted)
      simp [Sample.votesAgainst] at never
    · simpa using rest
  have few := Ballot.length_le_live nodup only
  have one : Ballot.live [Sample.carol, Sample.bob] (· == Sample.bob) = 1 := by decide
  omega

end Perihelion.Timelock

import Perihelion.Timelock.Votes

/-! # Proposing an id again

A cancel clears the flags of the owners of that moment.  Where every flag is an
owner's nothing is left under the id, and the next proposal of it starts from its
proposer's confirmation alone.
-/

namespace Perihelion.Timelock

open BigEndian Fallible Transition

/-- A cancel that deletes an operation finds the flags of owners only. -/
def FlagsSound (w : World) (_ : Address) : Call → Prop
  | .cancel id => w.threshold ≤ w.cancelConfirmations id + 1 →
      ∀ o, w.confirmedBy id o = true ∨ w.cancelConfirmedBy id o = true → w.isOwner o = true
  | _ => True

structure FlagsKept (w : World) (id : Bytes32) : Prop where
  blank : (w.operations id).exists_ = false →
    (∀ a, w.confirmedBy id a = false) ∧ ∀ a, w.cancelConfirmedBy id a = false
  counted : (w.operations id).exists_ = true →
    Ballot.Counted (w.confirmedBy id) (w.operations id).confirmations
  confirms : (w.operations id).exists_ = true →
    ∀ a, w.confirmedBy id a = true → Confirms id w.log a
  cancels : (w.operations id).exists_ = true →
    ∀ a, w.cancelConfirmedBy id a = true → CancelSubmitted id w.log a

theorem FlagsKept.known {w : World} {id : Bytes32} (known : (w.operations id).exists_ = true)
    (counted : Ballot.Counted (w.confirmedBy id) (w.operations id).confirmations)
    (confirms : ∀ a, w.confirmedBy id a = true → Confirms id w.log a)
    (cancels : ∀ a, w.cancelConfirmedBy id a = true → CancelSubmitted id w.log a) :
    FlagsKept w id where
  blank gone := absurd known (by simp [gone])
  counted _ := counted
  confirms _ := confirms
  cancels _ := cancels

theorem FlagsKept.unknown {w : World} {id : Bytes32} (gone : (w.operations id).exists_ = false)
    (nobody : ∀ a, w.confirmedBy id a = false) (noCancel : ∀ a, w.cancelConfirmedBy id a = false) :
    FlagsKept w id where
  blank _ := ⟨nobody, noCancel⟩
  counted known := absurd known (by simp [gone])
  confirms known := absurd known (by simp [gone])
  cancels known := absurd known (by simp [gone])

section step

variable {w w' : World} {id : Bytes32}

/-- A move that casts no vote on the proposal. -/
theorem FlagsKept.carry {events : List Event} (kept : FlagsKept w id)
    (existed : (w'.operations id).exists_ = (w.operations id).exists_)
    (count : (w'.operations id).confirmations = (w.operations id).confirmations)
    (votes : w'.confirmedBy id = w.confirmedBy id)
    (cancels : w'.cancelConfirmedBy id = w.cancelConfirmedBy id)
    (log : w'.log = events ++ w.log) (quiet : ∀ e ∈ events, e.proposes id = false) :
    FlagsKept w' id := by
  constructor
  · rw [existed, votes, cancels]
    exact kept.blank
  · rw [existed, votes, count]
    exact kept.counted
  · rw [existed, votes]
    exact fun known a held => (kept.confirms known a held).grow log quiet
  · rw [existed, cancels]
    exact fun known a held => (kept.cancels known a held).grow log quiet

/-- A move under which the proposal stands: who holds a vote after it held it before, or casts
    it now. -/
theorem FlagsKept.standing {events : List Event} (kept : FlagsKept w id)
    (known : (w.operations id).exists_ = true) (stands : (w'.operations id).exists_ = true)
    (counted : Ballot.Counted (w'.confirmedBy id) (w'.operations id).confirmations)
    (votes : ∀ a, w'.confirmedBy id a = true →
      w.confirmedBy id a = true ∨ ∃ n, .confirmed id a n ∈ events)
    (cancels : ∀ a, w'.cancelConfirmedBy id a = true →
      w.cancelConfirmedBy id a = true ∨ ∃ n, .cancelConfirmed id a n ∈ events)
    (log : w'.log = events ++ w.log) (quiet : ∀ e ∈ events, e.proposes id = false) :
    FlagsKept w' id := by
  refine .known stands counted ?_ ?_
  · intro a held
    rcases votes a held with before | ⟨n, now⟩
    · exact (kept.confirms known a before).grow log quiet
    · exact .emitted now log quiet
  · intro a held
    rcases cancels a held with before | ⟨n, now⟩
    · exact (kept.cancels known a before).grow log quiet
    · exact .emitted now log quiet

theorem FlagsKept.propose {c : Context} {target : Address} {value : Nat} (kept : FlagsKept w id)
    (recorded : Recorded w id) (new : (w.operations id).exists_ = false)
    (operation : w'.operations id = ({ w.operations id with exists_ := true } : Operation).voted w)
    (votes : w'.confirmedBy id = Function.update (w.confirmedBy id) c.sender true)
    (cancels : w'.cancelConfirmedBy id = w.cancelConfirmedBy id)
    (log : w'.log = (voteEvents w id c.sender (w.operations id) ++ [.proposed id c.sender target value])
      ++ w.log) : FlagsKept w' id := by
  obtain ⟨nobody, noCancel⟩ := kept.blank new
  have empty : w.confirmedBy id = fun _ => false := funext nobody
  refine .known (operation ▸ rfl) ?_ ?_ ?_
  · have first : (w'.operations id).confirmations = 0 + 1 := by
      rw [operation]
      simp [Operation.voted, recorded.blank new, default]
    rw [first, votes, empty]
    exact Ballot.Counted.none.cast rfl
  · intro a held
    rw [votes] at held
    rcases Ballot.held_of_cast held with rfl | before
    · exact ⟨_, current_proposed log (voteEvents_proposes w id id c.sender _) ▸ mem_voteEvents w id _ _⟩
    · rw [nobody a] at before
      cases before
  · intro a held
    rw [cancels, noCancel a] at held
    cases held

theorem FlagsKept.touches {c : Context} {call : Call} {events : List Event} {p : Proposal}
    (kept : FlagsKept w id) (valid : w.toConfig.Valid) (recorded : Recorded w id)
    (isOwner : w.isOwner c.sender = true) (met : FlagsSound w c.sender call)
    (change : Change c w call id events p) (touches : Touches w w' id events p) :
    FlagsKept w' id := by
  have operation : w'.operations id = p.operation := congrArg Proposal.operation touches.here
  have votes : w'.confirmedBy id = p.confirmedBy := congrArg Proposal.confirmedBy touches.here
  have cancels : w'.cancelConfirmedBy id = p.cancelConfirmedBy :=
    congrArg Proposal.cancelConfirmedBy touches.here
  have quiet := change.proposes_here
  cases change with
  | propose _ new _ _ => exact kept.propose recorded new operation votes cancels touches.log
  | confirm known _ fresh =>
      refine kept.standing known (operation ▸ known) ?_ ?_ ?_ touches.log (quiet known)
      · rw [operation, votes]
        exact (kept.counted known).cast fresh
      · intro a held
        rw [votes] at held
        rcases Ballot.held_of_cast held with rfl | before
        · exact Or.inr ⟨_, mem_voteEvents w id _ _⟩
        · exact Or.inl before
      · intro a held
        rw [cancels] at held
        exact Or.inl held
  | revoke known pending held counted =>
      refine kept.standing known (operation ▸ known) ?_ ?_ ?_ touches.log (quiet known)
      · rw [operation, votes]
        exact (kept.counted known).withdraw held
      · intro a still
        rw [votes] at still
        exact Or.inl (Ballot.held_of_withdraw still)
      · intro a still
        rw [cancels] at still
        exact Or.inl still
  | execute _ _ known =>
      exact kept.carry (by rw [operation]) (by rw [operation]) votes cancels touches.log (quiet known)
  | cancelVote known pending fresh short =>
      refine kept.standing known (operation ▸ known) ?_ ?_ ?_ touches.log (quiet known)
      · rw [operation, votes]
        exact kept.counted known
      · intro a held
        rw [votes] at held
        exact Or.inl held
      · intro a held
        rw [cancels] at held
        rcases Ballot.held_of_cast held with rfl | before
        · exact Or.inr ⟨w.cancelConfirmations id + 1, List.mem_cons_self⟩
        · exact Or.inl before
  | cancelled known pending fresh enough =>
      have owned := met enough
      refine .unknown (operation ▸ rfl) ?_ ?_
      · rw [votes]
        exact Ballot.strike_all fun o held => (valid.isOwner_iff o).mp (owned o (.inl held))
      · rw [cancels]
        apply Ballot.strike_all
        intro o held
        apply (valid.isOwner_iff o).mp
        rcases Ballot.held_of_cast held with rfl | before
        · exact isOwner
        · exact owned o (.inr before)

theorem FlagsKept.act {d : Deployment} {move : Move} (kept : FlagsKept w id)
    (valid : w.toConfig.Valid) (recorded : Recorded w id) (met : Meets FlagsSound w move)
    (h : act d w move = some w') : FlagsKept w' id := by
  have carry : ∀ {events : List Event}, w'.proposal id = w.proposal id → w'.log = events ++ w.log →
      (∀ e ∈ events, e.proposes id = false) → FlagsKept w' id := by
    intro events same log quiet
    have operation := operations_eq same
    exact kept.carry (congrArg Operation.exists_ operation) (congrArg Operation.confirmations operation)
      (congrArg Proposal.confirmedBy same) (congrArg Proposal.cancelConfirmedBy same) log quiet
  cases act_acts h with
  | @touches a msgValue call touched events p _ isOwner change touches =>
      by_cases same : id = touched
      · subst same
        exact kept.touches valid recorded isOwner met change touches
      · exact carry (touches.elsewhere id same) touches.log (change.proposes_elsewhere same)
  | configures _ spares => exact carry (spares.proposals id) spares.log (spares.proposes id)
  | idles _ idles => exact @carry [] (idles.proposals id) idles.log (by simp)

end step

theorem flags_kept {d : Deployment} {w : World} (reach : (contract d FlagsSound).Reachable w)
    (id : Bytes32) : FlagsKept w id := by
  induction reach with
  | init start =>
      obtain ⟨creation, created⟩ := start
      have blank := (construct_blank created id).1
      have gone := congrArg (fun p : Proposal => p.operation.exists_) blank
      have votes := congrFun (congrArg Proposal.confirmedBy blank)
      have cancels := congrFun (congrArg Proposal.cancelConfirmedBy blank)
      exact .unknown gone votes cancels
  | step earlier last ih =>
      exact ih.act (valid_of_contract earlier) (recorded_of_contract earlier id) last.2 last.1

/-- While the condition holds the counter of every operation is the number of addresses
    that confirm it, a proposal starts from its proposer's confirmation alone, no
    confirmation that is held is too many to revoke, and every vote that is held was cast
    on the proposal that stands. -/
theorem confirmations_counted {d : Deployment} {s : State}
    (reach : ((system d).under (Performs d FlagsSound)).Reachable s) :
    (∀ id, (s.world.operations id).exists_ = true →
      Ballot.Counted (s.world.confirmedBy id) (s.world.operations id).confirmations ∧
      ∀ a, (s.world.confirmedBy id a = true → Confirms id s.world.log a) ∧
        (s.world.cancelConfirmedBy id a = true → CancelSubmitted id s.world.log a)) ∧
    (∀ input s' a target value data salt, next d s input = some s' →
      performed d s input = some (a, .propose target value data salt) →
      ∀ o, (s'.world.confirmedBy (hashOperation d.keccak256 target value data salt) o = true ↔ o = a) ∧
        s'.world.cancelConfirmedBy (hashOperation d.keccak256 target value data salt) o = false) ∧
    ∀ id a, (s.world.operations id).exists_ = true → s.world.confirmedBy id a = true →
      revokeConfirmation (d.context a) id s.world ≠ .error .panic := by
  have worlds := (contract_of_reachable reach).1
  refine ⟨?_, ?_, ?_⟩
  · intro id known
    have kept := flags_kept worlds id
    exact ⟨kept.counted known, fun a => ⟨kept.confirms known a, kept.cancels known a⟩⟩
  · intro input s' a target value data salt stepped performs o
    obtain ⟨msgValue, entered⟩ := performed_enters stepped performs
    obtain ⟨_, _, events, p, change, touches⟩ :=
      enter_touches entered (show Call.subject _ _ = some (hashOperation d.keccak256 target value data salt)
        from rfl)
    have votes := congrArg Proposal.confirmedBy touches.here
    have cancels := congrArg Proposal.cancelConfirmedBy touches.here
    cases change with
    | propose _ new =>
        obtain ⟨nobody, noCancel⟩ := (flags_kept worlds _).blank new
        refine ⟨?_, (congrFun cancels o).trans (noCancel o)⟩
        rw [show s'.world.confirmedBy _ = _ from votes]
        by_cases same : o = a
        · simp [Proposal.voted, Deployment.context, same]
        · simp [Proposal.voted, Deployment.context, World.proposal, same, nobody o]
  · intro id a known held
    have positive := ((flags_kept worlds id).counted known).pos held
    intro failed
    simp only [revokeConfirmation, onlyOwner, bind_error, require_error, subChecked_error, require_ok,
      reduceCtorEq, and_false, false_or, pure, Except.pure, exists_false, or_false] at failed
    omega

namespace Sample

/-- No cancel that deletes an operation. -/
def undeleted (m : State × Input) : Bool :=
  match performed deployment m.1 m.2 with
  | some (_, .cancel id) => m.1.world.cancelConfirmations id + 1 < m.1.world.threshold
  | _ => true

theorem undeleted_sound {m : State × Input} (h : undeleted m = true) :
    Performs deployment FlagsSound m.1 m.2 := by
  intro a call performs
  simp only [undeleted, performs] at h
  cases call with
  | cancel id =>
      intro enough
      have short : m.1.world.cancelConfirmations id + 1 < m.1.world.threshold := by simpa using h
      omega
  | propose | confirm | revokeConfirmation | execute | addOwner | removeOwner | setThreshold
    | setDelay | receive | getter => trivial

theorem objected_flags : ((system deployment).under (Performs deployment FlagsSound)).Reachable objected := by
  have run : (system deployment).Run created (System.trail (next deployment) created objection) objected :=
    .of_replay (fun _ _ _ stepped => stepped)
      (show replay deployment created objection = some objected by simp [objected])
  have spared : ∀ m ∈ System.trail (next deployment) created objection, undeleted m = true := by
    decide +kernel
  exact (run.under fun m member => undeleted_sound (spared m member)).reachable
    (.init ⟨rfl, creation, rfl⟩)

/-- An owner is behind every vote in the log. -/
def byOwner (config : Config) : Event → Bool
  | .confirmed _ o _ | .cancelConfirmed _ o _ => config.isOwner o
  | _ => true

def deleted : State :=
  (next deployment objected (.call bob 0 (.cancel unpauseId))).get (by decide +kernel)

def reproposed : State := (next deployment deleted (proposeUnpause carol)).get (by decide +kernel)

theorem reproposed_flags : ((system deployment).under (Performs deployment FlagsSound)).Reachable reproposed := by
  have kept := flags_kept (contract_of_reachable objected_flags).1 unpauseId
  have known : (objected.world.operations unpauseId).exists_ = true := by decide +kernel
  have owned : ∀ e ∈ objected.world.log, byOwner objected.world.toConfig e = true := by decide +kernel
  have inLog : ∀ {e}, e ∈ current unpauseId objected.world.log → e ∈ objected.world.log :=
    fun member => (List.takeWhile_sublist _).subset member
  have cancels : Performs deployment FlagsSound objected (.call bob 0 (.cancel unpauseId)) := by
    rintro a call performs
    cases performs
    rintro _ o (held | held)
    · obtain ⟨n, member⟩ := kept.confirms known o held
      exact owned _ (inLog member)
    · obtain ⟨n, member⟩ := kept.cancels known o held
      exact owned _ (inLog member)
  have first : next deployment objected (.call bob 0 (.cancel unpauseId)) = some deleted := by
    simp [deleted]
  have second : next deployment deleted (proposeUnpause carol) = some reproposed := by
    simp [reproposed]
  exact .step (.step objected_flags ⟨first, cancels⟩) ⟨second, undeleted_sound (m := (_, _)) rfl⟩

/-- Alice proposes and is removed, bob and carol cancel, and bob proposes again. -/
def haunted : State :=
  (replay deployment created ([proposeUnpause alice] ++ removal ++
    [.call bob 0 (.cancel unpauseId), .call carol 0 (.cancel unpauseId), proposeUnpause bob])).get
      (by decide +kernel)

theorem haunted_reachable : (system deployment).Reachable haunted :=
  created_reachable.later
    (later_of_replay
      (show replay deployment created ([proposeUnpause alice] ++ removal ++
        [.call bob 0 (.cancel unpauseId), .call carol 0 (.cancel unpauseId), proposeUnpause bob])
          = some haunted by simp [haunted]))

end Sample

theorem confirmations_counted_reproposed :
    Ballot.Counted (Sample.reproposed.world.confirmedBy Sample.unpauseId)
      (Sample.reproposed.world.operations Sample.unpauseId).confirmations :=
  ((confirmations_counted Sample.reproposed_flags).1 Sample.unpauseId (by decide +kernel)).1

/-- The confirmation of a removed owner survives the cancel and stands on the next proposal,
    which counts its proposer's only. -/
theorem confirmations_miscounted :
    ∃ s, (system Sample.deployment).Reachable s ∧
      (s.world.operations Sample.unpauseId).exists_ = true ∧
      ¬ Ballot.Counted (s.world.confirmedBy Sample.unpauseId)
        (s.world.operations Sample.unpauseId).confirmations := by
  refine ⟨Sample.haunted, Sample.haunted_reachable, by decide +kernel, ?_⟩
  intro counted
  have one : (Sample.haunted.world.operations Sample.unpauseId).confirmations = 1 := by decide +kernel
  have distinct : [Sample.alice, Sample.bob].Nodup := by decide
  have alice : Sample.haunted.world.confirmedBy Sample.unpauseId Sample.alice = true := by decide +kernel
  have bob : Sample.haunted.world.confirmedBy Sample.unpauseId Sample.bob = true := by decide +kernel
  have both : ∀ a ∈ [Sample.alice, Sample.bob],
      Sample.haunted.world.confirmedBy Sample.unpauseId a = true := by
    simp [alice, bob]
  have two := counted.length_le distinct both
  rw [one] at two
  simp at two

end Perihelion.Timelock

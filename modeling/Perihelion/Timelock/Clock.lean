import Perihelion.Timelock.Execution

/-! # The clock

`execute` counts the owners right now who confirm, but the clock is started by the
cached counter.  The two agree as long as nobody leaves the council who confirms an
operation whose clock has not started: the clock then starts at a moment at which
a quorum of the owners confirms, and is a whole delay ahead of it.
-/

namespace Perihelion.Timelock

open BigEndian Fallible Transition

def Event.proposes (id : Bytes32) : Event → Bool
  | .proposed other _ _ _ => other == id
  | _ => false

/-- The log grew from one to the other without a new proposal of the id. -/
def SameProposal (id : Bytes32) (earlier later : List Event) : Prop :=
  ∃ since, later = since ++ earlier ∧ ∀ e ∈ since, e.proposes id = false

/-- No owner leaves who confirms an operation whose clock has not started, and a clock that
    is started fits its 64 bits. -/
def ClockSound (w : World) (_ : Address) : Call → Prop
  | .removeOwner a => ∀ id, (w.operations id).exists_ = true → (w.operations id).readyAt = 0 →
      w.confirmedBy id a = false
  | .propose .. => w.threshold = 1 → w.timestamp + w.delay < uint64
  | .confirm id => (w.operations id).starts w.threshold → w.timestamp + w.delay < uint64
  | _ => True

theorem SameProposal.refl (id : Bytes32) (log : List Event) : SameProposal id log log :=
  ⟨[], rfl, by simp⟩

theorem SameProposal.grow {id : Bytes32} {earlier later log : List Event} {events : List Event}
    (same : SameProposal id earlier later) (grown : log = events ++ later)
    (none_new : ∀ e ∈ events, e.proposes id = false) : SameProposal id earlier log := by
  obtain ⟨since, rfl, old⟩ := same
  refine ⟨events ++ since, by rw [grown, List.append_assoc], ?_⟩
  intro e member
  rcases List.mem_append.mp member with new | earlier
  · exact none_new e new
  · exact old e earlier

theorem voteEvents_proposes (w : World) (id other : Bytes32) (a : Address) (op : Operation) :
    ∀ e ∈ voteEvents w id a op, e.proposes other = false := by
  intro e member
  simp only [voteEvents, List.mem_append, List.mem_singleton] at member
  rcases member with ready | rfl
  · split at ready
    · rw [List.mem_singleton.mp ready]
      rfl
    · cases ready
  · rfl

theorem Spares.proposes {w w' : World} {events : List Event} (spares : Spares w w' events)
    (id : Bytes32) : ∀ e ∈ events, e.proposes id = false := by
  intro e member
  have quiet := spares.configures e member
  cases e <;> first | rfl | cases quiet

theorem Change.proposes_elsewhere {c : Context} {w : World} {call : Call} {id other : Bytes32}
    {events : List Event} {p : Proposal} (change : Change c w call id events p) (h : other ≠ id) :
    ∀ e ∈ events, e.proposes other = false := by
  cases change with
  | propose =>
      intro e member
      rcases List.mem_append.mp member with voted | proposed
      · exact voteEvents_proposes _ _ _ _ _ e voted
      · rw [List.mem_singleton.mp proposed]
        simpa [Event.proposes] using Ne.symm h
  | confirm => exact voteEvents_proposes w id other c.sender _
  | revoke | execute | cancelVote | cancelled => simp [Event.proposes]

/-! ## What holds along a run -/

/-- The worlds of a run's states. -/
def Visited (moves : List (State × Input)) (s : State) (v : World) : Prop :=
  v = s.world ∨ ∃ m ∈ moves, m.1.world = v

/-- What every move keeps of a world and the worlds before it holds along every run, of
    the worlds that open calls would bring back too. -/
theorem run_tracks {d : Deployment} {condition : World → Address → Call → Prop}
    {P : (World → Prop) → World → Prop}
    (mono : ∀ {V V' : World → Prop} {w}, (∀ v, V v → V' v) → P V w → P V' w)
    (start : ∀ {V w} {creation : Creation}, creation.world = .ok w → P V w)
    (kept : ∀ {V : World → Prop} {w move w'}, (contract d condition).Reachable w → P V w →
      act d w move = some w' → Meets condition w move → V w' → P V w')
    {s₀ s : State} {moves : List (State × Input)} (init : (system d).init s₀)
    (run : ((system d).under (Performs d condition)).Run s₀ moves s) :
    P (Visited moves s) s.world ∧ ∀ f ∈ s.frame, P (Visited moves s) f.before := by
  induction run with
  | nil =>
      obtain ⟨closed, creation, created⟩ := init
      exact ⟨start created, by simp [closed]⟩
  | @snoc moves v input v' earlier last ih =>
      obtain ⟨here, before⟩ := ih
      have wider : ∀ u, Visited moves v u → Visited (moves ++ [(v, input)]) v' u := by
        rintro u (rfl | ⟨m, member, rfl⟩)
        · exact .inr ⟨(v, input), by simp, rfl⟩
        · exact .inr ⟨m, by simp [member], rfl⟩
      have reach := contract_of_reachable (earlier.reachable (.init init))
      cases next_leads last.1 with
      | moves move acted met frames =>
          refine ⟨kept reach.1 (mono wider here) acted (met condition last.2) (.inl rfl), ?_⟩
          intro f' open_
          rcases frames f' open_ with same | ⟨f, old, same⟩
          · exact same ▸ mono wider here
          · exact same ▸ mono wider (before f old)
      | restores f open_ restored shut =>
          exact ⟨restored ▸ mono wider (before f open_), by simp [shut]⟩

/-! ## The counter and the clock -/

structure ClockKept (V : World → Prop) (w : World) (id : Bytes32) : Prop where
  counted : (w.operations id).exists_ = true → (w.operations id).readyAt = 0 →
    (w.operations id).confirmations ≤ Ballot.live w.owners (w.confirmedBy id)
  started : (w.operations id).exists_ = true → (w.operations id).readyAt ≠ 0 →
    ∃ v, V v ∧ v.timestamp + minDelay ≤ (w.operations id).readyAt ∧
      SameProposal id v.log w.log ∧ (v.operations id).exists_ = true ∧
      v.threshold ≤ Ballot.live v.owners (v.confirmedBy id)

section step

variable {V : World → Prop} {w w' : World} {id : Bytes32}

/-- What leaves the operation, its clock and the flags of the owners alone keeps them. -/
theorem ClockKept.carry {events : List Event} (kept : ClockKept V w id)
    (same : (w'.operations id).exists_ = true → (w.operations id).exists_ = true ∧
      (w'.operations id).readyAt = (w.operations id).readyAt)
    (counted : (w.operations id).exists_ = true → (w.operations id).readyAt = 0 →
      (w.operations id).confirmations ≤ Ballot.live w.owners (w.confirmedBy id) →
      (w'.operations id).confirmations ≤ Ballot.live w'.owners (w'.confirmedBy id))
    (log : w'.log = events ++ w.log) (quiet : ∀ e ∈ events, e.proposes id = false) :
    ClockKept V w' id := by
  constructor
  · intro known unstarted
    obtain ⟨old, clock⟩ := same known
    rw [clock] at unstarted
    exact counted old unstarted (kept.counted old unstarted)
  · intro known started
    obtain ⟨old, clock⟩ := same known
    rw [clock] at started ⊢
    obtain ⟨v, visited, early, proposal, existed, quorum⟩ := kept.started old started
    exact ⟨v, visited, early, proposal.grow log quiet, existed, quorum⟩

/-- One more confirmation, by an owner who had none, is one more of an owner; and the one
    that starts the clock is made at a moment with a quorum. -/
theorem ClockKept.voted {a : Address} (op : Operation) (valid : w.toConfig.Valid)
    (isOwner : w.isOwner a = true) (fits : op.starts w.threshold → w.timestamp + w.delay < uint64)
    (fresh : w.confirmedBy id a = false)
    (counted : op.readyAt = 0 → op.confirmations ≤ Ballot.live w.owners (w.confirmedBy id))
    (config : w'.toConfig = w.toConfig) (timestamp : w'.timestamp = w.timestamp)
    (operation : w'.operations id = op.voted w)
    (votes : w'.confirmedBy id = Function.update (w.confirmedBy id) a true)
    (visited : V w')
    (old : op.readyAt ≠ 0 → ∃ v, V v ∧ v.timestamp + minDelay ≤ op.readyAt ∧
      SameProposal id v.log w'.log ∧ (v.operations id).exists_ = true ∧
      v.threshold ≤ Ballot.live v.owners (v.confirmedBy id)) :
    ClockKept V w' id := by
  have more : Ballot.live w'.owners (w'.confirmedBy id) = Ballot.live w.owners (w.confirmedBy id) + 1 := by
    rw [congrArg Config.owners config, votes]
    exact Ballot.live_cast valid.nodup ((valid.isOwner_iff a).mp isOwner) fresh
  by_cases starts : op.starts w.threshold
  · have clock : (w'.operations id).readyAt = w.timestamp + w.delay := by
      simp [operation, Operation.voted, starts, Nat.mod_eq_of_lt (fits starts)]
    have delayed := valid.delay_min
    constructor
    · intro _ unstarted
      have positive : 0 < minDelay := by decide
      omega
    · intro existing _
      refine ⟨w', visited, by omega, .refl id _, existing, ?_⟩
      have enough := starts.2
      have before := counted starts.1
      rw [more, congrArg Config.threshold config]
      omega
  · have clock : (w'.operations id).readyAt = op.readyAt := by
      simp [operation, Operation.voted, starts]
    have count : (w'.operations id).confirmations = op.confirmations + 1 := by
      simp [operation, Operation.voted]
    constructor
    · intro _ unstarted
      have before := counted (clock ▸ unstarted)
      omega
    · intro _ started
      rw [clock] at started ⊢
      exact old started

theorem ClockKept.touches {c : Context} {call : Call} {events : List Event} {p : Proposal}
    (kept : ClockKept V w id) (valid : w.toConfig.Valid) (recorded : Recorded w id)
    (isOwner : w.isOwner c.sender = true) (met : ClockSound w c.sender call) (visited : V w')
    (change : Change c w call id events p) (touches : Touches w w' id events p) :
    ClockKept V w' id := by
  have operation : w'.operations id = p.operation := congrArg Proposal.operation touches.here
  have votes : w'.confirmedBy id = p.confirmedBy := congrArg Proposal.confirmedBy touches.here
  have owners : w'.owners = w.owners := congrArg Config.owners touches.config
  cases change with
  | propose _ new pending fresh =>
      have blank := recorded.blank new
      refine ClockKept.voted { w.operations id with exists_ := true } valid isOwner ?_ fresh ?_
        touches.config touches.timestamp operation votes visited ?_
      · rintro ⟨_, alone⟩
        rw [blank] at alone
        exact met (Nat.le_antisymm alone valid.threshold_pos)
      · intro _
        rw [blank]
        exact Nat.zero_le _
      · intro started
        rw [blank] at started
        exact absurd rfl started
  | confirm known pending fresh =>
      refine ClockKept.voted (w.operations id) valid isOwner met fresh (kept.counted known)
        touches.config touches.timestamp operation votes visited ?_
      intro started
      obtain ⟨v, seen, early, proposal, existed, quorum⟩ := kept.started known started
      exact ⟨v, seen, early, proposal.grow touches.log (voteEvents_proposes w id id c.sender _), existed,
        quorum⟩
  | revoke known pending held counted =>
      refine kept.carry ?_ ?_ touches.log (by simp [Event.proposes])
      · intro _
        exact ⟨known, by rw [operation]⟩
      · intro _ _ enough
        rw [operation, votes, owners]
        have left := Ballot.live_withdraw valid.nodup held
        show (w.operations id).confirmations - 1 ≤
          Ballot.live w.owners (Function.update (w.confirmedBy id) c.sender false)
        omega
  | execute named free known pending quorum started due fresh =>
      refine kept.carry ?_ ?_ touches.log (by simp [Event.proposes])
      · intro _
        exact ⟨known, by rw [operation]⟩
      · intro _ _ enough
        rw [operation, votes, owners]
        exact enough
  | cancelVote known pending fresh short =>
      refine kept.carry ?_ ?_ touches.log (by simp [Event.proposes])
      · intro _
        exact ⟨known, by rw [operation]; rfl⟩
      · intro _ _ enough
        rw [operation, votes, owners]
        exact enough
  | cancelled =>
      constructor
      · intro known
        rw [operation] at known
        cases known
      · intro known
        rw [operation] at known
        cases known

theorem Reconfigures.live_le {c : Context} {config config' : Config} {call : Call}
    (change : Reconfigures c config call config') (votes : Address → Bool)
    (stays : ∀ a, call = .removeOwner a → votes a = false) :
    Ballot.live config.owners votes ≤ Ballot.live config'.owners votes := by
  cases change with
  | addOwner => exact Ballot.live_append _
  | @removeOwner a =>
      have perm := Ballot.swapPop_erase a config.owners
      have same := (perm.countP_eq votes).trans (Ballot.live_erase (stays a rfl))
      exact Nat.le_of_eq same.symm
  | setThreshold | setDelay | receive | getter => exact Nat.le_refl _

/-- A move that leaves the proposal alone, and takes no owner away who confirms it while the
    clock has not started. -/
theorem ClockKept.elsewhere {events : List Event} (kept : ClockKept V w id)
    (same : w'.proposal id = w.proposal id)
    (stay : (w.operations id).exists_ = true → (w.operations id).readyAt = 0 →
      Ballot.live w.owners (w.confirmedBy id) ≤ Ballot.live w'.owners (w.confirmedBy id))
    (log : w'.log = events ++ w.log) (quiet : ∀ e ∈ events, e.proposes id = false) :
    ClockKept V w' id := by
  have operation := operations_eq same
  have votes : w'.confirmedBy id = w.confirmedBy id := congrArg Proposal.confirmedBy same
  refine kept.carry ?_ ?_ log quiet
  · intro known
    rw [operation] at known ⊢
    exact ⟨known, rfl⟩
  · intro known unstarted enough
    rw [operation, votes]
    exact enough.trans (stay known unstarted)

theorem ClockKept.act {d : Deployment} {move : Move} (kept : ∀ id, ClockKept V w id)
    (valid : w.toConfig.Valid) (recorded : ∀ id, Recorded w id) (met : Meets ClockSound w move)
    (visited : V w') (h : act d w move = some w') (id : Bytes32) : ClockKept V w' id := by
  cases act_acts h with
  | @touches a msgValue call touched events p _ isOwner change touches =>
      by_cases same : id = touched
      · subst same
        exact (kept id).touches valid (recorded id) isOwner met visited change touches
      · refine (kept id).elsewhere (touches.elsewhere id same) ?_ touches.log
          (change.proposes_elsewhere same)
        intro _ _
        rw [congrArg Config.owners touches.config]
  | @configures a msgValue call events change spares =>
      refine (kept id).elsewhere (spares.proposals id) ?_ spares.log (spares.proposes id)
      intro known unstarted
      apply change.live_le
      rintro b rfl
      exact met id known unstarted
  | idles _ idles =>
      refine @ClockKept.elsewhere V w w' id [] (kept id) (idles.proposals id) ?_ idles.log (by simp)
      intro _ _
      rw [congrArg Config.owners idles.config]

end step

theorem clock_kept {d : Deployment} {s₀ s : State} {moves : List (State × Input)}
    (init : (system d).init s₀)
    (run : ((system d).under (Performs d ClockSound)).Run s₀ moves s) (id : Bytes32) :
    ClockKept (Visited moves s) s.world id := by
  have tracked := run_tracks (P := fun V w => ∀ id, ClockKept V w id) ?_ ?_ ?_ init run
  · exact tracked.1 id
  · intro V V' w wider kept id
    refine ⟨(kept id).counted, ?_⟩
    intro known started
    obtain ⟨v, seen, rest⟩ := (kept id).started known started
    exact ⟨v, wider v seen, rest⟩
  · intro V w creation created id
    have blank : w.operations id = default :=
      congrArg Proposal.operation (construct_blank created id).1
    constructor
    · intro known
      rw [blank] at known
      cases known
    · intro known
      rw [blank] at known
      cases known
  · intro V w move w' reach kept acted met visited id
    exact ClockKept.act kept (valid_of_contract reach) (recorded_of_contract reach) met visited acted id

/-- While the condition holds no operation is executed sooner than a whole delay after a
    moment of its last proposal at which a quorum of the owners confirmed it. -/
theorem executes_after_quorum {d : Deployment} {s₀ s s' : State} {moves : List (State × Input)}
    {input : Input} {a target : Address} {value : Nat} {data : Bytes} {salt : Bytes32}
    (init : (system d).init s₀) (run : ((system d).under (Performs d ClockSound)).Run s₀ moves s)
    (stepped : next d s input = some s')
    (performs : performed d s input = some (a, .execute target value data salt)) :
    let id := hashOperation d.keccak256 target value data salt
    ∃ m ∈ moves, m.1.world.timestamp + minDelay ≤ s.world.timestamp ∧
      SameProposal id m.1.world.log s.world.log ∧ (m.1.world.operations id).exists_ = true ∧
      m.1.world.Quorum (fun o => m.1.world.confirmedBy id o = true) := by
  intro id
  have reach : (system d).Reachable s := System.Reachable.of_under (run.reachable (.init init))
  obtain ⟨msgValue, w, entered, rfl⟩ := execute_opens reach stepped performs
  obtain ⟨_, _, events, p, change, _⟩ :=
    enter_touches entered (show Call.subject _ _ = some id from rfl)
  obtain ⟨known, started, due⟩ : (s.world.operations id).exists_ = true ∧
      (s.world.operations id).readyAt ≠ 0 ∧ (s.world.operations id).readyAt ≤ s.world.timestamp := by
    cases change with
    | execute _ _ known _ _ started due _ => exact ⟨known, started, due⟩
  obtain ⟨v, seen, early, proposal, existed, enough⟩ := (clock_kept init run id).started known started
  have positive : 0 < minDelay := by decide
  rcases seen with rfl | ⟨m, member, rfl⟩
  · omega
  · obtain ⟨before, after, rfl⟩ := List.append_of_mem member
    obtain ⟨_, earlier, _, _⟩ := run.cut
    have valid := valid_of_contract (contract_of_reachable (earlier.reachable (.init init))).1
    exact ⟨m, member, early.trans due, proposal, existed, (valid.quorum_iff _).mpr enough⟩

/-! ## Runs with and without the condition -/

namespace Sample

/-- Nobody is removed and the clock fits. -/
def calm (m : State × Input) : Bool :=
  match performed deployment m.1 m.2 with
  | some (_, .removeOwner _) => false
  | _ => m.1.world.timestamp + m.1.world.delay < uint64

theorem calm_sound {m : State × Input} (h : calm m = true) : Performs deployment ClockSound m.1 m.2 := by
  intro a call performs
  simp only [calm, performs] at h
  cases call with
  | removeOwner => cases h
  | propose | confirm => exact fun _ => by simpa using h
  | revokeConfirmation | execute | cancel | addOwner | setThreshold | setDelay | receive | getter =>
      trivial

def agreementMoves : List (State × Input) :=
  System.trail (next deployment) created (agreement ++ [.passes 86400])

theorem agreed_run : (system deployment).Run created agreementMoves agreed :=
  .of_replay (fun _ _ _ stepped => stepped)
    (show replay deployment created (agreement ++ [.passes 86400]) = some agreed by simp [agreed])

theorem agreed_calm : ∀ m ∈ agreementMoves, calm m = true := by decide +kernel

/-- Alice proposes and is removed; bob confirms, and carol a day after him. -/
def hasty : List Input :=
  [proposeUnpause alice] ++ removal ++
    [.call bob 0 (.confirm unpauseId), .passes 86400, .call carol 0 (.confirm unpauseId)]

def hastyMoves : List (State × Input) := System.trail (next deployment) created hasty

def hastened : State := (replay deployment created hasty).get (by decide +kernel)

end Sample

theorem executes_after_quorum_agreed :
    ∃ m ∈ Sample.agreementMoves, m.1.world.timestamp + minDelay ≤ Sample.agreed.world.timestamp ∧
      m.1.world.Quorum (fun o => m.1.world.confirmedBy Sample.unpauseId o = true) := by
  have accepted : (next Sample.deployment Sample.agreed (Sample.executeUnpause Sample.carol)).isSome := by
    decide +kernel
  obtain ⟨s', stepped⟩ := Option.isSome_iff_exists.mp accepted
  have run := Sample.agreed_run.under fun m member => Sample.calm_sound (Sample.agreed_calm m member)
  have named : hashOperation Sample.deployment.keccak256 Sample.escrow 0 Sample.unpauseData 0
      = Sample.unpauseId := by decide +kernel
  obtain ⟨m, member, early, _, _, quorum⟩ :=
    executes_after_quorum ⟨rfl, Sample.creation, rfl⟩ run stepped rfl
  rw [named] at quorum
  exact ⟨m, member, early, quorum⟩

/-- The removed owner's confirmation starts the clock: until the very second of the
    execution no two owners confirm. -/
theorem executes_without_delay :
    ∃ s₀ moves s s', (system Sample.deployment).init s₀ ∧ (system Sample.deployment).Run s₀ moves s ∧
      System.replay (next Sample.deployment) s [Sample.executeUnpause Sample.carol, .returns] = some s' ∧
      ∀ m ∈ moves, m.1.world.timestamp + minDelay ≤ s.world.timestamp →
        ¬ m.1.world.Quorum (fun o => m.1.world.confirmedBy Sample.unpauseId o = true) := by
  have accepted : (System.replay (next Sample.deployment) Sample.hastened
      [Sample.executeUnpause Sample.carol, .returns]).isSome := by
    decide +kernel
  obtain ⟨s', stepped⟩ := Option.isSome_iff_exists.mp accepted
  have start : (system Sample.deployment).init Sample.created := ⟨rfl, Sample.creation, rfl⟩
  have run : (system Sample.deployment).Run Sample.created Sample.hastyMoves Sample.hastened :=
    .of_replay (fun _ _ _ stepped => stepped)
      (show replay Sample.deployment Sample.created Sample.hasty = some Sample.hastened by
        simp [Sample.hastened])
  refine ⟨Sample.created, Sample.hastyMoves, Sample.hastened, s', start, run, stepped, ?_⟩
  intro m member early quorum
  have short : ∀ m ∈ Sample.hastyMoves,
      m.1.world.timestamp + minDelay ≤ Sample.hastened.world.timestamp →
      Ballot.live m.1.world.owners (m.1.world.confirmedBy Sample.unpauseId) < m.1.world.threshold := by
    decide +kernel
  obtain ⟨holders, nodup, hold, enough⟩ := quorum
  have few := short m member early
  have covered := Ballot.length_le_live nodup hold
  omega

end Perihelion.Timelock

import Perihelion.Timelock.Clock

/-! # The start of the clock

Only a confirmation starts the clock of an operation.  A quorum may also come about without
one: the threshold is lowered, or an address whose flag is still set joins the owners.
-/

namespace Perihelion.Timelock

open BigEndian Fallible Transition

/-- Every operation that a quorum of the owners confirms has its clock. -/
def Clocked (w : World) : Prop :=
  ∀ id, (w.operations id).exists_ = true → (w.operations id).executed = false →
    w.Quorum (fun o => w.confirmedBy id o = true) → (w.operations id).readyAt ≠ 0

/-- A pending operation whose clock has not started. -/
structure Awaits (w : World) (id : Bytes32) : Prop where
  known : (w.operations id).exists_ = true
  pending : (w.operations id).executed = false
  clockless : (w.operations id).readyAt = 0

/-- If one more confirmation makes a quorum of the owners, the clock has started, or the counter
    starts it at a time that is not zero in its 64 bits. -/
def VoteStarts (w : World) (id : Bytes32) : Prop :=
  w.threshold ≤ Ballot.live w.owners (w.confirmedBy id) + 1 →
    (w.operations id).readyAt ≠ 0 ∨
      (w.threshold ≤ (w.operations id).confirmations + 1 ∧ (w.timestamp + w.delay) % uint64 ≠ 0)

instance (w : World) (id : Bytes32) : Decidable (VoteStarts w id) := inferInstanceAs (Decidable (_ → _))

/-- The new threshold is above the owners who confirm an operation without a clock, a new owner
    completes no quorum for one, and the vote that completes a quorum starts the clock. -/
def StartsClocks (d : Deployment) (w : World) (_ : Address) : Call → Prop
  | .propose target value data salt => VoteStarts w (hashOperation d.keccak256 target value data salt)
  | .confirm id => VoteStarts w id
  | .addOwner a => ∀ id, Awaits w id → w.confirmedBy id a = true →
      Ballot.live w.owners (w.confirmedBy id) + 1 < w.threshold
  | .setThreshold n => ∀ id, Awaits w id → Ballot.live w.owners (w.confirmedBy id) < n
  | _ => True

/-! ## One step -/

section step

variable {d : Deployment} {w w' : World} {id : Bytes32}

theorem clocked_iff_short (valid : w.toConfig.Valid) :
    Clocked w ↔ ∀ id, Awaits w id → Ballot.live w.owners (w.confirmedBy id) < w.threshold := by
  constructor
  · intro clocked id awaits
    apply Nat.lt_of_not_le
    intro enough
    exact clocked id awaits.known awaits.pending ((valid.quorum_iff _).mpr enough) awaits.clockless
  · intro short id known pending quorum clockless
    have few := short id ⟨known, pending, clockless⟩
    have enough := (valid.quorum_iff _).mp quorum
    omega

theorem Awaits.congr (same : w'.proposal id = w.proposal id) : Awaits w' id ↔ Awaits w id := by
  have operation := operations_eq same
  constructor
  · rintro ⟨known, pending, clockless⟩
    exact ⟨operation ▸ known, operation ▸ pending, operation ▸ clockless⟩
  · rintro ⟨known, pending, clockless⟩
    exact ⟨operation ▸ known, operation ▸ pending, operation ▸ clockless⟩

/-- With the proposals as they were, only the council decides. -/
theorem clocked_of_spared (valid : w'.toConfig.Valid) (same : ∀ id, w'.proposal id = w.proposal id) :
    Clocked w' ↔
      ∀ id, Awaits w id → Ballot.live w'.owners (w.confirmedBy id) < w'.threshold := by
  rw [clocked_iff_short valid]
  apply forall_congr'
  intro id
  rw [Awaits.congr (same id), show w'.confirmedBy id = w.confirmedBy id from
    congrArg Proposal.confirmedBy (same id)]

/-- With the council as it was, only the touched operation decides. -/
theorem clocked_of_touched {events : List Event} {p : Proposal} (valid : w.toConfig.Valid)
    (clocked : Clocked w) (touches : Touches w w' id events p) :
    Clocked w' ↔ (Awaits w' id → Ballot.live w.owners (w'.confirmedBy id) < w.threshold) := by
  rw [clocked_iff_short (touches.config ▸ valid), congrArg Config.owners touches.config,
    congrArg Config.threshold touches.config]
  constructor
  · intro short
    exact short id
  · intro here other awaits
    by_cases same : other = id
    · subst same
      exact here awaits
    · have spared := touches.elsewhere other same
      have votes : w'.confirmedBy other = w.confirmedBy other := congrArg Proposal.confirmedBy spared
      rw [votes]
      exact (clocked_iff_short valid).mp clocked other ((Awaits.congr spared).mp awaits)

/-- The vote of an owner who had none. -/
theorem voted_iff {a : Address} {op : Operation} (valid : w.toConfig.Valid)
    (isOwner : w.isOwner a = true) (fresh : w.confirmedBy id a = false)
    (known : op.exists_ = true) (pending : op.executed = false)
    (confirmations : op.confirmations = (w.operations id).confirmations)
    (clock : op.readyAt = (w.operations id).readyAt)
    (operation : w'.operations id = op.voted w)
    (votes : w'.confirmedBy id = Function.update (w.confirmedBy id) a true) :
    (Awaits w' id → Ballot.live w.owners (w'.confirmedBy id) < w.threshold) ↔ VoteStarts w id := by
  have more : Ballot.live w.owners (w'.confirmedBy id) =
      Ballot.live w.owners (w.confirmedBy id) + 1 := by
    rw [votes]
    exact Ballot.live_cast valid.nodup ((valid.isOwner_iff a).mp isOwner) fresh
  have awaits : Awaits w' id ↔ (op.voted w).readyAt = 0 := by
    constructor
    · intro awaits
      exact operation ▸ awaits.clockless
    · intro clockless
      exact ⟨by rw [operation]; exact known, by rw [operation]; exact pending,
        by rw [operation]; exact clockless⟩
  have voted : (op.voted w).readyAt = 0 ↔ (w.operations id).readyAt = 0 ∧
      (w.threshold ≤ (w.operations id).confirmations + 1 →
        (w.timestamp + w.delay) % uint64 = 0) := by
    rw [← confirmations, ← clock]
    by_cases starts : op.starts w.threshold
    · simp [Operation.voted, starts, starts.1, starts.2]
    · simp only [Operation.voted, if_neg starts]
      constructor
      · intro clockless
        exact ⟨clockless, fun enough => absurd ⟨clockless, enough⟩ starts⟩
      · exact fun both => both.1
  rw [awaits, voted, more]
  unfold VoteStarts
  constructor
  · intro short enough
    by_cases started : (w.operations id).readyAt = 0
    · right
      by_contra misses
      have few := short ⟨started, fun counted => by
        by_contra nonzero
        exact misses ⟨counted, nonzero⟩⟩
      omega
    · exact .inl started
  · rintro starts ⟨clockless, late⟩
    apply Nat.lt_of_not_le
    intro enough
    rcases starts enough with started | ⟨counted, nonzero⟩
    · exact started clockless
    · exact nonzero (late counted)

/-- A call that touches an operation keeps the clocks if and only if its vote starts one. -/
theorem clocked_touches {a : Address} {call : Call} {events : List Event} {p : Proposal}
    (valid : w.toConfig.Valid) (clocked : Clocked w)
    (isOwner : w.isOwner a = true) (change : Change (d.context a) w call id events p)
    (touches : Touches w w' id events p) : Clocked w' ↔ StartsClocks d w a call := by
  have operation : w'.operations id = p.operation := congrArg Proposal.operation touches.here
  have votes : w'.confirmedBy id = p.confirmedBy := congrArg Proposal.confirmedBy touches.here
  have short := (clocked_iff_short valid).mp clocked id
  rw [clocked_of_touched valid clocked touches]
  cases change with
  | propose named new pending fresh =>
      rw [StartsClocks, ← show id = hashOperation d.keccak256 _ _ _ _ from named]
      exact @voted_iff w w' id a { w.operations id with exists_ := true } valid isOwner fresh rfl
        pending rfl rfl operation votes
  | confirm known pending fresh =>
      exact voted_iff valid isOwner fresh known pending rfl rfl operation votes
  | revoke known pending held counted =>
      refine iff_of_true ?_ trivial
      intro awaits
      have clockless := awaits.clockless
      rw [operation] at clockless
      have few := short ⟨known, pending, clockless⟩
      have fewer : Ballot.live w.owners (w'.confirmedBy id) ≤
          Ballot.live w.owners (w.confirmedBy id) := by
        rw [votes]
        exact List.countP_mono_left fun o _ still => Ballot.held_of_withdraw still
      omega
  | execute named free known pending quorum started due fresh =>
      refine iff_of_true ?_ trivial
      intro awaits
      have executed := awaits.pending
      rw [operation] at executed
      cases executed
  | cancelVote known pending fresh lacking =>
      refine iff_of_true ?_ trivial
      intro awaits
      have clockless := awaits.clockless
      rw [operation] at clockless
      rw [votes]
      exact short ⟨known, pending, clockless⟩
  | cancelled =>
      refine iff_of_true ?_ trivial
      intro awaits
      have known := awaits.known
      rw [operation] at known
      cases known

/-- A call that changes the council keeps the clocks if and only if it completes no quorum. -/
theorem clocked_configures {a : Address} {call : Call} {events : List Event}
    (valid : w.toConfig.Valid) (clocked : Clocked w)
    (change : Reconfigures (d.context a) w.toConfig call w'.toConfig) (spares : Spares w w' events) :
    Clocked w' ↔ StartsClocks d w a call := by
  have short := (clocked_iff_short valid).mp clocked
  rw [clocked_of_spared (change.valid valid) spares.proposals]
  generalize w'.toConfig = config at change
  cases change with
  | @addOwner b self nonzero new =>
      apply forall_congr'
      intro id
      have grown : Ballot.live (w.owners ++ [b]) (w.confirmedBy id) =
          Ballot.live w.owners (w.confirmedBy id) + (if w.confirmedBy id b = true then 1 else 0) := by
        simp [Ballot.live, List.countP_append, List.countP_singleton]
      show (Awaits w id → Ballot.live (w.owners ++ [b]) (w.confirmedBy id) < w.threshold) ↔
        (Awaits w id → w.confirmedBy id b = true → _)
      rw [grown]
      apply forall_congr'
      intro awaits
      have few := short id awaits
      by_cases flagged : w.confirmedBy id b = true
      · simp [flagged]
      · simpa [flagged] using few
  | @removeOwner b self member enough =>
      refine iff_of_true ?_ trivial
      intro id awaits
      have few := short id awaits
      have fewer : Ballot.live (Ballot.swapPop b w.owners 0 w.owners.length) (w.confirmedBy id) ≤
          Ballot.live w.owners (w.confirmedBy id) := by
        rw [Ballot.live, (Ballot.swapPop_erase b w.owners).countP_eq]
        exact List.erase_sublist.countP_le
      exact Nat.lt_of_le_of_lt fewer few
  | setThreshold => exact Iff.rfl
  | setDelay | receive | getter => exact iff_of_true short trivial

theorem clocked_act {move : Move} (valid : w.toConfig.Valid) (clocked : Clocked w)
    (h : act d w move = some w') :
    Clocked w' ↔ Meets (StartsClocks d) w move := by
  cases act_acts h with
  | touches _ isOwner change touches =>
      exact clocked_touches valid clocked isOwner change touches
  | configures change spares => exact clocked_configures valid clocked change spares
  | idles calm idles =>
      have still : Clocked w' := by
        rw [clocked_of_spared (idles.config ▸ valid) idles.proposals,
          congrArg Config.owners idles.config, congrArg Config.threshold idles.config]
        exact (clocked_iff_short valid).mp clocked
      cases move with
      | call a msgValue call => exact absurd rfl (calm a msgValue call)
      | release | arrives | passes => exact iff_of_true still trivial

end step

/-! ## Runs -/

theorem clocked_of_contract {d : Deployment} {w : World}
    (reach : (contract d (StartsClocks d)).Reachable w) : Clocked w := by
  induction reach with
  | @init w start =>
      obtain ⟨creation, created⟩ := start
      intro id known
      have blank : w.operations id = default :=
        congrArg Proposal.operation (construct_blank created id).1
      rw [blank] at known
      cases known
  | step earlier last ih => exact (clocked_act (valid_of_contract earlier) ih last.1).mpr last.2

/-- A run starts at its first move, or ends where it starts. -/
theorem visited_start {d : Deployment} {v s : State} {moves : List (State × Input)}
    (run : (system d).Run v moves s) : Visited moves s v.world := by
  induction run with
  | nil => exact .inl rfl
  | @snoc moves u input u' _ _ ih =>
      rcases ih with here | ⟨m, member, here⟩
      · exact .inr ⟨(u, input), List.mem_append_right _ List.mem_cons_self, here.symm⟩
      · exact .inr ⟨m, List.mem_append_left _ member, here⟩

/-- Along a run every operation that a quorum confirms has its clock, if and only if no change of
    the council completes a quorum for one without a clock, and no vote does without starting
    it. -/
theorem clocks_started_iff {d : Deployment} {s₀ s : State} {moves : List (State × Input)}
    (init : (system d).init s₀) (run : (system d).Run s₀ moves s) :
    (∀ w, Visited moves s w → Clocked w) ↔
      ∀ m ∈ moves, Performs d (StartsClocks d) m.1 m.2 := by
  constructor
  · rintro clocked m member a call performs
    obtain ⟨before, after, rfl⟩ := List.append_of_mem member
    obtain ⟨v, earlier, last, later⟩ := run.cut
    obtain ⟨msgValue, entered⟩ := performed_enters last performs
    have acted : act d m.1.world (.call a msgValue call) = some v.world :=
      (toOption_some _ _).mpr entered
    have valid := config_valid (earlier.reachable (.init init))
    have here : Clocked m.1.world := clocked _ (.inr ⟨m, member, rfl⟩)
    have there : Clocked v.world := by
      rcases visited_start later with last | ⟨n, inside, same⟩
      · exact clocked _ (.inl last)
      · exact clocked _ (.inr ⟨n, List.mem_append_right _ (List.mem_cons_of_mem _ inside), same⟩)
    exact (clocked_act valid here acted).mp there
  · rintro met w (rfl | ⟨m, member, rfl⟩)
    · have reach := (run.under met).reachable (.init init)
      exact clocked_of_contract (contract_of_reachable reach).1
    · obtain ⟨before, after, rfl⟩ := List.append_of_mem member
      obtain ⟨_, earlier, _, _⟩ := (run.under met).cut
      exact clocked_of_contract (contract_of_reachable (earlier.reachable (.init init))).1

/-! ## Runs with and without a change of the council -/

namespace Sample

/-- The threshold stays, nobody joins and every vote that makes a quorum starts the clock. -/
def steady (m : State × Input) : Bool :=
  match performed deployment m.1 m.2 with
  | some (_, .setThreshold _) | some (_, .addOwner _) => false
  | some (_, .propose target value data salt) =>
      VoteStarts m.1.world (hashOperation deployment.keccak256 target value data salt)
  | some (_, .confirm id) => VoteStarts m.1.world id
  | _ => true

theorem steady_sound {m : State × Input} (h : steady m = true) :
    Performs deployment (StartsClocks deployment) m.1 m.2 := by
  intro a call performs
  simp only [steady, performs] at h
  cases call with
  | setThreshold | addOwner => cases h
  | propose target value data salt =>
      have starts := of_decide_eq_true h
      exact starts
  | confirm id =>
      have starts := of_decide_eq_true h
      exact starts
  | revokeConfirmation | execute | cancel | removeOwner | setDelay | receive | getter => trivial

theorem agreed_steady : ∀ m ∈ agreementMoves, steady m = true := by decide +kernel

/-- `setThreshold(1)`. -/
def loweringData : Bytes := encode 4 0x960bfe04 ++ encode 32 1

def loweringId : Bytes32 := 0x1da6f3c0b8acf1b277f2a8c43e0dee200fb1b0d7ea8131e99e5d1d398218eaf8

def lowering : Deployment where
  this := timelock
  keccak256 input := if input = abiEncode timelock 0 loweringData 0 then loweringId else unpauseId
  dispatch data := if data = loweringData then some (.setThreshold 1) else none

/-- Alice proposes, and bob and carol lower the threshold to one. -/
def loweringInputs : List Input := [
  proposeUnpause alice,
  .call bob 0 (.propose timelock 0 loweringData 0),
  .call carol 0 (.confirm loweringId),
  .passes 86400,
  .call bob 0 (.execute timelock 0 loweringData 0),
  .selfCall,
  .returns]

def lowered : State := (replay lowering created loweringInputs).get (by decide +kernel)

theorem lowered_reachable : (system lowering).Reachable lowered :=
  System.Reachable.later (.init ⟨rfl, creation, rfl⟩)
    (later_of_replay
      (show replay lowering created loweringInputs = some lowered by simp [lowered]))

end Sample

theorem clocks_started_iff_agreed : Clocked Sample.agreed.world := by
  have start : (system Sample.deployment).init Sample.created := ⟨rfl, Sample.creation, rfl⟩
  apply (clocks_started_iff start Sample.agreed_run).mpr
  · intro m member
    exact Sample.steady_sound (Sample.agreed_steady m member)
  · exact .inl rfl

/-- A confirmed operation is a quorum's once the threshold is lowered, and no clock runs. -/
theorem lowered_threshold_starts_nothing :
    (system Sample.lowering).Reachable Sample.lowered ∧ ¬ Clocked Sample.lowered.world := by
  refine ⟨Sample.lowered_reachable, ?_⟩
  intro clocked
  have known : (Sample.lowered.world.operations Sample.unpauseId).exists_ = true := by decide +kernel
  have pending : (Sample.lowered.world.operations Sample.unpauseId).executed = false := by decide +kernel
  have clockless : (Sample.lowered.world.operations Sample.unpauseId).readyAt = 0 := by decide +kernel
  have confirms : Sample.alice ∈ Sample.lowered.world.owners ∧
      Sample.lowered.world.confirmedBy Sample.unpauseId Sample.alice = true := by
    decide +kernel
  have one : Sample.lowered.world.threshold ≤ 1 := by decide +kernel
  refine clocked Sample.unpauseId known pending ⟨[Sample.alice], List.nodup_singleton _, ?_, one⟩
    clockless
  intro o member
  rw [List.mem_singleton.mp member]
  exact confirms

end Perihelion.Timelock

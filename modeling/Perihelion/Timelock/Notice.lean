import Perihelion.Timelock.Clock

/-! # Notice

Whoever confirmed it and whatever the counters say, no operation is executed that was not
announced a whole `MIN_DELAY` before: a proposal of it stood, and its clock showed when it would be
due.
-/

namespace Perihelion.Timelock

open BigEndian Fallible Transition

/-- The 64 bits of a clock hold what a confirmation would write there. -/
def ClockFits (w : World) (_ : Address) (_ : Call) : Prop := w.timestamp + w.delay < uint64

/-- A started clock was started in one of the worlds `V`, for the proposal that stands. -/
def Announced (V : World → Prop) (w : World) (id : Bytes32) : Prop :=
  (w.operations id).readyAt ≠ 0 → ∃ v, V v ∧ v.timestamp + minDelay ≤ (w.operations id).readyAt ∧
    SameProposal id v.log w.log ∧ (v.operations id).exists_ = true ∧
    (v.operations id).readyAt = (w.operations id).readyAt

section step

variable {V : World → Prop} {w w' : World} {id : Bytes32}

/-- A clock that no call writes stays announced. -/
theorem Announced.carry {events : List Event} (announced : Announced V w id)
    (same : (w'.operations id).readyAt = (w.operations id).readyAt) (log : w'.log = events ++ w.log)
    (quiet : (w.operations id).readyAt ≠ 0 → ∀ e ∈ events, e.proposes id = false) :
    Announced V w' id := by
  intro started
  rw [same] at started ⊢
  obtain ⟨v, seen, early, proposal, known, clock⟩ := announced started
  exact ⟨v, seen, early, proposal.grow log (quiet started), known, clock⟩

/-- One more confirmation: the clock is what it was, or it starts now. -/
theorem Announced.voted {a : Address} {op : Operation} (valid : w.toConfig.Valid)
    (fits : w.timestamp + w.delay < uint64) (here : V w')
    (now : w'.timestamp = w.timestamp) (known : op.exists_ = true)
    (left : w'.operations id = op.voted w)
    (kept : op.readyAt ≠ 0 → op = w.operations id ∧ w'.log = voteEvents w id a op ++ w.log)
    (announced : Announced V w id) : Announced V w' id := by
  by_cases starts : op.starts w.threshold
  · intro started
    have clock : (w'.operations id).readyAt = w.timestamp + w.delay := by
      rw [left, Operation.voted, if_pos starts, Nat.mod_eq_of_lt fits]
    refine ⟨w', here, ?_, .refl _ _, ?_, rfl⟩
    · rw [clock, now]
      exact Nat.add_le_add_left valid.delay_min _
    · rw [left]
      exact known
  · have clock : (w'.operations id).readyAt = op.readyAt := by
      rw [left, Operation.voted, if_neg starts]
    by_cases stopped : op.readyAt = 0
    · intro started
      exact absurd (clock.trans stopped) started
    · obtain ⟨rfl, log⟩ := kept stopped
      exact announced.carry clock log fun _ => voteEvents_proposes w id id a _

theorem Announced.touches {c : Context} {call : Call} {events : List Event} {p : Proposal}
    (announced : Announced V w id) (valid : w.toConfig.Valid) (recorded : Recorded w id)
    (fits : w.timestamp + w.delay < uint64) (here : V w')
    (change : Change c w call id events p) (touches : Touches w w' id events p) :
    Announced V w' id := by
  have left : w'.operations id = p.operation := congrArg Proposal.operation touches.here
  cases change with
  | propose _ unknown =>
      refine .voted (a := c.sender) valid fits here touches.timestamp rfl left ?_ announced
      intro started
      rw [recorded.blank unknown] at started
      exact absurd rfl started
  | confirm known =>
      exact .voted valid fits here touches.timestamp known left (fun _ => ⟨rfl, touches.log⟩) announced
  | revoke | execute | cancelVote =>
      have clock : (w'.operations id).readyAt = (w.operations id).readyAt := by
        simp only [left, World.proposal]
      exact announced.carry clock touches.log fun _ => by simp [Event.proposes]
  | cancelled =>
      intro started
      exact absurd (congrArg Operation.readyAt left) started

theorem Announced.act {d : Deployment} {move : Move} (announced : ∀ id, Announced V w id)
    (valid : w.toConfig.Valid) (recorded : ∀ id, Recorded w id) (met : Meets ClockFits w move)
    (here : V w') (h : act d w move = some w') (id : Bytes32) : Announced V w' id := by
  cases act_acts h with
  | touches _ _ change touches =>
      rename_i touched _ _ _ _
      by_cases same : id = touched
      · subst same
        exact (announced id).touches valid (recorded id) met here change touches
      · exact (announced id).carry
          (congrArg Operation.readyAt (operations_eq (touches.elsewhere id same))) touches.log
          fun _ => change.proposes_elsewhere same
  | configures _ spares =>
      exact (announced id).carry (congrArg Operation.readyAt (operations_eq (spares.proposals id)))
        spares.log fun _ => spares.proposes id
  | idles _ idles =>
      refine (announced id).carry
        (congrArg Operation.readyAt (operations_eq (idles.proposals id)))
        (show w'.log = [] ++ w.log from idles.log) ?_
      intro _ e member
      cases member

end step

theorem announced_of_run {d : Deployment} {s₀ s : State} {moves : List (State × Input)}
    (init : (system d).init s₀)
    (run : ((system d).under (Performs d ClockFits)).Run s₀ moves s) :
    (∀ id, Announced (Visited moves s) s.world id) ∧
      ∀ f ∈ s.frame, ∀ id, Announced (Visited moves s) f.before id := by
  refine run_tracks (P := fun V w => ∀ id, Announced V w id) ?_ ?_ ?_ init run
  · intro V V' w wider announced id started
    obtain ⟨v, seen, rest⟩ := announced id started
    exact ⟨v, wider v seen, rest⟩
  · intro V w creation created id started
    have blank : w.operations id = default :=
      congrArg Proposal.operation (construct_blank created id).1
    rw [blank] at started
    exact absurd rfl started
  · intro V w move w' reach announced acted met visited id
    exact Announced.act announced (valid_of_contract reach) (recorded_of_contract reach) met visited
      acted id

/-! ## The call that is open -/

/-- Why a call is open: the operation that names it was due, and a quorum of the owners confirmed
    it at that moment. -/
structure Justified (d : Deployment) (s : State) (f : Frame) (id : Bytes32) : Prop where
  named : ∃ salt, id = hashOperation d.keccak256 f.target f.value f.data salt
  quorum : f.before.Quorum (fun o => f.before.confirmedBy id o = true)
  started : (f.before.operations id).readyAt ≠ 0
  due : (f.before.operations id).readyAt ≤ f.before.timestamp
  now : f.before.timestamp = s.world.timestamp

theorem enter_timestamp {d : Deployment} {a : Address} {msgValue : Nat} {call : Call} {w w' : World}
    (entered : enter d a msgValue call w = .ok w') : w'.timestamp = w.timestamp := by
  cases subject : call.subject (d.context a) with
  | some id =>
      obtain ⟨-, -, _, _, -, touches⟩ := enter_touches entered subject
      exact touches.timestamp
  | none =>
      obtain ⟨-, _, spares⟩ := enter_spares entered subject
      exact spares.timestamp

/-- Time only passes while no call is open. -/
theorem closed_of_passes {d : Deployment} {s s' : State} {seconds : Nat}
    (passed : next d s (.passes seconds) = some s') : s.frame = none := by
  simp only [next] at passed
  split at passed
  · rename_i closed
    exact Option.isNone_iff_eq_none.mp closed
  · cases passed

theorem justified_of_reachable {d : Deployment} {s : State} (reach : (system d).Reachable s) :
    ∀ f ∈ s.frame, ∃ id, Justified d s f id := by
  refine reach.invariant (S := system d) (P := fun s => ∀ f ∈ s.frame, ∃ id, Justified d s f id)
    ?_ ?_
  · intro s start f open_
    rw [start.1] at open_
    cases open_
  · intro s input s' reached justified stepped f' open_
    cases next_stepped stepped with
    | called a msgValue call w entered =>
        have now := enter_timestamp entered
        cases call with
        | execute target value data salt =>
            cases open_
            obtain ⟨_, _, _, _, change, _⟩ := enter_touches entered rfl
            have valid := config_valid reached
            cases change with
            | execute _ _ _ _ enough started due _ =>
                exact ⟨_, ⟨salt, rfl⟩, (valid.quorum_iff _).mpr enough, started, due, now.symm⟩
        | _ =>
            obtain ⟨id, justified⟩ := justified f' open_
            exact ⟨id, justified.named, justified.quorum, justified.started, justified.due,
              justified.now.trans now.symm⟩
    | selfCalled f call w earlier called entered =>
        cases open_
        obtain ⟨id, justified⟩ := justified f earlier
        exact ⟨id, justified.named, justified.quorum, justified.started, justified.due,
          justified.now.trans (enter_timestamp entered).symm⟩
    | returned | failed => cases open_
    | arrived amount =>
        obtain ⟨id, justified⟩ := justified f' open_
        exact ⟨id, justified.named, justified.quorum, justified.started, justified.due, justified.now⟩
    | passed seconds =>
        rw [closed_of_passes stepped] at open_
        cases open_

end Perihelion.Timelock

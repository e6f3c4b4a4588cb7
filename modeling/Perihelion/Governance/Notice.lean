import Perihelion.Governance.Machine

/-! # No decision without notice

While the timelock owns the escrow, nothing of what the owner decides changes, and no function for
the owner runs, but by an operation that a quorum of the council confirmed and whose proposal
had shown for a day at least when it would be due.  Ownership leaves the timelock for an address
that such an operation nominated.
-/

namespace Perihelion.Governance

open BigEndian Transition
open Timelock (Justified SameProposal minDelay)

/-- In `s` an open call of the timelock makes the escrow run `call`, with notice in the run `moves`
    before it. -/
structure Governs (chain : Chain) (moves : List (State × Input)) (s : State) (call : Escrow.Call)
    (f : Timelock.Frame) (id : Bytes32) : Prop where
  open_ : f ∈ s.timelock.frame
  target : f.target = chain.escrow.this
  call : chain.dispatch f.data = some call
  justified : Justified chain.timelock s.timelock f id
  announced : ∃ m ∈ moves, m.1.timestamp + minDelay ≤ s.timestamp ∧
    SameProposal id m.1.timelock.world.log f.before.log ∧
    (m.1.timelock.world.operations id).exists_ = true ∧
    (m.1.timelock.world.operations id).readyAt = (f.before.operations id).readyAt

theorem governs_of_run {chain : Chain} {s₀ s : State} {moves : List (State × Input)}
    (init : (system chain).init s₀) (run : ((system chain).under Early).Run s₀ moves s) {host : Escrow.Host}
    {tx : Escrow.Tx} (governed : chain.governed s host = some tx) :
    tx.sender = chain.timelock.this ∧ ∃ f id, Governs chain moves s tx.call f id := by
  simp only [Chain.governed, Option.bind_eq_bind, Option.bind_eq_some_iff] at governed
  obtain ⟨f, open_, governed⟩ := governed
  split at governed
  · rename_i target
    simp only [Option.bind_eq_some_iff, Option.some.injEq] at governed
    obtain ⟨call, dispatched, rfl⟩ := governed
    have reach := (run.reachable (.init init)).of_under
    obtain ⟨id, justified⟩ := Timelock.justified_of_reachable (system_timelock reach) f open_
    obtain ⟨-, announced⟩ := Timelock.announced_of_run init.1 (run_timelock init run)
    obtain ⟨v, visited, early, proposal, known, clock⟩ := announced f open_ id justified.started
    have now : v.timestamp + minDelay ≤ s.timestamp :=
      (early.trans justified.due).trans (Nat.le_of_eq justified.now)
    refine ⟨rfl, f, id, open_, target, dispatched, justified, ?_⟩
    rcases visited with rfl | ⟨_, member, rfl⟩
    · exact absurd now (Nat.not_le.mpr (Nat.lt_add_of_pos_right (by decide)))
    · obtain ⟨m, earlier, rfl⟩ := List.mem_map.mp member
      exact ⟨m, earlier, now, proposal, known, clock⟩
  · cases governed

theorem open_of_fails {d : Timelock.Deployment} {s t : Timelock.State}
    (failed : Timelock.next d s .fails = some t) : s.frame.isSome := by
  simp only [Timelock.next, Option.bind_eq_bind, Option.bind_eq_some_iff] at failed
  obtain ⟨f, open_, -⟩ := failed
  rw [open_]
  rfl

/-- The pending owner of an escrow of the timelock was nominated with notice. -/
def Nominated (chain : Chain) (moves : List (State × Input)) (p : Escrow.Policy) : Prop :=
  p.owner = chain.timelock.this → p.pendingOwner ≠ 0 → ∃ before m after f id,
    moves = before ++ m :: after ∧
      Governs chain before m.1 (.transferOwnership p.pendingOwner) f id

section step

variable {chain : Chain} {moves : List (State × Input)} {p q : Escrow.Policy} {tx : Escrow.Tx}

theorem Nominated.grow (nominated : Nominated chain moves p) (owner : q.owner = p.owner)
    (pending : q.pendingOwner = p.pendingOwner) (m : State × Input) :
    Nominated chain (moves ++ [m]) q := by
  intro owned some_
  rw [owner] at owned
  rw [pending] at some_ ⊢
  obtain ⟨before, n, after, f, id, rfl, governs⟩ := nominated owned some_
  exact ⟨before, n, after ++ [m], f, id, by simp, governs⟩

theorem Nominated.none (vacant : p.pendingOwner = 0) : Nominated chain moves p :=
  fun _ some_ => absurd vacant some_

/-- Nobody but the timelock nominates an owner for it. -/
theorem Nominated.foreign (nominated : Nominated chain moves p)
    (other : tx.sender ≠ chain.timelock.this) (move : Escrow.PolicyMove tx p q)
    (m : State × Input) : Nominated chain (moves ++ [m]) q := by
  cases move with
  | kept => exact nominated.grow rfl rfl m
  | set _ _ _ owner pending => exact nominated.grow owner pending m
  | nominated newOwner _ owner =>
      intro owned
      exact absurd (owner.trans owned) other
  | withdrawn | accepted => exact .none rfl

theorem Nominated.governed {s : State} {input : Input} {f : Timelock.Frame} {id : Bytes32}
    (nominated : Nominated chain moves p) (governs : Governs chain moves s tx.call f id)
    (move : Escrow.PolicyMove tx p q) : Nominated chain (moves ++ [(s, input)]) q := by
  cases move with
  | kept => exact nominated.grow rfl rfl _
  | set _ _ _ owner pending => exact nominated.grow owner pending _
  | nominated newOwner call =>
      intro _ _
      exact ⟨moves, (s, input), [], f, id, rfl, call ▸ governs⟩
  | withdrawn | accepted => exact .none rfl

end step

theorem nominated_of_run {chain : Chain} {s₀ s : State} {moves : List (State × Input)}
    (init : (system chain).init s₀) (run : ((system chain).under Early).Run s₀ moves s) :
    Nominated chain moves s.escrow.policy ∧
      (s.timelock.frame.isSome → Nominated chain moves s.before.policy) := by
  induction run with
  | nil =>
      obtain ⟨⟨closed, -⟩, creation, created⟩ := init
      exact ⟨.none (Escrow.construct_pending created), by simp [closed]⟩
  | @snoc moves s input s' run last ih =>
      obtain ⟨current, earlier⟩ := ih
      -- what the open call would restore: the escrow as it is, if the call opens now
      have restored : Nominated chain (moves ++ [(s, input)])
          (if s.timelock.frame.isSome then s.before else s.escrow).policy := by
        split
        · exact (earlier ‹_›).grow rfl rfl _
        · exact current.grow rfl rfl _
      cases next_stepped last.1 with
      | timelock => exact ⟨current.grow rfl rfl _, fun _ => restored⟩
      | failed t moved =>
          exact ⟨(earlier (open_of_fails moved)).grow rfl rfl _, fun _ => restored⟩
      | governed host tx e t governed ran =>
          obtain ⟨-, f, id, governs⟩ := governs_of_run init run governed
          exact ⟨current.governed governs (Escrow.exec_policy ran), fun _ => restored⟩
      | arrived input e _ kept =>
          exact ⟨kept ▸ current.grow rfl rfl _, fun o => (earlier o).grow rfl rfl _⟩
      | foreign tx e other _ ran =>
          exact ⟨current.foreign other (Escrow.exec_policy ran) _,
            fun o => (earlier o).grow rfl rfl _⟩

/-- `w` is the escrow as the call that is open now found it. -/
def Found (moves : List (State × Input)) (w : Escrow.World) : Prop :=
  ∃ before m after, moves = before ++ m :: after ∧ m.1.timelock.frame = none ∧
    (∀ n ∈ after, n.1.timelock.frame.isSome) ∧ m.1.escrow = w

theorem Found.grow {moves : List (State × Input)} {w : Escrow.World} {s : State} {input : Input}
    (found : Found moves w) (open_ : s.timelock.frame.isSome) :
    Found (moves ++ [(s, input)]) w := by
  obtain ⟨before, m, after, rfl, closed, since, rfl⟩ := found
  refine ⟨before, m, after ++ [(s, input)], by simp, closed, ?_, rfl⟩
  intro n member
  rcases List.mem_append.mp member with member | member
  · exact since n member
  · rw [List.mem_singleton.mp member]
    exact open_

theorem found_of_run {chain : Chain} {s₀ s : State} {moves : List (State × Input)}
    (init : (system chain).init s₀) (run : ((system chain).under Early).Run s₀ moves s)
    (open_ : s.timelock.frame.isSome) : Found moves s.before := by
  induction run with
  | nil => simp [init.1.1] at open_
  | @snoc moves s input s' run last ih =>
      have opened : Found (moves ++ [(s, input)])
          (if s.timelock.frame.isSome then s.before else s.escrow) := by
        split
        · rename_i earlier
          exact (ih earlier).grow earlier
        · rename_i closed
          exact ⟨moves, (s, input), [], rfl, by simpa using closed, by simp, rfl⟩
      cases next_stepped last.1 with
      | timelock | failed | governed => exact opened
      | foreign | arrived => exact (ih open_).grow open_

/-- What a step does to the policy of an escrow that the timelock owns. -/
inductive Authorized (chain : Chain) (moves : List (State × Input)) (s s' : State) (input : Input) :
    Prop
  | kept : s'.escrow.policy = s.escrow.policy →
      (∀ tx, chain.ran s input = some tx → tx.call.ownerOnly = false) →
      Authorized chain moves s s' input
  | governed (tx f id) : chain.ran s input = some tx → tx.sender = chain.timelock.this →
      Governs chain moves s tx.call f id → Authorized chain moves s s' input
  | accepted (tx before m after f id) : input = .escrow (.tx tx) → tx.call = .acceptOwnership →
      moves = before ++ m :: after → Governs chain before m.1 (.transferOwnership tx.sender) f id →
      s'.escrow.policy = { s.escrow.policy with owner := tx.sender, pendingOwner := 0 } →
      Authorized chain moves s s' input
  | undone : input = .timelock .fails → Found moves s'.escrow → Authorized chain moves s s' input

theorem owner_acts_with_notice {chain : Chain} {s₀ s s' : State} {moves : List (State × Input)}
    {input : Input} (init : (system chain).init s₀) (run : ((system chain).under Early).Run s₀ moves s)
    (stepped : next chain s input = some s') (owned : s.escrow.owner = chain.timelock.this) :
    Authorized chain moves s s' input := by
  cases next_stepped stepped with
  | timelock input t moved => exact .kept rfl (by simp [Chain.ran])
  | failed t moved => exact .undone rfl (found_of_run init run (open_of_fails moved))
  | governed host tx e t governed ran moved =>
      obtain ⟨sender, f, id, governs⟩ := governs_of_run init run governed
      exact .governed tx f id governed sender governs
  | arrived input e other kept => exact .kept kept (by cases input <;> simp_all [Chain.ran])
  | foreign tx e other some_ ran =>
      have nominated := (nominated_of_run init run).1
      have owner : s.escrow.policy.owner = chain.timelock.this := owned
      have move := Escrow.exec_policy ran
      generalize final : e.policy = q at move
      cases move with
      | kept open_ =>
          refine .kept final ?_
          intro tx' same
          cases same
          exact open_
      | set _ _ sender | nominated _ _ sender | withdrawn _ sender =>
          exact absurd (sender.trans owner) other
      | accepted call sender =>
          have waits : s.escrow.policy.pendingOwner ≠ 0 := fun vacant => some_ (sender.trans vacant)
          obtain ⟨before, m, after, f, id, parts, governs⟩ := nominated owner waits
          rw [← sender] at final governs
          exact .accepted tx before m after f id rfl call parts governs final

namespace Sample

open Timelock.Sample (alice bob carol unpauseData)

/-- `acceptOwnership()`. -/
def takeoverData : Bytes := encode 4 0x79ba5097

def takeoverId : Bytes32 := 0x67ab11ef85d3185ebf09800c2a18d907659e5d489f7b3bffa65a3cef3adf0a09

def chain : Chain where
  timelock := { Timelock.Sample.deployment with
    keccak256 := fun input =>
      if input = Timelock.abiEncode Timelock.Sample.escrow 0 takeoverData 0 then takeoverId
      else Timelock.Sample.unpauseId }
  escrow := Escrow.Sample.deployment
  dispatch data :=
    if data = takeoverData then some .acceptOwnership
    else if data = unpauseData then some (.setPaused false)
    else none

def created : State := ⟨Timelock.Sample.created, Escrow.Sample.created, Escrow.Sample.created⟩

def call (sender : Timelock.Address) (call : Timelock.Call) : Input := .timelock (.call sender 0 call)

/-- Alice and bob agree, and carol executes when the delay is over. -/
def decision (data : Bytes) (id : Bytes32) : List Input := [
  call alice (.propose Timelock.Sample.escrow 0 data 0),
  call bob (.confirm id),
  .timelock (.passes 86400),
  call carol (.execute Timelock.Sample.escrow 0 data 0)]

/-- The deployer hands the escrow over, and the council unpauses it. -/
def inputs : List Input :=
  .escrow (.tx (Escrow.Sample.tx Escrow.Sample.owner 0 1700000000
    (.transferOwnership Timelock.Sample.timelock))) ::
  decision takeoverData takeoverId ++ .governs Escrow.Sample.host ::
  decision unpauseData Timelock.Sample.unpauseId

def unpausing : State := (System.replay (next chain) created inputs).get (by decide +kernel)

end Sample

theorem owner_acts_with_notice_unpausing :
    ∃ s', next Sample.chain Sample.unpausing (.governs Escrow.Sample.host) = some s' ∧
      Authorized Sample.chain (System.trail (next Sample.chain) Sample.created Sample.inputs)
        Sample.unpausing s' (.governs Escrow.Sample.host) := by
  have accepted : (next Sample.chain Sample.unpausing (.governs Escrow.Sample.host)).isSome := by
    decide +kernel
  obtain ⟨s', stepped⟩ := Option.isSome_iff_exists.mp accepted
  have start : (system Sample.chain).init Sample.created :=
    ⟨⟨rfl, Timelock.Sample.creation, rfl⟩, Escrow.Sample.creation, rfl⟩
  have early : ∀ m ∈ System.trail (next Sample.chain) Sample.created Sample.inputs,
      Early m.1 m.2 := by decide +kernel
  have run : (system Sample.chain).Run Sample.created
      (System.trail (next Sample.chain) Sample.created Sample.inputs) Sample.unpausing :=
    .of_replay (fun _ _ _ next => next)
      (show System.replay (next Sample.chain) Sample.created Sample.inputs = some Sample.unpausing by
        simp [Sample.unpausing])
  exact ⟨s', stepped, owner_acts_with_notice start (run.under early) stepped (by decide +kernel)⟩

end Perihelion.Governance

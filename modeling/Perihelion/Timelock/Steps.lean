import Perihelion.Timelock.Machine

/-! # What a call of the timelock does

A call either touches one proposal, the operation of one id with its votes, and
leaves the configuration and every other proposal alone, or it changes the
configuration only.
-/

namespace Perihelion.Timelock

open BigEndian Fallible Transition

/-- Everything the contract keeps under one id. -/
structure Proposal where
  operation : Operation
  confirmedBy : Address → Bool
  cancelConfirmations : Nat
  cancelConfirmedBy : Address → Bool

def World.proposal (w : World) (id : Bytes32) : Proposal :=
  ⟨w.operations id, w.confirmedBy id, w.cancelConfirmations id, w.cancelConfirmedBy id⟩

/-- The confirmation that starts the clock. -/
def Operation.starts (op : Operation) (threshold : Nat) : Prop :=
  op.readyAt = 0 ∧ threshold ≤ op.confirmations + 1

instance (op : Operation) (threshold : Nat) : Decidable (op.starts threshold) :=
  inferInstanceAs (Decidable (_ ∧ _))

/-- An operation with one more confirmation, and its clock. -/
def Operation.voted (w : World) (op : Operation) : Operation :=
  { op with
    confirmations := op.confirmations + 1
    readyAt := if op.starts w.threshold then (w.timestamp + w.delay) % uint64 else op.readyAt }

def Proposal.voted (w : World) (a : Address) (p : Proposal) : Proposal :=
  { p with operation := p.operation.voted w, confirmedBy := Function.update p.confirmedBy a true }

def voteEvents (w : World) (id : Bytes32) (a : Address) (op : Operation) : List Event :=
  (if op.starts w.threshold then [.ready id ((w.timestamp + w.delay) % uint64)] else [])
    ++ [.confirmed id a (op.confirmations + 1)]

/-- The id of the proposal a call is about. -/
def Call.subject (c : Context) : Call → Option Bytes32
  | .propose target value data salt | .execute target value data salt =>
      some (hashOperation c.keccak256 target value data salt)
  | .confirm id | .revokeConfirmation id | .cancel id => some id
  | _ => none

/-- What each call does to its proposal, and what it emits, newest first. -/
inductive Change (c : Context) (w : World) : Call → Bytes32 → List Event → Proposal → Prop
  | propose {target value data salt id} :
      id = hashOperation c.keccak256 target value data salt →
      (w.operations id).exists_ = false → (w.operations id).executed = false →
      w.confirmedBy id c.sender = false →
      Change c w (.propose target value data salt) id
        (voteEvents w id c.sender (w.operations id) ++ [.proposed id c.sender target value])
        (Proposal.voted w c.sender
          { w.proposal id with operation := { w.operations id with exists_ := true } })
  | confirm {id} :
      (w.operations id).exists_ = true → (w.operations id).executed = false →
      w.confirmedBy id c.sender = false →
      Change c w (.confirm id) id (voteEvents w id c.sender (w.operations id))
        ((w.proposal id).voted w c.sender)
  | revoke {id} :
      (w.operations id).exists_ = true → (w.operations id).executed = false →
      w.confirmedBy id c.sender = true → 1 ≤ (w.operations id).confirmations →
      Change c w (.revokeConfirmation id) id
        [.confirmationRevoked id c.sender ((w.operations id).confirmations - 1)]
        { w.proposal id with
          operation :=
            { w.operations id with confirmations := (w.operations id).confirmations - 1 }
          confirmedBy := Function.update (w.confirmedBy id) c.sender false }
  | execute {target value data salt id} :
      id = hashOperation c.keccak256 target value data salt → w.reentrancy = 1 →
      (w.operations id).exists_ = true → (w.operations id).executed = false →
      w.threshold ≤ Ballot.live w.owners (w.confirmedBy id) →
      (w.operations id).readyAt ≠ 0 → (w.operations id).readyAt ≤ w.timestamp →
      w.timestamp ≤ (w.operations id).readyAt + gracePeriod →
      Change c w (.execute target value data salt) id [.executed id]
        { w.proposal id with operation := { w.operations id with executed := true } }
  | cancelVote {id} :
      (w.operations id).exists_ = true → (w.operations id).executed = false →
      w.cancelConfirmedBy id c.sender = false → w.cancelConfirmations id + 1 < w.threshold →
      Change c w (.cancel id) id [.cancelConfirmed id c.sender (w.cancelConfirmations id + 1)]
        { w.proposal id with
          cancelConfirmations := w.cancelConfirmations id + 1
          cancelConfirmedBy := Function.update (w.cancelConfirmedBy id) c.sender true }
  | cancelled {id} :
      (w.operations id).exists_ = true → (w.operations id).executed = false →
      w.cancelConfirmedBy id c.sender = false → w.threshold ≤ w.cancelConfirmations id + 1 →
      Change c w (.cancel id) id
        [.cancelled id, .cancelConfirmed id c.sender (w.cancelConfirmations id + 1)]
        { operation := default
          confirmedBy := Ballot.strike w.owners (w.confirmedBy id)
          cancelConfirmations := 0
          cancelConfirmedBy :=
            Ballot.strike w.owners (Function.update (w.cancelConfirmedBy id) c.sender true) }

/-- The reentrancy guard after a call that found it at `n`. -/
def Call.guard (n : Nat) : Call → Nat
  | .execute .. => 2
  | _ => n

/-- A call that emitted `events` and left the proposal `p` under `id`. -/
structure Touches (w w' : World) (id : Bytes32) (events : List Event) (p : Proposal) : Prop where
  config : w'.toConfig = w.toConfig
  timestamp : w'.timestamp = w.timestamp
  here : w'.proposal id = p
  elsewhere : ∀ other, other ≠ id → w'.proposal other = w.proposal other
  log : w'.log = events ++ w.log

/-- What the calls that name no operation do to the configuration. -/
inductive Reconfigures (c : Context) (config : Config) : Call → Config → Prop
  | addOwner {a} : c.sender = c.this → a ≠ 0 → config.isOwner a = false →
      Reconfigures c config (.addOwner a)
        { config with
          isOwner := Function.update config.isOwner a true
          owners := config.owners ++ [a] }
  | removeOwner {a} : c.sender = c.this → config.isOwner a = true →
      config.threshold + 1 ≤ config.owners.length →
      Reconfigures c config (.removeOwner a)
        { config with
          isOwner := Function.update config.isOwner a false
          owners := Ballot.swapPop a config.owners 0 config.owners.length }
  | setThreshold {n} : c.sender = c.this → n ≠ 0 → n ≤ config.owners.length →
      Reconfigures c config (.setThreshold n) { config with threshold := n }
  | setDelay {n} : c.sender = c.this → minDelay ≤ n → n ≤ maxDelay →
      Reconfigures c config (.setDelay n) { config with delay := n }
  | receive : Reconfigures c config .receive config
  | getter : Reconfigures c config .getter config

/-- An event that starts no proposal, confirms none and executes none. -/
def Event.configures : Event → Bool
  | .ownerAdded _ | .ownerRemoved _ | .thresholdSet _ | .delaySet _ => true
  | _ => false

structure Spares (w w' : World) (events : List Event) : Prop where
  timestamp : w'.timestamp = w.timestamp
  reentrancy : w'.reentrancy = w.reentrancy
  proposals : ∀ id, w'.proposal id = w.proposal id
  log : w'.log = events ++ w.log
  configures : ∀ e ∈ events, e.configures = true

/-! ## One lemma for each entry point -/

section inversion

variable {c : Context} {w w' : World}

attribute [local simp] World.emit World.setOperation World.setConfirmedBy World.setCancelConfirmations
  World.setCancelConfirmedBy

theorem validConfirmations_eq (w : World) (id : Bytes32) :
    validConfirmations w id = Ballot.live w.owners (w.confirmedBy id) := by
  have fold : ∀ (owners : List Address) (valid : Nat),
      owners.foldl (fun valid o => if w.confirmedBy id o then valid + 1 else valid) valid
        = valid + owners.countP (w.confirmedBy id) := by
    intro owners
    induction owners with
    | nil => simp
    | cons o rest ih =>
        intro valid
        rw [List.foldl_cons, ih, List.countP_cons]
        split
        · omega
        · omega
  rw [validConfirmations, fold, Nat.zero_add, Ballot.live]

theorem confirm_touches {id : Bytes32} (h : _confirm c id w = .ok w') :
    (w.operations id).executed = false ∧ w.confirmedBy id c.sender = false ∧
      w'.reentrancy = w.reentrancy ∧
      Touches w w' id (voteEvents w id c.sender (w.operations id)) ((w.proposal id).voted w c.sender) := by
  simp only [_confirm, bind_ok, require_ok, addBelow_ok] at h
  obtain ⟨_, pending, _, fresh, n, ⟨_, rfl⟩, h⟩ := h
  refine ⟨pending, fresh, ?_⟩
  split at h
  · rename_i starts
    replace starts : (w.operations id).starts w.threshold := starts
    simp only [bind_ok, addBelow_ok, pure_ok] at h
    obtain ⟨_, ⟨_, rfl⟩, rfl⟩ := h
    refine ⟨rfl, rfl, rfl, ?_, ?_, ?_⟩
    · simp [World.proposal, Proposal.voted, Operation.voted, starts]
    · intro other h
      simp [World.proposal, h]
    · simp [voteEvents, starts]
  · rename_i starts
    replace starts : ¬ (w.operations id).starts w.threshold := starts
    simp only [pure_ok] at h
    subst h
    refine ⟨rfl, rfl, rfl, ?_, ?_, ?_⟩
    · simp [World.proposal, Proposal.voted, Operation.voted, starts]
    · intro other h
      simp [World.proposal, h]
    · simp [voteEvents, starts]

theorem propose_touches {target : Address} {value : Nat} {data : Bytes} {salt id : Bytes32}
    (named : hashOperation c.keccak256 target value data salt = id)
    (h : propose c target value data salt w = .ok w') :
    w.isOwner c.sender = true ∧ w'.reentrancy = w.reentrancy ∧ ∃ events p,
      Change c w (.propose target value data salt) id events p ∧ Touches w w' id events p := by
  simp only [propose, onlyOwner, bind_ok, require_ok, named] at h
  obtain ⟨_, isOwner, _, new, h⟩ := h
  obtain ⟨pending, fresh, guard, touches⟩ := confirm_touches h
  simp only [World.emit, World.setOperation, Function.update_self] at pending fresh guard touches
  refine ⟨isOwner, guard, _, _, .propose named.symm new pending fresh, ?_⟩
  refine ⟨touches.config, touches.timestamp, ?_, ?_, ?_⟩
  · rw [touches.here]
    simp only [World.proposal, Function.update_self]
    rfl
  · intro other h
    rw [touches.elsewhere other h]
    simp [World.proposal, h]
  · rw [touches.log, List.append_assoc]
    rfl

theorem confirm_id_touches {id : Bytes32} (h : confirm c id w = .ok w') :
    w.isOwner c.sender = true ∧ w'.reentrancy = w.reentrancy ∧ ∃ events p,
      Change c w (.confirm id) id events p ∧ Touches w w' id events p := by
  simp only [confirm, onlyOwner, bind_ok, require_ok] at h
  obtain ⟨_, isOwner, _, known, h⟩ := h
  obtain ⟨pending, fresh, guard, touches⟩ := confirm_touches h
  exact ⟨isOwner, guard, _, _, .confirm known pending fresh, touches⟩

theorem revokeConfirmation_touches {id : Bytes32} (h : revokeConfirmation c id w = .ok w') :
    w.isOwner c.sender = true ∧ w'.reentrancy = w.reentrancy ∧ ∃ events p,
      Change c w (.revokeConfirmation id) id events p ∧ Touches w w' id events p := by
  simp only [revokeConfirmation, onlyOwner, bind_ok, require_ok, subChecked_ok, pure_ok] at h
  obtain ⟨_, isOwner, _, known, _, pending, _, held, _, ⟨counted, rfl⟩, rfl⟩ := h
  refine ⟨isOwner, rfl, _, _, .revoke known pending held counted, rfl, rfl, ?_, ?_, ?_⟩
  · simp [World.proposal]
  · intro other h
    simp [World.proposal, h]
  · simp

theorem execute_touches {target : Address} {value : Nat} {data : Bytes} {salt id : Bytes32}
    (named : hashOperation c.keccak256 target value data salt = id)
    (h : execute c target value data salt w = .ok w') :
    w.isOwner c.sender = true ∧ w'.reentrancy = 2 ∧ ∃ events p,
      Change c w (.execute target value data salt) id events p ∧ Touches w w' id events p := by
  simp only [execute, onlyOwner, bind_ok, require_ok, pure_ok, named, validConfirmations_eq] at h
  obtain ⟨_, isOwner, _, free, _, known, _, pending, _, quorum, _, ⟨started, due⟩, _, fresh, rfl⟩ := h
  refine ⟨isOwner, rfl, _, _,
    .execute named.symm free known pending quorum started due fresh, rfl, rfl, ?_, ?_, ?_⟩
  · simp [World.proposal]
  · intro other h
    simp [World.proposal, h]
  · simp

theorem cancel_touches {id : Bytes32} (h : cancel c id w = .ok w') :
    w.isOwner c.sender = true ∧ w'.reentrancy = w.reentrancy ∧ ∃ events p,
      Change c w (.cancel id) id events p ∧ Touches w w' id events p := by
  simp only [cancel, onlyOwner, bind_ok, require_ok, addBelow_ok] at h
  obtain ⟨_, isOwner, _, known, _, pending, _, fresh, _, ⟨_, rfl⟩, h⟩ := h
  split at h
  · rename_i enough
    simp only [pure_ok] at h
    subst h
    refine ⟨isOwner, ?_, _, _, .cancelled known pending fresh enough, ?_, ?_, ?_, ?_, ?_⟩
    · simp
    · simp
    · simp
    · simp [World.proposal]
    · intro other h
      simp [World.proposal, h]
    · simp
  · rename_i short
    simp only [pure_ok] at h
    subst h
    refine ⟨isOwner, rfl, _, _, .cancelVote known pending fresh (Nat.lt_of_not_le short), rfl, rfl,
      ?_, ?_, ?_⟩
    · simp [World.proposal]
    · intro other h
      simp [World.proposal, h]
    · simp

/-- Every call that names an operation changes that one only. -/
theorem run_touches {call : Call} {id : Bytes32} (h : call.run c w = .ok w')
    (subject : call.subject c = some id) :
    w.isOwner c.sender = true ∧ w'.reentrancy = call.guard w.reentrancy ∧ ∃ events p,
      Change c w call id events p ∧ Touches w w' id events p := by
  cases call with
  | propose target value data salt => exact propose_touches (Option.some.inj subject) h
  | confirm id =>
      cases subject
      exact confirm_id_touches h
  | revokeConfirmation id =>
      cases subject
      exact revokeConfirmation_touches h
  | execute target value data salt => exact execute_touches (Option.some.inj subject) h
  | cancel id =>
      cases subject
      exact cancel_touches h
  | addOwner | removeOwner | setThreshold | setDelay | receive | getter => cases subject

/-- Every other call changes at most the configuration. -/
theorem run_spares {call : Call} (h : call.run c w = .ok w') (subject : call.subject c = none) :
    Reconfigures c w.toConfig call w'.toConfig ∧ ∃ events, Spares w w' events := by
  cases call with
  | propose | confirm | revokeConfirmation | execute | cancel => cases subject
  | addOwner a =>
      simp only [Call.run, addOwner, onlySelf, bind_ok, require_ok, pure_ok] at h
      obtain ⟨_, self, _, nonzero, _, new, rfl⟩ := h
      exact ⟨.addOwner self nonzero new, [.ownerAdded a], rfl, rfl, fun _ => rfl, rfl, by simp [Event.configures]⟩
  | removeOwner a =>
      simp only [Call.run, removeOwner, onlySelf, bind_ok, require_ok, subChecked_ok, pure_ok] at h
      obtain ⟨_, self, _, member, remaining, ⟨positive, rfl⟩, _, enough, rfl⟩ := h
      refine ⟨.removeOwner self member (by omega), [.ownerRemoved a], rfl, rfl, fun _ => rfl, rfl, ?_⟩
      simp [Event.configures]
  | setThreshold n =>
      simp only [Call.run, setThreshold, onlySelf, bind_ok, require_ok, pure_ok] at h
      obtain ⟨_, self, _, ⟨positive, covered⟩, rfl⟩ := h
      refine ⟨.setThreshold self positive covered, [.thresholdSet n], rfl, rfl, fun _ => rfl, rfl, ?_⟩
      simp [Event.configures]
  | setDelay n =>
      simp only [Call.run, setDelay, onlySelf, bind_ok, require_ok, pure_ok] at h
      obtain ⟨_, self, _, ⟨least, most⟩, rfl⟩ := h
      refine ⟨.setDelay self least most, [.delaySet n], rfl, rfl, fun _ => rfl, rfl, ?_⟩
      simp [Event.configures]
  | receive =>
      cases h
      exact ⟨.receive, [], rfl, rfl, fun _ => rfl, rfl, by simp⟩
  | getter =>
      cases h
      exact ⟨.getter, [], rfl, rfl, fun _ => rfl, rfl, by simp⟩

end inversion

/-! ## One move of the contract -/

/-- A move that runs no entry point, or one that leaves everything but balances alone. -/
structure Idles (w w' : World) : Prop where
  config : w'.toConfig = w.toConfig
  proposals : ∀ id, w'.proposal id = w.proposal id
  log : w'.log = w.log
  timestamp : w.timestamp ≤ w'.timestamp

/-- The three things a move does. -/
inductive Acts (d : Deployment) (w w' : World) : Move → Prop
  | touches {a msgValue call id events p} :
      call.subject (d.context a) = some id → w.isOwner a = true →
      Change (d.context a) w call id events p → Touches w w' id events p →
      Acts d w w' (.call a msgValue call)
  | configures {a msgValue call events} :
      Reconfigures (d.context a) w.toConfig call w'.toConfig → Spares w w' events →
      Acts d w w' (.call a msgValue call)
  | idles {move} : (∀ a msgValue call, move ≠ .call a msgValue call) → Idles w w' → Acts d w w' move

theorem Change.of_balance {c : Context} {w : World} {b : Nat} {call : Call} {id : Bytes32}
    {events : List Event} {p : Proposal} (change : Change c { w with balance := b } call id events p) :
    Change c w call id events p := by
  cases change with
  | propose named new pending fresh => exact .propose named new pending fresh
  | confirm known pending fresh => exact .confirm known pending fresh
  | revoke known pending held counted => exact .revoke known pending held counted
  | execute named free known pending quorum started due fresh =>
      exact .execute named free known pending quorum started due fresh
  | cancelVote known pending fresh short => exact .cancelVote known pending fresh short
  | cancelled known pending fresh enough => exact .cancelled known pending fresh enough

theorem enter_ok {d : Deployment} {a : Address} {msgValue : Nat} {call : Call} {w w' : World}
    (h : enter d a msgValue call w = .ok w') :
    ∃ v, call.run (d.context a) { w with balance := w.balance + msgValue } = .ok v ∧
      w' = { v with balance := v.balance - call.spends } := by
  simp only [enter, bind_ok, require_ok, pure_ok] at h
  obtain ⟨_, _, v, ran, _, _, rfl⟩ := h
  exact ⟨v, ran, rfl⟩

theorem enter_touches {d : Deployment} {a : Address} {msgValue : Nat} {call : Call} {w w' : World}
    {id : Bytes32} (h : enter d a msgValue call w = .ok w')
    (subject : call.subject (d.context a) = some id) :
    w.isOwner a = true ∧ w'.reentrancy = call.guard w.reentrancy ∧ ∃ events p,
      Change (d.context a) w call id events p ∧ Touches w w' id events p := by
  obtain ⟨v, ran, rfl⟩ := enter_ok h
  obtain ⟨isOwner, guard, events, p, change, touches⟩ := run_touches ran subject
  exact ⟨isOwner, guard, events, p, change.of_balance,
    touches.config, touches.timestamp, touches.here, touches.elsewhere, touches.log⟩

theorem enter_spares {d : Deployment} {a : Address} {msgValue : Nat} {call : Call} {w w' : World}
    (h : enter d a msgValue call w = .ok w') (subject : call.subject (d.context a) = none) :
    Reconfigures (d.context a) w.toConfig call w'.toConfig ∧ ∃ events, Spares w w' events := by
  obtain ⟨v, ran, rfl⟩ := enter_ok h
  obtain ⟨config, events, spares⟩ := run_spares ran subject
  exact ⟨config, events, spares.timestamp, spares.reentrancy, spares.proposals, spares.log,
    spares.configures⟩

theorem act_acts {d : Deployment} {w w' : World} {move : Move} (h : act d w move = some w') :
    Acts d w w' move := by
  cases move with
  | call a msgValue call =>
      have entered : enter d a msgValue call w = .ok w' := (toOption_some _ _).mp h
      cases subject : call.subject (d.context a) with
      | none =>
          obtain ⟨config, events, spares⟩ := enter_spares entered subject
          exact .configures config spares
      | some id =>
          obtain ⟨isOwner, _, events, p, change, touches⟩ := enter_touches entered subject
          exact .touches subject isOwner change touches
  | release =>
      cases h
      exact .idles (by simp) ⟨rfl, fun _ => rfl, rfl, Nat.le_refl _⟩
  | arrives amount =>
      cases h
      exact .idles (by simp) ⟨rfl, fun _ => rfl, rfl, Nat.le_refl _⟩
  | passes seconds =>
      cases h
      exact .idles (by simp) ⟨rfl, fun _ => rfl, rfl, Nat.le_add_right _ _⟩

/-! ## One step of the machine -/

/-- A step of the machine, with what it found when it was taken. -/
inductive Stepped (d : Deployment) (s : State) : Input → State → Prop
  | called (sender msgValue call w) : enter d sender msgValue call s.world = .ok w →
      Stepped d s (.call sender msgValue call) ⟨w, opened s.world s.frame call⟩
  | selfCalled (f : Frame) (call w) : s.frame = some f → f.called d = some call →
      enter d d.this f.value call s.world = .ok w →
      Stepped d s .selfCall ⟨w, some { f with returned := true }⟩
  | returned : Stepped d s .returns ⟨{ s.world with reentrancy := 1 }, none⟩
  | failed (f : Frame) : s.frame = some f → Stepped d s .fails ⟨f.before, none⟩
  | arrived (amount) :
      Stepped d s (.arrives amount) ⟨{ s.world with balance := s.world.balance + amount }, s.frame⟩
  | passed (seconds) : Stepped d s (.passes seconds)
      ⟨{ s.world with timestamp := s.world.timestamp + seconds }, s.frame⟩

theorem next_stepped {d : Deployment} {s s' : State} {input : Input} (h : next d s input = some s') :
    Stepped d s input s' := by
  cases input with
  | call a msgValue call =>
      simp only [next] at h
      split at h
      · rw [Option.map_eq_some_iff] at h
        obtain ⟨w, entered, rfl⟩ := h
        exact .called a msgValue call w ((toOption_some _ _).mp entered)
      · cases h
  | selfCall =>
      simp only [next, bind, Option.bind_eq_some_iff] at h
      obtain ⟨f, open_, h⟩ := h
      split at h
      · simp only [Option.bind_eq_some_iff, Option.some.injEq] at h
        obtain ⟨w, ran, rfl⟩ := h
        simp only [runSelf, toOption_some, bind_ok, expect_ok] at ran
        obtain ⟨call, called, entered⟩ := ran
        exact .selfCalled f call w open_ called entered
      · cases h
  | returns =>
      simp only [next, bind, Option.bind_eq_some_iff] at h
      obtain ⟨f, _, h⟩ := h
      split at h
      · cases h
        exact .returned
      · cases h
  | fails =>
      simp only [next, bind, Option.bind_eq_some_iff] at h
      obtain ⟨f, open_, h⟩ := h
      split at h
      · cases h
        exact .failed f open_
      · cases h
  | arrives amount =>
      cases h
      exact .arrived amount
  | passes seconds =>
      simp only [next] at h
      split at h
      · cases h
        exact .passed seconds
      · cases h

/-- Where a step leads: one move of the contract's on the world, or back to the world
    that a failing call brings back.  An open frame keeps what it would bring back. -/
inductive Leads (d : Deployment) (s s' : State) (input : Input) : Prop
  | moves (move : Move) :
      act d s.world move = some s'.world →
      (∀ condition, Performs d condition s input → Meets condition s.world move) →
      (∀ f' ∈ s'.frame, f'.before = s.world ∨ ∃ f ∈ s.frame, f'.before = f.before) →
      Leads d s s' input
  | restores (f : Frame) : f ∈ s.frame → s'.world = f.before → s'.frame = none → Leads d s s' input

theorem next_leads {d : Deployment} {s s' : State} {input : Input} (h : next d s input = some s') :
    Leads d s s' input := by
  cases next_stepped h with
  | called a msgValue call w entered =>
      refine .moves (.call a msgValue call) ((toOption_some _ _).mpr entered)
        (fun _ met => met a call rfl) ?_
      intro f' opens
      cases call with
      | execute =>
          cases opens
          exact .inl rfl
      | propose | confirm | revokeConfirmation | cancel | addOwner | removeOwner | setThreshold
        | setDelay | receive | getter => exact .inr ⟨f', opens, rfl⟩
  | selfCalled f call w open_ called entered =>
      refine .moves (.call d.this f.value call) ((toOption_some _ _).mpr entered) ?_ ?_
      · intro condition met
        exact met d.this call (by simp [performed, open_, called])
      · intro f' opens
        cases opens
        exact .inr ⟨f, open_, rfl⟩
  | returned => exact .moves .release rfl (fun _ _ => trivial) (by simp)
  | failed f open_ => exact .restores f open_ rfl rfl
  | arrived amount =>
      exact .moves (.arrives amount) rfl (fun _ _ => trivial) fun f open_ => .inr ⟨f, open_, rfl⟩
  | passed seconds =>
      exact .moves (.passes seconds) rfl (fun _ _ => trivial) fun f open_ => .inr ⟨f, open_, rfl⟩

/-- A step that runs an entry point enters it. -/
theorem performed_enters {d : Deployment} {s s' : State} {input : Input} {a : Address} {call : Call}
    (h : next d s input = some s') (performs : performed d s input = some (a, call)) :
    ∃ msgValue, enter d a msgValue call s.world = .ok s'.world := by
  cases next_stepped h with
  | called b msgValue _ w entered =>
      cases performs
      exact ⟨msgValue, entered⟩
  | selfCalled f other w open_ called entered =>
      simp only [performed, open_, called, Option.bind_some, Option.map_some, Option.some.injEq,
        Prod.mk.injEq] at performs
      obtain ⟨rfl, rfl⟩ := performs
      exact ⟨f.value, entered⟩
  | returned | failed | arrived | passed => cases performs

/-- Every world of a run whose calls meet the condition, the ones that open frames would
    bring back included, is one of the contract's. -/
theorem contract_of_reachable {d : Deployment} {condition : World → Address → Call → Prop}
    {s : State} (reach : ((system d).under (Performs d condition)).Reachable s) :
    (contract d condition).Reachable s.world ∧
      ∀ f ∈ s.frame, (contract d condition).Reachable f.before := by
  induction reach with
  | init start =>
      obtain ⟨closed, creation, created⟩ := start
      exact ⟨.init ⟨creation, created⟩, by simp [closed]⟩
  | step _ last ih =>
      obtain ⟨here, before⟩ := ih
      cases next_leads last.1 with
      | moves move acted met kept =>
          refine ⟨.step here ⟨acted, met condition last.2⟩, ?_⟩
          intro f' open_
          rcases kept f' open_ with same | ⟨f, earlier, same⟩
          · exact same ▸ here
          · exact same ▸ before f earlier
      | restores f open_ restored closed =>
          exact ⟨restored ▸ before f open_, by simp [closed]⟩

end Perihelion.Timelock

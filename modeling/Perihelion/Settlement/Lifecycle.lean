import Perihelion.Settlement.Fill
import Perihelion.Settlement.Inbound
import Perihelion.Lib.Transition

/-! # The life of one intent

Everything the contract keeps and does about one intent hash, and the moves it can
make: an intent is registered once, then either paid for and confirmed, or
cancelled.  `Stage` is what each point of that life looks like, markers, record and
history together; every move leads from a stage to a stage.
-/

namespace Perihelion.Settlement

open BigEndian Fallible Transition

/-- A payment for the intent or a message about it. -/
def Effect.concerns (h : Bytes32) : Effect → Bool
  | .transfer (.fill intentHash) _ _ _ _ => intentHash == h
  | .send _ params _ _ => messageIntent params.message == h
  | _ => false

structure IntentView where
  record : Option IntentRecord
  settled : Bool
  cancelled : Bool
  confirmationSent : Bool
  history : List Entry

/-- The ledger of a move and the configured peers, the FillInstruction that is being
    delivered, if any, and whether a solver is filling. -/
structure Occasion where
  timestamp : Nat
  sequence : Nat
  peer : Eid → Option Bytes32
  arrival : Option (Eid × FillInstruction)
  filling : Bool

/-- What `validate_and_stage_fill` checks of a record. -/
structure Fillable (record : IntentRecord) (solver : Address) (solverEvm : Bytes32)
    (fillAmount : I128) (now : Nat) : Prop where
  wellFormed : isSolverEvm solverEvm = true
  locked : record.status = .locked
  early : addSaturating uint64 now minDispatchWindow ≤ record.deadline
  preferred : ∀ preferred ∈ record.preferredSolver,
    ¬ (preferred ≠ solver ∧ now < record.reservationExpires)
  exclusive : ∀ lockedSolver ∈ record.solverEvm,
    ¬ (lockedSolver ≠ solverEvm ∧ now < record.reservationExpires)
  positive : 0 < fillAmount.toInt
  enough : record.minDestAmount.toInt ≤ fillAmount.toInt

namespace IntentView

def empty : IntentView := ⟨none, false, false, false, []⟩

def finalized (v : IntentView) : Bool := v.settled || v.cancelled

def append (v : IntentView) (o : Occasion) (effect : Effect) : IntentView :=
  { v with history := v.history ++ [⟨o.timestamp, o.sequence, effect⟩] }

inductive Step (h : Bytes32) (o : Occasion) : IntentView → IntentView → Prop
  | same (v) : Step h o v v
  | registered (v eid fi) (arrives : o.arrival = some (eid, fi)) (named : fi.intentHash = h)
      (live : v.finalized = false) (absent : v.record = none) :
      Step h o v { v with record := some (fi.record eid o.timestamp) }
  | tombstoned (v) (live : v.finalized = false) (absent : v.record = none) :
      Step h o v { v with cancelled := true }
  | recalled (v record) (live : v.finalized = false) (found : v.record = some record)
      (locked : record.status = .locked) :
      Step h o v { v with record := some { record with status := .cancelled }, cancelled := true }
  | delivered (v record solver solverEvm fillAmount) (live : v.finalized = false)
      (found : v.record = some record)
      (fillable : Fillable record solver solverEvm fillAmount o.timestamp)
      (filling : o.filling = true) :
      Step h o v (append
        { v with record := some (record.fill solver solverEvm fillAmount o.sequence), settled := true }
        o (.transfer (.fill h) record.destAsset solver record.recipient fillAmount))
  | dispatched (v record solver solverEvm endpoint receiver payer lzFee)
      (found : v.record = some record) (filled : record.status = .filled)
      (bySolver : record.solver = some solver) (forSolver : record.solverEvm = some solverEvm)
      (addressed : o.peer record.srcEid = some receiver) :
      Step h o v (append
        { v with
          record := some { record with status := .confirmationSent }
          confirmationSent := true }
        o (.send endpoint (outboundParams record.srcEid receiver
          (encodeFillConfirmed record.intentHash solverEvm record.fillAmount record.fillLedger))
          payer lzFee))
  | expired (v record endpoint receiver payer lzFee) (live : v.finalized = false)
      (found : v.record = some record) (locked : record.status = .locked)
      (late : record.deadline ≤ o.timestamp) (addressed : o.peer record.srcEid = some receiver) :
      Step h o v (append
        { v with record := some { record with status := .cancelled }, cancelled := true }
        o (.send endpoint (outboundParams record.srcEid receiver
          (encodeCancelIntent record.intentHash cancelReasonExpired)) payer lzFee))
  /-- `fill_intent` delivers and dispatches in one invocation. -/
  | both (v middle v') (first : Step h o v middle) (second : Step h o middle v') : Step h o v v'

def Named (h : Bytes32) (v : IntentView) : Prop := ∀ record ∈ v.record, record.intentHash = h

theorem Step.named {h o v v'} (step : Step h o v v') (named : Named h v) : Named h v' := by
  induction step with
  | same | tombstoned => exact named
  | registered v eid fi arrives matching =>
      intro record found
      cases found
      exact matching
  | recalled v record live found | expired v record _ _ _ _ live found
  | delivered v record _ _ _ live found | dispatched v record _ _ _ _ _ _ found =>
      intro _ replaced
      cases replaced
      exact named record found
  | both v middle v' first second ihFirst ihSecond => exact ihSecond (ihFirst named)

end IntentView

/-! ## Terms

What a registration fixes for the life of the record.
-/

structure Terms where
  intentHash : Bytes32
  srcEid : Eid
  recipient : Address
  destAsset : Address
  minDestAmount : I128
  deadline : Nat
  preferredSolver : Option Address
  reservationExpires : Nat

def IntentRecord.terms (record : IntentRecord) : Terms where
  intentHash := record.intentHash
  srcEid := record.srcEid
  recipient := record.recipient
  destAsset := record.destAsset
  minDestAmount := record.minDestAmount
  deadline := record.deadline
  preferredSolver := record.preferredSolver
  reservationExpires := record.reservationExpires

namespace IntentView

/-- A record has the terms of the record before it, or of the FillInstruction that has
    just arrived. -/
def TermsFrom (h : Bytes32) (o : Occasion) (v v' : IntentView) : Prop :=
  ∀ record', v'.record = some record' →
    (∃ record, v.record = some record ∧ record'.terms = record.terms) ∨
      ∃ eid fi, o.arrival = some (eid, fi) ∧ fi.intentHash = h ∧
        record'.terms = (fi.record eid o.timestamp).terms

theorem Step.terms {h o v v'} (step : Step h o v v') : TermsFrom h o v v' := by
  induction step with
  | same | tombstoned =>
      intro record' found
      exact Or.inl ⟨record', found, rfl⟩
  | registered v eid fi arrives matching =>
      intro record' found
      cases found
      exact Or.inr ⟨eid, fi, arrives, matching, rfl⟩
  | recalled v record live found | expired v record _ _ _ _ live found
  | delivered v record _ _ _ live found | dispatched v record _ _ _ _ _ _ found =>
      intro record' replaced
      cases replaced
      exact Or.inl ⟨record, found, rfl⟩
  | both v middle v' first second ihFirst ihSecond =>
      intro record' found
      rcases ihSecond record' found with ⟨between, before, same⟩ | arrived
      · rcases ihFirst between before with ⟨record, before, same'⟩ | ⟨eid, fi, arrives, matching, same'⟩
        · exact Or.inl ⟨record, before, same.trans same'⟩
        · exact Or.inr ⟨eid, fi, arrives, matching, same.trans same'⟩
      · exact Or.inr arrived

end IntentView

/-! ## Stages -/

/-- The one payment for an intent: from the recorded solver to the recorded recipient. -/
structure Delivers (h : Bytes32) (record : IntentRecord) (entry : Entry) (solver : Address)
    (solverEvm : Bytes32) : Prop where
  bySolver : record.solver = some solver
  forSolver : record.solverEvm = some solverEvm
  sequence : entry.sequence = record.fillLedger
  effect : entry.effect =
    .transfer (.fill h) record.destAsset solver record.recipient record.fillAmount
  positive : 0 < record.fillAmount.toInt
  enough : record.minDestAmount.toInt ≤ record.fillAmount.toInt

def Entry.message (entry : Entry) : Option Bytes :=
  match entry.effect with
  | .send _ params _ _ => some params.message
  | _ => none

open IntentView in
inductive Stage (h : Bytes32) : IntentView → Prop
  | unknown : Stage h empty
  | tombstone : Stage h ⟨none, false, true, false, []⟩
  | locked (record) (status : record.status = .locked) : Stage h ⟨some record, false, false, false, []⟩
  | filled (record delivery solver solverEvm) (status : record.status = .filled)
      (delivers : Delivers h record delivery solver solverEvm) :
      Stage h ⟨some record, true, false, false, [delivery]⟩
  | confirmed (record delivery solver solverEvm confirmation)
      (status : record.status = .confirmationSent)
      (delivers : Delivers h record delivery solver solverEvm)
      (confirms : confirmation.message =
        some (encodeFillConfirmed h solverEvm record.fillAmount record.fillLedger)) :
      Stage h ⟨some record, true, false, true, [delivery, confirmation]⟩
  | recalled (record) (status : record.status = .cancelled) :
      Stage h ⟨some record, false, true, false, []⟩
  | expired (record cancellation) (status : record.status = .cancelled)
      (cancels : cancellation.message = some (encodeCancelIntent h cancelReasonExpired))
      (late : record.deadline ≤ cancellation.timestamp) :
      Stage h ⟨some record, false, true, false, [cancellation]⟩

namespace Stage

open IntentView

variable {h : Bytes32} {v v' : IntentView} {record : IntentRecord}

theorem of_absent (stage : Stage h v) (live : v.finalized = false) (absent : v.record = none) :
    v = empty := by
  cases stage with
  | unknown => rfl
  | tombstone => cases live
  | locked | filled | confirmed | recalled | expired => cases absent

theorem of_locked (stage : Stage h v) (found : v.record = some record)
    (locked : record.status = .locked) : v = ⟨some record, false, false, false, []⟩ := by
  cases stage with
  | unknown | tombstone => cases found
  | locked record' status =>
      cases found
      rfl
  | filled record' _ _ _ status | confirmed record' _ _ _ _ status | recalled record' status
  | expired record' _ status =>
      cases found
      rw [status] at locked
      cases locked

theorem of_filled (stage : Stage h v) (found : v.record = some record)
    (filled : record.status = .filled) : ∃ delivery solver solverEvm,
      Delivers h record delivery solver solverEvm ∧
        v = ⟨some record, true, false, false, [delivery]⟩ := by
  cases stage with
  | unknown | tombstone => cases found
  | filled record' delivery solver solverEvm status delivers =>
      cases found
      exact ⟨delivery, solver, solverEvm, delivers, rfl⟩
  | locked record' status | confirmed record' _ _ _ _ status | recalled record' status
  | expired record' _ status =>
      cases found
      rw [status] at filled
      cases filled

/-- Every move leads from a stage to a stage. -/
theorem step {o : Occasion} (step : Step h o v v') (named : Named h v) (stage : Stage h v) :
    Stage h v' := by
  induction step with
  | same => exact stage
  | registered v eid fi arrives matching live absent =>
      rw [stage.of_absent live absent]
      exact .locked _ rfl
  | tombstoned v live absent =>
      rw [stage.of_absent live absent]
      exact .tombstone
  | recalled v record live found locked =>
      rw [stage.of_locked found locked]
      exact .recalled _ rfl
  | delivered v record solver solverEvm fillAmount live found fillable =>
      rw [stage.of_locked found fillable.locked]
      exact .filled _ _ solver solverEvm rfl
        ⟨rfl, rfl, rfl, rfl, fillable.positive, fillable.enough⟩
  | dispatched v record solver solverEvm endpoint receiver payer lzFee found filled bySolver
      forSolver =>
      obtain ⟨delivery, solver', solverEvm', delivers, rfl⟩ := stage.of_filled found filled
      obtain rfl : solverEvm' = solverEvm :=
        Option.some.inj (delivers.forSolver.symm.trans forSolver)
      refine .confirmed _ delivery solver' solverEvm' _ rfl ?_ ?_
      · exact ⟨delivers.bySolver, delivers.forSolver, delivers.sequence, delivers.effect,
          delivers.positive, delivers.enough⟩
      · rw [named record found]
        rfl
  | expired v record endpoint receiver payer lzFee live found locked late =>
      have matching := named record found
      rw [stage.of_locked found locked]
      refine .expired _ _ rfl ?_ late
      rw [matching]
      rfl
  | both v middle v' first second ihFirst ihSecond =>
      exact ihSecond (first.named named) (ihFirst named stage)

end Stage

/-- The contract as seen by one intent. -/
def lifecycle (h : Bytes32) : System IntentView Occasion where
  init v := v = IntentView.empty
  step v o v' := IntentView.Step h o v v'

theorem stage_of_lifecycle {h : Bytes32} {v : IntentView} (reach : (lifecycle h).Reachable v) :
    v.Named h ∧ Stage h v := by
  refine reach.invariant (P := fun v => v.Named h ∧ Stage h v) ?_ ?_
  · intro v start
    cases start
    refine ⟨?_, .unknown⟩
    intro record absent
    cases absent
  · intro v o v' _ holds step
    exact ⟨step.named holds.1, holds.2.step step holds.1⟩

end Perihelion.Settlement

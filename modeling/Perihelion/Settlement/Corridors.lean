import Perihelion.Settlement.Governance

/-! # Corridors

An inbound message comes from one endpoint id, and a record keeps the endpoint id it was
registered from.  A FillInstruction never touches a known intent.  A CancelIntent is not
compared with the record it cancels.
-/

namespace Perihelion.Settlement

open BigEndian Fallible Transition

/-- The message that a transaction hands in, and where it comes from. -/
def Tx.delivery (d : Deployment) (tx : Tx) (w : World) : Option (Origin × LzMessage) :=
  match tx.call with
  | .lzReceiveBytes origin message =>
      (parseMessage (tx.context d) message (w.enter tx)).toOption.map fun parsed => (origin, parsed)
  | .lzReceive origin message => some (origin, message)
  | _ => none

theorem exec_delivery {d : Deployment} {tx : Tx} {w w' : World} {origin message}
    (delivers : tx.delivery d w = some (origin, message)) (ran : exec d tx w = .ok w') :
    applyInbound origin message (w.enter tx) = .ok w' := by
  unfold Tx.delivery at delivers
  unfold exec at ran
  split at delivers
  · rename_i origin' raw call
    simp only [Option.map_eq_some_iff, toOption_some, Prod.mk.injEq] at delivers
    obtain ⟨parsed, parsing, rfl, rfl⟩ := delivers
    rw [call] at ran
    simp only [Call.run, lzReceiveBytes, bind_ok, parsing, Except.ok.injEq, exists_eq_left'] at ran
    obtain ⟨_, -, applied⟩ := ran
    exact applied
  · rename_i origin' parsed call
    cases delivers
    rw [call] at ran
    simp only [Call.run, lzReceive, bind_ok] at ran
    obtain ⟨_, -, applied⟩ := ran
    exact applied
  · cases delivers

theorem exec_of_delivery {d : Deployment} {tx : Tx} {w w' : World} {origin message}
    (delivers : tx.delivery d w = some (origin, message))
    (authorized : authorizeInbound (tx.context d) origin (w.enter tx) = .ok ())
    (applied : applyInbound origin message (w.enter tx) = .ok w') : exec d tx w = .ok w' := by
  unfold Tx.delivery at delivers
  unfold exec
  split at delivers
  · rename_i origin' raw call
    simp only [Option.map_eq_some_iff, toOption_some, Prod.mk.injEq] at delivers
    obtain ⟨parsed, parsing, rfl, rfl⟩ := delivers
    simp only [call, Call.run, lzReceiveBytes, bind_ok]
    exact ⟨(), authorized, parsed, parsing, applied⟩
  · rename_i origin' parsed call
    cases delivers
    simp only [call, Call.run, lzReceive, bind_ok]
    exact ⟨(), authorized, applied⟩
  · cases delivers

/-- The record and the markers of an intent. -/
def World.entries (w : World) (h : Bytes32) : Option IntentRecord × Bool × Bool × Bool :=
  (w.intent h, w.settled h, w.cancelled h, w.confirmationSent h)

theorem World.entries_of_view {w w' : World} {h : Bytes32} (same : w'.view h = w.view h) :
    w'.entries h = w.entries h := by
  simp only [World.view, IntentView.mk.injEq] at same
  obtain ⟨record, settled, cancelled, confirmationSent, -⟩ := same
  simp only [World.entries, record, settled, cancelled, confirmationSent]

theorem onFillInstruction_known {eid fi} {w w' : World} {h : Bytes32} {record : IntentRecord}
    (found : w.intent h = some record) (ran : onFillInstruction eid fi w = .ok w') :
    w'.entries h = w.entries h := by
  cases onFillInstruction_arrival ran with
  | known => rfl
  | refused _ _ _ _ caps => exact World.entries_of_view ((enforceValueCaps_silent caps).view h)
  | registered v _ absent _ caps =>
      apply World.entries_of_view
      rw [World.view_publish, ← (enforceValueCaps_silent caps).view h]
      have other : h ≠ fi.intentHash := by
        intro same
        rw [← same, found] at absent
        cases absent
      simp [World.view, other]

/-- A CancelIntent changes what is kept of a known intent exactly if it is about that
    intent and finds it locked. -/
theorem onCancelInbound_known {eid} {ci : CancelInstruction} {w : World} {h : Bytes32}
    {record : IntentRecord} (found : w.intent h = some record) (live : record.status = .locked →
      isFinalized w h = false) :
    (onCancelInbound eid ci w).entries h = w.entries h ↔
      ¬ (ci.intentHash = h ∧ record.status = .locked) := by
  by_cases about : ci.intentHash = h
  · subst about
    by_cases locked : record.status = .locked
    · have changed : (onCancelInbound eid ci w).intent ci.intentHash =
          some { record with status := .cancelled } := by
        simp [onCancelInbound, live locked, found, locked, World.publish, World.log]
      refine iff_of_false ?_ fun given => given ⟨rfl, locked⟩
      intro same
      have status := congrArg (fun entries => entries.1.map IntentRecord.status) same
      simp [World.entries, changed, found, locked] at status
    · refine iff_of_true ?_ fun given => locked given.2
      unfold onCancelInbound
      split
      · rfl
      · simp [found, locked, World.entries, World.publish, World.log]
  · refine iff_of_true ?_ fun given => about given.1
    have other := Ne.symm about
    unfold onCancelInbound
    split
    · rfl
    · split
      · simp [World.entries, World.publish, World.log, other]
      · split
        · simp [World.entries, World.publish, World.log, other]
        · rfl

theorem unfinalized_of_locked {d : Deployment} {w : World} (reach : (system d).Reachable w)
    {h : Bytes32} {record : IntentRecord} (found : w.intent h = some record)
    (locked : record.status = .locked) : isFinalized w h = false := by
  have view := (stage_of_reachable reach h).of_locked found locked
  have settled : w.settled h = false := congrArg IntentView.settled view
  have cancelled : w.cancelled h = false := congrArg IntentView.cancelled view
  simp [isFinalized, settled, cancelled]

/-- An accepted message from elsewhere leaves the record and the markers of a registered
    intent alone exactly if it is not a CancelIntent for that intent while it is locked. -/
theorem foreign_message_iff {d : Deployment} {w w' : World} (reach : (system d).Reachable w)
    {tx : Tx} (stepped : next d w tx = some w') {origin : Origin} {message : LzMessage}
    (delivers : tx.delivery d w = some (origin, message)) {h : Bytes32} {record : IntentRecord}
    (found : w.intent h = some record) :
    (record.srcEid ≠ origin.srcEid → w'.entries h = w.entries h) ↔
      ¬ (record.srcEid ≠ origin.srcEid ∧ record.status = .locked ∧
        ∃ ci, message = .cancel ci ∧ ci.intentHash = h) := by
  have applied := exec_delivery delivers (next_ok.mp stepped).2
  cases message with
  | fillInstruction fi =>
      obtain ⟨-, v, accepted, handled⟩ := applyInbound_fill.mp applied
      have silent := (acceptNonce_silent accepted).view h
      have known : v.intent h = some record := (congrArg IntentView.record silent).trans found
      have kept := (onFillInstruction_known known handled).trans (World.entries_of_view silent)
      refine iff_of_true (fun _ => kept) ?_
      intro given
      obtain ⟨-, -, _, same, -⟩ := given
      cases same
  | cancel ci =>
      obtain ⟨v, accepted, rfl⟩ := applyInbound_cancel.mp applied
      have silent := (acceptNonce_silent accepted).view h
      have known : v.intent h = some record := (congrArg IntentView.record silent).trans found
      have live (locked : record.status = .locked) : isFinalized v h = false :=
        (congrArg IntentView.finalized silent).trans (unfinalized_of_locked reach found locked)
      have before : v.entries h = w.entries h := World.entries_of_view silent
      rw [← before, onCancelInbound_known known live]
      constructor
      · intro kept given
        obtain ⟨foreign, locked, _, same, about⟩ := given
        cases same
        exact kept foreign ⟨about, locked⟩
      · intro harmless foreign given
        exact harmless ⟨foreign, given.2, ci, rfl, given.1⟩

namespace Sample

def otherEscrow : Bytes32 := 0xBA5E

/-- The admin trusts an escrow on a second endpoint id as well. -/
def secondPeer (time : Nat) : List Tx := [
  tx time 1250 (.proposePeer 30102 otherEscrow 86400),
  tx (time + 86400) 1260 (.confirmPeer 30102)]

/-- The same intent, registered once the second corridor is open. -/
def lateRegisterTx : Tx :=
  tx 1700000200 1270 (.lzReceiveBytes ⟨30101, escrow, 1⟩ fillInstruction)

def foreignCancel : CancelInstruction := ⟨intentHash, 0⟩

/-- The other escrow cancels the sample intent. -/
def foreignCancelTx (time : Nat) : Tx :=
  tx time 1280 (.lzReceiveBytes ⟨30102, otherEscrow, 1⟩
    (encodeCancelIntent intentHash cancelReasonExpired))

end Sample

/-- Once the sample intent is filled the foreign cancel does nothing. -/
theorem foreign_message_iff_sample :
    ∃ w w' record, (system Sample.deployment).Reachable w ∧
      next Sample.deployment w (Sample.foreignCancelTx 1700086700) = some w' ∧
      w.intent Sample.intentHash = some record ∧ record.srcEid = 30101 ∧
      w'.entries Sample.intentHash = w.entries Sample.intentHash := by
  have replayed : ((replay Sample.deployment Sample.delivered (Sample.secondPeer 1700000300)).bind
      fun w => (next Sample.deployment w (Sample.foreignCancelTx 1700086700)).bind fun _ =>
        (w.intent Sample.intentHash).map fun record => (record.srcEid, record.status,
          (Sample.foreignCancelTx 1700086700).delivery Sample.deployment w)) =
        some (30101, .filled, some (⟨30102, Sample.otherEscrow, 1⟩, .cancel Sample.foreignCancel)) := by
    decide +kernel
  obtain ⟨w, run, rest⟩ := Option.bind_eq_some_iff.mp replayed
  obtain ⟨w', stepped, rest⟩ := Option.bind_eq_some_iff.mp rest
  obtain ⟨record, found, same⟩ := Option.map_eq_some_iff.mp rest
  obtain ⟨srcEid, same⟩ := Prod.mk.inj same
  obtain ⟨status, delivers⟩ := Prod.mk.inj same
  have reach := Sample.delivered_reachable.later (later_of_replay run)
  have kept := (foreign_message_iff reach stepped delivers found).mpr
    (fun given => by rw [status] at given; cases given.2.1)
  exact ⟨w, w', record, reach, stepped, found, srcEid, kept (by rw [srcEid]; decide)⟩

/-- Registered from 30101, cancelled from 30102. -/
theorem foreign_cancel :
    ∃ w w' record, (system Sample.deployment).Reachable w ∧ w.intent Sample.intentHash = some record ∧
      record.srcEid = 30101 ∧
      (Sample.foreignCancelTx 1700000300).delivery Sample.deployment w =
        some (⟨30102, Sample.otherEscrow, 1⟩, .cancel Sample.foreignCancel) ∧
      next Sample.deployment w (Sample.foreignCancelTx 1700000300) = some w' ∧
      w'.intent Sample.intentHash = some { record with status := .cancelled } ∧
      w.cancelled Sample.intentHash = false ∧ w'.cancelled Sample.intentHash = true := by
  have replayed : ((replay Sample.deployment Sample.ready
      (Sample.secondPeer 1699086400 ++ [Sample.lateRegisterTx])).bind
      fun w => (next Sample.deployment w (Sample.foreignCancelTx 1700000300)).bind fun w' =>
        (w.intent Sample.intentHash).map fun record => (record.srcEid,
          (Sample.foreignCancelTx 1700000300).delivery Sample.deployment w,
          decide (w'.intent Sample.intentHash = some { record with status := .cancelled }),
          w.cancelled Sample.intentHash, w'.cancelled Sample.intentHash)) =
        some (30101, some (⟨30102, Sample.otherEscrow, 1⟩, .cancel Sample.foreignCancel), true, false,
          true) := by
    decide +kernel
  obtain ⟨w, run, rest⟩ := Option.bind_eq_some_iff.mp replayed
  obtain ⟨w', stepped, rest⟩ := Option.bind_eq_some_iff.mp rest
  obtain ⟨record, found, same⟩ := Option.map_eq_some_iff.mp rest
  simp only [Prod.mk.injEq, decide_eq_true_eq] at same
  obtain ⟨srcEid, delivers, recalled, live, marked⟩ := same
  exact ⟨w, w', record, Sample.ready_reachable.later (later_of_replay run), found, srcEid, delivers,
    stepped, recalled, live, marked⟩

end Perihelion.Settlement

import Perihelion.Escrow.Lifecycle
import Perihelion.Lib.Bitmap

/-! # Inbound messages

What `lzReceive` lets through.  It authenticates the endpoint and the peer's address
and consumes the nonce of the source endpoint id, but never compares that id with
`stellarEid`.  Of the two handlers only the one for CancelIntent treats a lost race
as a no-op.
-/

namespace Perihelion.Escrow

open BigEndian Fallible Transition

theorem isNonceConsumed_has (w : World) (srcEid : Eid) (nonce : UInt64) :
    isNonceConsumed w srcEid nonce = Bitmap.has (w.inboundNonceBitmap srcEid) nonce.toNat := by
  simp only [isNonceConsumed, Bitmap.has, Bitmap.marked, UInt64.toNat_div, UInt64.toNat_mod]
  rfl

theorem consumeNonce_bitmap (srcEid : Eid) (nonce : UInt64) (w : World) :
    (consumeNonce srcEid nonce w).inboundNonceBitmap = Function.update w.inboundNonceBitmap srcEid
      (Bitmap.add (w.inboundNonceBitmap srcEid) nonce.toNat) := by
  simp only [consumeNonce, Bitmap.add, Bitmap.mark, UInt64.toNat_div, UInt64.toNat_mod]
  rfl

/-- Consuming a nonce marks it, and no other nonce of any endpoint id. -/
theorem isNonceConsumed_consumeNonce (srcEid eid : Eid) (nonce other : UInt64) (w : World) :
    isNonceConsumed (consumeNonce srcEid nonce w) eid other =
      (decide (eid = srcEid ∧ other = nonce) || isNonceConsumed w eid other) := by
  rw [isNonceConsumed_has, isNonceConsumed_has, consumeNonce_bitmap]
  by_cases same : eid = srcEid
  · subst same
    rw [Function.update_self, Bitmap.has_add (by decide)]
    simp [UInt64.toNat_inj]
  · rw [Function.update_of_ne same]
    simp [same]

/-- What `lzReceive` checks before it looks at the message. -/
structure Authenticated (d : Deployment) (tx : Tx) (origin : Origin) (w : World) : Prop where
  endpoint : tx.sender = d.endpoint
  peer : origin.sender = w.stellarPeer
  fresh : ¬ (origin.nonce = 0 ∨ isNonceConsumed w origin.srcEid origin.nonce)

/-- The message releases or refunds an open lock of the state `w`. -/
inductive Finalizes (c : Context) (message : Bytes) (w : World) : Prop
  | release (rest m) (layout : message = protocolVersion :: msgFillConfirmed :: rest)
      (decoded : decodeFillConfirmed message = .ok m) (settles : Settles c m.intentHash m.solverEvm w)
      (exclusive : m.solverEvm = (w.locks m.intentHash).solver ∨
        (w.locks m.intentHash).deadline ≤ w.timestamp)
      (delivered : (w.locks m.intentHash).minDestAmount ≤ m.fillAmount)
  | refund (rest m) (layout : message = protocolVersion :: msgCancelIntent :: rest)
      (decoded : decodeCancelIntent message = .ok m)
      (settles : Settles c m.intentHash (w.locks m.intentHash).user w)

/-- All locks, liabilities and token balances are as before. -/
def FundsKept (w : World) (outcome : Except Revert World) : Prop :=
  ∀ w', outcome = .ok w' →
    w'.locks = w.locks ∧ w'.totalLocked = w.totalLocked ∧ w'.balanceOf = w.balanceOf

theorem exec_lzReceive {d : Deployment} {tx : Tx} {origin message} {w w' : World}
    (call : tx.call = .lzReceive origin message) :
    exec d tx w = .ok w' ↔
      w.reentrancy = 1 ∧ Authenticated d tx origin w ∧
        ∃ v, handleMessage (tx.context d) message (consumeNonce origin.srcEid origin.nonce
            { w.enter tx with reentrancy := 2 }) = .ok v ∧ { v with reentrancy := 1 } = w' := by
  rw [exec_ok, call]
  constructor
  · intro given
    obtain ⟨_, ran⟩ := given
    obtain ⟨idle, endpoint, peer, fresh, handled⟩ := lzReceive_ok.mp ran
    exact ⟨idle, ⟨endpoint, peer, fresh⟩, handled⟩
  · intro given
    obtain ⟨idle, ⟨endpoint, peer, fresh⟩, handled⟩ := given
    exact ⟨Or.inr rfl, lzReceive_ok.mpr ⟨idle, endpoint, peer, fresh, handled⟩⟩

theorem Settles.congr {c : Context} {intentHash receiver} {w v : World} (funds : v.funds = w.funds)
    (settles : Settles c intentHash receiver w) : Settles c intentHash receiver v where
  opened := by
    rw [funds]
    exact settles.opened
  accepted := by
    have locks : v.locks = w.locks := congrArg Funds.locks funds
    rw [locks]
    exact settles.accepted

theorem mark_ne {f : Funds} {intentHash : Bytes32} {mark : Lock → Lock} (opened : f.Open intentHash)
    (marks : (mark (f.locks intentHash)).finalized = true) :
    Function.update f.locks intentHash (mark (f.locks intentHash)) ≠ f.locks := by
  intro same
  have here := congrArg (fun locks => (locks intentHash).finalized) same
  simp only [Function.update_self, marks, opened.live] at here
  cases here

/-- A handled message leaves the funds alone unless it finalises a lock. -/
theorem handleMessage_cases {c : Context} {message} {w v : World}
    (ran : handleMessage c message w = .ok v) : Finalizes c message w ∨ v.funds = w.funds := by
  rcases handleMessage_ok.mp ran with ⟨rest, layout, ran⟩ | ⟨rest, layout, ran⟩
  · obtain ⟨m, decoded, settles, exclusive, delivered, -⟩ := onFillConfirmed_ok.mp ran
    exact Or.inl (.release rest m layout decoded settles exclusive delivered)
  · obtain ⟨m, decoded, (⟨-, rfl⟩ | ⟨-, -, rfl⟩ | ⟨settles, -⟩)⟩ := onCancelIntent_ok.mp ran
    · exact Or.inr (World.emit_funds _ _)
    · exact Or.inr (World.emit_funds _ _)
    · exact Or.inl (.refund rest m layout decoded settles)

theorem Finalizes.handled {c : Context} {message} {w : World} (finalizes : Finalizes c message w) :
    ∃ v, handleMessage c message w = .ok v ∧ v.locks ≠ w.locks := by
  cases finalizes with
  | release rest m layout decoded settles exclusive delivered =>
      have ran := onFillConfirmed_ok.mpr ⟨m, decoded, settles, exclusive, delivered, rfl⟩
      refine ⟨_, handleMessage_ok.mpr (Or.inl ⟨rest, layout, ran⟩), ?_⟩
      exact mark_ne settles.opened Lock.release_finalized
  | refund rest m layout decoded settles =>
      have ran := onCancelIntent_ok.mpr ⟨m, decoded, Or.inr (Or.inr ⟨settles, rfl⟩)⟩
      refine ⟨_, handleMessage_ok.mpr (Or.inr ⟨rest, layout, ran⟩), ?_⟩
      exact mark_ne settles.opened Lock.refund_finalized

theorem Finalizes.congr {c : Context} {message} {w v : World} (funds : v.funds = w.funds)
    (timestamp : v.timestamp = w.timestamp) (finalizes : Finalizes c message w) :
    Finalizes c message v := by
  have locks : v.locks = w.locks := congrArg Funds.locks funds
  cases finalizes with
  | release rest m layout decoded settles exclusive delivered =>
      refine .release rest m layout decoded (settles.congr funds) ?_ ?_
      · rw [locks, timestamp]
        exact exclusive
      · rw [locks]
        exact delivered
  | refund rest m layout decoded settles =>
      refine .refund rest m layout decoded ?_
      rw [locks]
      exact settles.congr funds

/-- An inbound call changes the funds exactly when it is authenticated and its message
    finalises an open lock. -/
theorem lzReceive_changes_iff {d : Deployment} {tx : Tx} {origin message} {w : World}
    (idle : w.reentrancy = 1) (call : tx.call = .lzReceive origin message) :
    ¬ FundsKept w (exec d tx w) ↔
      Authenticated d tx origin w ∧ Finalizes (tx.context d) message (w.enter tx) := by
  constructor
  · intro changed
    by_contra neither
    refine changed fun w' ran => ?_
    obtain ⟨-, authenticated, v, handled, rfl⟩ := (exec_lzReceive call).mp ran
    rcases handleMessage_cases handled with finalizes | kept
    · have entered : Finalizes (tx.context d) message (w.enter tx) := by
        refine Finalizes.congr ?_ ?_ finalizes <;> rfl
      exact absurd ⟨authenticated, entered⟩ neither
    · exact ⟨congrArg Funds.locks kept, congrArg Funds.totalLocked kept,
        congrArg Funds.balanceOf kept⟩
  · intro given kept
    obtain ⟨authenticated, finalizes⟩ := given
    have entered : Finalizes (tx.context d) message
        (consumeNonce origin.srcEid origin.nonce { w.enter tx with reentrancy := 2 }) := by
      refine Finalizes.congr ?_ ?_ finalizes <;> rfl
    obtain ⟨v, handled, changed⟩ := entered.handled
    have ran := (exec_lzReceive call).mpr ⟨idle, authenticated, v, handled, rfl⟩
    exact changed (kept _ ran).1

/-! ## The source endpoint id -/

/-- Only the endpoint, for the peer's address on the Stellar endpoint id, moves funds. -/
def BoundToStellar (d : Deployment) (tx : Tx) (origin : Origin) (w : World) : Prop :=
  (¬ FundsKept w (exec d tx w) →
    tx.sender = d.endpoint ∧ origin.sender = w.stellarPeer ∧ origin.srcEid = d.stellarEid) ∧
  (origin.srcEid ≠ d.stellarEid → FundsKept w (exec d tx w))

/-- The endpoint id is bound exactly for the messages that carry it already, and for
    those that would finalise nothing. -/
theorem boundToStellar_iff {d : Deployment} {tx : Tx} {origin message} {w : World}
    (reach : (system d).Reachable w) (call : tx.call = .lzReceive origin message) :
    BoundToStellar d tx origin w ↔ origin.srcEid = d.stellarEid ∨
      ¬ (Authenticated d tx origin w ∧ Finalizes (tx.context d) message (w.enter tx)) := by
  rw [← lzReceive_changes_iff (steady_of_reachable reach).idle call]
  constructor
  · intro bound
    by_cases stellar : origin.srcEid = d.stellarEid
    · exact Or.inl stellar
    · exact Or.inr fun changed => changed (bound.2 stellar)
  · intro safe
    refine ⟨fun changed => ?_, fun foreign => ?_⟩
    · have authenticated := ((lzReceive_changes_iff (steady_of_reachable reach).idle call).mp
        changed).1
      exact ⟨authenticated.endpoint, authenticated.peer, safe.resolve_right (not_not_intro changed)⟩
    · exact not_not.mp (safe.resolve_left foreign)

namespace Sample

/-- FillConfirmed for the sample intent: 95 units delivered in ledger 1234. -/
def fillConfirmed : Bytes :=
  [protocolVersion, msgFillConfirmed] ++ Bytes32.toBytes intentHash ++ addressWord solver
    ++ encode 16 95 ++ encode 8 1234

def inboundTx (srcEid : Eid) (timestamp : Nat) : Tx :=
  tx endpoint 0 timestamp (.lzReceive ⟨srcEid, peer, 1⟩ fillConfirmed)

end Sample

theorem boundToStellar_iff_sample :
    BoundToStellar Sample.deployment (Sample.inboundTx 30600 1700000200)
      ⟨30600, Sample.peer, 1⟩ Sample.locked :=
  (boundToStellar_iff Sample.locked_reachable rfl).mpr (Or.inl rfl)

/-- A contract at the peer's 32-byte address on endpoint id 30101 releases a lock. -/
theorem foreign_eid_releases :
    (system Sample.deployment).Reachable Sample.locked ∧
      ¬ BoundToStellar Sample.deployment (Sample.inboundTx 30101 1700000200)
        ⟨30101, Sample.peer, 1⟩ Sample.locked ∧
      ((exec Sample.deployment (Sample.inboundTx 30101 1700000200) Sample.locked).toOption.map
        fun w => ((w.locks Sample.intentHash).released, w.funds.payments)) =
          some (true, [⟨.release Sample.intentHash, Sample.token, Sample.solver, 100⟩]) := by
  have released : ((exec Sample.deployment (Sample.inboundTx 30101 1700000200)
      Sample.locked).toOption.map fun w => ((w.locks Sample.intentHash).released, w.funds.payments)) =
        some (true, [⟨.release Sample.intentHash, Sample.token, Sample.solver, 100⟩]) := by
    decide +kernel
  refine ⟨Sample.locked_reachable, ?_, released⟩
  intro bound
  have kept := bound.2 (by decide)
  cases run : exec Sample.deployment (Sample.inboundTx 30101 1700000200) Sample.locked with
  | error e =>
      rw [run] at released
      cases released
  | ok w' =>
      rw [run] at released
      have flags := congrArg (Option.map Prod.fst) released
      have flag : (w'.locks Sample.intentHash).released = true := by
        simpa [Except.toOption] using flags
      rw [(kept w' run).1] at flag
      exact absurd flag (by decide +kernel)

/-! ## Lost races -/

/-- An unknown or finalised hash. -/
def Late (w : World) (intentHash : Bytes32) : Prop :=
  (w.locks intentHash).user = 0 ∨ (w.locks intentHash).finalized = true

/-- A well-formed message about a hash that nothing can be done for any more. -/
inductive LateMessage (w : World) (message : Bytes) : Prop
  | fillConfirmed (rest m) (layout : message = protocolVersion :: msgFillConfirmed :: rest)
      (decoded : decodeFillConfirmed message = .ok m) (late : Late w m.intentHash)
  | cancelIntent (rest m) (layout : message = protocolVersion :: msgCancelIntent :: rest)
      (decoded : decodeCancelIntent message = .ok m) (late : Late w m.intentHash)

/-- The call succeeds, consumes the nonce and changes no funds. -/
def IgnoredNoOp (d : Deployment) (tx : Tx) (origin : Origin) (w : World) : Prop :=
  ∃ w', exec d tx w = .ok w' ∧ isNonceConsumed w' origin.srcEid origin.nonce = true ∧
    w'.locks = w.locks ∧ w'.totalLocked = w.totalLocked ∧ w'.balanceOf = w.balanceOf

/-- A FillConfirmed about a late hash never returns. -/
theorem onFillConfirmed_late {c : Context} {message} {w w' : World} {m}
    (decoded : decodeFillConfirmed message = .ok m) (late : Late w m.intentHash) :
    onFillConfirmed c message w ≠ .ok w' := by
  intro ran
  obtain ⟨m', decoded', settles, -⟩ := onFillConfirmed_ok.mp ran
  obtain rfl : m' = m := Except.ok.inj (decoded'.symm.trans decoded)
  rcases late with unknown | final
  · exact settles.opened.locked unknown
  · have live : (w.locks m'.intentHash).finalized = false := settles.opened.live
    rw [final] at live
    cases live

theorem onCancelIntent_late {c : Context} {message} {w : World} {m}
    (decoded : decodeCancelIntent message = .ok m) (late : Late w m.intentHash) :
    ∃ event, onCancelIntent c message w = .ok (w.emit event) := by
  by_cases unknown : (w.locks m.intentHash).user = 0
  · exact ⟨_, onCancelIntent_ok.mpr ⟨m, decoded, Or.inl ⟨unknown, rfl⟩⟩⟩
  · have final := late.resolve_left unknown
    exact ⟨_, onCancelIntent_ok.mpr ⟨m, decoded, Or.inr (Or.inl ⟨unknown, final, rfl⟩)⟩⟩

/-- Of the messages that come too late, exactly the CancelIntents are ignored; every
    FillConfirmed reverts and stays undelivered. -/
theorem late_ignored_iff {d : Deployment} {tx : Tx} {origin message} {w : World}
    (reach : (system d).Reachable w) (call : tx.call = .lzReceive origin message)
    (authenticated : Authenticated d tx origin w) (late : LateMessage w message) :
    IgnoredNoOp d tx origin w ↔ ∃ rest, message = protocolVersion :: msgCancelIntent :: rest := by
  have idle := (steady_of_reachable reach).idle
  constructor
  · intro given
    obtain ⟨w', ran, _⟩ := given
    obtain ⟨-, -, v, handled, -⟩ := (exec_lzReceive call).mp ran
    rcases handleMessage_ok.mp handled with ⟨rest, layout, ran⟩ | ⟨rest, layout, -⟩
    · cases late with
      | fillConfirmed rest' m layout' decoded late =>
          exact absurd ran (onFillConfirmed_late decoded late)
      | cancelIntent rest' m layout' decoded late => exact ⟨rest', layout'⟩
    · exact ⟨rest, layout⟩
  · intro given
    obtain ⟨rest, layout⟩ := given
    cases late with
    | fillConfirmed rest' m layout' decoded late =>
        rw [layout] at layout'
        simp [msgFillConfirmed, msgCancelIntent] at layout'
    | cancelIntent rest' m layout' decoded late =>
        obtain ⟨event, ignored⟩ := @onCancelIntent_late (tx.context d) message
          (consumeNonce origin.srcEid origin.nonce { w.enter tx with reentrancy := 2 }) m decoded late
        have handled := handleMessage_ok.mpr (Or.inr ⟨rest, layout, ignored⟩)
        refine ⟨_, (exec_lzReceive call).mpr ⟨idle, authenticated, _, handled, rfl⟩, ?_, rfl, rfl, rfl⟩
        exact (isNonceConsumed_consumeNonce origin.srcEid origin.srcEid origin.nonce origin.nonce
          { w.enter tx with reentrancy := 2 }).trans (by simp)

namespace Sample

def cancelIntent : Bytes := [protocolVersion, msgCancelIntent] ++ Bytes32.toBytes intentHash ++ [0]

def lateCancelTx : Tx := tx endpoint 0 1700030000 (.lzReceive ⟨30600, peer, 1⟩ cancelIntent)

theorem refunded_reachable : (system deployment).Reachable refunded :=
  locked_reachable.later
    (later_of_replay (show replay deployment locked [.tx refundTx] = some refunded by
      simp [refunded]))

end Sample

theorem late_ignored_iff_sample :
    IgnoredNoOp Sample.deployment Sample.lateCancelTx ⟨30600, Sample.peer, 1⟩ Sample.refunded :=
  (late_ignored_iff Sample.refunded_reachable rfl
    ⟨by decide +kernel, by decide +kernel, by decide +kernel⟩
    (.cancelIntent _ ⟨Sample.intentHash, 0⟩ rfl (by decide +kernel)
      (Or.inr (by decide +kernel)))).mpr ⟨_, rfl⟩

/-- The solver's confirmation arrives after the local refund and reverts. -/
theorem late_fillConfirmed_reverts :
    (system Sample.deployment).Reachable Sample.refunded ∧
      Authenticated Sample.deployment (Sample.inboundTx 30600 1700030000)
        ⟨30600, Sample.peer, 1⟩ Sample.refunded ∧
      LateMessage Sample.refunded Sample.fillConfirmed ∧
      ¬ IgnoredNoOp Sample.deployment (Sample.inboundTx 30600 1700030000)
        ⟨30600, Sample.peer, 1⟩ Sample.refunded := by
  have final : Late Sample.refunded Sample.intentHash := Or.inr (by decide +kernel)
  have reverts : (exec Sample.deployment (Sample.inboundTx 30600 1700030000)
      Sample.refunded).toOption.isNone = true := by
    decide +kernel
  refine ⟨Sample.refunded_reachable, ⟨by decide +kernel, by decide +kernel, by decide +kernel⟩,
    .fillConfirmed _ ⟨Sample.intentHash, Sample.solver, 95, 1234⟩ rfl (by decide +kernel) final, ?_⟩
  intro given
  obtain ⟨w', ran, _⟩ := given
  rw [ran] at reverts
  cases reverts

end Perihelion.Escrow

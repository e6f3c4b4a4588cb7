import Perihelion.Bridge.RoundTrip
import Perihelion.Settlement.Machine
import Perihelion.Settlement.Nonces
import Perihelion.Escrow.LockOutcome

/-! # Registering what has been locked

The escrow and the settlement contract bound the signed amount and deadline each on its
own.  A lock whose FillInstruction the settlement contract refuses for good holds the
user's funds until its deadline, with nobody able to fill it.
-/

namespace Perihelion.Bridge

open BigEndian Fallible

/-- Nothing but the signed fields stands in the way of a first delivery: the endpoint delivers
    for the peer, nothing is paused, the nonce and the intent are new, no cap is configured
    and the asset resolves. -/
structure Receivable (c : Settlement.Context) (origin : Settlement.Origin) (intentHash : Bytes32)
    (destAsset : Bytes) (v : Settlement.World) : Prop where
  authorized : Settlement.authorizeInbound c origin v = .ok ()
  unpaused : Settlement.requireEidNotPaused origin.srcEid v = .ok ()
  freshNonce : ∃ v', Settlement.acceptNonce origin.srcEid origin.nonce v = .ok v'
  unknown : Settlement.isFinalized v intentHash = false ∧ v.intent intentHash = none
  intentCap : ∀ maxAmount, v.maxIntentAmount = some maxAmount → maxAmount.toInt ≤ 0
  windowCap : ¬ (0 < v.rollingWindowDuration.getD 0 ∧ 0 < (v.rollingWindowCap.getD 0).toInt)
  resolves : ∃ token, Settlement.resolveDestAssetId c destAsset v = .ok token

/-- The intent has a record after the delivery, and had none before. -/
def Registers (c : Settlement.Context) (origin : Settlement.Origin) (message : Bytes)
    (intentHash : Bytes32) (v : Settlement.World) : Prop :=
  v.intent intentHash = none ∧
    ∃ v' record, Settlement.lzReceiveBytes c origin message v = .ok v' ∧
      v'.intent intentHash = some record

theorem enforceValueCaps_off {amount : Settlement.I128} {v : Settlement.World}
    (intentCap : ∀ maxAmount, v.maxIntentAmount = some maxAmount → maxAmount.toInt ≤ 0)
    (windowCap : ¬ (0 < v.rollingWindowDuration.getD 0 ∧ 0 < (v.rollingWindowCap.getD 0).toInt)) :
    Settlement.enforceValueCaps amount v = .ok (v, true) := by
  have admitted : v.maxIntentAmount.all fun maxAmount =>
      ¬ (0 < maxAmount.toInt ∧ maxAmount.toInt < amount.toInt) := by
    cases cap : v.maxIntentAmount with
    | none => rfl
    | some maxAmount =>
        have off := intentCap maxAmount cap
        simp only [Option.all_some, decide_eq_true_iff, not_and]
        intro positive
        omega
  unfold Settlement.enforceValueCaps
  simp only [if_neg windowCap, bind_ok, require_ok, exists_const, pure_ok]
  exact ⟨admitted, trivial⟩

/-- The two bounds that the settlement contract puts on the signed values. -/
def Registrable (minDestAmount deadline now : Nat) : Prop :=
  0 < minDestAmount ∧ deadline ≤ addSaturating uint64 now Settlement.maxDeadlineHorizon

/-- The state after a registration. -/
def registered (srcEid : Eid) (fi : Settlement.FillInstruction) (v : Settlement.World) :
    Settlement.World :=
  Settlement.World.publish
    { v with intent := Function.update v.intent fi.intentHash (some (fi.record srcEid v.timestamp)) }
    (.registered fi.intentHash srcEid fi.deadline)

instance (minDestAmount deadline now : Nat) : Decidable (Registrable minDestAmount deadline now) :=
  inferInstanceAs (Decidable (_ ∧ _))

theorem onFillInstruction_new {srcEid} {fi : Settlement.FillInstruction} {v w : Settlement.World}
    (unknown : Settlement.isFinalized v fi.intentHash = false ∧ v.intent fi.intentHash = none)
    (peer : (v.peer srcEid).isSome)
    (intentCap : ∀ maxAmount, v.maxIntentAmount = some maxAmount → maxAmount.toInt ≤ 0)
    (windowCap : ¬ (0 < v.rollingWindowDuration.getD 0 ∧ 0 < (v.rollingWindowCap.getD 0).toInt)) :
    Settlement.onFillInstruction srcEid fi v = .ok w ↔
      (0 < fi.minDestAmount.toInt ∧
        fi.deadline ≤ addSaturating uint64 v.timestamp Settlement.maxDeadlineHorizon) ∧
      registered srcEid fi v = w := by
  obtain ⟨live, absent⟩ := unknown
  have first : ¬ (Settlement.isFinalized v fi.intentHash = true ∨
      (v.intent fi.intentHash).isSome = true) := by
    simp [live, absent]
  unfold Settlement.onFillInstruction
  rw [if_neg first]
  simp only [bind_ok, require_ok, exists_const, enforceValueCaps_off intentCap windowCap, peer,
    Except.ok.injEq, exists_eq_left', if_true, pure_ok, true_and, and_assoc]
  rfl

theorem authorizeInbound_peer {c : Settlement.Context} {origin : Settlement.Origin}
    {v : Settlement.World} (authorized : Settlement.authorizeInbound c origin v = .ok ()) :
    v.peer origin.srcEid = some origin.sender := by
  simp only [Settlement.authorizeInbound, bind_ok, require_ok, expect_ok] at authorized
  obtain ⟨_, -, _, -, expected, peer, rfl⟩ := authorized
  exact peer

/-- A first delivery registers the intent exactly when the two bounds hold. -/
theorem registers_iff {c : Settlement.Context} {origin : Settlement.Origin} {message : Bytes}
    {fi : Settlement.WireFillInstruction} {v : Settlement.World}
    (decoded : Settlement.decodeMessage message = .ok (Settlement.msgFillInstruction, fi, none))
    (locked : fi.lockedSolver.isSome)
    (receivable : Receivable c origin fi.intentHash fi.destAsset v) :
    Registers c origin message fi.intentHash v ↔
      0 < fi.minDestAmount.toInt ∧
        fi.deadline ≤ addSaturating uint64 v.timestamp Settlement.maxDeadlineHorizon := by
  obtain ⟨u, consumed⟩ := receivable.freshNonce
  obtain ⟨token, resolved⟩ := receivable.resolves
  have parsed : Settlement.parseMessage c message v =
      .ok (.fillInstruction (fi.intoFillInstruction token)) := by
    simp only [Settlement.parseMessage, decoded, bind_ok, require_ok, exists_const, pure_ok,
      Except.ok.injEq, exists_eq_left', if_true, locked, resolved, true_and]
  have received (w : Settlement.World) : Settlement.lzReceiveBytes c origin message v = .ok w ↔
      Settlement.onFillInstruction origin.srcEid (fi.intoFillInstruction token) u = .ok w := by
    simp only [Settlement.lzReceiveBytes, Settlement.applyInbound, bind_ok, receivable.authorized,
      receivable.unpaused, parsed, consumed, Except.ok.injEq, exists_eq_left', exists_const,
      true_and]
  have peer : (v.peer origin.srcEid).isSome := by
    rw [authorizeInbound_peer receivable.authorized]
    rfl
  obtain ⟨-, -, -, rfl⟩ := Settlement.acceptNonce_ok.mp consumed
  have registers (w : Settlement.World) := @onFillInstruction_new origin.srcEid
    (fi.intoFillInstruction token) (v.acceptedNonce origin.srcEid origin.nonce.toNat) w
    receivable.unknown peer receivable.intentCap receivable.windowCap
  constructor
  · intro given
    obtain ⟨-, w, _, ran, -⟩ := given
    exact ((registers w).mp ((received w).mp ran)).1
  · intro bounds
    have ran := (received _).mpr ((registers _).mpr ⟨bounds, rfl⟩)
    exact ⟨receivable.unknown.2, _, _, ran, Function.update_self _ _ _⟩

/-- The same for a FillInstruction as the escrow writes it. -/
theorem registers_locked_iff {c : Settlement.Context} {origin : Settlement.Origin}
    {d : Escrow.Deployment} {intent : Escrow.Intent} {now : Nat}
    (checks : Escrow.StaticChecks intent now)
    (destination : Settlement.isValidStrkey intent.destination = true)
    (asset : (Settlement.DestAsset.parse intent.destAsset).isSome) {intentHash : Bytes32}
    {solver : Escrow.Address} (locked : solver ≠ 0) {v : Settlement.World}
    (receivable : Receivable c origin intentHash intent.destAsset v) :
    Registers c origin (Escrow.encodeFillInstruction d intentHash intent solver) intentHash v ↔
      Registrable intent.minDestAmount intent.deadline v.timestamp := by
  have host : (Settlement.Address.fromStringBytes intent.destination).isSome := by
    rw [Settlement.Address.fromStringBytes_isSome]
    exact destination
  obtain ⟨recipient, host⟩ := Option.isSome_iff_exists.mp host
  have decoded := decodeMessage_fillInstruction
    (@decodeFillInstruction_locked d intent now checks recipient host asset intentHash solver locked)
  have minimum := minDestAmount_toInt checks.minDestAmount
  have registers := registers_iff decoded rfl receivable
  simp only [lockedInstruction, minimum] at registers
  rw [Registrable, ← Int.natCast_pos (n := intent.minDestAmount)]
  exact registers

theorem Receivable.canonical {c : Settlement.Context} {origin : Settlement.Origin}
    {intentHash destAsset} {v : Settlement.World}
    (receivable : Receivable c origin intentHash destAsset v) :
    (Settlement.DestAsset.parse destAsset).isSome := by
  obtain ⟨token, resolved⟩ := receivable.resolves
  simp only [Settlement.resolveDestAssetId, bind_ok, expect_ok] at resolved
  obtain ⟨_, -, asset, parsed, -⟩ := resolved
  rw [parsed]
  rfl

/-- None of it depends on the time of the delivery. -/
theorem Receivable.at {c : Settlement.Context} {origin : Settlement.Origin}
    {intentHash destAsset} {v : Settlement.World}
    (receivable : Receivable c origin intentHash destAsset v) (timestamp : Nat) :
    Receivable c origin intentHash destAsset { v with timestamp } := by
  obtain ⟨_, consumed⟩ := receivable.freshNonce
  obtain ⟨nonzero, above, fresh, -⟩ := Settlement.acceptNonce_ok.mp consumed
  constructor
  case authorized => exact receivable.authorized
  case unpaused => exact receivable.unpaused
  case freshNonce => exact ⟨_, Settlement.acceptNonce_ok.mpr ⟨nonzero, above, fresh, rfl⟩⟩
  case unknown => exact receivable.unknown
  case intentCap => exact receivable.intentCap
  case windowCap => exact receivable.windowCap
  case resolves => exact receivable.resolves

theorem not_registers_of_refused {c : Settlement.Context} {origin : Settlement.Origin}
    {message : Bytes} {intentHash} {v : Settlement.World}
    (refused : (Settlement.lzReceiveBytes c origin message v).toOption.isNone = true) :
    ¬ Registers c origin message intentHash v := by
  intro given
  obtain ⟨-, v', _, ran, -⟩ := given
  rw [ran] at refused
  cases refused

/-- Of the intents that `lock` takes, the settlement contract registers those with a positive
    minimum whose deadline is at most seven days after the delivery. -/
theorem lock_registers_iff {d : Escrow.Deployment} {tx : Escrow.Tx} {intent : Escrow.Intent}
    {signature : Bytes} {w w' : Escrow.World} {params : Escrow.MessagingParams}
    (call : tx.call = .lock intent signature) (ran : Escrow.exec d tx w = .ok w')
    (sent : w'.sent = w.sent ++ [params]) (sender : tx.sender ≠ 0)
    (destination : Settlement.isValidStrkey intent.destination = true)
    {c : Settlement.Context} {origin : Settlement.Origin} {v : Settlement.World}
    (receivable : Receivable c origin (Escrow.hashIntent d intent) intent.destAsset v) :
    Registers c origin params.message (Escrow.hashIntent d intent) v ↔
      Registrable intent.minDestAmount intent.deadline v.timestamp := by
  obtain ⟨-, intentHash, received, valid, -, -, -, -, sent'⟩ :=
    Escrow.lock_ok ((Escrow.exec_lock call).mp ran)
  have checks := (Escrow.validateIntent_iff.mp valid).1
  obtain rfl : intentHash = Escrow.hashIntent d intent := (Escrow.validateIntent_ok valid).1
  rw [sent] at sent'
  have same := List.append_cancel_left sent'
  obtain rfl := (List.cons.inj same).1
  exact registers_locked_iff checks destination receivable.canonical sender receivable

namespace Sample

def origin : Settlement.Origin := ⟨30101, Settlement.Sample.escrow, 1⟩

def receivingContext : Settlement.Context :=
  Settlement.Sample.registerTx.context Settlement.Sample.deployment

/-- A hundred seconds after the lock. -/
def receiving : Settlement.World := Settlement.Sample.ready.enter Settlement.Sample.registerTx

/-- The lock of the sample intent with another deadline. -/
def lockUntil (deadline : Nat) : Escrow.Tx :=
  Escrow.Sample.tx Escrow.Sample.solver 8 1700000100
    (.lock { Escrow.Sample.intent with deadline := deadline } [])

def message (deadline : Nat) : Escrow.MessagingParams :=
  Escrow.fillInstructionParams ((lockUntil deadline).context Escrow.Sample.deployment)
    (Escrow.hashIntent Escrow.Sample.deployment
      { Escrow.Sample.intent with deadline := deadline })
    { Escrow.Sample.intent with deadline := deadline } Escrow.Sample.ready

def lockedUntil (deadline : Nat) : Option Escrow.World :=
  (Escrow.exec Escrow.Sample.deployment (lockUntil deadline) Escrow.Sample.ready).toOption

theorem receivable (intentHash : Bytes32) :
    Receivable receivingContext origin intentHash (ascii "native") receiving where
  authorized := by decide +kernel
  unpaused := by decide +kernel
  freshNonce := ⟨_, Settlement.acceptNonce_ok.mpr
    ⟨by decide, by decide +kernel, by decide +kernel, rfl⟩⟩
  unknown := ⟨rfl, rfl⟩
  intentCap := by
    intro maxAmount configured
    cases configured
  windowCap := by decide +kernel
  resolves := ⟨Settlement.Sample.nativeToken, by decide +kernel⟩

end Sample

/-- The sample intent, due in three hours, is registered. -/
theorem lock_registers_sample :
    Registers Sample.receivingContext Sample.origin (Sample.message 1700010000).message
      (Escrow.hashIntent Escrow.Sample.deployment Escrow.Sample.intent) Sample.receiving := by
  have found : (Sample.lockedUntil 1700010000).map Escrow.World.sent =
      some (Escrow.Sample.ready.sent ++ [Sample.message 1700010000]) := by
    decide +kernel
  obtain ⟨w', ran, sent⟩ := Option.map_eq_some_iff.mp found
  exact (@lock_registers_iff Escrow.Sample.deployment (Sample.lockUntil 1700010000) _ [] _ w' _ rfl
    ((toOption_some _ _).mp ran) sent (by decide) (by decide +kernel) _ _ _
    (Sample.receivable _)).mpr (by decide +kernel)

/-- The escrow takes the sample intent with the last deadline of a `u64`, and its
    FillInstruction is refused. -/
theorem far_deadline_unregistered :
    (∃ w', Escrow.exec Escrow.Sample.deployment (Sample.lockUntil (uint64 - 1)) Escrow.Sample.ready =
        .ok w' ∧ w'.sent = Escrow.Sample.ready.sent ++ [Sample.message (uint64 - 1)] ∧
      w'.totalLocked Escrow.Sample.token = 100) ∧
    Receivable Sample.receivingContext Sample.origin
      (Escrow.hashIntent Escrow.Sample.deployment
        { Escrow.Sample.intent with deadline := uint64 - 1 }) (ascii "native") Sample.receiving ∧
    ¬ Registers Sample.receivingContext Sample.origin (Sample.message (uint64 - 1)).message
      (Escrow.hashIntent Escrow.Sample.deployment
        { Escrow.Sample.intent with deadline := uint64 - 1 }) Sample.receiving := by
  refine ⟨?_, Sample.receivable _, ?_⟩
  · have found : (Sample.lockedUntil (uint64 - 1)).map
        (fun w' => (w'.sent, w'.totalLocked Escrow.Sample.token)) =
          some (Escrow.Sample.ready.sent ++ [Sample.message (uint64 - 1)], 100) := by
      decide +kernel
    obtain ⟨w', ran, both⟩ := Option.map_eq_some_iff.mp found
    obtain ⟨sent, locked⟩ := Prod.mk.inj both
    exact ⟨w', (toOption_some _ _).mp ran, sent, locked⟩
  · apply not_registers_of_refused
    decide +kernel

end Perihelion.Bridge

import Perihelion.Bridge.Registration
import Perihelion.Sdk.Intent

/-! # Intents that the SDK has validated

Three validators see the same intent: the SDK before it is signed, the escrow when it is
locked and the settlement contract when it is registered.
-/

namespace Perihelion.Bridge

open BigEndian Fallible

/-- What the escrow asks of an intent beside its static checks: the right chain and solver, an
    allowed asset, no earlier lock and the user's signature. -/
structure LockMatches (c : Escrow.Context) (intent : Escrow.Intent) (signature : Bytes)
    (w : Escrow.World) : Prop where
  sourceChain : intent.sourceChainId = c.chainid
  solver : intent.preferredSolver = 0 ∨ intent.preferredSolver = c.sender
  allowed : w.assetAllowed intent.sourceAsset = true
  vacant : (w.locks (Escrow.hashIntent c.toDeployment intent)).user = 0
  signed : Escrow.verify c (Escrow.hashIntent c.toDeployment intent) intent.user signature =
    .ok true

/-- The bounds of the SDK, as far as the two contracts have them. -/
structure Bounded (intent : Escrow.Intent) (now : Sdk.JsInteger) : Prop where
  destination : intent.destination.length = 56 ∧
    Settlement.isValidStrkey intent.destination = true
  destAsset : (Settlement.DestAsset.parse intent.destAsset).isSome ∧
    intent.destAsset.length ≠ 0 ∧ intent.destAsset.length ≤ Settlement.maxDestAssetLen
  sourceAmount : intent.sourceAmount ≤ Sdk.u128Max
  minDestAmount : 0 < intent.minDestAmount ∧ intent.minDestAmount ≤ Sdk.i128Max
  deadline : intent.deadline ≤ Sdk.addDouble now.value Sdk.maxDeadlineHorizonSec

theorem toMessage_bounded {viem : Sdk.Viem} {params : Sdk.IntentParams} {now : Sdk.JsInteger}
    (valid : Sdk.Validated params now) {deadline : Int}
    (given : params.deadline.asInteger = some deadline) (positive : 0 < deadline)
    (randomNonce : Sdk.JsString) :
    ∃ intent, Sdk.toMessage viem (params.intent randomNonce) = some intent ∧
      (intent.deadline : Int) = deadline ∧ Bounded intent now := by
  obtain ⟨chainId, chain, chainPositive⟩ := valid.sourceChainId
  obtain ⟨_, same, -, horizon⟩ := valid.deadline
  rw [given] at same
  obtain rfl := Option.some.inj same
  obtain ⟨chainNat, rfl⟩ := Int.eq_ofNat_of_zero_le (show 0 ≤ chainId by omega)
  obtain ⟨deadlineNat, rfl⟩ := Int.eq_ofNat_of_zero_le (show 0 ≤ deadline by omega)
  have chainId : (params.intent randomNonce).sourceChainId.toUint = some chainNat := by
    rw [Sdk.JsNumber.toUint, Sdk.IntentParams.intent, chain]
    rfl
  have due : (params.intent randomNonce).deadline.toUint = some deadlineNat := by
    rw [Sdk.JsNumber.toUint, Sdk.IntentParams.intent, given]
    rfl
  have made : Sdk.toMessage viem (params.intent randomNonce) =
      some ((params.intent randomNonce).message viem chainNat deadlineNat) := by
    rw [Sdk.toMessage, chainId, due]
    rfl
  refine ⟨_, made, rfl, ?_⟩
  constructor
  case destination => exact Sdk.isStellarAddress_settlement valid.destination
  case destAsset => exact Sdk.isStellarAsset_settlement valid.destAsset
  case sourceAmount => exact valid.sourceAmount
  case minDestAmount => exact ⟨valid.positiveMin, valid.minDestAmount⟩
  case deadline => exact horizon

/-- As long as the sum with the horizon is exact, the static checks of the escrow pass. -/
theorem Bounded.staticChecks {intent : Escrow.Intent} {now : Sdk.JsInteger}
    (bounded : Bounded intent now) (exact : now.value + Sdk.maxDeadlineHorizonSec ≤ 2 ^ 53)
    {t : Nat} (early : t < intent.deadline) : Escrow.StaticChecks intent t := by
  have small := Sdk.addDouble_le exact (by decide) exact
  have deadline := bounded.deadline
  have length := bounded.destination.1
  have asset := bounded.destAsset.2
  constructor
  case early => exact early
  case destination =>
    rw [length]
    decide
  case destAsset => exact asset
  case minDestAmount => exact bounded.minDestAmount.2
  case sourceAmount => exact bounded.sourceAmount
  case deadline =>
    have wide : uint64 = 2 ^ 64 := rfl
    omega

theorem Bounded.registrable {intent : Escrow.Intent} {now : Sdk.JsInteger}
    (bounded : Bounded intent now) (exact : now.value + Sdk.maxDeadlineHorizonSec ≤ 2 ^ 53)
    {t later : Nat} (start : now.value ≤ t) (after : t ≤ later) :
    Registrable intent.minDestAmount intent.deadline later := by
  have horizon : Sdk.maxDeadlineHorizonSec = Settlement.maxDeadlineHorizon := rfl
  have reach : Sdk.addDouble now.value Sdk.maxDeadlineHorizonSec ≤
      (later : Int) + Sdk.maxDeadlineHorizonSec :=
    Sdk.addDouble_le exact (by omega) (by omega)
  have small := Sdk.addDouble_le exact (by decide) exact
  have deadline := bounded.deadline
  refine ⟨bounded.minDestAmount.1, ?_⟩
  have wide : uint64 = 2 ^ 64 := rfl
  unfold addSaturating
  omega

/-- An intent that the SDK accepts passes the static checks of the escrow until its deadline,
    and once locked its FillInstruction is registered, however late it arrives. -/
theorem validated_registers {viem : Sdk.Viem} {params : Sdk.IntentParams} {now : Sdk.JsInteger}
    (exact : now.value + Sdk.maxDeadlineHorizonSec ≤ 2 ^ 53)
    (accepted : Sdk.validateIntent viem params now = .ok ()) {t : Nat} (start : now.value ≤ t)
    {deadline : Int} (given : params.deadline.asInteger = some deadline) (early : t < deadline)
    (randomNonce : Sdk.JsString) :
    ∃ intent, Sdk.toMessage viem (params.intent randomNonce) = some intent ∧
      (∀ c signature w, w.timestamp = t → LockMatches c intent signature w →
        Escrow.validateIntent c intent signature w =
          .ok (Escrow.hashIntent c.toDeployment intent)) ∧
      ∀ c origin d solver v, solver ≠ 0 → t ≤ v.timestamp →
        Receivable c origin (Escrow.hashIntent d intent) intent.destAsset v →
        Registers c origin
          (Escrow.encodeFillInstruction d (Escrow.hashIntent d intent) intent solver)
          (Escrow.hashIntent d intent) v := by
  obtain ⟨intent, made, due, bounded⟩ := @toMessage_bounded viem params now
    (Sdk.validateIntent_ok accepted) deadline given (by omega) randomNonce
  have checks : Escrow.StaticChecks intent t := bounded.staticChecks exact (by omega)
  refine ⟨intent, made, ?_, ?_⟩
  · rintro c signature w rfl lock
    exact Escrow.validateIntent_iff.mpr ⟨checks, lock.sourceChain, lock.solver, lock.allowed,
      lock.vacant, lock.signed, rfl⟩
  · intro c origin d solver v locked after receivable
    exact (registers_locked_iff checks bounded.destination.2 bounded.destAsset.1 locked
      receivable).mpr (bounded.registrable exact start after)

namespace Sample

/-- 48 to 57 are the digits, 97 to 102 the letters `a` to `f`. -/
def hexValue (unit : UInt16) : Nat :=
  if unit < 97 then unit.toNat - 48 else unit.toNat - 87

/-- Addresses without capital letters need no checksum. -/
def viem : Sdk.Viem where
  isAddress s := s.length == 42 && s.take 2 == Sdk.js "0x" && (s.drop 2).all fun unit =>
    Sdk.isDigit unit || (97 ≤ unit && unit ≤ 102)
  toAddress s := BitVec.ofNat 160 ((s.drop 2).foldl (fun n unit => 16 * n + hexValue unit) 0)

def second (n : Nat) (small : n ≤ 2 ^ 53) : Sdk.JsInteger where
  value := n
  finite := Sdk.natAbs_lt_of_small small
  exact := Sdk.nearestDouble_natAbs small

/-- A client of the sample escrow. -/
def params (deadline : Sdk.JsInteger) : Sdk.IntentParams where
  user := Sdk.js "0x0000000000000000000000000000000000005afe"
  destination := Sdk.js "GADQOBYHA4DQOBYHA4DQOBYHA4DQOBYHA4DQOBYHA4DQOBYHA4DQOZPI"
  sourceChainId := .integer (second 1 (by decide))
  sourceAsset := Sdk.js "0x00000000000000000000000000000000000070ce"
  sourceAmount := Sdk.js "100"
  destAsset := Sdk.js "native"
  minDestAmount := Sdk.js "90"
  deadline := .integer deadline
  nonce := some (Sdk.js "7")
  preferredSolver := none

def due : Sdk.JsInteger := second 1700010000 (by decide)

/-- Client and escrow agree on the sample intent. -/
theorem message_due :
    Sdk.toMessage viem ((params due).intent []) = some Escrow.Sample.intent := by
  decide +kernel

/-- The first even number after the horizon of the last odd second below 2^53. -/
def roundedUp : Sdk.JsInteger where
  value := 2 ^ 53 + 604800
  finite := by decide +kernel
  exact := by decide +kernel

/-- The sample intent, due then. -/
def lateIntent : Escrow.Intent := { Escrow.Sample.intent with deadline := 2 ^ 53 + 604800 }

def lateReceiving : Settlement.World := { receiving with timestamp := 2 ^ 53 - 1 }

end Sample

/-- The sample intent, accepted at 1700000000 and locked a hundred seconds later. -/
theorem validated_registers_sample :
    Registers Sample.receivingContext Sample.origin
      (Escrow.encodeFillInstruction Escrow.Sample.deployment
        (Escrow.hashIntent Escrow.Sample.deployment Escrow.Sample.intent) Escrow.Sample.intent
        Escrow.Sample.solver)
      (Escrow.hashIntent Escrow.Sample.deployment Escrow.Sample.intent) Sample.receiving := by
  have accepted : (Sdk.validateIntent Sample.viem (Sample.params Sample.due)
      (Sample.second 1700000000 (by decide))).toOption = some () := by
    decide +kernel
  obtain ⟨intent, made, -, registers⟩ := @validated_registers Sample.viem _ _ (by decide)
    ((toOption_some _ _).mp accepted) 1700000100 (by decide) _ rfl (by decide) []
  rw [Sample.message_due] at made
  obtain rfl := Option.some.inj made
  exact registers _ _ _ _ _ (by decide) (by decide +kernel) (Sample.receivable _)

/-- At the last second below 2^53 the SDK accepts a deadline one second past the horizon. -/
theorem rounded_deadline_unregistered :
    (Sdk.validateIntent Sample.viem (Sample.params Sample.roundedUp)
      (Sample.second (2 ^ 53 - 1) (by decide))).toOption = some () ∧
    Sdk.toMessage Sample.viem ((Sample.params Sample.roundedUp).intent []) =
      some Sample.lateIntent ∧
    Sample.lateReceiving.timestamp = 2 ^ 53 - 1 ∧
    Receivable Sample.receivingContext Sample.origin
      (Escrow.hashIntent Escrow.Sample.deployment Sample.lateIntent) (ascii "native")
      Sample.lateReceiving ∧
    ¬ Registers Sample.receivingContext Sample.origin
      (Escrow.encodeFillInstruction Escrow.Sample.deployment
        (Escrow.hashIntent Escrow.Sample.deployment Sample.lateIntent) Sample.lateIntent
        Escrow.Sample.solver)
      (Escrow.hashIntent Escrow.Sample.deployment Sample.lateIntent) Sample.lateReceiving := by
  refine ⟨by decide +kernel, by decide +kernel, rfl, (Sample.receivable _).at _, ?_⟩
  apply not_registers_of_refused
  decide +kernel

end Perihelion.Bridge

import Perihelion.Sdk.Validate
import Perihelion.Mempool.Server
import Perihelion.SolverNode.Inventory

/-! # Profitability

`evaluate` decides whether to fill an intent.  Prices, fees and balances are asked of what the
operator has wired in; a quote holds the answers.
-/

namespace Perihelion.SolverNode

open Sdk Fallible
open Relayer (toLowerCase)

structure SolverConfig where
  solverAddress : JsString
  sourceChainId : Int
  escrowAddress : JsString
  minMarginBps : Int
  maxPlausibleProfitBps : Option Int
  maxImplausibleProfitTriggers : Option Nat
  sourceNativeFeeFloor : Int
  stellarNativeFeeFloor : Int
  supportedDestAssets : List JsString
  verificationCacheSize : Option Nat
  seenCacheSize : Option Nat
  retryCacheSize : Option Nat

/-- A native balance that is observable, and the estimate of what a fill needs of it where there
    is an estimator. -/
structure NativeBalance where
  balance : Int
  need : Option Int

/-- What the injected dependencies answer; an `error` is what they throw. -/
structure Quote where
  srcDecimals : Except JsString Int
  dstDecimals : Except JsString Int
  rate : Except JsString Int
  fees : Except JsString Int
  /-- `inventory.availableBalance(intent.destAsset)`. -/
  available : Except JsString Int
  nativeSource : Option (Except JsString NativeBalance)
  nativeDest : Option (Except JsString NativeBalance)

/-- `10^18`. -/
def rateScale : Int := 1000000000000000000

def computeProceeds (intent : Intent) (quote : Quote) : Except JsString Int := do
  let srcDecimals ← quote.srcDecimals
  let dstDecimals ← quote.dstDecimals
  let rate ← quote.rate
  require (0 < rate) (js "[Perihelion] price oracle returned non-positive rate")
  let scaleDiff := dstDecimals - srcDecimals
  let numerator := (bigInt intent.sourceAmount : Int) * rate
  return if 0 ≤ scaleDiff then (numerator * 10 ^ scaleDiff.toNat).tdiv rateScale
    else numerator.tdiv (rateScale * 10 ^ (-scaleDiff).toNat)

inductive SkipCode where
  | wrongChain
  | expired
  | unsupportedAsset
  | reserved
  | pricingError
  | belowMargin
  | implausibleProfit
  | insufficientInventory
  | insufficientNativeBalance
  deriving DecidableEq

structure FillDecision where
  fill : Bool
  reason : List Piece
  code : Option SkipCode
  terminal : Bool
  profitBps : Option Int
  estimatedProfitSmallestUnits : Option Int
  estimatedFeeSmallestUnits : Option Int
  nativeShortfall : Bool
  implausibleProfit : Bool

def skip (code : SkipCode) (reason : List Piece) (terminal : Bool) (profitBps : Option Int) :
    FillDecision where
  fill := false
  reason := reason
  code := some code
  terminal := terminal
  profitBps := profitBps
  estimatedProfitSmallestUnits := none
  estimatedFeeSmallestUnits := none
  nativeShortfall := false
  implausibleProfit := false

/-- `isAddressEqual` compares without regard to case, and throws only for a malformed address. -/
def isSolverEligible (viem : Viem) (preferredSolver solverAddress : JsString) : Bool :=
  viem.isAddress preferredSolver &&
    (toLowerCase preferredSolver = toLowerCase zeroAddress ||
      toLowerCase preferredSolver = toLowerCase solverAddress)

/-- 1 800 s of dispatch window and 120 s of margin. -/
def minFillHeadroomSecs : Int := 1920

/-- The verdicts that no later tick can change. -/
def terminalSkip (viem : Viem) (intent : Intent) (config : SolverConfig) (nowSec : Int) :
    Option FillDecision :=
  if intent.sourceChainId.asInteger ≠ some config.sourceChainId then
    some (skip .wrongChain [.text "wrong chain ", .number intent.sourceChainId,
      .text " (solver is on ", .integer config.sourceChainId, .text ")"] true none)
  else if isExpired intent nowSec 0 then
    some (skip .expired [.text "intent expired"] true none)
  else if isExpired intent nowSec (-minFillHeadroomSecs) then
    some (skip .expired [.text "insufficient deadline headroom: ",
      .integer ((intent.deadline.asInteger.getD 0) - nowSec), .text "s remaining, need >",
      .integer minFillHeadroomSecs, .text "s"] true none)
  else if intent.destAsset ∉ config.supportedDestAssets then
    some (skip .unsupportedAsset [.text "unsupported dest asset ", .string intent.destAsset] true none)
  else if ¬ isSolverEligible viem intent.preferredSolver config.solverAddress then
    some (skip .reserved [.text "reserved for another solver"] true none)
  else none

/-- One side of the native balance check. -/
def nativeCheck (balance : Option (Except JsString NativeBalance)) (floor : Int) (reason : String) :
    Except JsString (Option FillDecision) :=
  match balance with
  | none => .ok none
  | some answer => do
      let native ← answer
      return if native.balance < native.need.getD floor then
          some { skip .insufficientNativeBalance [.text reason] false none with nativeShortfall := true }
        else none

/-- From the profit on; it throws where the inventory or a native balance cannot be read. -/
def profitCheck (intent : Intent) (config : SolverConfig) (quote : Quote) (proceeds fees : Int)
    (reservedFor : Int) : Except JsString FillDecision :=
  let minOut : Int := bigInt intent.minDestAmount
  let profit := proceeds - minOut - fees
  if proceeds < minOut then
    .ok (skip .belowMargin [.text "cannot meet minDestAmount"] false none)
  else if profit ≤ 0 then
    .ok (skip .belowMargin [.text "fee-inclusive profit is non-positive"] false none)
  else
    let profitBpsScaled := (profit * 1000000).tdiv proceeds
    let profitBps := profitBpsScaled.tdiv 100
    let maxPlausibleBps := config.maxPlausibleProfitBps.getD 1000
    if profitBpsScaled < config.minMarginBps * 100 then
      .ok (skip .belowMargin [.text "margin ", .integer profitBps, .text "bps below minimum ",
        .integer config.minMarginBps, .text "bps"] false (some profitBps))
    else if maxPlausibleBps < profitBps then
      .ok { skip .implausibleProfit [.text "implausible profit ", .integer profitBps,
              .text "bps exceeds sanity bound ", .integer maxPlausibleBps,
              .text "bps — check decimals/pricing config"] false (some profitBps)
            with implausibleProfit := true }
    else do
      let available ← quote.available
      if available - reservedFor < minOut then
        return skip .insufficientInventory [.text "insufficient inventory"] false none
      if let some decision ← nativeCheck quote.nativeSource config.sourceNativeFeeFloor
          "insufficient native balance on source chain (gas + LayerZero fee)" then
        return decision
      if let some decision ← nativeCheck quote.nativeDest config.stellarNativeFeeFloor
          "insufficient native XLM on Stellar (delivery + confirmation fees)" then
        return decision
      return {
        fill := true
        reason := [.text "profitable"]
        code := none
        terminal := false
        profitBps := some profitBps
        estimatedProfitSmallestUnits := some profit
        estimatedFeeSmallestUnits := some fees
        nativeShortfall := false
        implausibleProfit := false }

def evaluate (viem : Viem) (intent : Intent) (config : SolverConfig) (quote : Quote)
    (inFlight : InFlightTracker) (nowSec : Int) : Except JsString FillDecision :=
  match terminalSkip viem intent config nowSec with
  | some decision => .ok decision
  | none =>
      match (do
        let proceeds ← computeProceeds intent quote
        let fees ← quote.fees
        return (proceeds, fees) : Except JsString (Int × Int)) with
      | .error err =>
          .ok (skip .pricingError [.text "pricing error: ", .string err] false none)
      | .ok (proceeds, fees) =>
          profitCheck intent config quote proceeds fees (inFlight.reservedFor intent.destAsset)

end Perihelion.SolverNode

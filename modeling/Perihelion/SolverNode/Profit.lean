import Perihelion.Lib.ScaledFloor
import Perihelion.Mempool.StoreIndex
import Perihelion.SolverNode.Quote

/-! # When a fill pays

With prices, fees and balances at hand `evaluate` is a system of inequalities over the exact
rationals: none of its roundings changes the verdict, and none of its divisions is by zero.
-/

namespace Perihelion.SolverNode

open Sdk Fallible ScaledFloor

/-- What `Date.now()` can return. -/
structure TimeValue where
  ms : Int
  valid : ms.natAbs ≤ 8640000000000000

/-- `Math.floor(Date.now() / 1000)`. -/
def TimeValue.seconds (now : TimeValue) : Int := now.ms / 1000

structure PositiveAmounts (intent : Intent) : Prop where
  sourceAmount : isPositiveIntString intent.sourceAmount = true
  minDestAmount : isPositiveIntString intent.minDestAmount = true

/-- No dependency throws, and prices and fees make sense. -/
structure Quote.Answered (quote : Quote) (srcDecimals dstDecimals rate fees available : Int) : Prop
    where
  rate_pos : 0 < rate
  fees_nonneg : 0 ≤ fees
  srcDecimals : quote.srcDecimals = .ok srcDecimals
  dstDecimals : quote.dstDecimals = .ok dstDecimals
  rate : quote.rate = .ok rate
  fees : quote.fees = .ok fees
  available : quote.available = .ok available
  nativeSource : ∀ e, quote.nativeSource ≠ some (.error e)
  nativeDest : ∀ e, quote.nativeDest ≠ some (.error e)

/-- Where a native balance is observable, it covers the estimate, or the floor without one. -/
def NativeCovered (balance : Option (Except JsString NativeBalance)) (floor : Int) : Prop :=
  ∀ native, balance = some (.ok native) → native.need.getD floor ≤ native.balance

/-- `floor(sourceAmount * rate * 10^(dst - src) / 10^18)`. -/
noncomputable def proceeds (intent : Intent) (srcDecimals dstDecimals rate : Int) : Int :=
  ⌊((bigInt intent.sourceAmount : Int) * rate : ℚ) * 10 ^ (dstDecimals - srcDecimals) / 10 ^ 18⌋

/-- The inequalities of a profitable fill, `p` being its proceeds. -/
structure Pays (config : SolverConfig) (minOut p fees : Int) : Prop where
  enough : minOut ≤ p
  positive : 0 < p - minOut - fees
  margin : config.minMarginBps * p ≤ (p - minOut - fees) * 10 ^ 4
  credible : ⌊((p - minOut - fees : Int) : ℚ) * 10 ^ 4 / p⌋ ≤ config.maxPlausibleProfitBps.getD 1000

structure Fillable (viem : Viem) (intent : Intent) (deadline : Int) (config : SolverConfig)
    (quote : Quote) (inFlight : InFlightTracker) (now srcDecimals dstDecimals rate fees available : Int) :
    Prop where
  chain : intent.sourceChainId.asInteger = some config.sourceChainId
  headroom : now + minFillHeadroomSecs < deadline
  supported : intent.destAsset ∈ config.supportedDestAssets
  eligible : isSolverEligible viem intent.preferredSolver config.solverAddress = true
  pays : Pays config (bigInt intent.minDestAmount) (proceeds intent srcDecimals dstDecimals rate) fees
  inventory : (bigInt intent.minDestAmount : Int) ≤ available - inFlight.reservedFor intent.destAsset
  source : NativeCovered quote.nativeSource config.sourceNativeFeeFloor
  dest : NativeCovered quote.nativeDest config.stellarNativeFeeFloor

/-! ## The terminal checks -/

theorem addDouble_eq {a b : Int} (small : (a + b).natAbs ≤ 2 ^ 53) : addDouble a b = a + b := by
  unfold addDouble
  rw [nearestDouble_small small]
  exact Int.sign_mul_natAbs (a + b)

theorem isExpired_iff {intent : Intent} {deadline now skew : Int}
    (whole : intent.deadline.asInteger = some deadline) (small : (now + -skew).natAbs ≤ 2 ^ 53) :
    isExpired intent now skew = true ↔ deadline ≤ now - skew := by
  unfold isExpired
  rw [whole, addDouble_eq small]
  simp [Int.sub_eq_add_neg]

theorem terminalSkip_fill {viem : Viem} {intent : Intent} {config : SolverConfig} {nowSec : Int}
    {decision : FillDecision} (skipped : terminalSkip viem intent config nowSec = some decision) :
    decision.fill = false := by
  unfold terminalSkip at skipped
  split_ifs at skipped <;> cases skipped <;> rfl

/-- No skip is terminal for an intent on this chain with time enough, that the solver may fill. -/
theorem terminalSkip_none_iff {viem : Viem} {intent : Intent} {config : SolverConfig} {deadline : Int}
    (whole : intent.deadline.asInteger = some deadline) (now : TimeValue) :
    terminalSkip viem intent config now.seconds = none ↔
      intent.sourceChainId.asInteger = some config.sourceChainId ∧
      now.seconds + minFillHeadroomSecs < deadline ∧ intent.destAsset ∈ config.supportedDestAssets ∧
      isSolverEligible viem intent.preferredSolver config.solverAddress = true := by
  have valid := now.valid
  have seconds : now.seconds.natAbs ≤ 8640000000001 := by
    unfold TimeValue.seconds
    omega
  have atOnce := @isExpired_iff intent deadline now.seconds 0 whole (by omega)
  have soon := @isExpired_iff intent deadline now.seconds (-minFillHeadroomSecs) whole
    (by unfold minFillHeadroomSecs; omega)
  have margin : (0 : Int) ≤ minFillHeadroomSecs := by decide
  unfold terminalSkip
  by_cases chain : intent.sourceChainId.asInteger = some config.sourceChainId
  · by_cases expired : isExpired intent now.seconds 0 = true
    · have past := atOnce.mp expired
      simp [chain, expired]
      omega
    · by_cases late : isExpired intent now.seconds (-minFillHeadroomSecs) = true
      · have past := soon.mp late
        simp [chain, expired, late]
        omega
      · have early : now.seconds + minFillHeadroomSecs < deadline := by
          rw [soon] at late
          omega
        by_cases supported : intent.destAsset ∈ config.supportedDestAssets
        · by_cases eligible : isSolverEligible viem intent.preferredSolver config.solverAddress = true
          · simp [chain, expired, late, supported, eligible, early]
          · simp [chain, expired, late, supported, eligible]
        · simp [chain, expired, late, supported]
  · simp [chain]

/-! ## The price -/

theorem computeProceeds_answered {intent : Intent} {quote : Quote}
    {srcDecimals dstDecimals rate fees available : Int}
    (answered : quote.Answered srcDecimals dstDecimals rate fees available) :
    computeProceeds intent quote = .ok (proceeds intent srcDecimals dstDecimals rate) := by
  have positive := answered.rate_pos
  have nonneg : 0 ≤ (bigInt intent.sourceAmount : Int) * rate :=
    Int.mul_nonneg (Int.natCast_nonneg _) (Int.le_of_lt positive)
  have exactly := @rescale_eq 10 (by decide) rateScale (by decide)
    ((bigInt intent.sourceAmount : Int) * rate) (dstDecimals - srcDecimals)
  simp only [computeProceeds, answered.srcDecimals, answered.dstDecimals, answered.rate, bind_ok,
    require_ok, pure_ok, Except.ok.injEq, exists_eq_left', exists_const, positive, true_and]
  rw [Int.tdiv_eq_ediv_of_nonneg (Int.mul_nonneg nonneg (by positivity)),
    Int.tdiv_eq_ediv_of_nonneg nonneg]
  calc rescale 10 rateScale ((bigInt intent.sourceAmount : Int) * rate) (dstDecimals - srcDecimals)
      = _ := exactly
    _ = proceeds intent srcDecimals dstDecimals rate := by
        unfold proceeds rateScale
        push_cast
        norm_num

/-! ## The profit -/

/-- What `Pays` says of the two quotients that the code compares. -/
theorem pays_iff {config : SolverConfig} {minOut p fees : Int} (asked : 0 < minOut) :
    Pays config minOut p fees ↔ ¬ p < minOut ∧ ¬ p - minOut - fees ≤ 0 ∧
      ¬ ((p - minOut - fees) * 1000000).tdiv p < config.minMarginBps * 100 ∧
      ¬ config.maxPlausibleProfitBps.getD 1000 <
        (((p - minOut - fees) * 1000000).tdiv p).tdiv 100 := by
  by_cases enough : p < minOut
  · constructor
    · intro pays
      exact absurd pays.enough (by omega)
    · intro given
      exact absurd enough given.1
  by_cases losing : p - minOut - fees ≤ 0
  · constructor
    · intro pays
      exact absurd pays.positive (by omega)
    · intro given
      exact absurd losing given.2.1
  have positive : 0 < p := by omega
  have gain : 0 ≤ (p - minOut - fees) * 1000000 := by omega
  have fine : ((p - minOut - fees) * 1000000).tdiv p = (p - minOut - fees) * (10 ^ 4 * 100) / p :=
    Int.tdiv_eq_ediv_of_nonneg gain
  have coarse : (((p - minOut - fees) * 1000000).tdiv p).tdiv 100 =
      ⌊((p - minOut - fees : Int) : ℚ) * 10 ^ 4 / p⌋ := by
    have same := @fine_ediv (p - minOut - fees) p (10 ^ 4) 100 positive (by decide)
    rw [fine, Int.tdiv_eq_ediv_of_nonneg (Int.ediv_nonneg (by omega) (by omega)), same]
    push_cast
    rfl
  rw [coarse, fine, fine_lt_iff positive (by decide)]
  constructor
  · intro pays
    have margin := pays.margin
    have credible := pays.credible
    exact ⟨enough, losing, by omega, by omega⟩
  · rintro ⟨-, -, margin, credible⟩
    exact ⟨by omega, by omega, by omega, by omega⟩

theorem nativeCheck_answered {balance : Option (Except JsString NativeBalance)} (floor : Int)
    (reason : String) (answered : ∀ e, balance ≠ some (.error e)) :
    NativeCovered balance floor ∧ nativeCheck balance floor reason = .ok none ∨
      ¬ NativeCovered balance floor ∧ ∃ decision, decision.fill = false ∧
        nativeCheck balance floor reason = .ok (some decision) := by
  cases balance with
  | none => exact Or.inl ⟨nofun, rfl⟩
  | some answer =>
      cases answer with
      | error e => exact absurd rfl (answered e)
      | ok native =>
          by_cases short : native.balance < native.need.getD floor
          · refine Or.inr ⟨?_, { skip .insufficientNativeBalance [.text reason] false none with
              nativeShortfall := true }, rfl, ?_⟩
            · intro covered
              exact absurd (covered native rfl) (by omega)
            · simp only [nativeCheck, bind_ok, pure_ok]
              exact ⟨native, rfl, if_pos short⟩
          · refine Or.inl ⟨?_, ?_⟩
            · rintro _ ⟨⟩
              omega
            · simp only [nativeCheck, bind_ok, pure_ok]
              exact ⟨native, rfl, if_neg short⟩

theorem profitCheck_answered {intent : Intent} {config : SolverConfig} {quote : Quote}
    {srcDecimals dstDecimals rate fees available p reservedFor : Int}
    (answered : quote.Answered srcDecimals dstDecimals rate fees available)
    (asked : 0 < bigInt intent.minDestAmount) :
    ∃ decision, profitCheck intent config quote p fees reservedFor = .ok decision ∧
      (decision.fill = true ↔ Pays config (bigInt intent.minDestAmount) p fees ∧
        (bigInt intent.minDestAmount : Int) ≤ available - reservedFor ∧
        NativeCovered quote.nativeSource config.sourceNativeFeeFloor ∧
        NativeCovered quote.nativeDest config.stellarNativeFeeFloor) := by
  rw [pays_iff (by omega)]
  unfold profitCheck
  extract_lets minOut profit profitBpsScaled profitBps maxPlausibleBps
  split
  · rename_i short
    exact ⟨_, rfl, iff_of_false Bool.false_ne_true fun given => given.1.1 short⟩
  · split
    · rename_i losing
      exact ⟨_, rfl, iff_of_false Bool.false_ne_true fun given => given.1.2.1 losing⟩
    · split
      · rename_i thin
        exact ⟨_, rfl, iff_of_false Bool.false_ne_true fun given => given.1.2.2.1 thin⟩
      · split
        · rename_i implausible
          exact ⟨_, rfl, iff_of_false Bool.false_ne_true fun given => given.1.2.2.2 implausible⟩
        · rename_i enough profitable margin credible
          have pays := And.intro enough (And.intro profitable (And.intro margin credible))
          rw [answered.available]
          by_cases short : available - reservedFor < minOut
          · refine ⟨_, if_pos short, iff_of_false Bool.false_ne_true fun given => ?_⟩
            exact absurd given.2.1 (Int.not_le.mpr short)
          · have stocked : minOut ≤ available - reservedFor := Int.not_lt.mp short
            rcases nativeCheck_answered config.sourceNativeFeeFloor
              "insufficient native balance on source chain (gas + LayerZero fee)"
              answered.nativeSource with ⟨source, sourceOk⟩ | ⟨dry, decision, skipped, sourceOk⟩
            · rcases nativeCheck_answered config.stellarNativeFeeFloor
                "insufficient native XLM on Stellar (delivery + confirmation fees)"
                answered.nativeDest with ⟨dest, destOk⟩ | ⟨dry, decision, skipped, destOk⟩
              · refine ⟨{
                  fill := true
                  reason := [.text "profitable"]
                  code := none
                  terminal := false
                  profitBps := some profitBps
                  estimatedProfitSmallestUnits := some profit
                  estimatedFeeSmallestUnits := some fees
                  nativeShortfall := false
                  implausibleProfit := false }, ?_, iff_of_true rfl ⟨pays, stocked, source, dest⟩⟩
                exact (if_neg short).trans ((bind_of_ok sourceOk _).trans (bind_of_ok destOk _))
              · refine ⟨decision, ?_, iff_of_false (by simp [skipped]) fun given => dry given.2.2.2⟩
                exact (if_neg short).trans ((bind_of_ok sourceOk _).trans (bind_of_ok destOk _))
            · refine ⟨decision, ?_, iff_of_false (by simp [skipped]) fun given => dry given.2.2.1⟩
              exact (if_neg short).trans (bind_of_ok sourceOk _)

/-! ## The divisions -/

/-- `a / b` of two `BigInt`s, which throws for a zero divisor. -/
def divide (a b : Int) : Except JsString Int :=
  if b = 0 then .error (js "RangeError: Division by zero") else .ok (a.tdiv b)

theorem divide_of_pos {a b : Int} (positive : 0 < b) : divide a b = .ok (a.tdiv b) :=
  if_neg (Int.ne_of_gt positive)

/-- `computeProceeds` with the division of the language. -/
def computeProceedsDividing (intent : Intent) (quote : Quote) : Except JsString Int := do
  let srcDecimals ← quote.srcDecimals
  let dstDecimals ← quote.dstDecimals
  let rate ← quote.rate
  require (0 < rate) (js "[Perihelion] price oracle returned non-positive rate")
  let scaleDiff := dstDecimals - srcDecimals
  let numerator := (bigInt intent.sourceAmount : Int) * rate
  if 0 ≤ scaleDiff then divide (numerator * 10 ^ scaleDiff.toNat) rateScale
  else divide numerator (rateScale * 10 ^ (-scaleDiff).toNat)

/-- The divisions of `profitCheck`, where it gets that far. -/
def profitDivisions (minOut p fees : Int) : Except JsString Unit :=
  if p < minOut then .ok ()
  else if p - minOut - fees ≤ 0 then .ok ()
  else do
    let profitBpsScaled ← divide ((p - minOut - fees) * 1000000) p
    let _ ← divide profitBpsScaled 100
    return ()

/-- `evaluate`, but throwing where it divides by zero. -/
def evaluateDividing (viem : Viem) (intent : Intent) (config : SolverConfig) (quote : Quote)
    (inFlight : InFlightTracker) (nowSec : Int) : Except JsString FillDecision :=
  match terminalSkip viem intent config nowSec with
  | some decision => .ok decision
  | none =>
      match (do
        let proceeds ← computeProceedsDividing intent quote
        let fees ← quote.fees
        return (proceeds, fees) : Except JsString (Int × Int)) with
      | .error err =>
          .ok (skip .pricingError [.text "pricing error: ", .string err] false none)
      | .ok (proceeds, fees) => do
          profitDivisions (bigInt intent.minDestAmount) proceeds fees
          profitCheck intent config quote proceeds fees (inFlight.reservedFor intent.destAsset)

theorem computeProceedsDividing_eq (intent : Intent) (quote : Quote) :
    computeProceedsDividing intent quote = computeProceeds intent quote := by
  have scale : 0 < rateScale := by decide
  have scales (k : Nat) : 0 < rateScale * 10 ^ k := Int.mul_pos scale (by positivity)
  unfold computeProceedsDividing computeProceeds
  simp only [divide_of_pos scale, divide_of_pos (scales _)]
  congr! 7
  split
  · rfl
  · rfl

theorem profitDivisions_ok {minOut p fees : Int} (asked : 0 < minOut) :
    profitDivisions minOut p fees = .ok () := by
  unfold profitDivisions
  split
  · rfl
  · split
    · rfl
    · rw [divide_of_pos (show 0 < p by omega)]
      rfl

/-- Nothing is divided by zero. -/
theorem evaluateDividing_eq {viem : Viem} {intent : Intent} {config : SolverConfig} {quote : Quote}
    {inFlight : InFlightTracker} {nowSec : Int} (asked : 0 < bigInt intent.minDestAmount) :
    evaluateDividing viem intent config quote inFlight nowSec =
      evaluate viem intent config quote inFlight nowSec := by
  unfold evaluateDividing evaluate
  rw [computeProceedsDividing_eq]
  cases terminalSkip viem intent config nowSec with
  | some decision => rfl
  | none =>
      generalize (do
        let proceeds ← computeProceeds intent quote
        let fees ← quote.fees
        return (proceeds, fees) : Except JsString (Int × Int)) = priced
      cases priced with
      | error err => rfl
      | ok answer => exact bind_of_ok (profitDivisions_ok (by omega)) _

/-- With positive amounts and sensible answers `evaluate` decides to fill exactly the intents
    that satisfy the inequalities, and its divisions all succeed. -/
theorem evaluate_fill_iff {viem : Viem} {intent : Intent} {config : SolverConfig} {quote : Quote}
    {inFlight : InFlightTracker} {deadline srcDecimals dstDecimals rate fees available : Int}
    (amounts : PositiveAmounts intent) (whole : intent.deadline.asInteger = some deadline)
    (answered : quote.Answered srcDecimals dstDecimals rate fees available) (now : TimeValue) :
    (∃ decision, evaluate viem intent config quote inFlight now.seconds = .ok decision ∧
      (decision.fill = true ↔ Fillable viem intent deadline config quote inFlight now.seconds
        srcDecimals dstDecimals rate fees available)) ∧
    evaluateDividing viem intent config quote inFlight now.seconds =
      evaluate viem intent config quote inFlight now.seconds := by
  have asked := bigInt_pos amounts.minDestAmount
  refine ⟨?_, evaluateDividing_eq asked⟩
  have clear := @terminalSkip_none_iff viem intent config deadline whole now
  cases skipped : terminalSkip viem intent config now.seconds with
  | some decision =>
      refine ⟨decision, by simp only [evaluate, skipped], ?_⟩
      rw [terminalSkip_fill skipped]
      apply iff_of_false Bool.false_ne_true
      intro given
      rw [clear.mpr ⟨given.chain, given.headroom, given.supported, given.eligible⟩] at skipped
      cases skipped
  | none =>
      obtain ⟨chain, headroom, supported, eligible⟩ := clear.mp skipped
      obtain ⟨decision, decided, fills⟩ := @profitCheck_answered intent config quote srcDecimals
        dstDecimals rate fees available (proceeds intent srcDecimals dstDecimals rate)
        (inFlight.reservedFor intent.destAsset) answered asked
      refine ⟨decision, ?_, fills.trans ?_⟩
      · simp only [evaluate, skipped, computeProceeds_answered answered, answered.fees]
        exact decided
      · constructor
        · rintro ⟨pays, inventory, source, dest⟩
          exact ⟨chain, headroom, supported, eligible, pays, inventory, source, dest⟩
        · intro given
          exact ⟨given.pays, given.inventory, given.source, given.dest⟩

namespace Sample

def config : SolverConfig where
  solverAddress := js "0x000000000000000000000000000000000000501e"
  sourceChainId := 1
  escrowAddress := js "0x000000000000000000000000000000000000e5c0"
  minMarginBps := 15
  maxPlausibleProfitBps := none
  maxImplausibleProfitTriggers := none
  sourceNativeFeeFloor := 0
  stellarNativeFeeFloor := 0
  supportedDestAssets := [js "native"]
  verificationCacheSize := none
  seenCacheSize := none
  retryCacheSize := none

theorem deadline_small : 1700010000 ≤ 2 ^ 53 := by decide

def deadline : JsNumber :=
  .integer ⟨(1700010000 : Nat), natAbs_lt_of_small deadline_small, nearestDouble_natAbs deadline_small⟩

def intent (nonce : String) : Intent :=
  { Mempool.IntentStore.Sample.intent with deadline := deadline, nonce := js nonce }

/-- 100 units for 90, of seven decimals both, at par and without fees. -/
def quote : Quote := ⟨.ok 7, .ok 7, .ok rateScale, .ok 0, .ok 150, none, none⟩

theorem amounts : PositiveAmounts (intent "7") := ⟨by decide, by decide⟩

theorem answered : quote.Answered 7 7 rateScale 0 150 where
  rate_pos := by decide
  fees_nonneg := Int.le_refl 0
  srcDecimals := rfl
  dstDecimals := rfl
  rate := rfl
  fees := rfl
  available := rfl
  nativeSource := nofun
  nativeDest := nofun

def now : TimeValue := ⟨1700000000000, by decide⟩

def viem : Viem := ⟨fun s => s.length = 42 && s.take 2 = js "0x", fun _ => 0⟩

end Sample

/-- Ten units of profit on a hundred are a thousand basis points, just plausible. -/
theorem evaluate_fill_sample :
    Fillable Sample.viem (Sample.intent "7") 1700010000 Sample.config Sample.quote .new 1700000000 7 7
      rateScale 0 150 := by
  obtain ⟨⟨decision, decided, fills⟩, -⟩ := @evaluate_fill_iff Sample.viem (Sample.intent "7")
    Sample.config Sample.quote .new 1700010000 7 7 rateScale 0 150 Sample.amounts rfl Sample.answered
    Sample.now
  have evaluated : (evaluate Sample.viem (Sample.intent "7") Sample.config Sample.quote .new
      1700000000).toOption.map FillDecision.fill = some true := by
    decide +kernel
  have same : evaluate Sample.viem (Sample.intent "7") Sample.config Sample.quote .new 1700000000 =
      .ok decision := decided
  rw [same] at evaluated
  exact fills.mp (Option.some.inj evaluated)

end Perihelion.SolverNode

import Perihelion.Escrow.Controls
import Perihelion.Lib.CapWindow

/-! # One asset's cap and the calls about another

The bucket and the cap of an asset are its own.  The duration of the windows is not: the
setter of any asset's cap writes it for all of them, and with it which bucket the check of
every asset reads, and whether it reads one at all.
-/

namespace Perihelion.Escrow

open BigEndian Fallible Transition RollingWindow CapWindow

/-- What `_checkValueCaps(amount, asset)` answers at `now`: a reverted call, a lock let through, or
    `false`, which trips the breaker. -/
def capOutcome (asset : Address) (amount now : Nat) (w : World) : Except Revert Bool :=
  (checkValueCaps amount asset { w with timestamp := now }).map Prod.snd

/-- All that the check reads. -/
structure Gauge where
  maxAmount : Nat
  cap : Nat
  duration : Nat
  triggered : Bool
  latest : Nat
  buckets : Nat → Nat

def World.gauge (w : World) (asset : Address) : Gauge where
  maxAmount := w.maxIntentAmountPerAsset asset
  cap := w.rollingWindowCapPerAsset asset
  duration := w.rollingWindowDuration
  triggered := w.rollingWindowTriggered
  latest := w.latestWindowStart asset
  buckets := w.rollingWindowBuckets asset

namespace Gauge

def bucket (g : Gauge) (now : Nat) : Nat :=
  if g.latest < start g.duration now then 0 else g.buckets (start g.duration now)

def outcome (g : Gauge) (amount now : Nat) : Except Revert Bool :=
  if g.maxAmount = 0 then .error .assetCapNotConfigured
  else if g.maxAmount < amount then .error .exceedsMaxIntentAmount
  else if g.triggered then .error .rollingWindowCapAlreadyTriggered
  else if g.duration = 0 ∨ g.cap = 0 then .ok true
  else if uint256 ≤ g.bucket now + amount then .error .panic
  else if g.bucket now + amount ≤ g.cap then .ok true
  else if uint256 ≤ now + g.duration then .error .panic
  else .ok false

theorem outcome_unconfigured {g : Gauge} (unconfigured : g.maxAmount = 0) (amount now : Nat) :
    g.outcome amount now = .error .assetCapNotConfigured := if_pos unconfigured

theorem outcome_above {g : Gauge} {amount : Nat} (configured : g.maxAmount ≠ 0)
    (above : g.maxAmount < amount) (now : Nat) :
    g.outcome amount now = .error .exceedsMaxIntentAmount := by
  unfold outcome
  rw [if_neg configured, if_pos above]

theorem outcome_uncapped {g : Gauge} (uncapped : g.cap = 0) (amount now : Nat) :
    g.outcome amount now =
      if g.maxAmount = 0 then .error .assetCapNotConfigured
      else if g.maxAmount < amount then .error .exceedsMaxIntentAmount
      else if g.triggered then .error .rollingWindowCapAlreadyTriggered
      else .ok true := by
  unfold outcome
  rw [if_pos (Or.inr uncapped)]

end Gauge

theorem capOutcome_gauge (asset : Address) (amount now : Nat) (w : World) :
    capOutcome asset amount now w = (w.gauge asset).outcome amount now := by
  have bucket : currentBucket { w with timestamp := now } asset = (w.gauge asset).bucket now := rfl
  have enabled : rollingCapEnabled { w with timestamp := now } asset ↔
      ¬ (w.rollingWindowDuration = 0 ∨ w.rollingWindowCapPerAsset asset = 0) := by
    show 0 < w.rollingWindowDuration ∧ 0 < w.rollingWindowCapPerAsset asset ↔ _
    omega
  unfold capOutcome checkValueCaps Gauge.outcome
  show _ = if w.maxIntentAmountPerAsset asset = 0 then _
    else if w.maxIntentAmountPerAsset asset < amount then _
    else if w.rollingWindowTriggered then _
    else if w.rollingWindowDuration = 0 ∨ w.rollingWindowCapPerAsset asset = 0 then _
    else if uint256 ≤ (w.gauge asset).bucket now + amount then _
    else if (w.gauge asset).bucket now + amount ≤ w.rollingWindowCapPerAsset asset then _
    else if uint256 ≤ now + w.rollingWindowDuration then _
    else _
  -- Both sides fail or go on at the same checks.
  by_cases configured : w.maxIntentAmountPerAsset asset = 0
  · rw [bind_of_error ((require_error _ _ _).mpr ⟨not_not.mpr configured, rfl⟩), if_pos configured]
    rfl
  by_cases most : amount ≤ w.maxIntentAmountPerAsset asset
  case neg =>
    rw [bind_of_ok ((require_ok _ _ ()).mpr configured),
      bind_of_error ((require_error _ _ _).mpr ⟨most, rfl⟩), if_neg configured,
      if_pos (Nat.lt_of_not_le most)]
    rfl
  by_cases latched : w.rollingWindowTriggered
  · rw [bind_of_ok ((require_ok _ _ ()).mpr configured), bind_of_ok ((require_ok _ _ ()).mpr most),
      bind_of_error ((require_error _ _ _).mpr ⟨not_not.mpr latched, rfl⟩), if_neg configured,
      if_neg (Nat.not_lt.mpr most), if_pos latched]
    rfl
  rw [bind_of_ok ((require_ok _ _ ()).mpr configured), bind_of_ok ((require_ok _ _ ()).mpr most),
    bind_of_ok ((require_ok _ _ ()).mpr latched), if_neg configured, if_neg (Nat.not_lt.mpr most),
    if_neg latched]
  by_cases unlimited : w.rollingWindowDuration = 0 ∨ w.rollingWindowCapPerAsset asset = 0
  · rw [if_neg (fun on => enabled.mp on unlimited), if_pos unlimited]
    rfl
  rw [if_pos (enabled.mpr unlimited), if_neg unlimited, bucket]
  by_cases overflows : uint256 ≤ (w.gauge asset).bucket now + amount
  · rw [bind_of_error ((addBelow_error _ _ _ _ _).mpr ⟨overflows, rfl⟩), if_pos overflows]
    rfl
  rw [bind_of_ok ((addBelow_ok _ _ _ _ _).mpr ⟨Nat.lt_of_not_le overflows, rfl⟩), if_neg overflows]
  by_cases within : (w.gauge asset).bucket now + amount ≤ w.rollingWindowCapPerAsset asset
  · rw [if_neg (Nat.not_lt.mpr within), if_pos within]
    rfl
  rw [if_pos (Nat.lt_of_not_le within), if_neg within]
  by_cases late : uint256 ≤ now + w.rollingWindowDuration
  · rw [bind_of_error ((addBelow_error _ _ _ _ _).mpr ⟨late, rfl⟩), if_pos late]
    rfl
  · rw [bind_of_ok ((addBelow_ok _ _ _ _ _).mpr ⟨Nat.lt_of_not_le late, rfl⟩), if_neg late]
    rfl

/-- The answers to every amount and at every time from `since` on are the same. -/
def SameOutcome (asset : Address) (since : Nat) (w w' : World) : Prop :=
  ∀ amount now, since ≤ now → capOutcome asset amount now w = capOutcome asset amount now w'

theorem SameOutcome.of_gauge {asset : Address} {since : Nat} {w w' : World}
    (same : w'.gauge asset = w.gauge asset) : SameOutcome asset since w w' := by
  intro amount now _
  rw [capOutcome_gauge, capOutcome_gauge, same]

/-! ## The windows are those of the clock -/

theorem duration_le {d : Deployment} {w : World} (reach : (system d).Reachable w) :
    w.rollingWindowDuration ≤ w.timestamp := by
  refine reach.invariant (P := fun w => w.rollingWindowDuration ≤ w.timestamp) ?_ ?_
  · intro w given
    obtain ⟨creation, made⟩ := given
    have limits : w.limits = ⟨fun _ => 0, 0, fun _ => 0⟩ := congrArg Prod.snd (construct_settings made)
    have duration : w.rollingWindowDuration = 0 := congrArg Limits.rollingWindowDuration limits
    rw [duration]
    exact Nat.zero_le _
  · intro w input w' _ past stepped
    cases input with
    | tx tx =>
        obtain ⟨later, ran⟩ := next_tx.mp stepped
        rw [exec_timestamp ran]
        rcases (exec_limitMove ran).duration with same | set
        · exact (Nat.le_of_eq same).trans (past.trans later)
        · exact set
    | tokenArrives | nativeArrives =>
        cases stepped
        exact past

/-- What the memory of the windows is bounded by. -/
structure Meter.Sound (m : Meter) : Prop where
  latest_le : ∀ asset, m.latest asset ≤ m.timestamp
  bucket_lt : ∀ asset s, m.buckets asset s < uint256

theorem Meter.Sound.latched {m : Meter} (sound : m.Sound) {now : Nat} (later : m.timestamp ≤ now)
    (triggered : Bool) : Meter.Sound { m with timestamp := now, triggered := triggered } :=
  ⟨fun asset => (sound.latest_le asset).trans later, sound.bucket_lt⟩

theorem Meter.Sound.charge {m : Meter} (sound : m.Sound) (asset : Address) (duration amount : Nat)
    (fits : m.buckets asset (start duration m.timestamp) + amount < uint256) :
    (m.charge asset (start duration m.timestamp) amount).Sound := by
  unfold Meter.charge
  constructor
  · intro other
    by_cases there : other = asset
    · subst there
      simp only [Function.update_self]
      exact Nat.max_le.mpr ⟨sound.latest_le other, Nat.div_mul_le_self _ _⟩
    · simp only [Function.update_of_ne there]
      exact sound.latest_le other
  · intro other s
    by_cases there : other = asset
    · subst there
      by_cases now : s = start duration m.timestamp
      · subst now
        simpa only [Function.update_self] using fits
      · simp only [Function.update_self, Function.update_of_ne now]
        exact sound.bucket_lt other s
    · simp only [Function.update_of_ne there]
      exact sound.bucket_lt other s

/-- The commit adds with a check. -/
theorem commitValueCaps_sound {asset received} {w w' : World} (sound : w.meter.Sound)
    (ran : commitValueCaps asset received w = .ok w') : w'.meter.Sound := by
  rw [commitValueCaps_meter ran]
  unfold commitValueCaps at ran
  split
  · rename_i enabled
    rw [if_pos enabled] at ran
    simp only [bind_ok, addBelow_ok] at ran
    obtain ⟨_, ⟨fits, -⟩, -⟩ := ran
    exact sound.charge asset w.rollingWindowDuration received fits
  · exact sound

theorem exec_sound {d : Deployment} {tx : Tx} {w w' : World} (sound : w.meter.Sound)
    (later : w.timestamp ≤ tx.timestamp) (ran : exec d tx w = .ok w') : w'.meter.Sound := by
  have entered : (w.enter tx).meter.Sound := sound.latched later _
  cases exec_meterMove ran with
  | other unlocking kept => exact kept ▸ entered
  | reset called timestamp latest buckets =>
      constructor
      · intro asset
        show w'.latestWindowStart asset ≤ w'.timestamp
        rw [latest, timestamp]
        exact (sound.latest_le asset).trans later
      · intro asset s
        show w'.rollingWindowBuckets asset s < uint256
        rcases buckets asset s with same | cleared
        · rw [same]
          exact sound.bucket_lt asset s
        · rw [cleared]
          exact Nat.two_pow_pos 256
  | breached intent signature called unlatched balanceOf meter =>
      rw [meter]
      exact entered.latched (Nat.le_refl _) true
  | pulled intent signature received called =>
      have ran := (exec_ok.mp ran).2
      rw [called] at ran
      obtain ⟨v, _, pull, meter, -⟩ := lock_pull ran
      rw [meter]
      rcases pullFunds_cases pull with pulled | ⟨-, -, -, rfl⟩
      · refine commitValueCaps_sound ?_ pulled.committed
        exact entered
      · rw [World.sendBack_meter]
        exact entered.latched (Nat.le_refl _) true

theorem sound_of_reachable {d : Deployment} {w : World} (reach : (system d).Reachable w) :
    w.meter.Sound := by
  refine reach.invariant (P := fun w => w.meter.Sound) ?_ ?_
  · intro w given
    obtain ⟨creation, made⟩ := given
    rw [construct_meter made]
    exact ⟨fun _ => Nat.zero_le _, fun _ _ => Nat.two_pow_pos 256⟩
  · intro w input w' _ sound stepped
    cases input with
    | tx tx =>
        obtain ⟨later, ran⟩ := next_tx.mp stepped
        exact exec_sound sound later ran
    | tokenArrives | nativeArrives =>
        cases stepped
        exact sound

/-! ## Isolation -/

/-- The window of a duration that `since` lies in, holding what the asset's bucket of it holds. -/
def World.windowAt (w : World) (asset : Address) (duration since : Nat) : Window where
  duration := duration
  held := w.rollingWindowBuckets asset (start duration since)
  ends := start duration since + duration

def Verdict.outcome : Verdict → Except Revert Bool
  | .admitted => .ok true
  | .refused => .ok false
  | .overflow => .error .panic

theorem Verdict.outcome_inj {v v' : Verdict} (same : outcome v = outcome v') : v = v' := by
  cases v <;> cases v' <;> first | rfl | cases same

section windows

variable {d : Deployment} {w : World} {asset : Address} {duration since : Nat}

theorem windowAt_current (reach : (system d).Reachable w) (short : duration ≤ since) :
    (w.windowAt asset duration since).Current uint256 since where
  begun on := Nat.lt_div_mul_add on
  ends_le := Nat.add_le_add_right (Nat.div_mul_le_self since duration) duration
  short := short
  held_lt := (sound_of_reachable reach).bucket_lt asset _

/-- From `since` on the check finds the bucket of the window of `since`, then empty ones. -/
theorem bucket_heldAt (reach : (system d).Reachable w) (past : w.timestamp ≤ since) (on : 0 < duration)
    {now : Nat} (later : since ≤ now) :
    Gauge.bucket { w.gauge asset with duration := duration } now =
      (w.windowAt asset duration since).heldAt now := by
  have fresh := fresh_of_reachable reach
  have memo : w.latestWindowStart asset ≤ w.timestamp := (sound_of_reachable reach).latest_le asset
  have read : Gauge.bucket { w.gauge asset with duration := duration } now =
      w.rollingWindowBuckets asset (start duration now) := by
    unfold Gauge.bucket
    split
    · rename_i after
      exact (fresh asset _ after).symm
    · rfl
  rw [read]
  have begun : start duration since ≤ since := Nat.div_mul_le_self since duration
  rcases Nat.lt_or_ge now (start duration since + duration) with inside | after
  · have during : During duration (since / duration) now := by
      refine ⟨begun.trans later, ?_⟩
      rw [Nat.succ_mul]
      exact inside
    rw [Window.heldAt_before inside, during.start]
    rfl
  · rw [Window.heldAt_after after]
    apply fresh asset
    have next : start duration since + duration ≤ start duration now := by
      have quotient : since / duration + 1 ≤ now / duration := by
        rw [Nat.le_div_iff_mul_le on, Nat.succ_mul]
        exact after
      have product := Nat.mul_le_mul_right duration quotient
      rwa [Nat.succ_mul] at product
    have ends : since < start duration since + duration := Nat.lt_div_mul_add on
    show w.latestWindowStart asset < start duration now
    omega

/-- What the check answers under a duration, as the verdict of its window. -/
theorem outcome_verdict (reach : (system d).Reachable w) (past : w.timestamp ≤ since)
    (unlatched : w.rollingWindowTriggered = false)
    (configured : w.maxIntentAmountPerAsset asset ≠ 0)
    (capped : w.rollingWindowCapPerAsset asset ≠ 0) {amount now : Nat}
    (most : amount ≤ w.maxIntentAmountPerAsset asset) (later : since ≤ now) :
    Gauge.outcome { w.gauge asset with duration := duration } amount now =
      Verdict.outcome ((w.windowAt asset duration since).verdict uint256
        (w.rollingWindowCapPerAsset asset) amount now) := by
  unfold Gauge.outcome Window.verdict
  show (if w.maxIntentAmountPerAsset asset = 0 then _
    else if w.maxIntentAmountPerAsset asset < amount then _
    else if w.rollingWindowTriggered = true then _
    else if duration = 0 ∨ w.rollingWindowCapPerAsset asset = 0 then _ else _) =
      Verdict.outcome (if duration = 0 then _ else _)
  rw [if_neg configured, if_neg (Nat.not_lt.mpr most), unlatched, if_neg Bool.false_ne_true]
  rcases Nat.eq_zero_or_pos duration with off | on
  · rw [if_pos (Or.inl off), if_pos off]
    rfl
  · have active : ¬ (duration = 0 ∨ w.rollingWindowCapPerAsset asset = 0) := by omega
    rw [if_neg active, if_neg (Nat.ne_of_gt on), bucket_heldAt reach past on later]
    simp only [apply_ite Verdict.outcome]
    rfl

end windows

/-- A change of the window's duration that the asset's own locks cannot notice. -/
def Undisturbed (asset : Address) (since windowDuration : Nat) (w : World) : Prop :=
  let maxAmount := w.maxIntentAmountPerAsset asset
  let cap := w.rollingWindowCapPerAsset asset
  let current := w.windowAt asset w.rollingWindowDuration since
  let changed := w.windowAt asset windowDuration since
  maxAmount = 0 ∨ cap = 0 ∨ windowDuration = w.rollingWindowDuration ∨
    current.Slack cap maxAmount ∧ changed.Slack cap maxAmount ∨
    current.Twins uint256 cap maxAmount changed

/-- Under another duration every answer stays the same exactly if the asset is `Undisturbed`. -/
theorem undisturbed_iff {d : Deployment} {w : World} {asset : Address} {since windowDuration : Nat}
    (reach : (system d).Reachable w) (unlatched : w.rollingWindowTriggered = false)
    (later : w.timestamp ≤ since) (past : windowDuration ≤ since) (clock : since < uint64)
    (limited : w.maxIntentAmountPerAsset asset < uint256)
    (word : w.rollingWindowCapPerAsset asset < uint256) :
    (∀ amount now, since ≤ now → (w.gauge asset).outcome amount now =
      Gauge.outcome { w.gauge asset with duration := windowDuration } amount now) ↔
    Undisturbed asset since windowDuration w := by
  unfold Undisturbed
  by_cases configured : w.maxIntentAmountPerAsset asset = 0
  · simp only [configured, true_or, iff_true]
    intro amount now _
    rw [Gauge.outcome_unconfigured configured, Gauge.outcome_unconfigured configured]
  by_cases capped : w.rollingWindowCapPerAsset asset = 0
  · simp only [capped, true_or, or_true, iff_true]
    intro amount now _
    rw [Gauge.outcome_uncapped capped, Gauge.outcome_uncapped capped]
  by_cases unchanged : windowDuration = w.rollingWindowDuration
  · subst unchanged
    simp only [true_or, or_true, iff_true]
    intro amount now _
    rfl
  have before := (duration_le reach).trans later
  have far : 3 * since < uint256 := by
    have room : 3 * uint64 < uint256 := by decide
    omega
  have verdict {duration amount now : Nat} (most : amount ≤ w.maxIntentAmountPerAsset asset)
      (after : since ≤ now) :=
    @outcome_verdict d w asset duration _ reach later unlatched configured capped _ _ most after
  simp only [configured, capped, unchanged, false_or]
  rw [← Window.agree_iff word limited (windowAt_current reach before) (windowAt_current reach past)
    far (Ne.symm unchanged)]
  constructor
  · intro given amount most now after
    have current := @verdict w.rollingWindowDuration amount now most after
    have changed := @verdict windowDuration amount now most after
    exact Verdict.outcome_inj (current.symm.trans ((given amount now after).trans changed))
  · intro agree amount now after
    rcases Nat.lt_or_ge (w.maxIntentAmountPerAsset asset) amount with above | most
    · rw [Gauge.outcome_above configured above, Gauge.outcome_above configured above]
    · have current := @verdict w.rollingWindowDuration amount now most after
      have changed := @verdict windowDuration amount now most after
      have answers := congrArg Verdict.outcome (agree amount most now after)
      exact current.trans (answers.trans changed.symm)

/-- The setter writes one cap and the duration of all windows. -/
theorem setRollingWindowCapForAsset_gauge {d : Deployment} {tx : Tx} {w w' : World}
    {asset other : Address} {windowDuration cap : Nat} (different : asset ≠ other)
    (ran : exec d tx w = .ok w') (call : tx.call = .setRollingWindowCapForAsset other windowDuration cap) :
    w'.gauge asset = { w.gauge asset with duration := windowDuration } ∧ windowDuration ≤ tx.timestamp := by
  obtain ⟨-, ran⟩ := exec_ok.mp ran
  rw [call] at ran
  simp only [Call.run, Escrow.setRollingWindowCapForAsset, onlyOwner, bind_ok, require_ok,
    exists_const, pure_ok] at ran
  obtain ⟨-, -, -, past, rfl⟩ := ran
  refine ⟨?_, past⟩
  simp [World.gauge, World.emit, World.log, World.enter, Function.update_of_ne different]

/-- A lock that does not trip the breaker is counted in its own asset's bucket. -/
theorem lock_gauge {d : Deployment} {tx : Tx} {w w' : World} {asset : Address} {intent signature}
    (ran : exec d tx w = .ok w') (call : tx.call = .lock intent signature)
    (different : asset ≠ intent.sourceAsset) (unlatched : w.rollingWindowTriggered = false)
    (untripped : w'.rollingWindowTriggered = false) : w'.gauge asset = w.gauge asset := by
  have limits : w'.limits = w.limits := (exec_limitMove ran).unchanged (by rw [call]; rfl)
  have maxAmount : w'.maxIntentAmountPerAsset = w.maxIntentAmountPerAsset :=
    congrArg Limits.maxIntentAmountPerAsset limits
  have duration : w'.rollingWindowDuration = w.rollingWindowDuration :=
    congrArg Limits.rollingWindowDuration limits
  have cap : w'.rollingWindowCapPerAsset = w.rollingWindowCapPerAsset :=
    congrArg Limits.rollingWindowCapPerAsset limits
  have meter : w'.meter.buckets asset = w.rollingWindowBuckets asset ∧
      w'.meter.latest asset = w.latestWindowStart asset := by
    cases exec_meterMove ran with
    | other unlocking => exact absurd call (unlocking intent signature)
    | reset called =>
        rw [call] at called
        cases called
    | breached _ _ _ _ _ meter =>
        have tripped : w'.rollingWindowTriggered = true := congrArg Meter.triggered meter
        exact absurd (tripped.symm.trans untripped) (by simp)
    | pulled intent' signature' received called _ _ _ _ meter =>
        rw [call] at called
        cases called
        rw [meter]
        split
        · simp only [Meter.charge, Function.update_of_ne different]
          exact ⟨rfl, rfl⟩
        · exact ⟨rfl, rfl⟩
  simp only [World.gauge, maxAmount, duration, cap, unlatched, untripped]
  exact congrArg₂ _ meter.2 meter.1

/-- A lock in another asset changes no answer of the check.  A new cap for another asset changes
    none exactly if the asset is `Undisturbed` by the duration that comes with it. -/
theorem caps_isolated {d : Deployment} {w w' : World} {tx : Tx} {asset other : Address}
    (different : asset ≠ other) (reach : (system d).Reachable w)
    (unlatched : w.rollingWindowTriggered = false) (stepped : next d w (.tx tx) = some w') :
    (∀ windowDuration cap, tx.call = .setRollingWindowCapForAsset other windowDuration cap →
      tx.timestamp < uint64 → w.maxIntentAmountPerAsset asset < uint256 →
      w.rollingWindowCapPerAsset asset < uint256 →
      (SameOutcome asset tx.timestamp w w' ↔ Undisturbed asset tx.timestamp windowDuration w)) ∧
    ∀ intent signature, tx.call = .lock intent signature → intent.sourceAsset = other →
      w'.rollingWindowTriggered = false → SameOutcome asset tx.timestamp w w' := by
  obtain ⟨later, ran⟩ := next_tx.mp stepped
  constructor
  · intro windowDuration cap call clock limited word
    obtain ⟨gauge, past⟩ := setRollingWindowCapForAsset_gauge different ran call
    rw [← undisturbed_iff reach unlatched later past clock limited word]
    unfold SameOutcome
    simp only [capOutcome_gauge, gauge]
  · intro intent signature call source untripped
    exact .of_gauge (lock_gauge ran call (source ▸ different) unlatched untripped)

namespace Sample

def secondToken : Address := 0x70CF

def secondHost : Host := { host with hasCode := fun account => account == secondToken || host.hasCode account }

def adminTx (call : Call) : Tx := ⟨owner, 0, 1700000000, secondHost, call⟩

/-- The second token may be locked up to 1000 at a time and up to 100 a day. -/
def secondCap : List Input := [
  .tx (adminTx (.setAssetAllowed secondToken true)),
  .tx (adminTx (.setMaxIntentAmountPerAsset secondToken 1000)),
  .tx (adminTx (.setRollingWindowCapForAsset secondToken 86400 100))]

def secondCapped : World := (replay deployment ready secondCap).get (by decide +kernel)

def dailyCapTx : Tx := adminTx (.setRollingWindowCapForAsset token 86400 500)

def noCapTx : Tx := adminTx (.setRollingWindowCapForAsset token 0 0)

def bothCapped : World := (next deployment secondCapped (.tx dailyCapTx)).get (by decide +kernel)

def firstLocked : World := (next deployment bothCapped (.tx lockTx)).get (by decide +kernel)

def bothUncapped : World := (next deployment secondCapped (.tx noCapTx)).get (by decide +kernel)

theorem secondCapped_reachable : (system deployment).Reachable secondCapped :=
  ready_reachable.later
    (later_of_replay (show replay deployment ready secondCap = some secondCapped by simp [secondCapped]))

theorem bothCapped_next : next deployment secondCapped (.tx dailyCapTx) = some bothCapped := by
  simp [bothCapped]

theorem firstLocked_next : next deployment bothCapped (.tx lockTx) = some firstLocked := by
  simp [firstLocked]

theorem bothUncapped_next : next deployment secondCapped (.tx noCapTx) = some bothUncapped := by
  simp [bothUncapped]

end Sample

theorem caps_isolated_sample :
    SameOutcome Sample.secondToken 1700000000 Sample.secondCapped Sample.bothCapped ∧
      SameOutcome Sample.secondToken 1700000100 Sample.bothCapped Sample.firstLocked := by
  have different : Sample.secondToken ≠ Sample.token := by decide
  constructor
  · have isolated := (caps_isolated different Sample.secondCapped_reachable (by decide +kernel)
      Sample.bothCapped_next).1 86400 500 rfl (by decide) (by decide +kernel) (by decide +kernel)
    have unchanged : 86400 = Sample.secondCapped.rollingWindowDuration := by decide +kernel
    exact isolated.mpr (Or.inr (Or.inr (Or.inl unchanged)))
  · exact (caps_isolated different (.step Sample.secondCapped_reachable Sample.bothCapped_next)
      (by decide +kernel) Sample.firstLocked_next).2 Sample.intent [] rfl rfl (by decide +kernel)

/-- Taking the cap off one token, with the duration zero, takes it off the other: what would
    have tripped the breaker is let through. -/
theorem caps_shared :
    Sample.secondToken ≠ Sample.token ∧ (system Sample.deployment).Reachable Sample.secondCapped ∧
      Sample.secondCapped.rollingWindowTriggered = false ∧
      next Sample.deployment Sample.secondCapped (.tx Sample.noCapTx) = some Sample.bothUncapped ∧
      Sample.noCapTx.call = .setRollingWindowCapForAsset Sample.token 0 0 ∧
      capOutcome Sample.secondToken 200 1700000000 Sample.secondCapped = .ok false ∧
      capOutcome Sample.secondToken 200 1700000000 Sample.bothUncapped = .ok true := by
  refine ⟨by decide, Sample.secondCapped_reachable, by decide +kernel, Sample.bothUncapped_next, rfl, ?_, ?_⟩
  · decide +kernel
  · decide +kernel

end Perihelion.Escrow

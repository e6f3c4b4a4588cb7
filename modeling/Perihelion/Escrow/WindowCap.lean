import Perihelion.Escrow.LockOutcome
import Perihelion.Lib.RollingWindow

/-! # The window cap of the escrow

The check of a lock looks at the requested amount before the pull, the commit counts what
arrived after it.  Both read the bucket of the same window, so that what the locks of one
asset bring in during a window stays within the asset's cap.  A breach pulls nothing, and
latches the breaker against every lock until the owner resets it.
-/

namespace Perihelion.Escrow

open BigEndian Fallible Transition RollingWindow

/-! ## What a transaction does to the buckets -/

/-- The clock, the latch and the buckets; the duration and the caps are not of them. -/
structure Meter where
  timestamp : Nat
  triggered : Bool
  buckets : Address → Nat → Nat
  latest : Address → Nat

def World.meter (w : World) : Meter where
  timestamp := w.timestamp
  triggered := w.rollingWindowTriggered
  buckets := w.rollingWindowBuckets
  latest := w.latestWindowStart

def Meter.charge (m : Meter) (asset : Address) (start amount : Nat) : Meter :=
  { m with
    buckets := Function.update m.buckets asset
      (Function.update (m.buckets asset) start (m.buckets asset start + amount))
    latest := Function.update m.latest asset (max (m.latest asset) start) }

@[simp] theorem World.emit_meter (w : World) (event : Event) : (w.emit event).meter = w.meter := rfl

@[simp] theorem World.settled_meter (w : World) (c : Context) (purpose intentHash mark receiver) :
    (w.settled c purpose intentHash mark receiver).meter = w.meter := rfl

@[simp] theorem World.sendBack_meter (w : World) (c : Context) (amount : Nat) :
    (w.sendBack c amount).meter = w.meter := by
  unfold World.sendBack
  split <;> rfl

@[simp] theorem World.guard_meter (w : World) (n : Nat) :
    ({ w with reentrancy := n } : World).meter = w.meter := rfl

@[simp] theorem consumeNonce_meter (w : World) (srcEid nonce) :
    (consumeNonce srcEid nonce w).meter = w.meter := rfl

theorem construct_meter {d : Deployment} {creation : Creation} {w : World}
    (made : construct d creation = .ok w) :
    w.meter = ⟨creation.timestamp, false, fun _ _ => 0, fun _ => 0⟩ := by
  simp only [construct, bind_ok, require_ok, exists_const, pure_ok] at made
  obtain ⟨-, rfl⟩ := made
  rfl

theorem World.setBucket_zero (w : World) (asset other : Address) (start s : Nat) :
    (w.setBucket asset start 0).rollingWindowBuckets other s = w.rollingWindowBuckets other s ∨
      (w.setBucket asset start 0).rollingWindowBuckets other s = 0 := by
  unfold World.setBucket
  by_cases there : other = asset
  · subst there
    by_cases now : s = start
    · subst now
      right
      simp
    · left
      simp [now]
  · left
    simp [there]

theorem commitValueCaps_meter {asset received} {w w' : World}
    (ran : commitValueCaps asset received w = .ok w') :
    w'.meter =
      if rollingCapEnabled w asset then w.meter.charge asset (windowStart w) received else w.meter := by
  unfold commitValueCaps at ran
  split at ran
  · rename_i enabled
    simp only [bind_ok, addBelow_ok, pure_ok] at ran
    obtain ⟨_, ⟨-, rfl⟩, rfl⟩ := ran
    rw [if_pos enabled]
    have latest : (if w.latestWindowStart asset < windowStart w then windowStart w
        else w.latestWindowStart asset) = max (w.latestWindowStart asset) (windowStart w) := by
      split <;> omega
    rw [latest]
    rfl
  · rename_i disabled
    cases ran
    rw [if_neg disabled]

theorem dispatchFillInstruction_meter {c : Context} {intentHash intent} {w w' : World}
    (ran : dispatchFillInstruction c intentHash intent w = .ok w') : w'.meter = w.meter := by
  obtain ⟨quoted, arrived, rfl⟩ := dispatchFillInstruction_paid ran
  rw [World.sendBack_meter]
  rfl

/-- Of all that `lock` does only the pull touches the buckets and the token balances. -/
theorem lock_pull {c : Context} {intent signature} {w w' : World}
    (ran : lock c intent signature w = .ok w') :
    ∃ pulled received, pullFunds c intent { w with reentrancy := 2 } = .ok (pulled, received) ∧
      w'.meter = pulled.meter ∧ w'.balanceOf = pulled.balanceOf := by
  simp only [lock, nonReentrant_ok, bind_ok, require_ok, exists_const, Prod.exists] at ran
  obtain ⟨-, v, ⟨-, -, intentHash, -, pulled, received, pull, recorded, record, dispatch⟩, rfl⟩ := ran
  obtain ⟨-, rfl⟩ := recordLock_ok.mp record
  refine ⟨pulled, received, pull, ?_, ?_⟩
  · rw [World.guard_meter, dispatchFillInstruction_meter dispatch]
    rfl
  · exact congrArg Funds.balanceOf (dispatchFillInstruction_ok dispatch).1

theorem Call.run_meter {c : Context} {call : Call} {w w' : World} (admin : call.admin = true)
    (keeps : call ≠ .resetRollingWindowCap) (ran : call.run c w = .ok w') : w'.meter = w.meter := by
  have write := Call.run_write admin ran
  rcases write.window with reset | ⟨triggered, buckets, latest⟩
  · exact absurd reset keeps
  · simp only [World.meter, write.timestamp, triggered, buckets, latest]

theorem lzReceive_meter {c : Context} {origin message} {w w' : World}
    (ran : lzReceive c origin message w = .ok w') : w'.meter = w.meter :=
  lzReceive_view World.settled_meter World.emit_meter World.guard_meter consumeNonce_meter ran

/-- The ways in which a transaction moves the meter. -/
inductive MeterMove (tx : Tx) (w w' : World) : Prop
  | other (unlocking : ∀ intent signature, tx.call ≠ .lock intent signature)
      (kept : w'.meter = (w.enter tx).meter) : MeterMove tx w w'
  | reset (called : tx.call = .resetRollingWindowCap)
      (timestamp : w'.timestamp = tx.timestamp)
      (latest : w'.latestWindowStart = w.latestWindowStart)
      (buckets : ∀ asset s, w'.rollingWindowBuckets asset s = w.rollingWindowBuckets asset s ∨
        w'.rollingWindowBuckets asset s = 0) : MeterMove tx w w'
  | breached (intent signature) (called : tx.call = .lock intent signature)
      (unlatched : ¬ w.rollingWindowTriggered) (balanceOf : w'.balanceOf = w.balanceOf)
      (meter : w'.meter = { (w.enter tx).meter with triggered := true }) : MeterMove tx w w'
  | pulled (intent signature received) (called : tx.call = .lock intent signature)
      (unlatched : ¬ w.rollingWindowTriggered)
      (within : rollingCapEnabled w intent.sourceAsset →
        currentBucket (w.enter tx) intent.sourceAsset + intent.sourceAmount ≤
          w.rollingWindowCapPerAsset intent.sourceAsset)
      (answered : ∃ data, tx.host.transferFrom intent.sourceAsset intent.user intent.sourceAmount =
        some (data, received))
      (balanceOf : w'.balanceOf = Function.update w.balanceOf intent.sourceAsset
        (w.balanceOf intent.sourceAsset + received))
      (meter : w'.meter =
        if rollingCapEnabled w intent.sourceAsset then
          (w.enter tx).meter.charge intent.sourceAsset
            (start w.rollingWindowDuration tx.timestamp) received
        else (w.enter tx).meter) : MeterMove tx w w'

theorem exec_meterMove {d : Deployment} {tx : Tx} {w w' : World} (ran : exec d tx w = .ok w') :
    MeterMove tx w w' := by
  obtain ⟨-, ran⟩ := exec_ok.mp ran
  have other (unlocking : ∀ intent signature, tx.call ≠ .lock intent signature)
      (kept : w'.meter = (w.enter tx).meter) : MeterMove tx w w' := .other unlocking kept
  cases call : tx.call with
  | lock intent signature =>
      rw [call] at ran
      obtain ⟨v, received, pull, meter, balanceOf⟩ := lock_pull ran
      rcases pullFunds_cases pull with pulled | ⟨breach, -, -, rfl⟩
      · have committed := commitValueCaps_meter pulled.committed
        have arrived := congrArg Funds.balanceOf pulled.frame.1
        exact .pulled intent signature received call pulled.unlatched pulled.within pulled.answered
          (balanceOf.trans arrived) (meter.trans committed)
      · refine .breached intent signature call breach.unlatched ?_ ?_
        · rw [balanceOf]
          exact congrArg Funds.balanceOf (World.sendBack_silent _ _ _).funds
        · rw [meter, World.sendBack_meter]
          rfl
  | resetRollingWindowCap =>
      rw [call] at ran
      simp only [Call.run, Escrow.resetRollingWindowCap, onlyOwner, bind_ok, require_ok,
        exists_const, pure_ok] at ran
      obtain ⟨-, -, rfl⟩ := ran
      split
      · exact .reset call rfl rfl fun asset s => (w.enter tx).setBucket_zero _ asset _ s
      · exact .reset call rfl rfl fun asset s => Or.inl rfl
  | lzReceive origin message =>
      rw [call] at ran
      exact other (by simp [call]) (lzReceive_meter ran)
  | cancelExpired intentHash =>
      rw [call] at ran
      obtain ⟨-, -, -, -, rfl⟩ := cancelExpired_ok.mp ran
      exact other (by simp [call]) (by simp)
  | skim token receiver amount =>
      rw [call] at ran
      simp only [Call.run, Escrow.skim, onlyOwner, bind_ok, require_ok, exists_const, safeTransfer_ok,
        pure_ok] at ran
      obtain ⟨-, -, _, -, -, _, ⟨-, -, rfl⟩, rfl⟩ := ran
      exact other (by simp [call]) rfl
  | _ => exact other (by simp [call]) (Call.run_meter (by rw [call]; rfl) (by simp [call]) ran)

/-! ## The current bucket -/

/-- Nothing is counted past the memoised window, so forgetting it forgets nothing. -/
def Meter.Fresh (m : Meter) : Prop := ∀ asset s, m.latest asset < s → m.buckets asset s = 0

theorem Meter.Fresh.charge {m : Meter} (fresh : m.Fresh) (asset : Address) (start amount : Nat) :
    (m.charge asset start amount).Fresh := by
  intro other s later
  unfold Meter.charge at *
  by_cases there : other = asset
  · subst there
    simp only [Function.update_self, max_lt_iff] at later ⊢
    rw [Function.update_of_ne (Nat.ne_of_gt later.2)]
    exact fresh other s later.1
  · simp only [Function.update_of_ne there] at later ⊢
    exact fresh other s later

theorem fresh_of_reachable {d : Deployment} {w : World} (reach : (system d).Reachable w) :
    w.meter.Fresh := by
  refine reach.invariant (P := fun w => w.meter.Fresh) ?_ ?_
  · intro w given
    obtain ⟨creation, made⟩ := given
    rw [construct_meter made]
    exact fun _ _ _ => rfl
  · intro w input w' _ fresh stepped
    cases input with
    | tx tx =>
        cases exec_meterMove (next_tx.mp stepped).2 with
        | other unlocking kept =>
            rw [kept]
            exact fresh
        | reset called timestamp latest buckets =>
            intro asset s later
            have before : w.latestWindowStart asset < s := by
              rw [← latest]
              exact later
            rcases buckets asset s with same | cleared
            · exact same.trans (fresh asset s before)
            · exact cleared
        | breached intent signature called unlatched balanceOf meter =>
            rw [meter]
            exact fresh
        | pulled intent signature received called unlatched within answered balanceOf meter =>
            rw [meter]
            split
            · exact Meter.Fresh.charge fresh _ _ _
            · exact fresh
    | tokenArrives token amount =>
        cases stepped
        exact fresh
    | nativeArrives amount =>
        cases stepped
        exact fresh

/-- The check and the commit read the same bucket. -/
theorem currentBucket_eq {w : World} (fresh : w.meter.Fresh) (asset : Address) :
    currentBucket w asset = w.rollingWindowBuckets asset (windowStart w) := by
  unfold currentBucket
  split
  · rename_i later
    exact (fresh asset _ later).symm
  · rfl

/-! ## One window -/

/-- What a lock in `asset` brings in; any other call, and a call that fails, brings nothing. -/
def Tx.received (d : Deployment) (tx : Tx) (asset : Address) (w : World) : Nat :=
  match tx.call with
  | .lock intent _ =>
      if intent.sourceAsset = asset then
        (next d w (.tx tx)).elim 0 fun w' => w'.balanceOf asset - w.balanceOf asset
      else 0
  | _ => 0

/-- When the transactions of a run were made, and what they brought in. -/
def receipts (d : Deployment) (asset : Address) (moves : List (World × Input)) : List (Nat × Nat) :=
  moves.filterMap fun m =>
    match m.2 with
    | .tx tx => some (tx.timestamp, tx.received d asset m.1)
    | _ => none

theorem receipts_tx (d : Deployment) (asset : Address) (moves : List (World × Input)) (w : World)
    (tx : Tx) : receipts d asset (moves ++ [(w, .tx tx)]) =
      receipts d asset moves ++ [(tx.timestamp, tx.received d asset w)] := by
  unfold receipts
  rw [List.filterMap_append]
  rfl

def CapKept (asset : Address) (duration cap : Nat) (moves : List (World × Input)) : Prop :=
  ∀ m ∈ moves, m.1.rollingWindowDuration = duration ∧ m.1.rollingWindowCapPerAsset asset = cap

/-- The token never delivers more than it is asked for. -/
def Delivers (asset : Address) (moves : List (World × Input)) : Prop :=
  ∀ m ∈ moves, ∀ tx user amount data received, m.2 = .tx tx →
    tx.host.transferFrom asset user amount = some (data, received) → received ≤ amount

/-- No reset takes place at a time of which `inside` holds. -/
def NoReset (inside : Nat → Prop) (moves : List (World × Input)) : Prop :=
  ∀ m ∈ moves, ∀ tx, m.2 = .tx tx → tx.call = .resetRollingWindowCap → ¬ inside tx.timestamp

theorem Tx.received_of_not_lock {d : Deployment} {tx : Tx} {asset : Address} {w : World}
    (unlocking : ∀ intent signature, tx.call ≠ .lock intent signature) :
    tx.received d asset w = 0 := by
  unfold Tx.received
  split
  · rename_i intent signature called
    exact absurd called (unlocking intent signature)
  · rfl

theorem Tx.received_of_lock {d : Deployment} {tx : Tx} {asset : Address} {w w' : World}
    {intent signature} (stepped : next d w (.tx tx) = some w')
    (called : tx.call = .lock intent signature) :
    tx.received d asset w =
      if intent.sourceAsset = asset then w'.balanceOf asset - w.balanceOf asset else 0 := by
  simp only [Tx.received, called, stepped, Option.elim_some]

/-- A transaction that moves the buckets of other assets at most, and brings nothing in. -/
theorem bounded_idle {tx : Tx} {v v' : World} {asset : Address} {duration cap k : Nat}
    {entries : List (Nat × Nat)} (later : v.timestamp ≤ tx.timestamp)
    (bounded : Bounded duration cap k v.timestamp (v.rollingWindowBuckets asset) entries)
    (timestamp : v'.timestamp = tx.timestamp)
    (buckets : v'.rollingWindowBuckets asset = v.rollingWindowBuckets asset) :
    Bounded duration cap k v'.timestamp (v'.rollingWindowBuckets asset)
      (entries ++ [(tx.timestamp, 0)]) := by
  rw [timestamp, buckets]
  exact (bounded.idle later bounded.nonneg (Nat.le_refl _)).zero

theorem MeterMove.bounded {d : Deployment} {tx : Tx} {v v' : World} {asset : Address}
    {duration cap k : Nat} {entries : List (Nat × Nat)} (moved : MeterMove tx v v')
    (stepped : next d v (.tx tx) = some v') (fresh : v.meter.Fresh)
    (active : 0 < duration ∧ 0 < cap)
    (length : v.rollingWindowDuration = duration) (height : v.rollingWindowCapPerAsset asset = cap)
    (bounded : Bounded duration cap k v.timestamp (v.rollingWindowBuckets asset) entries)
    (delivers : ∀ user amount data received,
      tx.host.transferFrom asset user amount = some (data, received) → received ≤ amount)
    (noReset : tx.call = .resetRollingWindowCap → ¬ During duration k tx.timestamp) :
    Bounded duration cap k v'.timestamp (v'.rollingWindowBuckets asset)
      (entries ++ [(tx.timestamp, tx.received d asset v)]) := by
  have later := (next_tx.mp stepped).1
  cases moved with
  | other unlocking kept =>
      rw [Tx.received_of_not_lock unlocking]
      exact bounded_idle later bounded (congrArg Meter.timestamp kept)
        (congrFun (congrArg Meter.buckets kept) asset)
  | reset called timestamp latest buckets =>
      rw [Tx.received_of_not_lock (by simp [called]), timestamp]
      exact (bounded.reset later (fun _ => Nat.zero_le _) (noReset called)).zero
  | breached intent signature called unlatched balanceOf meter =>
      have nothing : tx.received d asset v = 0 := by
        rw [Tx.received_of_lock stepped called, balanceOf, Nat.sub_self, ite_self]
      rw [nothing]
      exact bounded_idle later bounded (congrArg Meter.timestamp meter)
        (congrFun (congrArg Meter.buckets meter) asset)
  | pulled intent signature received called unlatched within answered balanceOf meter =>
      rw [Tx.received_of_lock stepped called, balanceOf]
      by_cases here : intent.sourceAsset = asset
      · subst here
        have enabled : rollingCapEnabled v intent.sourceAsset :=
          ⟨length.symm ▸ active.1, height.symm ▸ active.2⟩
        rw [if_pos enabled, length] at meter
        have room := within enabled
        have entered : (v.enter tx).meter.Fresh := fresh
        rw [currentBucket_eq entered, height] at room
        obtain ⟨data, answer⟩ := answered
        have atMost := delivers _ _ _ _ answer
        have timestamp : v'.timestamp = tx.timestamp := congrArg Meter.timestamp meter
        have counted : v'.rollingWindowBuckets intent.sourceAsset (start duration tx.timestamp) =
            v.rollingWindowBuckets intent.sourceAsset (start duration tx.timestamp) + received := by
          rw [show v'.rollingWindowBuckets = _ from congrArg Meter.buckets meter]
          simp [Meter.charge, World.meter, World.enter]
        have before : (v.enter tx).rollingWindowBuckets intent.sourceAsset (windowStart (v.enter tx)) =
            v.rollingWindowBuckets intent.sourceAsset (start duration tx.timestamp) := by
          rw [← length]
          rfl
        rw [if_pos rfl, Function.update_self, Nat.add_sub_cancel_left, timestamp]
        exact bounded.charge later (fun _ => Nat.zero_le _) (le_of_eq counted.symm) (by omega)
      · rw [if_neg here]
        have other : asset ≠ intent.sourceAsset := fun same => here same.symm
        split at meter
        · refine bounded_idle later bounded (congrArg Meter.timestamp meter) ?_
          rw [show v'.rollingWindowBuckets = _ from congrArg Meter.buckets meter]
          simp [Meter.charge, World.meter, World.enter, other]
        · exact bounded_idle later bounded (congrArg Meter.timestamp meter)
            (congrFun (congrArg Meter.buckets meter) asset)

theorem receipts_bounded {d : Deployment} {w w' : World} {moves : List (World × Input)}
    {asset : Address} {duration cap k : Nat} (reach : (system d).Reachable w)
    (active : 0 < duration ∧ 0 < cap) (run : (system d).Run w moves w')
    (kept : CapKept asset duration cap moves) (delivers : Delivers asset moves)
    (noReset : NoReset (During duration k) moves) :
    Bounded duration cap k w'.timestamp (w'.rollingWindowBuckets asset) (receipts d asset moves) := by
  induction run with
  | nil => exact .empty (fun _ => Nat.zero_le _) (Nat.zero_le _)
  | @snoc moves v input v' before last ih =>
      have bounded := ih (fun m member => kept m (List.mem_append_left _ member))
        (fun m member => delivers m (List.mem_append_left _ member))
        (fun m member => noReset m (List.mem_append_left _ member))
      have member : (v, input) ∈ moves ++ [(v, input)] :=
        List.mem_append_right _ (List.mem_singleton_self _)
      cases input with
      | tx tx =>
          obtain ⟨length, height⟩ := kept _ member
          rw [receipts_tx]
          exact (exec_meterMove (next_tx.mp last).2).bounded last
            (fresh_of_reachable (before.reachable reach)) active length height bounded
            (fun user amount data received => delivers _ member tx user amount data received rfl)
            (noReset _ member tx rfl)
      | tokenArrives token amount =>
          cases last
          simpa [receipts] using bounded
      | nativeArrives amount =>
          cases last
          simpa [receipts] using bounded

/-! ## The latch -/

theorem latched_step {d : Deployment} {w w' : World} {input : Input}
    (latched : w.rollingWindowTriggered = true) (stepped : next d w input = some w')
    (noReset : ∀ tx, input = .tx tx → tx.call ≠ .resetRollingWindowCap) :
    w'.rollingWindowTriggered = true ∧
      ∀ tx intent signature, input = .tx tx → tx.call ≠ .lock intent signature := by
  cases input with
  | tx tx =>
      cases exec_meterMove (next_tx.mp stepped).2 with
      | other unlocking kept =>
          refine ⟨(congrArg Meter.triggered kept).trans latched, ?_⟩
          intro _ intent signature same
          cases same
          exact unlocking intent signature
      | reset called => exact absurd called (noReset tx rfl)
      | breached _ _ _ unlatched => exact absurd latched unlatched
      | pulled _ _ _ _ unlatched => exact absurd latched unlatched
  | tokenArrives token amount =>
      cases stepped
      exact ⟨latched, by simp⟩
  | nativeArrives amount =>
      cases stepped
      exact ⟨latched, by simp⟩

/-- While nobody resets it the breaker stays latched, and no lock goes through. -/
theorem latched_run {d : Deployment} {w w' : World} {moves : List (World × Input)}
    (latched : w.rollingWindowTriggered = true) (run : (system d).Run w moves w')
    (noReset : NoReset (fun _ => True) moves) :
    w'.rollingWindowTriggered = true ∧
      ∀ m ∈ moves, ∀ tx intent signature, m.2 = .tx tx → tx.call ≠ .lock intent signature := by
  induction run with
  | nil => exact ⟨latched, by simp⟩
  | @snoc moves v input v' before last ih =>
      obtain ⟨still, quiet⟩ := ih (fun m member => noReset m (List.mem_append_left _ member))
      have member : (v, input) ∈ moves ++ [(v, input)] :=
        List.mem_append_right _ (List.mem_singleton_self _)
      obtain ⟨after, silent⟩ := latched_step still last fun tx same called =>
        noReset _ member tx same called trivial
      refine ⟨after, ?_⟩
      intro m member
      rcases List.mem_append.mp member with old | new
      · exact quiet m old
      · cases List.mem_singleton.mp new
        exact silent

/-- The lock that latches the breaker has moved no tokens. -/
theorem latching_pulls_nothing {d : Deployment} {w w' : World} {tx : Tx} {intent signature}
    (stepped : next d w (.tx tx) = some w') (called : tx.call = .lock intent signature)
    (latched : w'.rollingWindowTriggered = true) : w'.balanceOf = w.balanceOf := by
  cases exec_meterMove (next_tx.mp stepped).2 with
  | other unlocking => exact absurd called (unlocking intent signature)
  | reset reset => cases called.symm.trans reset
  | breached _ _ _ _ balanceOf => exact balanceOf
  | pulled _ _ _ _ unlatched _ _ _ meter =>
      have before : w'.rollingWindowTriggered = w.rollingWindowTriggered := by
        split at meter
        · exact congrArg Meter.triggered meter
        · exact congrArg Meter.triggered meter
      exact absurd (before.symm.trans latched) unlatched

/-- While neither the duration nor the asset's cap is changed, what the locks bring in during
    a window without a reset stays within the cap.  Once the breaker is latched no lock of any
    asset brings in anything before a reset, the latching one included. -/
theorem lock_window_cap {d : Deployment} {w : World} (reach : (system d).Reachable w) :
    (∀ asset duration cap moves w' k, 0 < duration → 0 < cap → (system d).Run w moves w' →
      CapKept asset duration cap moves → Delivers asset moves →
      NoReset (During duration k) moves → total duration k (receipts d asset moves) ≤ cap) ∧
    (∀ tx intent signature w', next d w (.tx tx) = some w' → tx.call = .lock intent signature →
      w'.rollingWindowTriggered = true → w'.balanceOf = w.balanceOf) ∧
    (w.rollingWindowTriggered = true → ∀ moves w', (system d).Run w moves w' →
      NoReset (fun _ => True) moves → w'.rollingWindowTriggered = true ∧
        ∀ m ∈ moves, ∀ tx intent signature, m.2 = .tx tx → tx.call ≠ .lock intent signature) := by
  refine ⟨?_, ?_, ?_⟩
  · intro asset duration cap moves w' k positive limited run kept delivers noReset
    exact (receipts_bounded reach ⟨positive, limited⟩ run kept delivers noReset).within
  · intro tx intent signature w' stepped called latched
    exact latching_pulls_nothing stepped called latched
  · intro latched moves w' run noReset
    exact latched_run latched run noReset

namespace Sample

/-- The asset's daily cap has room for the intent's amount. -/
def roomy : World :=
  (replay deployment ready [.tx (tx owner 0 1700000050 (.setRollingWindowCapForAsset token 86400 150))]).get
    (by decide +kernel)

theorem roomy_reachable : (system deployment).Reachable roomy :=
  ready_reachable.later
    (later_of_replay (show replay deployment ready
      [.tx (tx owner 0 1700000050 (.setRollingWindowCapForAsset token 86400 150))] = some roomy by
        simp [roomy]))

end Sample

/-- With 150 a day a lock of 100 is counted; with 50 a day it latches and moves nothing. -/
theorem lock_window_cap_sample :
    total 86400 19675 (receipts Sample.deployment Sample.token [(Sample.roomy, .tx Sample.lockTx)]) ≤ 150 ∧
      ∃ v w', next Sample.deployment Sample.capped (.tx Sample.lockTx) = some v ∧
        next Sample.deployment v (.nativeArrives 1) = some w' ∧
        v.balanceOf = Sample.capped.balanceOf ∧ w'.rollingWindowTriggered = true := by
  constructor
  · have locks : (next Sample.deployment Sample.roomy (.tx Sample.lockTx)).isSome := by decide +kernel
    obtain ⟨w', stepped⟩ := Option.isSome_iff_exists.mp locks
    have run : (system Sample.deployment).Run Sample.roomy [(Sample.roomy, .tx Sample.lockTx)] w' :=
      System.Run.snoc .nil stepped
    refine (lock_window_cap Sample.roomy_reachable).1 Sample.token 86400 150 _ w' 19675 (by decide)
      (by decide) run ?_ ?_ ?_
    · intro m member
      rw [List.mem_singleton.mp member]
      exact ⟨by decide +kernel, by decide +kernel⟩
    · intro m member tx user amount data received same answered
      rw [List.mem_singleton.mp member] at same
      cases same
      cases answered
      exact Nat.le_refl _
    · intro m member tx same called
      rw [List.mem_singleton.mp member] at same
      cases same
      cases called
  · have latches : (next Sample.deployment Sample.capped (.tx Sample.lockTx)).map
        (fun v => v.rollingWindowTriggered) = some true := by decide +kernel
    obtain ⟨v, stepped, latched⟩ := Option.map_eq_some_iff.mp latches
    have reach := Sample.capped_reachable.step stepped
    have run : (system Sample.deployment).Run v [(v, .nativeArrives 1)] _ := System.Run.snoc .nil rfl
    refine ⟨v, _, stepped, rfl, ?_, ?_⟩
    · exact (lock_window_cap Sample.capped_reachable).2.1 _ Sample.intent [] v stepped rfl latched
    · refine ((lock_window_cap reach).2.2 latched _ _ run ?_).1
      intro m member tx same
      rw [List.mem_singleton.mp member] at same
      cases same

end Perihelion.Escrow

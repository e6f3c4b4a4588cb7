import Perihelion.Lib.RollingWindow
import Perihelion.Settlement.Corridors

/-! # The circuit breaker

A FillInstruction for a new intent is charged to the bucket of the current window.  If the
bucket then exceeds the cap the breaker trips: the message is acknowledged, the charge
stays and nothing is registered.  Any other transaction leaves the breaker alone, unless
it is the admin's reset.
-/

namespace Perihelion.Settlement

open BigEndian Fallible Transition RollingWindow

namespace Breaker

/-- What the bucket of the window that starts at `s` has accumulated. -/
def amount (b : Breaker) (s : Nat) : Int := ((b.bucket s).getD 0).toInt

def tripped (b : Breaker) : Bool := b.triggered.getD false

def advance (b : Breaker) (windowStart : Nat) : Breaker :=
  if b.latestWindowStart.getD 0 < windowStart then
    { b with
      latestWindowStart := some windowStart
      bucket := Function.update b.bucket (b.latestWindowStart.getD 0) none }
  else b

def charge (b : Breaker) (windowStart : Nat) (accumulated : I128) : Breaker where
  triggered := b.triggered
  resetEarliestAt := b.resetEarliestAt
  bucket := Function.update (b.advance windowStart).bucket windowStart (some accumulated)
  latestWindowStart := (b.advance windowStart).latestWindowStart

def trip (b : Breaker) (resetAt : Nat) : Breaker :=
  { b with triggered := some true, resetEarliestAt := some resetAt }

theorem amount_charge (b : Breaker) (windowStart : Nat) (accumulated : I128) :
    (b.charge windowStart accumulated).amount windowStart = accumulated.toInt := by
  simp [amount, charge]

/-- Moving on drops the bucket of the window it leaves and no other. -/
theorem amount_advance (b : Breaker) (windowStart s : Nat) :
    (b.advance windowStart).amount s = b.amount s ∨
      (b.advance windowStart).amount s = 0 ∧ s < windowStart := by
  unfold advance amount
  split
  · rename_i moved
    by_cases dropped : s = b.latestWindowStart.getD 0
    · refine Or.inr ⟨?_, by omega⟩
      simp only [dropped, Function.update_self]
      rfl
    · refine Or.inl ?_
      simp only [Function.update_of_ne dropped]
  · exact Or.inl rfl

theorem amount_charge_of_ne (b : Breaker) {windowStart s : Nat} (accumulated : I128)
    (other : s ≠ windowStart) :
    (b.charge windowStart accumulated).amount s = (b.advance windowStart).amount s := by
  unfold charge amount
  simp only [Function.update_of_ne other]

theorem amount_reset (b : Breaker) (now duration s : Nat) :
    (b.reset now duration).amount s = b.amount s ∨ (b.reset now duration).amount s = 0 := by
  cases latest : b.latestWindowStart with
  | none =>
      refine Or.inl ?_
      simp only [reset, amount, latest]
  | some windowStart =>
      by_cases cleared : s = windowStart
      · refine Or.inr ?_
        simp [reset, amount, latest, cleared]
      · refine Or.inl ?_
        simp only [reset, amount, latest, Function.update_of_ne cleared]

/-- The window check of `enforce_value_caps` at time `now`, and whether it admits. -/
inductive Enforces (duration : Nat) (cap : Int) (now : Nat) (amount : Int) :
    Breaker → Bool → Breaker → Prop
  | off (b) (inactive : ¬ (0 < duration ∧ 0 < cap)) : Enforces duration cap now amount b true b
  | admitted (b accumulated) (active : 0 < duration ∧ 0 < cap) (ready : b.tripped = false)
      (sum : accumulated.toInt = b.amount (start duration now) + amount)
      (within : accumulated.toInt ≤ cap) :
      Enforces duration cap now amount b true (b.charge (start duration now) accumulated)
  | breached (b accumulated) (active : 0 < duration ∧ 0 < cap) (ready : b.tripped = false)
      (sum : accumulated.toInt = b.amount (start duration now) + amount)
      (exceeds : cap < accumulated.toInt) (clock : now + duration < uint64) :
      Enforces duration cap now amount b false
        ((b.charge (start duration now) accumulated).trip (now + duration))

end Breaker

def World.duration (w : World) : Nat := w.rollingWindowDuration.getD 0

def World.cap (w : World) : Int := (w.rollingWindowCap.getD 0).toInt

theorem World.window_of_governance {w v : World} (same : v.governance = w.governance) :
    v.breaker = w.breaker ∧ v.duration = w.duration ∧ v.cap = w.cap := by
  refine ⟨congrArg Governance.breaker same, ?_, ?_⟩
  · exact congrArg (fun g : Governance => g.rollingWindowDuration.getD 0) same
  · exact congrArg (fun g : Governance => (g.rollingWindowCap.getD 0).toInt) same

theorem I128.checked_ok {error : ε} {x : Int} {a : I128} :
    I128.checked error x = .ok a ↔ a.toInt = x := by
  unfold I128.checked
  constructor
  · intro given
    split at given
    · rename_i fits
      cases given
      rw [BitVec.toInt_ofInt]
      exact Int.bmod_eq_of_le (by omega) (by omega)
    · cases given
  · intro same
    have low := a.le_toInt
    have high := a.toInt_lt
    rw [if_pos (by omega), ← same, BitVec.ofInt_toInt]

theorem World.breaker_advanceWindow (w : World) (windowStart : Nat) :
    (w.advanceWindow windowStart).breaker = w.breaker.advance windowStart := by
  by_cases moved : w.latestWindowStart.getD 0 < windowStart
  · simp [World.advanceWindow, Breaker.advance, World.breaker, moved]
  · simp [World.advanceWindow, Breaker.advance, World.breaker, moved]

/-- The bucket about to be charged survives the move to its window. -/
theorem World.bucket_advanceWindow (w : World) (windowStart : Nat) :
    ((w.advanceWindow windowStart).rollingWindowBucket windowStart).getD 0 =
      (w.rollingWindowBucket windowStart).getD 0 := by
  unfold World.advanceWindow
  dsimp only
  split
  · rename_i moved
    simp only [Function.update_of_ne (Nat.ne_of_gt moved)]
  · rfl

theorem World.timestamp_advanceWindow (w : World) (windowStart : Nat) :
    (w.advanceWindow windowStart).timestamp = w.timestamp :=
  congrArg Core.timestamp (w.advanceWindow_silent windowStart).core

def World.charge (w : World) (windowStart : Nat) (accumulated : I128) : World :=
  { w.advanceWindow windowStart with
    rollingWindowBucket := Function.update (w.advanceWindow windowStart).rollingWindowBucket
      windowStart (some accumulated) }

theorem World.breaker_charge (w : World) (windowStart : Nat) (accumulated : I128) :
    (w.charge windowStart accumulated).breaker = w.breaker.charge windowStart accumulated := by
  have advanced := w.breaker_advanceWindow windowStart
  have triggered : (w.advanceWindow windowStart).rollingWindowTriggered =
      w.rollingWindowTriggered := by
    unfold World.advanceWindow
    dsimp only
    split <;> rfl
  have earliest : (w.advanceWindow windowStart).rollingWindowResetEarliestAt =
      w.rollingWindowResetEarliestAt := by
    unfold World.advanceWindow
    dsimp only
    split <;> rfl
  unfold Breaker.charge
  rw [← advanced]
  simp only [World.charge, World.breaker, triggered, earliest]

theorem enforceValueCaps_ok {amount : I128} {w w' : World} {admitted} :
    enforceValueCaps amount w = .ok (w', admitted) ↔
      (∀ maxAmount ∈ w.maxIntentAmount,
        ¬ (0 < maxAmount.toInt ∧ maxAmount.toInt < amount.toInt)) ∧
      ((¬ (0 < w.duration ∧ 0 < w.cap) ∧ w' = w ∧ admitted = true) ∨
        (0 < w.duration ∧ 0 < w.cap) ∧ w.breaker.tripped = false ∧
          ∃ accumulated : I128,
            accumulated.toInt = w.breaker.amount (start w.duration w.timestamp) + amount.toInt ∧
            ((accumulated.toInt ≤ w.cap ∧ admitted = true ∧
                w' = w.charge (start w.duration w.timestamp) accumulated) ∨
              (w.cap < accumulated.toInt ∧ w.timestamp + w.duration < uint64 ∧ admitted = false ∧
                w' = World.publish
                  { w.charge (start w.duration w.timestamp) accumulated with
                    rollingWindowTriggered := some true
                    rollingWindowResetEarliestAt := some (w.timestamp + w.duration) }
                  (.rollingWindowCapTriggered (start w.duration w.timestamp) accumulated)))) := by
  unfold enforceValueCaps
  simp only [bind_ok, require_ok, exists_const, Option.all_eq_true, decide_eq_true_eq]
  apply and_congr_right
  intro _
  by_cases active : 0 < w.duration ∧ 0 < w.cap
  · rw [if_pos (show 0 < w.rollingWindowDuration.getD 0 ∧ 0 < (w.rollingWindowCap.getD 0).toInt from
      active)]
    simp only [bind_ok, require_ok, exists_const, I128.checked_ok, World.bucket_advanceWindow, active,
      not_true_eq_false, false_and, false_or, true_and]
    apply and_congr Iff.rfl
    constructor
    · intro given
      obtain ⟨accumulated, sum, ran⟩ := given
      refine ⟨accumulated, sum, ?_⟩
      split at ran
      · rename_i exceeds
        simp only [bind_ok, addBelow_ok, pure_ok, Prod.mk.injEq] at ran
        obtain ⟨resetAt, ⟨clock, earliest⟩, rfl, rfl⟩ := ran
        rw [World.timestamp_advanceWindow] at clock earliest
        obtain rfl : resetAt = w.timestamp + w.duration := earliest.symm
        exact Or.inr ⟨exceeds, clock, rfl, rfl⟩
      · rename_i within
        simp only [pure_ok, Prod.mk.injEq] at ran
        obtain ⟨rfl, rfl⟩ := ran
        exact Or.inl ⟨Int.not_lt.mp within, rfl, rfl⟩
    · intro given
      obtain ⟨accumulated, sum, outcome⟩ := given
      refine ⟨accumulated, sum, ?_⟩
      rcases outcome with ⟨within, rfl, rfl⟩ | ⟨exceeds, clock, rfl, rfl⟩
      · rw [if_neg (show ¬ (w.rollingWindowCap.getD 0).toInt < accumulated.toInt from
          Int.not_lt.mpr within)]
        rfl
      · rw [if_pos (show (w.rollingWindowCap.getD 0).toInt < accumulated.toInt from exceeds)]
        simp only [bind_ok, addBelow_ok, pure_ok]
        refine ⟨w.timestamp + w.duration, ?_, rfl⟩
        rw [World.timestamp_advanceWindow]
        exact ⟨clock, rfl⟩
  · rw [if_neg (show ¬ (0 < w.rollingWindowDuration.getD 0 ∧
      0 < (w.rollingWindowCap.getD 0).toInt) from active)]
    simp only [pure_ok, Prod.mk.injEq, active, not_false_eq_true, true_and, false_and, or_false]
    constructor
    · intro given
      exact ⟨given.1.symm, given.2.symm⟩
    · intro given
      exact ⟨given.1.symm, given.2.symm⟩

theorem enforceValueCaps_enforces {amount : I128} {w w' : World} {admitted}
    (ran : enforceValueCaps amount w = .ok (w', admitted)) :
    w.breaker.Enforces w.duration w.cap w.timestamp amount.toInt admitted w'.breaker := by
  obtain ⟨-, outcome⟩ := enforceValueCaps_ok.mp ran
  rcases outcome with ⟨inactive, rfl, rfl⟩ | ⟨active, ready, accumulated, sum, outcome⟩
  · exact .off _ inactive
  · rcases outcome with ⟨within, rfl, rfl⟩ | ⟨exceeds, clock, rfl, rfl⟩
    · rw [World.breaker_charge]
      exact .admitted _ accumulated active ready sum within
    · have latched := Breaker.Enforces.breached w.breaker accumulated active ready sum exceeds clock
      rw [← World.breaker_charge] at latched
      exact latched

/-! ## Transactions -/

theorem Governed.breaker {c : Context} {now call} {g g' : Governance}
    (governed : Governed c now call g g') (outside : call.inbound = false) :
    g'.breaker = g.breaker ∨ call = .resetRollingWindowCap ∧
      g'.breaker = g.breaker.reset now (g.rollingWindowDuration.getD 0) := by
  cases governed with
  | capReset => exact Or.inr ⟨rfl, rfl⟩
  | metered _ _ _ inbound =>
      rw [outside] at inbound
      cases inbound
  | same | endpointSet | endpointConfirmed | nominated | accepted | peerProposed | peerConfirmed
  | peerCancelled | capSet => exact Or.inl rfl

theorem Tx.arrival_eq_some {d : Deployment} {tx : Tx} {w : World} {eid : Eid}
    {fi : FillInstruction} :
    tx.arrival d w = some (eid, fi) ↔
      ∃ origin, tx.delivery d w = some (origin, .fillInstruction fi) ∧ origin.srcEid = eid := by
  unfold Tx.arrival Tx.delivery
  cases tx.call with
  | lzReceiveBytes origin message =>
      cases parsing : parseMessage (tx.context d) message (w.enter tx) with
      | error e => simp [Except.toOption, parsing]
      | ok parsed => cases parsed <;> simp [Except.toOption, parsing, and_comm]
  | lzReceive origin message => cases message <;> simp [and_comm]
  | _ => simp

/-- What a transaction does to the breaker and to the set of registered intents. -/
inductive CapMove (d : Deployment) (tx : Tx) (w w' : World) : Prop
  | charged (eid fi admitted) (arrives : tx.arrival d w = some (eid, fi))
      (live : isFinalized w fi.intentHash = false) (absent : w.intent fi.intentHash = none)
      (positive : 0 < fi.minDestAmount.toInt)
      (enforced : w.breaker.Enforces w.duration w.cap tx.timestamp fi.minDestAmount.toInt admitted
        w'.breaker)
      (intent : w'.intent =
        if admitted then
          Function.update w.intent fi.intentHash (some (fi.record eid tx.timestamp))
        else w.intent)
      (markers : ∀ h, isFinalized w' h = isFinalized w h)
  | other
      (known : ∀ eid fi, tx.arrival d w = some (eid, fi) →
        (isFinalized w fi.intentHash = true ∨ (w.intent fi.intentHash).isSome) ∧
          w'.entries fi.intentHash = w.entries fi.intentHash)
      (unregistered : ∀ h, w.intent h = none → w'.intent h = none)
      (breaker : w'.breaker = w.breaker ∨
        tx.call = .resetRollingWindowCap ∧ w'.breaker = w.breaker.reset tx.timestamp w.duration)

theorem onFillInstruction_capMove {d : Deployment} {tx : Tx} {w v w' : World} {eid fi}
    (arrives : tx.arrival d w = some (eid, fi)) (silent : Silent (w.enter tx) v)
    (governance : v.governance = w.governance) (ran : onFillInstruction eid fi v = .ok w') :
    CapMove d tx w w' := by
  have entries (h : Bytes32) : v.entries h = w.entries h := World.entries_of_view (silent.view h)
  have intents : v.intent = w.intent := funext fun h => congrArg Prod.fst (entries h)
  have markers (h : Bytes32) : isFinalized v h = isFinalized w h :=
    congrArg IntentView.finalized (silent.view h)
  have clock : v.timestamp = tx.timestamp := congrArg Core.timestamp silent.core
  have charged {u : World} {admitted : Bool}
      (caps : enforceValueCaps fi.minDestAmount v = .ok (u, admitted)) :
      w.breaker.Enforces w.duration w.cap tx.timestamp fi.minDestAmount.toInt admitted u.breaker ∧
        u.intent = w.intent ∧ (∀ h, isFinalized u h = isFinalized w h) ∧ u.timestamp = tx.timestamp := by
    have enforced := enforceValueCaps_enforces caps
    obtain ⟨breaker, duration, cap⟩ := World.window_of_governance governance
    rw [breaker, duration, cap, clock] at enforced
    have quiet := enforceValueCaps_silent caps
    have kept : u.intent = v.intent := funext fun h => congrArg IntentView.record (quiet.view h)
    have finalized (h : Bytes32) : isFinalized u h = isFinalized v h :=
      congrArg IntentView.finalized (quiet.view h)
    have now : u.timestamp = v.timestamp := congrArg Core.timestamp quiet.core
    exact ⟨enforced, kept.trans intents, fun h => (finalized h).trans (markers h), now.trans clock⟩
  cases onFillInstruction_arrival ran with
  | known seen =>
      refine .other ?_ ?_ (Or.inl (congrArg Governance.breaker governance))
      · intro eid' fi' arrives'
        cases arrives.symm.trans arrives'
        rw [markers, intents] at seen
        exact ⟨seen, entries fi.intentHash⟩
      · intro h absent
        rw [intents]
        exact absent
  | refused u live absent positive caps =>
      obtain ⟨enforced, kept, finalized, -⟩ := charged caps
      rw [markers] at live
      rw [intents] at absent
      exact .charged eid fi false arrives live absent positive enforced kept finalized
  | registered u live absent positive caps =>
      obtain ⟨enforced, kept, finalized, now⟩ := charged caps
      rw [markers] at live
      rw [intents] at absent
      refine .charged eid fi true arrives live absent positive enforced ?_ finalized
      rw [if_pos rfl, ← kept, ← now]
      rfl

theorem applyInbound_governance {origin message} {w w' : World}
    (cancels : ∀ fi, message ≠ .fillInstruction fi) (ran : applyInbound origin message w = .ok w') :
    w'.governance = w.governance := by
  cases message with
  | fillInstruction fi => exact absurd rfl (cancels fi)
  | cancel ci =>
      obtain ⟨v, accepted, rfl⟩ := applyInbound_cancel.mp ran
      rw [onCancelInbound_governance, acceptNonce_governance accepted]

/-- An inbound message that is no FillInstruction is a CancelIntent. -/
theorem exec_inbound_governance {d : Deployment} {tx : Tx} {w w' : World}
    (inbound : tx.call.inbound = true) (empty : tx.arrival d w = none) (ran : exec d tx w = .ok w') :
    w'.governance = w.governance := by
  have delivered : (tx.delivery d w).isSome := by
    unfold exec at ran
    unfold Tx.delivery
    cases call : tx.call with
    | lzReceiveBytes origin message =>
        rw [call] at ran
        simp only [Call.run, lzReceiveBytes, bind_ok] at ran
        obtain ⟨_, -, parsed, parsing, -⟩ := ran
        simp [parsing, Except.toOption]
    | lzReceive origin message => rfl
    | _ =>
        rw [call] at inbound
        cases inbound
  obtain ⟨⟨origin, message⟩, delivers⟩ := Option.isSome_iff_exists.mp delivered
  rw [← World.governance_enter w tx]
  refine applyInbound_governance ?_ (exec_delivery delivers ran)
  intro fi same
  rw [same] at delivers
  have arrives : tx.arrival d w = some (origin.srcEid, fi) :=
    Tx.arrival_eq_some.mpr ⟨origin, delivers, rfl⟩
  cases empty.symm.trans arrives

/-- Without a FillInstruction only the reset moves the breaker. -/
theorem exec_breaker {d : Deployment} {tx : Tx} {w w' : World} (ran : exec d tx w = .ok w')
    (empty : tx.arrival d w = none) : w'.breaker = w.breaker ∨
      tx.call = .resetRollingWindowCap ∧ w'.breaker = w.breaker.reset tx.timestamp w.duration := by
  by_cases inbound : tx.call.inbound = true
  · exact Or.inl (congrArg Governance.breaker (exec_inbound_governance inbound empty ran))
  · exact (exec_governed ran).breaker (Bool.eq_false_of_not_eq_true inbound)

theorem exec_capMove {d : Deployment} {tx : Tx} {w w' : World} (named : w.Named)
    (ran : exec d tx w = .ok w') : CapMove d tx w w' := by
  cases arrives : tx.arrival d w with
  | none =>
      refine .other ?_ ?_ (exec_breaker ran arrives)
      · intro eid fi arrives'
        cases arrives.symm.trans arrives'
      · intro h absent
        cases found : w'.intent h with
        | none => rfl
        | some record =>
            rcases (exec_step named ran h).terms record found with ⟨_, known, -⟩ | ⟨eid, fi, arrives', -⟩
            · cases absent.symm.trans known
            · cases arrives.symm.trans arrives'
  | some arrival =>
      obtain ⟨eid, fi⟩ := arrival
      obtain ⟨origin, delivers, rfl⟩ := Tx.arrival_eq_some.mp arrives
      have applied := exec_delivery delivers ran
      obtain ⟨-, v, accepted, handled⟩ := applyInbound_fill.mp applied
      have governance : v.governance = (w.enter tx).governance := acceptNonce_governance accepted
      exact onFillInstruction_capMove arrives (acceptNonce_silent accepted) governance handled

end Perihelion.Settlement

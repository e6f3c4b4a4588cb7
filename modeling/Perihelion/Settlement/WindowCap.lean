import Mathlib.Data.Int.ConditionallyCompleteOrder
import Mathlib.Order.ConditionallyCompleteLattice.Basic
import Perihelion.Settlement.Breaker
import Perihelion.Settlement.Dispatch
import Perihelion.Settlement.Nonces

/-! # The window cap

While the cap is not changed, what is registered in one window adds up to at most the cap,
unless the admin resets the breaker inside it.  A message that would exceed the cap trips
the breaker, and a tripped breaker lets nothing be registered.
-/

namespace Perihelion.Settlement

open BigEndian Fallible Transition RollingWindow

/-! ## The breaker alone -/

namespace Breaker.Enforces

variable {duration now : Nat} {cap amount : Int} {b b' : Breaker} {admitted : Bool}

theorem nonneg (enforces : Enforces duration cap now amount b admitted b') (positive : 0 < amount)
    (before : ∀ s, 0 ≤ b.amount s) (s : Nat) : 0 ≤ b'.amount s := by
  have charged (accumulated : I128)
      (sum : accumulated.toInt = b.amount (start duration now) + amount) :
      0 ≤ (b.charge (start duration now) accumulated).amount s := by
    by_cases here : s = start duration now
    · rw [here, amount_charge, sum]
      have := before (start duration now)
      omega
    · rw [amount_charge_of_ne b accumulated here]
      rcases b.amount_advance (start duration now) s with kept | dropped
      · rw [kept]
        exact before s
      · rw [dropped.1]
  cases enforces with
  | off => exact before s
  | admitted accumulated active ready sum => exact charged accumulated sum
  | breached accumulated active ready sum => exact charged accumulated sum

/-- The bucket of the current window loses nothing. -/
theorem kept (enforces : Enforces duration cap now amount b admitted b') (positive : 0 < amount) :
    b.amount (start duration now) ≤ b'.amount (start duration now) := by
  have charged (accumulated : I128)
      (sum : accumulated.toInt = b.amount (start duration now) + amount) :
      b.amount (start duration now) ≤
        (b.charge (start duration now) accumulated).amount (start duration now) := by
    rw [amount_charge, sum]
    omega
  cases enforces with
  | off => exact le_refl _
  | admitted accumulated active ready sum => exact charged accumulated sum
  | breached accumulated active ready sum => exact charged accumulated sum

theorem counted (enforces : Enforces duration cap now amount b true b')
    (active : 0 < duration ∧ 0 < cap) :
    b.amount (start duration now) + amount ≤ b'.amount (start duration now) ∧
      b'.amount (start duration now) ≤ cap := by
  cases enforces with
  | off inactive => exact absurd active inactive
  | admitted accumulated _ ready sum within =>
      rw [amount_charge]
      exact ⟨le_of_eq sum.symm, within⟩

/-- Only an untripped breaker looks at a message, where there is a cap. -/
theorem ready (enforces : Enforces duration cap now amount b admitted b')
    (active : 0 < duration ∧ 0 < cap) : b.tripped = false := by
  cases enforces with
  | off inactive => exact absurd active inactive
  | admitted _ _ ready => exact ready
  | breached _ _ ready => exact ready

end Breaker.Enforces

theorem amounts_nonneg {d : Deployment} {w : World} (reach : (system d).Reachable w) :
    ∀ s, 0 ≤ w.breaker.amount s := by
  refine reach.invariant (P := fun w => ∀ s, 0 ≤ w.breaker.amount s) ?_ ?_
  · intro w given s
    obtain ⟨creation, made⟩ := given
    simp only [construct, bind_ok, require_ok, exists_const, pure_ok] at made
    obtain ⟨-, rfl⟩ := made
    exact le_refl _
  · intro w tx w' reach nonneg stepped s
    cases exec_capMove (named_of_reachable reach) (next_ok.mp stepped).2 with
    | charged eid fi admitted arrives live absent positive enforced =>
        exact enforced.nonneg positive nonneg s
    | other known unregistered breaker =>
        rcases breaker with same | ⟨-, cleared⟩
        · rw [same]
          exact nonneg s
        · rw [cleared]
          rcases w.breaker.amount_reset tx.timestamp w.duration s with kept | gone
          · rw [kept]
            exact nonneg s
          · rw [gone]

/-! ## Registrations -/

/-- The record that a transaction registers, if it registers one. -/
def Tx.registers (d : Deployment) (tx : Tx) (w : World) : Option IntentRecord :=
  (tx.arrival d w).bind fun arrival =>
    if (w.intent arrival.2.intentHash).isSome then none
    else (next d w tx).bind fun w' => w'.intent arrival.2.intentHash

theorem Tx.registers_iff {d : Deployment} {tx : Tx} {w w' : World} (named : w.Named)
    (stepped : next d w tx = some w') {record : IntentRecord} :
    tx.registers d w = some record ↔ ∃ h, w.intent h = none ∧ w'.intent h = some record := by
  unfold Tx.registers
  rw [stepped]
  constructor
  · intro given
    obtain ⟨⟨eid, fi⟩, -, given⟩ := Option.bind_eq_some_iff.mp given
    split at given
    · cases given
    · rename_i absent
      exact ⟨fi.intentHash, Option.not_isSome_iff_eq_none.mp absent, given⟩
  · intro given
    obtain ⟨h, absent, found⟩ := given
    rcases (exec_step named (next_ok.mp stepped).2 h).terms record found with
      ⟨_, known, -⟩ | ⟨eid, fi, arrives, rfl, -⟩
    · cases absent.symm.trans known
    · rw [show tx.arrival d w = some (eid, fi) from arrives]
      simp only [Option.bind_some, absent, Option.isSome_none, Bool.false_eq_true, if_false]
      exact found

theorem Tx.registers_none {d : Deployment} {tx : Tx} {w w' : World} (named : w.Named)
    (stepped : next d w tx = some w') (still : ∀ h, w.intent h = none → w'.intent h = none) :
    tx.registers d w = none := by
  rw [Option.eq_none_iff_forall_ne_some]
  intro record given
  obtain ⟨h, absent, found⟩ := (Tx.registers_iff named stepped).mp given
  cases (still h absent).symm.trans found

/-- When the transactions of a run registered something, and for how much. -/
def registrations (d : Deployment) (moves : List (World × Tx)) : List (Nat × Int) :=
  moves.filterMap fun m =>
    (m.2.registers d m.1).map fun record => (m.2.timestamp, record.minDestAmount.toInt)

theorem registrations_snoc (d : Deployment) (moves : List (World × Tx)) (w : World) (tx : Tx) :
    registrations d (moves ++ [(w, tx)]) = registrations d moves ++
      ((tx.registers d w).map fun record => (tx.timestamp, record.minDestAmount.toInt)).toList := by
  unfold registrations
  rw [List.filterMap_append]
  cases registers : tx.registers d w <;> simp [registers]

theorem exec_timestamp {d : Deployment} {tx : Tx} {w w' : World} (ran : exec d tx w = .ok w') :
    w'.timestamp = tx.timestamp := by
  cases admin : tx.call.admin with
  | true => exact (Call.run_admin admin ran).timestamp
  | false => exact (Call.run_intent admin ran).timestamp

/-! ## One window -/

def CapKept (duration : Nat) (cap : I128) (moves : List (World × Tx)) : Prop :=
  ∀ m ∈ moves, m.1.rollingWindowDuration = some duration ∧ m.1.rollingWindowCap = some cap

theorem World.window_of {w : World} {duration : Nat} {cap : I128}
    (isDuration : w.rollingWindowDuration = some duration) (isCap : w.rollingWindowCap = some cap) :
    w.duration = duration ∧ w.cap = cap.toInt := by
  simp [World.duration, World.cap, isDuration, isCap]

section CapKept

variable {duration : Nat} {cap : I128} {moves : List (World × Tx)} {m : World × Tx}

theorem CapKept.init (kept : CapKept duration cap (moves ++ [m])) : CapKept duration cap moves :=
  fun earlier member => kept earlier (List.mem_append_left _ member)

theorem CapKept.last (kept : CapKept duration cap (moves ++ [m])) :
    m.1.duration = duration ∧ m.1.cap = cap.toInt := by
  obtain ⟨isDuration, isCap⟩ := kept m (List.mem_append_right _ (List.mem_singleton_self m))
  exact World.window_of isDuration isCap

end CapKept

theorem registrations_bounded {d : Deployment} {w w' : World} {moves : List (World × Tx)}
    {duration k : Nat} {cap : I128} (reach : (system d).Reachable w)
    (active : 0 < duration ∧ 0 < cap.toInt) (run : (system d).Run w moves w')
    (kept : CapKept duration cap moves)
    (noReset : ∀ m ∈ moves, m.2.call = .resetRollingWindowCap → ¬ During duration k m.2.timestamp) :
    Bounded duration cap.toInt k w'.timestamp w'.breaker.amount (registrations d moves) := by
  induction run with
  | nil => exact .empty (amounts_nonneg reach) (Int.le_of_lt active.2)
  | @snoc moves v tx v' before last ih =>
      have reachV := before.reachable reach
      obtain ⟨⟨later, -⟩, ran⟩ := next_ok.mp last
      have bounded := ih kept.init fun m member => noReset m (List.mem_append_left _ member)
      have nonneg := amounts_nonneg (reachV.step last)
      obtain ⟨length, height⟩ := kept.last
      rw [exec_timestamp ran, registrations_snoc]
      cases exec_capMove (named_of_reachable reachV) ran with
      | charged eid fi admitted arrives live absent positive enforced intent =>
          rw [length, height] at enforced
          cases admitted with
          | true =>
              obtain ⟨counted, room⟩ := enforced.counted active
              have registers : tx.registers d v = some (fi.record eid tx.timestamp) := by
                refine (Tx.registers_iff (named_of_reachable reachV) last).mpr ⟨fi.intentHash, absent, ?_⟩
                rw [intent, if_pos rfl, Function.update_self]
              rw [registers]
              exact bounded.charge later nonneg counted room
          | false =>
              have still : ∀ h, v.intent h = none → v'.intent h = none := by
                intro h unknown
                rw [intent]
                exact unknown
              rw [Tx.registers_none (named_of_reachable reachV) last still]
              simpa using bounded.idle later nonneg (enforced.kept positive)
      | other known unregistered breaker =>
          rw [Tx.registers_none (named_of_reachable reachV) last unregistered]
          rcases breaker with same | ⟨call, -⟩
          · simpa [same] using bounded.idle later nonneg (Int.le_of_eq (by rw [same]))
          · have elsewhere := noReset (v, tx)
              (List.mem_append_right _ (List.mem_singleton_self _)) call
            simpa using bounded.reset later nonneg elsewhere

/-- A tripped breaker stays tripped until the reset, and nothing is registered. -/
theorem tripped_unregistered {d : Deployment} {w w' : World} {moves : List (World × Tx)}
    {duration : Nat} {cap : I128} (reach : (system d).Reachable w)
    (active : 0 < duration ∧ 0 < cap.toInt) (run : (system d).Run w moves w')
    (kept : CapKept duration cap moves) (noReset : ∀ m ∈ moves, m.2.call ≠ .resetRollingWindowCap)
    (tripped : w.breaker.tripped = true) :
    w'.breaker.tripped = true ∧ ∀ h, w.intent h = none → w'.intent h = none := by
  induction run with
  | nil => exact ⟨tripped, fun _ absent => absent⟩
  | @snoc moves v tx v' before last ih =>
      have reachV := before.reachable reach
      obtain ⟨latched, unregistered⟩ :=
        ih kept.init fun m member => noReset m (List.mem_append_left _ member)
      have here := List.mem_append_right moves (List.mem_singleton_self (v, tx))
      obtain ⟨length, height⟩ := kept.last
      cases exec_capMove (named_of_reachable reachV) (next_ok.mp last).2 with
      | charged eid fi admitted arrives live absent positive enforced intent =>
          rw [length, height] at enforced
          cases latched.symm.trans (enforced.ready active)
      | other known still breaker =>
          rcases breaker with same | ⟨call, -⟩
          · exact ⟨by rw [same]; exact latched, fun h absent => still h (unregistered h absent)⟩
          · exact absurd call (noReset (v, tx) here)

/-! ## The message that trips it -/

theorem I128.exists_toInt {x : Int} (low : -2 ^ 127 ≤ x) (high : x < 2 ^ 127) :
    ∃ a : I128, a.toInt = x := by
  refine ⟨BitVec.ofInt 128 x, ?_⟩
  rw [BitVec.toInt_ofInt]
  exact Int.bmod_eq_of_le (by omega) (by omega)

/-- A charge beyond the cap latches the breaker, if neither sum overflows. -/
theorem enforceValueCaps_trips {amount : I128} {w : World}
    (allowed : ∀ maxAmount ∈ w.maxIntentAmount,
      ¬ (0 < maxAmount.toInt ∧ maxAmount.toInt < amount.toInt))
    (active : 0 < w.duration ∧ 0 < w.cap) (untripped : w.breaker.tripped = false)
    (exceeds : w.cap < w.breaker.amount (start w.duration w.timestamp) + amount.toInt)
    (fits : w.breaker.amount (start w.duration w.timestamp) + amount.toInt < 2 ^ 127)
    (clock : w.timestamp + w.duration < uint64) :
    ∃ w', enforceValueCaps amount w = .ok (w', false) ∧ w'.breaker.tripped = true := by
  obtain ⟨accumulated, sum⟩ := I128.exists_toInt (by omega) fits
  refine ⟨_, enforceValueCaps_ok.mpr ⟨allowed, Or.inr ⟨active, untripped, accumulated, sum, Or.inr
    ⟨?_, clock, rfl, rfl⟩⟩⟩, rfl⟩
  rw [sum]
  exact exceeds

/-- A FillInstruction for a new intent that passes every check before the window's. -/
structure Deliverable (d : Deployment) (w : World) (tx : Tx) (origin : Origin) (fi : FillInstruction) :
    Prop where
  ledger : w.timestamp ≤ tx.timestamp ∧ tx.timestamp < uint64 ∧ w.sequence ≤ tx.sequence ∧
    tx.sequence < 2 ^ 32
  delivers : tx.delivery d w = some (origin, .fillInstruction fi)
  authorized : authorizeInbound (tx.context d) origin (w.enter tx) = .ok ()
  unpaused : requireEidNotPaused origin.srcEid (w.enter tx) = .ok ()
  unseen : (acceptNonce origin.srcEid origin.nonce (w.enter tx)).toOption.isSome
  live : isFinalized w fi.intentHash = false
  absent : w.intent fi.intentHash = none
  positive : 0 < fi.minDestAmount.toInt
  horizon : fi.deadline ≤ addSaturating uint64 tx.timestamp maxDeadlineHorizon
  allowed : w.maxIntentAmount.all fun maxAmount =>
    ¬ (0 < maxAmount.toInt ∧ maxAmount.toInt < fi.minDestAmount.toInt)

instance (d : Deployment) (w : World) (tx : Tx) (origin : Origin) (fi : FillInstruction) :
    Decidable (Deliverable d w tx origin fi) :=
  decidable_of_iff
    ((w.timestamp ≤ tx.timestamp ∧ tx.timestamp < uint64 ∧ w.sequence ≤ tx.sequence ∧
        tx.sequence < 2 ^ 32) ∧
      tx.delivery d w = some (origin, .fillInstruction fi) ∧
      authorizeInbound (tx.context d) origin (w.enter tx) = .ok () ∧
      requireEidNotPaused origin.srcEid (w.enter tx) = .ok () ∧
      (acceptNonce origin.srcEid origin.nonce (w.enter tx)).toOption.isSome ∧
      isFinalized w fi.intentHash = false ∧ w.intent fi.intentHash = none ∧
      0 < fi.minDestAmount.toInt ∧
      fi.deadline ≤ addSaturating uint64 tx.timestamp maxDeadlineHorizon ∧
      w.maxIntentAmount.all fun maxAmount =>
        ¬ (0 < maxAmount.toInt ∧ maxAmount.toInt < fi.minDestAmount.toInt))
    ⟨fun ⟨ledger, delivers, authorized, unpaused, unseen, live, absent, positive, horizon, allowed⟩ =>
        ⟨ledger, delivers, authorized, unpaused, unseen, live, absent, positive, horizon, allowed⟩,
      fun d => ⟨d.ledger, d.delivers, d.authorized, d.unpaused, d.unseen, d.live, d.absent, d.positive,
        d.horizon, d.allowed⟩⟩

/-- The state that the window check sees, and what becomes of the message after it. -/
theorem Deliverable.reaches {d : Deployment} {w : World} {tx : Tx} {origin fi}
    (deliverable : Deliverable d w tx origin fi) :
    ∃ v, Silent (w.enter tx) v ∧ v.governance = w.governance ∧ v.timestamp = tx.timestamp ∧
      (∀ maxAmount ∈ v.maxIntentAmount,
        ¬ (0 < maxAmount.toInt ∧ maxAmount.toInt < fi.minDestAmount.toInt)) ∧
      ∀ u admitted, enforceValueCaps fi.minDestAmount v = .ok (u, admitted) →
        next d w tx = some (if admitted then
          World.publish
            { u with
              intent := Function.update u.intent fi.intentHash
                (some (fi.record origin.srcEid u.timestamp)) }
            (.registered fi.intentHash origin.srcEid fi.deadline)
          else u) := by
  obtain ⟨v, accepted⟩ := Option.isSome_iff_exists.mp deliverable.unseen
  rw [toOption_some] at accepted
  have silent := acceptNonce_silent accepted
  have governance : v.governance = (w.enter tx).governance := acceptNonce_governance accepted
  have now : v.timestamp = tx.timestamp := congrArg Core.timestamp silent.core
  have limit : v.maxIntentAmount = w.maxIntentAmount := by
    obtain ⟨-, -, -, rfl⟩ := acceptNonce_ok.mp accepted
    rfl
  have allowed : ∀ maxAmount ∈ v.maxIntentAmount,
      ¬ (0 < maxAmount.toInt ∧ maxAmount.toInt < fi.minDestAmount.toInt) := by
    intro maxAmount configured
    rw [limit] at configured
    exact of_decide_eq_true ((Option.all_eq_true _ _).mp deliverable.allowed maxAmount configured)
  refine ⟨v, silent, governance, now, allowed, ?_⟩
  intro u admitted caps
  have peer : (v.peer origin.srcEid).isSome := by
    have authorized := deliverable.authorized
    simp only [authorizeInbound, bind_ok, require_ok, expect_ok] at authorized
    obtain ⟨_, -, _, -, expected, configured, -⟩ := authorized
    rw [show v.peer = (w.enter tx).peer from congrArg Core.peer silent.core, configured]
    rfl
  have fresh : ¬ (isFinalized v fi.intentHash = true ∨ (v.intent fi.intentHash).isSome) := by
    have finalized : isFinalized v fi.intentHash = isFinalized w fi.intentHash :=
      congrArg IntentView.finalized (silent.view fi.intentHash)
    have record : v.intent fi.intentHash = w.intent fi.intentHash :=
      congrArg IntentView.record (silent.view fi.intentHash)
    simp [finalized, record, deliverable.live, deliverable.absent]
  have handled : onFillInstruction origin.srcEid fi v = .ok (if admitted then
      World.publish
        { u with
          intent := Function.update u.intent fi.intentHash
            (some (fi.record origin.srcEid u.timestamp)) }
        (.registered fi.intentHash origin.srcEid fi.deadline)
      else u) := by
    unfold onFillInstruction
    rw [if_neg fresh]
    simp only [bind_ok, require_ok, exists_const, Prod.exists]
    refine ⟨deliverable.positive, by rw [now]; exact deliverable.horizon, peer, u, admitted, caps, ?_⟩
    cases admitted <;> rfl
  have applied := applyInbound_fill.mpr ⟨deliverable.unpaused, v, accepted, handled⟩
  exact next_ok.mpr ⟨deliverable.ledger,
    exec_of_delivery deliverable.delivers deliverable.authorized applied⟩

/-- A FillInstruction that passes every check before the window's and would exceed the cap. -/
structure Exceeds (d : Deployment) (w : World) (tx : Tx) (origin : Origin) (fi : FillInstruction) :
    Prop where
  ledger : w.timestamp ≤ tx.timestamp ∧ tx.timestamp < uint64 ∧ w.sequence ≤ tx.sequence ∧
    tx.sequence < 2 ^ 32
  delivers : tx.delivery d w = some (origin, .fillInstruction fi)
  authorized : authorizeInbound (tx.context d) origin (w.enter tx) = .ok ()
  unpaused : requireEidNotPaused origin.srcEid (w.enter tx) = .ok ()
  unseen : (acceptNonce origin.srcEid origin.nonce (w.enter tx)).toOption.isSome
  live : isFinalized w fi.intentHash = false
  absent : w.intent fi.intentHash = none
  positive : 0 < fi.minDestAmount.toInt
  horizon : fi.deadline ≤ addSaturating uint64 tx.timestamp maxDeadlineHorizon
  allowed : w.maxIntentAmount.all fun maxAmount =>
    ¬ (0 < maxAmount.toInt ∧ maxAmount.toInt < fi.minDestAmount.toInt)
  exceeds : w.cap < w.breaker.amount (start w.duration tx.timestamp) + fi.minDestAmount.toInt

instance (d : Deployment) (w : World) (tx : Tx) (origin : Origin) (fi : FillInstruction) :
    Decidable (Exceeds d w tx origin fi) :=
  decidable_of_iff
    ((w.timestamp ≤ tx.timestamp ∧ tx.timestamp < uint64 ∧ w.sequence ≤ tx.sequence ∧
        tx.sequence < 2 ^ 32) ∧
      tx.delivery d w = some (origin, .fillInstruction fi) ∧
      authorizeInbound (tx.context d) origin (w.enter tx) = .ok () ∧
      requireEidNotPaused origin.srcEid (w.enter tx) = .ok () ∧
      (acceptNonce origin.srcEid origin.nonce (w.enter tx)).toOption.isSome ∧
      isFinalized w fi.intentHash = false ∧ w.intent fi.intentHash = none ∧
      0 < fi.minDestAmount.toInt ∧
      fi.deadline ≤ addSaturating uint64 tx.timestamp maxDeadlineHorizon ∧
      (w.maxIntentAmount.all fun maxAmount =>
        ¬ (0 < maxAmount.toInt ∧ maxAmount.toInt < fi.minDestAmount.toInt)) ∧
      w.cap < w.breaker.amount (start w.duration tx.timestamp) + fi.minDestAmount.toInt)
    ⟨fun ⟨ledger, delivers, authorized, unpaused, unseen, live, absent, positive, horizon, allowed,
        exceeds⟩ => ⟨ledger, delivers, authorized, unpaused, unseen, live, absent, positive, horizon,
        allowed, exceeds⟩,
      fun e => ⟨e.ledger, e.delivers, e.authorized, e.unpaused, e.unseen, e.live, e.absent, e.positive,
        e.horizon, e.allowed, e.exceeds⟩⟩

theorem Exceeds.deliverable {d : Deployment} {w : World} {tx : Tx} {origin fi}
    (e : Exceeds d w tx origin fi) : Deliverable d w tx origin fi :=
  ⟨e.ledger, e.delivers, e.authorized, e.unpaused, e.unseen, e.live, e.absent, e.positive, e.horizon,
    e.allowed⟩

theorem Exceeds.not_reset {d : Deployment} {w : World} {tx : Tx} {origin fi}
    (exceeds : Exceeds d w tx origin fi) : tx.call ≠ .resetRollingWindowCap := by
  intro called
  have delivers := exceeds.delivers
  simp [Tx.delivery, called] at delivers

/-- Where neither sum overflows it is acknowledged and trips the breaker. -/
theorem Exceeds.trips {d : Deployment} {w : World} {tx : Tx} {origin fi}
    (exceeds : Exceeds d w tx origin fi) (active : 0 < w.duration ∧ 0 < w.cap)
    (untripped : w.breaker.tripped = false)
    (fits : w.breaker.amount (start w.duration tx.timestamp) + fi.minDestAmount.toInt < 2 ^ 127)
    (clock : tx.timestamp + w.duration < uint64) :
    ∃ w', next d w tx = some w' ∧ w'.breaker.tripped = true ∧ w'.intent = w.intent := by
  obtain ⟨v, silent, governance, now, allowed, reached⟩ := exceeds.deliverable.reaches
  obtain ⟨breaker, duration, cap⟩ := World.window_of_governance governance
  obtain ⟨v', caps, tripped⟩ := enforceValueCaps_trips allowed (by rwa [duration, cap])
    (by rwa [breaker]) (by rw [cap, breaker, duration, now]; exact exceeds.exceeds)
    (by rwa [breaker, duration, now]) (by rwa [now, duration])
  refine ⟨v', reached v' false caps, tripped, ?_⟩
  funext h
  have quiet := (enforceValueCaps_silent caps).view h
  exact (congrArg IntentView.record quiet).trans (congrArg IntentView.record (silent.view h))

/-- The sum over a window without a reset in it stays within the cap.  A message that would
    exceed the cap, and overflows nothing, is the last before a reset to try: from then on
    no intent is registered. -/
theorem window_cap {d : Deployment} {w : World} (reach : (system d).Reachable w) {duration : Nat}
    {cap : I128} (active : 0 < duration ∧ 0 < cap.toInt) :
    (∀ moves w' k, (system d).Run w moves w' → CapKept duration cap moves →
      (∀ m ∈ moves, m.2.call = .resetRollingWindowCap → ¬ During duration k m.2.timestamp) →
      total duration k (registrations d moves) ≤ cap.toInt) ∧
    ∀ tx origin fi, w.rollingWindowDuration = some duration → w.rollingWindowCap = some cap →
      Exceeds d w tx origin fi →
      w.breaker.amount (start duration tx.timestamp) + fi.minDestAmount.toInt < 2 ^ 127 →
      tx.timestamp + duration < uint64 →
      ∀ moves w', (system d).Run ((next d w tx).getD w) moves w' → CapKept duration cap moves →
        (∀ m ∈ moves, m.2.call ≠ .resetRollingWindowCap) →
        ∀ h, w.intent h = none → w'.intent h = none := by
  constructor
  · intro moves w' k run kept noReset
    exact (registrations_bounded reach active run kept noReset).within
  · intro tx origin fi isDuration isCap exceeds fits clock moves w' run kept noReset h absent
    obtain ⟨length, height⟩ := World.window_of isDuration isCap
    cases tripped : w.breaker.tripped with
    | true =>
        -- Already tripped: nothing gets past it, this message included.
        cases outcome : next d w tx with
        | none =>
            rw [outcome] at run
            exact (tripped_unregistered reach active run kept noReset tripped).2 h absent
        | some v =>
            rw [outcome] at run
            have moved : (system d).Run w [(w, tx)] v := System.Run.snoc .nil outcome
            have calls : ∀ m ∈ [(w, tx)], m.2.call ≠ .resetRollingWindowCap := by
              intro m member
              cases List.mem_singleton.mp member
              exact exceeds.not_reset
            have capped : CapKept duration cap [(w, tx)] := by
              intro m member
              cases List.mem_singleton.mp member
              exact ⟨isDuration, isCap⟩
            obtain ⟨latched, first⟩ := tripped_unregistered reach active moved capped calls tripped
            exact (tripped_unregistered (reach.step outcome) active run kept noReset latched).2 h
              (first h absent)
    | false =>
        rw [← length] at fits clock
        obtain ⟨v, stepped, latched, intents⟩ := exceeds.trips (by rw [length, height]; exact active)
          tripped fits clock
        rw [stepped] at run
        exact (tripped_unregistered (reach.step stepped) active run kept noReset latched).2 h
          (by rw [intents]; exact absent)

namespace Sample

/-- The sample FillInstruction for another hash and amount. -/
def fillOf (h : Bytes32) (amount : Nat) : Bytes :=
  [protocolVersion] ++ [msgFillInstruction] ++ Bytes32.toBytes h ++ encode 4 30600
    ++ ascii "GADQOBYHA4DQOBYHA4DQOBYHA4DQOBYHA4DQOBYHA4DQOBYHA4DQOZPI"
    ++ padRight 69 (ascii "native") ++ encode 16 amount ++ encode 8 1700010000
    ++ Bytes32.toBytes solverEvm ++ encode 8 0

def fillTx (nonce : UInt64) (h : Bytes32) (amount : Nat) : Tx :=
  tx 1700000300 1210 (.lzReceiveBytes ⟨30101, escrow, nonce⟩ (fillOf h amount))

def instructionOf (h : Bytes32) (amount : Nat) : FillInstruction where
  intentHash := h
  srcEid := 30600
  recipient := .account 0x0707070707070707070707070707070707070707070707070707070707070707
  destAsset := nativeToken
  minDestAmount := BitVec.ofNat 128 amount
  deadline := 1700010000
  preferredSolver := none
  lockedSolver := some solverEvm
  reservationWindow := 0

def capTx : Tx := tx 1700000100 1150 (.setRollingWindowCap 86400 100)

/-- At most 100 units a day. -/
def windowed : World := (replay deployment ready [capTx]).get (by decide +kernel)

/-- 90 of them are taken. -/
def charged : World := (replay deployment windowed [registerTx]).get (by decide +kernel)

theorem windowed_reachable : (system deployment).Reachable windowed :=
  ready_reachable.later
    (later_of_replay (show replay deployment ready [capTx] = some windowed by simp [windowed]))

theorem charged_reachable : (system deployment).Reachable charged :=
  windowed_reachable.later
    (later_of_replay (show replay deployment windowed [registerTx] = some charged by
      simp [charged]))

theorem charged_exceeds :
    Exceeds deployment charged (fillTx 2 0xAAAA 20) ⟨30101, escrow, 2⟩ (instructionOf 0xAAAA 20) := by
  decide +kernel

def rewardTx : Tx := tx 1700000400 1220 (.setKeeperReward 7)

end Sample

/-- 90 units are registered on the day; 20 more trip the breaker, and registrations are over. -/
theorem window_cap_sample :
    total 86400 19675 (registrations Sample.deployment [(Sample.windowed, Sample.registerTx)]) ≤ 100 ∧
      ∃ v w', next Sample.deployment Sample.charged (Sample.fillTx 2 0xAAAA 20) = some v ∧
        next Sample.deployment v Sample.rewardTx = some w' ∧ v.breaker.tripped = true ∧
        ∀ h, Sample.charged.intent h = none → w'.intent h = none := by
  constructor
  · have run : (system Sample.deployment).Run Sample.windowed [(Sample.windowed, Sample.registerTx)]
        Sample.charged := System.Run.snoc .nil (by simp [Sample.charged, replay, System.replay, system])
    refine (@window_cap _ _ Sample.windowed_reachable 86400 100 (by decide)).1 _ _ 19675 run ?_ ?_
    · intro m member
      cases List.mem_singleton.mp member
      have kept : Sample.windowed.rollingWindowDuration = some 86400 ∧
          Sample.windowed.rollingWindowCap = some 100 := by
        decide +kernel
      exact kept
    · intro m member called
      cases List.mem_singleton.mp member
      cases called
  · have replayed : ((next Sample.deployment Sample.charged (Sample.fillTx 2 0xAAAA 20)).bind fun v =>
        (next Sample.deployment v Sample.rewardTx).map fun _ =>
          (v.breaker.tripped, v.rollingWindowDuration, v.rollingWindowCap)) =
            some (true, some 86400, some 100) := by
      decide +kernel
    obtain ⟨v, stepped, rest⟩ := Option.bind_eq_some_iff.mp replayed
    obtain ⟨w', rewarded, same⟩ := Option.map_eq_some_iff.mp rest
    simp only [Prod.mk.injEq] at same
    obtain ⟨tripped, duration, cap⟩ := same
    have run : (system Sample.deployment).Run v [(v, Sample.rewardTx)] w' := System.Run.snoc .nil rewarded
    refine ⟨v, w', stepped, rewarded, tripped, ?_⟩
    obtain ⟨length, height, fits⟩ : Sample.charged.rollingWindowDuration = some 86400 ∧
        Sample.charged.rollingWindowCap = some 100 ∧
        Sample.charged.breaker.amount (start 86400 (Sample.fillTx 2 0xAAAA 20).timestamp) +
          (Sample.instructionOf 0xAAAA 20).minDestAmount.toInt < 2 ^ 127 := by
      decide +kernel
    refine (@window_cap _ _ Sample.charged_reachable 86400 100 (by decide)).2
      (Sample.fillTx 2 0xAAAA 20) _ (Sample.instructionOf 0xAAAA 20) length height
      Sample.charged_exceeds fits (by decide)
      [(v, Sample.rewardTx)] w' (by rw [stepped]; exact run) ?_ ?_
    · intro m member
      cases List.mem_singleton.mp member
      exact ⟨duration, cap⟩
    · intro m member called
      cases List.mem_singleton.mp member
      cases called

namespace Sample

/-- 90 of 100 units are taken in a window as long as a `u64` can say. -/
def endless : World :=
  (replay deployment ready
    [tx 1700000100 1150 (.setRollingWindowCap (2 ^ 64 - 1) 100), registerTx]).get (by decide +kernel)

theorem endless_reachable : (system deployment).Reachable endless :=
  ready_reachable.later
    (later_of_replay (show replay deployment ready
      [tx 1700000100 1150 (.setRollingWindowCap (2 ^ 64 - 1) 100), registerTx] = some endless by
        simp [endless]))

/-- A FillInstruction would exceed the cap but fails, and a smaller one is registered after it. -/
def Slips (w : World) (duration amount : Nat) : Prop :=
  (w.rollingWindowDuration = some duration ∧ w.rollingWindowCap = some 100) ∧
    Exceeds deployment w (fillTx 2 0xAAAA amount) ⟨30101, escrow, 2⟩ (instructionOf 0xAAAA amount) ∧
    (next deployment w (fillTx 2 0xAAAA amount)).isNone ∧ w.intent 0xBBBB = none ∧
    (next deployment w (fillTx 3 0xBBBB 5)).any fun w' => (w'.intent 0xBBBB).isSome

instance (w : World) (duration amount : Nat) : Decidable (Slips w duration amount) :=
  inferInstanceAs (Decidable (_ ∧ _))

end Sample

/-- With 90 of 100 units taken, 2^127 - 1 more overflow the sum, and in an endless window 20
    more overflow the time of the reset.  Either call fails, nothing is latched, and five
    more units are registered. -/
theorem overflow_not_latched :
    (system Sample.deployment).Reachable Sample.charged ∧
      Sample.Slips Sample.charged 86400 (2 ^ 127 - 1) ∧
      (system Sample.deployment).Reachable Sample.endless ∧
      Sample.Slips Sample.endless (2 ^ 64 - 1) 20 :=
  ⟨Sample.charged_reachable, by decide +kernel, Sample.endless_reachable, by decide +kernel⟩

end Perihelion.Settlement

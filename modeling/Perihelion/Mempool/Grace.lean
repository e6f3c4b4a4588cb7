import Perihelion.Mempool.StoreIndex
import Perihelion.Sdk.Rounding

/-! # The grace of the sweep

A record is to be kept for a grace period after its deadline.  The sweep passes the grace to
`isExpired` as a negative clock skew, which sets the clock ahead and not back.
-/

namespace Perihelion.Mempool

open Sdk

/-- The deadline lies at least the grace before `now`. -/
def MempoolIntentRecord.overdue (record : MempoolIntentRecord) (grace now : Int) : Bool :=
  record.intent.deadline.asInteger.any (· + grace ≤ now)

namespace IntentStore

/-- The sweep evicts the overdue records and leaves the others as they are. -/
def SweepsOverdue (store : IntentStore) (now : Int) : Prop :=
  ∀ hash, (store.evictExpired now).1.get hash =
    (store.get hash).filter fun record => !record.overdue store.expiryGraceSec now

/-- The deadline of a stored record, if it is within the grace of `now`. -/
def NearDeadline (store : IntentStore) (now deadline : Int) : Prop :=
  (∃ hash record, store.get hash = some record ∧ record.intent.deadline.asInteger = some deadline) ∧
    now - store.expiryGraceSec < deadline ∧ deadline ≤ addDouble now store.expiryGraceSec

/-- One record: it goes when the clock set ahead has reached its deadline. -/
theorem isExpired_grace {intent : Intent} {now grace : Int} :
    isExpired intent now (-grace) = intent.deadline.asInteger.any (· ≤ addDouble now grace) := by
  rw [isExpired, Int.neg_neg]

/-- The sweep is right about a deadline that is not near `now`. -/
theorem expired_eq_overdue_iff (now : JsInteger) {grace deadline : Int} (nonneg : 0 ≤ grace) :
    (deadline ≤ addDouble now.value grace ↔ deadline + grace ≤ now.value) ↔
      ¬ (now.value - grace < deadline ∧ deadline ≤ addDouble now.value grace) := by
  have ahead := now.le_addDouble nonneg
  omega

theorem filter_eq_iff {α : Type} {found : Option α} {p q : α → Bool} :
    found.filter p = found.filter q ↔ ∀ a, found = some a → p a = q a := by
  cases found with
  | none => simp
  | some a =>
      constructor
      · intro same b given
        obtain rfl := Option.some.inj given
        cases left : p a <;> cases right : q a <;> simp_all [Option.filter]
      · intro same
        have here := same a rfl
        simp [Option.filter, here]

/-- The sweep takes away the overdue records and no others exactly if no stored deadline is within
    the grace of the clock. -/
theorem evictExpired_overdue {store : IntentStore} {expiryGraceMs : Nat}
    (configured : store.expiryGraceSec = (expiryGraceMs / 1000 : Nat)) (now : JsInteger) :
    store.SweepsOverdue now.value ↔ ∀ deadline, ¬ store.NearDeadline now.value deadline := by
  have nonneg : 0 ≤ store.expiryGraceSec := by omega
  have right (record : MempoolIntentRecord) :
      ((!isExpired record.intent now.value (-store.expiryGraceSec)) =
        !record.overdue store.expiryGraceSec now.value) ↔
      ∀ deadline, record.intent.deadline.asInteger = some deadline →
        ¬ (now.value - store.expiryGraceSec < deadline ∧
          deadline ≤ addDouble now.value store.expiryGraceSec) := by
    rw [isExpired_grace, MempoolIntentRecord.overdue, Bool.not_inj_iff]
    cases record.intent.deadline.asInteger with
    | none => simp
    | some deadline =>
        simp only [Option.any_some, decide_eq_decide, expired_eq_overdue_iff now nonneg,
          Option.some.injEq, forall_eq']
  simp only [SweepsOverdue, evictExpired_get, filter_eq_iff, right]
  constructor
  · intro clear deadline near
    obtain ⟨⟨hash, record, found, given⟩, within⟩ := near
    exact clear hash record found deadline given within
  · intro clear hash record found deadline given within
    exact clear deadline ⟨⟨hash, record, found, given⟩, within⟩

namespace Sample

def second (n : Nat) (small : n ≤ 2 ^ 53) : JsInteger :=
  ⟨n, natAbs_lt_of_small small, nearestDouble_natAbs small⟩

def soon : MempoolIntentRecord :=
  { record "0xa" with
    intent := { intent with deadline := .integer (second 1700000030 (by decide)) } }

/-- One record, with the default grace of a minute. -/
def held : IntentStore := after none none [.set soon]

theorem held_deadline {hash : Hash} {found : MempoolIntentRecord} {deadline : Int}
    (stored : held.get hash = some found)
    (given : found.intent.deadline.asInteger = some deadline) : deadline = 1700000030 := by
  have entries : held.records.entries.all
      (fun e => e.2.intent.deadline.asInteger == some 1700000030) = true := by decide +kernel
  have entry := List.all_eq_true.mp entries _ (InsertionMap.get_eq_some.mp stored)
  rw [given] at entry
  exact Option.some.inj (beq_iff_eq.mp entry)

def late : JsInteger := second 1700000100 (by decide)

end Sample

/-- More than a minute after the deadline there is nothing to get wrong. -/
theorem evictExpired_overdue_sample : Sample.held.SweepsOverdue Sample.late.value := by
  apply (@evictExpired_overdue Sample.held 60000 (by decide +kernel) Sample.late).mpr
  intro deadline near
  obtain ⟨⟨hash, record, found, given⟩, recent, -⟩ := near
  rw [Sample.held_deadline found given] at recent
  revert recent
  decide +kernel

/-- Half a minute before the deadline the record is gone, a minute and a half too early. -/
theorem evicted_early :
    Sample.held.expiryGraceSec = 60 ∧
      (Sample.held.get (js "0xa")).map (·.intent.deadline.asInteger) = some (some 1700000030) ∧
      ((Sample.held.evictExpired 1700000000).1.get (js "0xa")).isNone = true ∧
      ¬ Sample.held.SweepsOverdue 1700000000 := by
  have gone : ((Sample.held.evictExpired 1700000000).1.get (js "0xa")).isNone = true := by
    decide +kernel
  refine ⟨by decide +kernel, by decide +kernel, gone, fun sweeps => ?_⟩
  rw [sweeps (js "0xa")] at gone
  revert gone
  decide +kernel

end IntentStore

end Perihelion.Mempool

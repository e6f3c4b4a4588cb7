import Mathlib.Algebra.Order.BigOperators.Group.Finset
import Mathlib.Data.Fintype.Basic
import Perihelion.Lib.Transition

/-! # Books of positions

A book keeps positions under keys, each opened once with an amount of one asset
and closed at most once.  Beside them stand, for every asset, a running counter of
what is owed and the funds held.  The counter is never recomputed from the
positions: soundness says that it is nevertheless their sum, and that the funds
cover it, in every book that opening, closing, depositing and taking out surplus
can produce.
-/

namespace PositionBook

open Transition

structure Position (α : Type v) where
  asset : α
  amount : Nat
  live : Bool
  deriving DecidableEq

structure Book (κ : Type u) (α : Type v) where
  position : κ → Option (Position α)
  owed : α → Nat
  held : α → Nat

inductive Move (κ : Type u) (α : Type v) where
  | opened (key : κ) (asset : α) (amount : Nat)
  | closed (key : κ) (position : Position α) (debit : Nat)
  | deposited (asset : α) (amount : Nat)
  | skimmed (asset : α) (amount debit : Nat)

variable {κ : Type u} {α : Type v} [DecidableEq κ] [DecidableEq α]

namespace Position

/-- What a position claims of an asset: its amount while it is live. -/
def claim (p : Position α) (asset : α) : Nat :=
  if p.live ∧ p.asset = asset then p.amount else 0

@[simp] theorem claim_closed (p : Position α) (asset : α) :
    ({ p with live := false } : Position α).claim asset = 0 := by
  simp [claim]

theorem claim_live {p : Position α} (live : p.live = true) : p.claim p.asset = p.amount := by
  simp [claim, live]

end Position

namespace Book

def claim (b : Book κ α) (asset : α) (key : κ) : Nat :=
  (b.position key).elim 0 (·.claim asset)

/-- Closing and taking surplus debit at most the amount they settle, less when
    the payment comes straight back. -/
inductive Step : Book κ α → Move κ α → Book κ α → Prop
  | opened {b : Book κ α} (key asset amount) (vacant : b.position key = none) :
      Step b (.opened key asset amount)
        { position := Function.update b.position key (some ⟨asset, amount, true⟩)
          owed := Function.update b.owed asset (b.owed asset + amount)
          held := Function.update b.held asset (b.held asset + amount) }
  | closed {b : Book κ α} (key p debit) (found : b.position key = some p) (live : p.live = true)
      (atMost : debit ≤ p.amount) :
      Step b (.closed key p debit)
        { position := Function.update b.position key (some { p with live := false })
          owed := Function.update b.owed p.asset (b.owed p.asset - p.amount)
          held := Function.update b.held p.asset (b.held p.asset - debit) }
  | deposited {b : Book κ α} (asset amount) :
      Step b (.deposited asset amount)
        { b with held := Function.update b.held asset (b.held asset + amount) }
  | skimmed {b : Book κ α} (asset amount debit) (surplus : b.owed asset + amount ≤ b.held asset)
      (atMost : debit ≤ amount) :
      Step b (.skimmed asset amount debit)
        { b with held := Function.update b.held asset (b.held asset - debit) }

def Empty (b : Book κ α) : Prop := (∀ key, b.position key = none) ∧ ∀ asset, b.owed asset = 0

def system (κ : Type u) (α : Type v) [DecidableEq κ] [DecidableEq α] :
    System (Book κ α) (Move κ α) where
  init := Empty
  step := Step

/-- The counter is the sum of the live positions and the funds cover it. -/
structure Sound [Fintype κ] (b : Book κ α) : Prop where
  owed_eq : ∀ asset, b.owed asset = ∑ key, b.claim asset key
  covered : ∀ asset, b.owed asset ≤ b.held asset

end Book

omit [DecidableEq α] in
/-- Two families that differ at one key differ in their sums by what they differ there. -/
theorem sum_change [Fintype κ] {f g : κ → Nat} (key : κ) (same : ∀ k, k ≠ key → g k = f k) :
    ∑ k, g k + f key = ∑ k, f k + g key := by
  have rest : ∑ k ∈ Finset.univ.erase key, g k = ∑ k ∈ Finset.univ.erase key, f k :=
    Finset.sum_congr rfl fun k member => same k (Finset.ne_of_mem_erase member)
  rw [← Finset.add_sum_erase _ g (Finset.mem_univ key),
    ← Finset.add_sum_erase _ f (Finset.mem_univ key), rest]
  omega

namespace Book

theorem claim_update_ne (b : Book κ α) {key k : κ} (other : k ≠ key) (slot : Option (Position α))
    (owed held : α → Nat) (asset : α) :
    (⟨Function.update b.position key slot, owed, held⟩ : Book κ α).claim asset k =
      b.claim asset k := by
  simp [claim, other]

theorem claim_update_self (b : Book κ α) (key : κ) (p : Position α) (owed held : α → Nat)
    (asset : α) :
    (⟨Function.update b.position key (some p), owed, held⟩ : Book κ α).claim asset key =
      p.claim asset := by
  simp [claim]

variable [Fintype κ]

omit [DecidableEq κ] in
theorem Sound.amount_le_owed {b : Book κ α} (sound : b.Sound) {key p}
    (found : b.position key = some p) (live : p.live = true) : p.amount ≤ b.owed p.asset := by
  have own : b.claim p.asset key = p.amount := by simp [claim, found, Position.claim_live live]
  rw [sound.owed_eq, ← own]
  exact Finset.single_le_sum (fun _ _ => Nat.zero_le _) (Finset.mem_univ key)

omit [DecidableEq κ] in
theorem Empty.sound {b : Book κ α} (empty : b.Empty) : b.Sound where
  owed_eq asset := by simp [empty.2, claim, empty.1]
  covered asset := by simp [empty.2]

/-- The sum of the claims after one slot has changed. -/
theorem sum_claim_update (b : Book κ α) (key : κ) (p : Position α) (owed held : α → Nat)
    (asset : α) :
    ∑ k, (⟨Function.update b.position key (some p), owed, held⟩ : Book κ α).claim asset k
        + b.claim asset key =
      ∑ k, b.claim asset k + p.claim asset := by
  have change := sum_change (f := b.claim asset)
    (g := (⟨Function.update b.position key (some p), owed, held⟩ : Book κ α).claim asset) key
    (fun k other => claim_update_ne b other _ _ _ _)
  rwa [claim_update_self] at change

/-- Opening adds the same amount to the claims and to the counter. -/
theorem Sound.owed_opened {b : Book κ α} (sound : b.Sound) {key : κ} (asset : α) (amount : Nat)
    (held : α → Nat) (vacant : b.position key = none) (a : α) :
    Function.update b.owed asset (b.owed asset + amount) a =
      ∑ k, (⟨Function.update b.position key (some ⟨asset, amount, true⟩),
        Function.update b.owed asset (b.owed asset + amount), held⟩ : Book κ α).claim a k := by
  have sum := sum_claim_update b key ⟨asset, amount, true⟩
    (Function.update b.owed asset (b.owed asset + amount)) held a
  have before : b.claim a key = 0 := by simp [claim, vacant]
  have counter := sound.owed_eq a
  by_cases here : a = asset
  · subst here
    simp only [Position.claim, and_self, if_true, Function.update_self] at sum ⊢
    omega
  · simp only [Position.claim, Ne.symm here, and_false, if_false, Function.update_of_ne here] at sum ⊢
    omega

/-- Closing takes the position's claim off both. -/
theorem Sound.owed_closed {b : Book κ α} (sound : b.Sound) {key : κ} {p : Position α}
    (held : α → Nat) (found : b.position key = some p) (live : p.live = true) (a : α) :
    Function.update b.owed p.asset (b.owed p.asset - p.amount) a =
      ∑ k, (⟨Function.update b.position key (some { p with live := false }),
        Function.update b.owed p.asset (b.owed p.asset - p.amount), held⟩ : Book κ α).claim a k := by
  have sum := sum_claim_update b key { p with live := false }
    (Function.update b.owed p.asset (b.owed p.asset - p.amount)) held a
  have counter := sound.owed_eq a
  rw [Position.claim_closed] at sum
  by_cases here : a = p.asset
  · subst here
    have before : b.claim p.asset key = p.amount := by
      simp [claim, found, Position.claim_live live]
    simp only [Function.update_self]
    omega
  · have before : b.claim a key = 0 := by
      simp [claim, found, Position.claim, Ne.symm here]
    simp only [Function.update_of_ne here]
    omega

theorem Sound.after {b b' : Book κ α} {move} (sound : b.Sound) (step : Step b move b') :
    b'.Sound := by
  cases step with
  | opened key asset amount vacant =>
      refine ⟨sound.owed_opened asset amount _ vacant, ?_⟩
      exact update_le_update_iff.mpr
        ⟨Nat.add_le_add_right (sound.covered asset) amount, fun a _ => sound.covered a⟩
  | closed key p debit found live atMost =>
      have enough := sound.amount_le_owed found live
      have covered := sound.covered p.asset
      have fits : b.owed p.asset - p.amount ≤ b.held p.asset - debit := by omega
      refine ⟨sound.owed_closed _ found live, ?_⟩
      exact update_le_update_iff.mpr ⟨fits, fun a _ => sound.covered a⟩
  | deposited asset amount =>
      have fits : b.owed asset ≤ b.held asset + amount := Nat.le_add_right_of_le (sound.covered asset)
      exact ⟨sound.owed_eq, le_update_iff.mpr ⟨fits, fun a _ => sound.covered a⟩⟩
  | skimmed asset amount debit surplus atMost =>
      have fits : b.owed asset ≤ b.held asset - debit := by omega
      exact ⟨sound.owed_eq, le_update_iff.mpr ⟨fits, fun a _ => sound.covered a⟩⟩

theorem sound_of_reachable {b : Book κ α} (reach : (system κ α).Reachable b) : b.Sound :=
  reach.invariant (P := Sound) (fun _ empty => Empty.sound empty)
    (fun _ _ _ _ sound step => Sound.after sound step)

end Book

end PositionBook

import Perihelion.Lib.InsertionMap
import Perihelion.Sdk.Stellar

/-! # Inventory

What the solver has committed of each destination asset and the balance it reads may not show.
-/

namespace Perihelion.SolverNode

open Sdk

/-- Amounts by asset, `CODE:ISSUER`. -/
abbrev Amounts := InsertionMap JsString Int

/-- `map.get(asset) ?? 0n`. -/
def Amounts.amountOf (amounts : Amounts) (asset : JsString) : Int := (amounts.get asset).getD 0

def Amounts.plus (amounts : Amounts) (asset : JsString) (amount : Int) : Amounts :=
  amounts.set asset (amounts.amountOf asset + amount)

/-- Tracks fill commitments that are in flight. -/
structure InFlightTracker where
  reserved : Amounts
  /-- What a fill that may have spent it has left here until the next tick. -/
  held : Amounts

namespace InFlightTracker

def new : InFlightTracker := ⟨.empty, .empty⟩

def reserve (tracker : InFlightTracker) (asset : JsString) (amount : Int) : InFlightTracker :=
  { tracker with reserved := tracker.reserved.plus asset amount }

def activeReservedFor (tracker : InFlightTracker) (asset : JsString) : Int :=
  tracker.reserved.amountOf asset

def release (tracker : InFlightTracker) (asset : JsString) (amount : Int) : InFlightTracker :=
  let current := tracker.reserved.amountOf asset
  let next := if amount < current then current - amount else 0
  if next = 0 then { tracker with reserved := tracker.reserved.delete asset }
  else { tracker with reserved := tracker.reserved.set asset next }

def holdForRefresh (tracker : InFlightTracker) (asset : JsString) (amount : Int) :
    InFlightTracker :=
  let released := tracker.release asset amount
  { released with held := released.held.plus asset amount }

/-- And how many assets were held. -/
def flushHeld (tracker : InFlightTracker) : InFlightTracker × Nat :=
  ({ tracker with held := .empty }, tracker.held.size)

def reservedFor (tracker : InFlightTracker) (asset : JsString) : Int :=
  tracker.reserved.amountOf asset + tracker.held.amountOf asset

def heldFor (tracker : InFlightTracker) (asset : JsString) : Int := tracker.held.amountOf asset

end InFlightTracker

/-! ## What each call does to the two buckets -/

namespace Amounts

theorem amountOf_set (amounts : Amounts) (asset other : JsString) (amount : Int) :
    Amounts.amountOf (amounts.set asset amount) other =
      if other = asset then amount else amounts.amountOf other := by
  unfold amountOf
  rw [InsertionMap.get_set]
  split
  · rfl
  · rfl

theorem amountOf_delete (amounts : Amounts) (asset other : JsString) :
    Amounts.amountOf (amounts.delete asset) other =
      if other = asset then 0 else amounts.amountOf other := by
  unfold amountOf
  rw [InsertionMap.get_delete]
  split
  · rfl
  · rfl

theorem amountOf_plus (amounts : Amounts) (asset other : JsString) (amount : Int) :
    (amounts.plus asset amount).amountOf other =
      amounts.amountOf other + if other = asset then amount else 0 := by
  unfold plus
  rw [amountOf_set]
  split
  · rename_i here
    rw [here]
  · rw [Int.add_zero]

end Amounts

namespace InFlightTracker

variable (tracker : InFlightTracker) (asset other : JsString) (amount : Int)

@[simp] theorem reserve_active : (tracker.reserve asset amount).activeReservedFor other =
    tracker.activeReservedFor other + if other = asset then amount else 0 :=
  Amounts.amountOf_plus ..

@[simp] theorem reserve_held : (tracker.reserve asset amount).heldFor other = tracker.heldFor other :=
  rfl

/-- Never below zero. -/
@[simp] theorem release_active : (tracker.release asset amount).activeReservedFor other =
    if other = asset then max (tracker.activeReservedFor asset - amount) 0
    else tracker.activeReservedFor other := by
  unfold release activeReservedFor
  extract_lets current next
  have value : next = max (current - amount) 0 := by
    simp only [next]
    omega
  split
  · rename_i none
    rw [Amounts.amountOf_delete, ← value, none]
  · rw [Amounts.amountOf_set, value]

@[simp] theorem release_held : (tracker.release asset amount).heldFor other = tracker.heldFor other := by
  unfold release
  extract_lets
  split
  · rfl
  · rfl

@[simp] theorem holdForRefresh_held : (tracker.holdForRefresh asset amount).heldFor other =
    tracker.heldFor other + if other = asset then amount else 0 := by
  have parked := Amounts.amountOf_plus (tracker.release asset amount).held asset other amount
  have same := release_held tracker asset other amount
  unfold heldFor at same ⊢
  rw [← same]
  exact parked

@[simp] theorem flushHeld_active : tracker.flushHeld.1.activeReservedFor other =
    tracker.activeReservedFor other := rfl

@[simp] theorem flushHeld_held : tracker.flushHeld.1.heldFor other = 0 := rfl

theorem reservedFor_eq : tracker.reservedFor asset =
    tracker.activeReservedFor asset + tracker.heldFor asset := rfl

end InFlightTracker

end Perihelion.SolverNode

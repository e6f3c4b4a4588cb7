import Mathlib.Tactic

/-! # Entries that expire

A ledger keeps an entry up to a sequence number, and whoever asks in time can move that on.  A
request names how few ledgers may be left before it does anything; the network bounds how far ahead
an entry may live.
-/

namespace Expiry

/-- What a network gives a new entry, and the most that any entry has. -/
structure Network where
  minTtl : Nat
  maxTtl : Nat
  positive : 0 < minTtl
  ordered : minTtl ≤ maxTtl

structure Extension (κ : Type u) where
  key : κ
  threshold : Nat
  extendTo : Nat

namespace Network

variable {κ : Type u} [DecidableEq κ]

/-- The last ledger of an entry that is made in ledger `sequence`. -/
def born (n : Network) (sequence : Nat) : Nat := sequence + (n.minTtl - 1)

/-- An entry with at most `threshold` ledgers left is given `extendTo`. -/
def extendTtl (n : Network) (sequence threshold extendTo last : Nat) : Nat :=
  if last ≤ sequence + threshold then max last (sequence + min extendTo (n.maxTtl - 1)) else last

/-- All requests of one transaction, as they concern one entry. -/
def prolong (n : Network) (sequence : Nat) (requests : List (Extension κ)) (key : κ) (last : Nat) : Nat :=
  requests.foldl
    (fun last e => if e.key = key then n.extendTtl sequence e.threshold e.extendTo last else last) last

variable {n : Network} {sequence threshold extendTo last : Nat}

end Network

end Expiry

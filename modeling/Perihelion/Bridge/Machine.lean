import Perihelion.Bridge.Codec
import Perihelion.Escrow.Instructions
import Perihelion.Settlement.Sent

/-! # The two contracts and the transport

One escrow and one settlement contract that are each other's peer.  The transport hands
over what was sent, in any order and under any nonce; both chains read one clock.
-/

namespace Perihelion.Bridge

open BigEndian Fallible Transition

/-- Where the two contracts live and how each is addressed from the other chain. -/
structure Link where
  escrow : Escrow.Deployment
  settlement : Settlement.Deployment
  evmEid : Eid
  settlementId : Bytes32
  here : settlement.this = .contract settlementId

structure World where
  escrow : Escrow.World
  settlement : Settlement.World
  /-- The messages of the settlement contract that the escrow has taken. -/
  received : List Settlement.MessagingParams

inductive Input where
  | escrow (input : Escrow.Input)
  | settlement (tx : Settlement.Tx)
  | toSettlement (params : Escrow.MessagingParams) (nonce : UInt64) (timestamp sequence : Nat)
      (host : Settlement.Host)
  | toEscrow (params : Settlement.MessagingParams) (nonce : UInt64) (value timestamp : Nat)
      (host : Escrow.Host)

/-- The peers are set, each to the other. -/
def World.Linked (link : Link) (w : World) : Prop :=
  w.escrow.stellarPeer = link.settlementId ∧
    w.settlement.peer link.evmEid = some (word link.escrow.this)

instance (link : Link) (w : World) : Decidable (w.Linked link) :=
  inferInstanceAs (Decidable (_ ∧ _))

/-- On neither chain has the clock passed `timestamp`. -/
def World.Admits (w : World) (timestamp : Nat) : Prop :=
  w.escrow.timestamp ≤ timestamp ∧ w.settlement.timestamp ≤ timestamp

instance (w : World) (timestamp : Nat) : Decidable (w.Admits timestamp) :=
  inferInstanceAs (Decidable (_ ∧ _))

def inboundEscrow : Escrow.Call → Bool
  | .lzReceive .. => true
  | _ => false

def inboundSettlement : Settlement.Call → Bool
  | .lzReceiveBytes .. | .lzReceive .. => true
  | _ => false

/-- In flight: handed to the endpoint more often than to the escrow. -/
def World.InFlight (w : World) (params : Settlement.MessagingParams) : Prop :=
  w.received.count params < w.settlement.sent.count params

instance (w : World) (params : Settlement.MessagingParams) : Decidable (w.InFlight params) :=
  inferInstanceAs (Decidable (_ < _))

namespace Input

/-- Only the transport calls a receive hook, and only with what the other side sent it.  A
    FillInstruction may even come twice, under two nonces.  Fills come before `horizon`, which
    at `uint64` is no restriction. -/
def Allowed (link : Link) (horizon : Nat) (w : World) : Input → Prop
  | .escrow (.tx tx) => w.Admits tx.timestamp ∧ inboundEscrow tx.call = false
  | .escrow _ => True
  | .settlement tx => w.Admits tx.timestamp ∧ inboundSettlement tx.call = false ∧
      (tx.call.fills = true → tx.timestamp < horizon)
  | .toSettlement params _ timestamp _ _ => w.Admits timestamp ∧
      params ∈ w.escrow.sent ∧ params.dstEid = link.escrow.stellarEid ∧
      params.receiver = link.settlementId
  | .toEscrow params _ _ timestamp _ => w.Admits timestamp ∧
      w.InFlight params ∧ params.dstEid = link.evmEid ∧ params.receiver = word link.escrow.this

instance (link : Link) (horizon : Nat) (w : World) (input : Input) :
    Decidable (input.Allowed link horizon w) :=
  match input with
  | .escrow (.tx _) => inferInstanceAs (Decidable (_ ∧ _))
  | .escrow (.tokenArrives _ _) => inferInstanceAs (Decidable True)
  | .escrow (.nativeArrives _) => inferInstanceAs (Decidable True)
  | .settlement _ => inferInstanceAs (Decidable (_ ∧ _ ∧ (_ → _)))
  | .toSettlement .. => inferInstanceAs (Decidable (_ ∧ _ ∧ _ ∧ _))
  | .toEscrow .. => inferInstanceAs (Decidable (_ ∧ _ ∧ _ ∧ _))

end Input

def Link.settlementTx (link : Link) (params : Escrow.MessagingParams) (nonce : UInt64)
    (timestamp sequence : Nat) (host : Settlement.Host) : Settlement.Tx where
  timestamp := timestamp
  sequence := sequence
  host := host
  call := .lzReceiveBytes ⟨link.evmEid, word link.escrow.this, nonce⟩ params.message

def Link.escrowTx (link : Link) (params : Settlement.MessagingParams) (nonce : UInt64)
    (value timestamp : Nat) (host : Escrow.Host) : Escrow.Tx where
  sender := link.escrow.endpoint
  value := value
  timestamp := timestamp
  host := host
  call := .lzReceive ⟨link.escrow.stellarEid, link.settlementId, nonce⟩ params.message

def Input.run (link : Link) (w : World) : Input → Option World
  | .escrow input =>
      (Escrow.next link.escrow w.escrow input).map fun e => { w with escrow := e }
  | .settlement tx =>
      (Settlement.next link.settlement w.settlement tx).map fun s => { w with settlement := s }
  | .toSettlement params nonce timestamp sequence host =>
      (Settlement.next link.settlement w.settlement
        (link.settlementTx params nonce timestamp sequence host)).map
          fun s => { w with settlement := s }
  | .toEscrow params nonce value timestamp host =>
      (Escrow.next link.escrow w.escrow (.tx (link.escrowTx params nonce value timestamp host))).map
        fun e => { w with escrow := e, received := w.received ++ [params] }

/-- The peers stay as they are. -/
def next (link : Link) (horizon : Nat) (w : World) (input : Input) : Option World :=
  if input.Allowed link horizon w then (input.run link w).filter fun w' => decide (w'.Linked link)
  else none

/-- Both contracts are set up, and no intent has been locked or registered. -/
structure Start (link : Link) (w : World) : Prop where
  escrow : (Escrow.system link.escrow).Reachable w.escrow
  settlement : (Settlement.system link.settlement).Reachable w.settlement
  linked : w.Linked link
  vacant : ∀ h, (w.escrow.locks h).user = 0
  unknown : ∀ h, w.settlement.view h = Settlement.IntentView.empty
  received : w.received = []

def system (link : Link) (horizon : Nat) : System World Input where
  init := Start link
  step w input w' := next link horizon w input = some w'

theorem next_ok {link : Link} {horizon : Nat} {w w' : World} {input : Input} :
    next link horizon w input = some w' ↔
      input.Allowed link horizon w ∧ input.run link w = some w' ∧ w'.Linked link := by
  unfold next
  split
  · rename_i allowed
    simp only [allowed, true_and, Option.filter_eq_some_iff, decide_eq_true_eq]
  · rename_i refused
    simp only [refused, false_and, reduceCtorEq]

end Perihelion.Bridge

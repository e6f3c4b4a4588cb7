import Perihelion.Escrow.Locking
import Perihelion.Escrow.Receive
import Perihelion.Lib.Transition

/-! # The escrow as a transition system

One transaction is one external call that did not revert.  Between transactions
anybody may send tokens or native value to the escrow's address.
-/

namespace Perihelion.Escrow

open BigEndian Fallible Transition

inductive Call where
  | setPeer (peer : Bytes32)
  | setConfirmationGrace (secondsGrace : Nat)
  | setGuardian (newGuardian : Address)
  | setPaused (paused : Bool)
  | pause
  | decayGuardianPause
  | setAssetAllowed (asset : Address) (allowed : Bool)
  | setMaxIntentAmountPerAsset (asset : Address) (maxAmount : Nat)
  | setMaxIntentAmount (maxAmount : Nat)
  | setRollingWindowCap (windowDuration cap : Nat)
  | setRollingWindowCapForAsset (asset : Address) (windowDuration cap : Nat)
  | resetRollingWindowCap
  | transferOwnership (newOwner : Address)
  | cancelOwnershipTransfer
  | acceptOwnership
  | skim (token receiver : Address) (amount : Nat)
  | skimNative (receiver : Address) (amount : Nat)
  | lock (intent : Intent) (signature : Bytes)
  | lzReceive (origin : Origin) (message : Bytes)
  | cancelExpired (intentHash : Bytes32)
  deriving DecidableEq

namespace Call

def payable : Call → Bool
  | .lock .. | .lzReceive .. => true
  | _ => false

def run (c : Context) (w : World) : Call → Except Revert World
  | .setPeer peer => Escrow.setPeer c peer w
  | .setConfirmationGrace secondsGrace => Escrow.setConfirmationGrace c secondsGrace w
  | .setGuardian newGuardian => Escrow.setGuardian c newGuardian w
  | .setPaused paused => Escrow.setPaused c paused w
  | .pause => Escrow.pause c w
  | .decayGuardianPause => Escrow.decayGuardianPause w
  | .setAssetAllowed asset allowed => Escrow.setAssetAllowed c asset allowed w
  | .setMaxIntentAmountPerAsset asset maxAmount =>
      Escrow.setMaxIntentAmountPerAsset c asset maxAmount w
  | .setMaxIntentAmount maxAmount => Escrow.setMaxIntentAmount c maxAmount w
  | .setRollingWindowCap windowDuration cap => Escrow.setRollingWindowCap c windowDuration cap w
  | .setRollingWindowCapForAsset asset windowDuration cap =>
      Escrow.setRollingWindowCapForAsset c asset windowDuration cap w
  | .resetRollingWindowCap => Escrow.resetRollingWindowCap c w
  | .transferOwnership newOwner => Escrow.transferOwnership c newOwner w
  | .cancelOwnershipTransfer => Escrow.cancelOwnershipTransfer c w
  | .acceptOwnership => Escrow.acceptOwnership c w
  | .skim token receiver amount => Escrow.skim c token receiver amount w
  | .skimNative receiver amount => Escrow.skimNative c receiver amount w
  | .lock intent signature => Escrow.lock c intent signature w
  | .lzReceive origin message => Escrow.lzReceive c origin message w
  | .cancelExpired intentHash => Escrow.cancelExpired c intentHash w

end Call

structure Tx where
  sender : Address
  value : Nat
  timestamp : Nat
  host : Host
  call : Call

def Tx.context (tx : Tx) (d : Deployment) : Context :=
  { toDeployment := d, toHost := tx.host, sender := tx.sender, value := tx.value }

/-- The state a call body starts from: `msg.value` has arrived. -/
def World.enter (w : World) (tx : Tx) : World :=
  { w with timestamp := tx.timestamp, balance := w.balance + tx.value }

def exec (d : Deployment) (tx : Tx) (w : World) : Except Revert World := do
  require (tx.value = 0 ∨ tx.call.payable) .nonPayable
  tx.call.run (tx.context d) (w.enter tx)

/-- What the constructor is given, and what already sits at the address. -/
structure Creation where
  deployer : Address
  timestamp : Nat
  balanceOf : Address → Nat
  balance : Nat

def construct (d : Deployment) (creation : Creation) : Except Revert World := do
  require (d.endpoint ≠ 0) .zeroAddress
  return {
    owner := creation.deployer
    pendingOwner := 0
    guardian := 0
    stellarPeer := 0
    confirmationGrace := 7200
    paused := false
    guardianPauseExpiry := 0
    guardianPauseCooldownUntil := 0
    assetAllowed := fun _ => false
    maxIntentAmountPerAsset := fun _ => 0
    maxIntentAmount := 0
    rollingWindowDuration := 0
    rollingWindowCap := 0
    rollingWindowCapPerAsset := fun _ => 0
    rollingWindowTriggered := false
    rollingWindowTriggeredAsset := 0
    rollingWindowResetEarliestAt := 0
    locks := fun _ => default
    totalLocked := fun _ => 0
    rollingWindowBuckets := fun _ _ => 0
    latestWindowStart := fun _ => 0
    inboundNonce := fun _ => 0
    inboundNonceBitmap := fun _ _ => 0
    reentrancy := 1
    balanceOf := creation.balanceOf
    balance := creation.balance
    timestamp := creation.timestamp
    trace := [.setDelegate creation.deployer, .emit (.ownershipTransferred 0 creation.deployer)] }

inductive Input where
  | tx (tx : Tx)
  | tokenArrives (token : Address) (amount : Nat)
  | nativeArrives (amount : Nat)

/-- A reverted transaction is no step; block time never runs back. -/
def next (d : Deployment) (w : World) : Input → Option World
  | .tx tx => if w.timestamp ≤ tx.timestamp then (exec d tx w).toOption else none
  | .tokenArrives token amount => some { w with
      balanceOf := Function.update w.balanceOf token (w.balanceOf token + amount) }
  | .nativeArrives amount => some { w with balance := w.balance + amount }

def system (d : Deployment) : System World Input where
  init w := ∃ creation, construct d creation = .ok w
  step w input w' := next d w input = some w'

/-- All of `inputs` in order, if none is refused. -/
def replay (d : Deployment) (w : World) (inputs : List Input) : Option World :=
  System.replay (next d) w inputs

theorem later_of_replay {d : Deployment} {w w' : World} {inputs : List Input}
    (replayed : replay d w inputs = some w') : (system d).Later w w' :=
  System.Later.of_replay (S := system d) (fun _ _ _ stepped => stepped) replayed

theorem next_tx {d : Deployment} {w w' : World} {tx : Tx} :
    next d w (.tx tx) = some w' ↔ w.timestamp ≤ tx.timestamp ∧ exec d tx w = .ok w' := by
  unfold next
  cases outcome : exec d tx w with
  | error e => simp [outcome, Except.toOption]
  | ok v => simp [outcome, Except.toOption]

/-! ## A run

A deployment on chain 1 whose owner configures a peer and one asset, and a contract
wallet's intent that a solver locks.  The hash is `keccak256` on the inputs that this
intent, and the same one with the last possible deadline, feed it.
-/

namespace Sample

def owner : Address := 0xA11CE
def solver : Address := 0x501
def wallet : Address := 0x5AFE
def token : Address := 0x70CE
def endpoint : Address := 0xE2D9
def peer : Bytes32 := 0x57E11A

def keccak256 (input : Bytes) : Bytes32 :=
  match input.length with
  | 82 => 0x8b73c3c69bb8fe3d512ecc4cf759cc79239f7b179b0ffacaa9a75d522b39400f
  | 10 => 0xa998937a1094b369cb7ab688c229aa139c465a6cd9d8ef8883a8f4eff7b052e2
  | 1 => 0xc89efdaa54c0f20c7adf612882df0950f5a951637e0307cdcb4c672f298b8bc6
  | 160 => 0xe95339d0ca42c5a73b801f427d7c6d94987c1ad2163eb7e40e94577a9bb0ac2a
  | 196 => 0x7abd7c301d64bfea997618d1180b0ed298cd0e7835042c6acf9e8c43496a86c2
  | 56 => 0x9de93c4d10a562d19423051239585c8dfdfb7500b200fb3fffd21d17d250ae4d
  | 6 => 0xbefae8b7ff926e5ec4428d291aa6cb21f134a3e9f02ace30ff61c382a104c57f
  | 352 =>
      if field input 256 32 = encode 32 1700010000 then
        0x7b50b8c1639ff3e5bcf1e25c55605a2c9c725f731954d53b128f297eb939f9ab
      else 0x6f4cebca31f688030c97636b520eee9a9ca87eced539963a73699b90f65331a1
  | 66 =>
      if field input 34 1 = [0x7b] then
        0xc5044497aae50b4712ffbe528161296b43fe3b08ca1944044ff7b251fae53f7e
      else 0x011a413dcbb8c68186c9c4019db03cfca6e63d48541eb0ee5f10289809927786
  | _ => 0

/-- No account of the run signs with a key, so nothing is recovered. -/
def deployment : Deployment where
  this := 0xE5C0
  endpoint := endpoint
  stellarEid := 30600
  chainid := 1
  keccak256 := keccak256
  ecrecover _ _ _ _ := 0

/-- A token that returns `true`, a wallet that accepts and an endpoint that asks for five wei. -/
def host : Host where
  hasCode account := account == token || account == wallet || account == endpoint
  isValidSignature account _ _ :=
    if account = wallet then some (erc1271Selector ++ List.replicate 28 0) else none
  transfer _ _ _ := some (encode 32 1)
  transferFrom _ _ amount := some (encode 32 1, amount)
  quote _ _ := some 5
  send _ _ _ := some 0
  acceptsNative _ _ _ := some 0

def intent : Intent where
  user := wallet
  destination := ascii "GADQOBYHA4DQOBYHA4DQOBYHA4DQOBYHA4DQOBYHA4DQOBYHA4DQOZPI"
  sourceChainId := 1
  sourceAsset := token
  sourceAmount := 100
  destAsset := ascii "native"
  minDestAmount := 90
  deadline := 1700010000
  nonce := 7
  preferredSolver := 0

def intentHash : Bytes32 := 0xc5044497aae50b4712ffbe528161296b43fe3b08ca1944044ff7b251fae53f7e

def tx (sender : Address) (value timestamp : Nat) (call : Call) : Tx :=
  { sender, value, timestamp, host, call }

def setup : List Input := [
  .tx (tx owner 0 1700000000 (.setPeer peer)),
  .tx (tx owner 0 1700000000 (.setAssetAllowed token true)),
  .tx (tx owner 0 1700000000 (.setMaxIntentAmountPerAsset token 1000)),
  .nativeArrives 10]

def lockTx : Tx := tx solver 8 1700000100 (.lock intent [])

def creation : Creation := ⟨owner, 1700000000, fun _ => 0, 0⟩

def created : World := (construct deployment creation).toOption.get (by decide +kernel)

def ready : World := (replay deployment created setup).get (by decide +kernel)

def locked : World := (replay deployment ready [.tx lockTx]).get (by decide +kernel)

example : (locked.locks intentHash).amount = 100 := by decide +kernel

theorem created_reachable : (system deployment).Reachable created :=
  .init ⟨creation, rfl⟩

theorem ready_reachable : (system deployment).Reachable ready :=
  created_reachable.later
    (later_of_replay (show replay deployment created setup = some ready by simp [ready]))

theorem locked_reachable : (system deployment).Reachable locked :=
  ready_reachable.later
    (later_of_replay (show replay deployment ready [.tx lockTx] = some locked by simp [locked]))

end Sample

end Perihelion.Escrow

import Perihelion.Lib.Transition
import Perihelion.Timelock.Operations

/-! # The timelock as a transition system

One step is one call of an entry point that did not revert, or one end of the
external call that `execute` makes.  While that call is open the code of other
accounts runs, and may enter every entry point again; where the target is the
timelock itself, the timelock's own function runs instead.  If it fails, the whole
`execute` is undone.
-/

namespace Perihelion.Timelock

open BigEndian Fallible Transition

inductive Call where
  | propose (target : Address) (value : Nat) (data : Bytes) (salt : Bytes32)
  | confirm (id : Bytes32)
  | revokeConfirmation (id : Bytes32)
  | execute (target : Address) (value : Nat) (data : Bytes) (salt : Bytes32)
  | cancel (id : Bytes32)
  | addOwner (owner_ : Address)
  | removeOwner (owner_ : Address)
  | setThreshold (threshold_ : Nat)
  | setDelay (delay_ : Nat)
  | receive
  /-- One of the view functions. -/
  | getter
  deriving DecidableEq

namespace Call

def payable : Call → Bool
  | .execute .. | .receive => true
  | _ => false

def run (c : Context) (w : World) : Call → Except Revert World
  | .propose target value data salt => Timelock.propose c target value data salt w
  | .confirm id => Timelock.confirm c id w
  | .revokeConfirmation id => Timelock.revokeConfirmation c id w
  | .execute target value data salt => Timelock.execute c target value data salt w
  | .cancel id => Timelock.cancel c id w
  | .addOwner owner_ => Timelock.addOwner c owner_ w
  | .removeOwner owner_ => Timelock.removeOwner c owner_ w
  | .setThreshold threshold_ => Timelock.setThreshold c threshold_ w
  | .setDelay delay_ => Timelock.setDelay c delay_ w
  | .receive => .ok w
  | .getter => .ok w

/-- The value an open call has taken from the balance. -/
def spends : Call → Nat
  | .execute _ value _ _ => value
  | _ => 0

end Call

/-- What is fixed for the life of the contract: its address, the EVM's hash, and which
    function the compiled dispatcher runs for non-empty calldata. -/
structure Deployment where
  this : Address
  keccak256 : Bytes → Bytes32
  dispatch : Bytes → Option Call

def Deployment.context (d : Deployment) (sender : Address) : Context :=
  ⟨d.this, d.keccak256, sender⟩

/-- The external call of an `execute` in progress. -/
structure Frame where
  target : Address
  value : Nat
  data : Bytes
  /-- The target is the timelock, and its own function has returned. -/
  returned : Bool
  /-- What comes back if the call fails. -/
  before : World

structure State where
  world : World
  frame : Option Frame

inductive Input where
  /-- Another account calls the timelock. -/
  | call (sender : Address) (msgValue : Nat) (call : Call)
  /-- The timelock runs the function that an open call of its own names. -/
  | selfCall
  | returns
  | fails
  /-- Ether that no call carries. -/
  | arrives (amount : Nat)
  | passes (seconds : Nat)

/-- One call from `sender` with `msgValue`, and the balance it leaves. -/
def enter (d : Deployment) (sender : Address) (msgValue : Nat) (call : Call) (w : World) :
    Except Revert World := do
  require (msgValue = 0 ∨ call.payable) .nonPayable
  let w ← call.run (d.context sender) { w with balance := w.balance + msgValue }
  require (call.spends ≤ w.balance) .callFailed
  return { w with balance := w.balance - call.spends }

/-- The function of the timelock that `execute` calls, for calldata `data`. -/
def Frame.called (d : Deployment) (f : Frame) : Option Call :=
  if f.data = [] then some .receive else d.dispatch f.data

/-- The timelock's own function, called by the timelock with what it has spent. -/
def runSelf (d : Deployment) (f : Frame) (w : World) : Except Revert World := do
  let call ← expect .noFunction (f.called d)
  enter d d.this f.value call w

/-- The frame that a call leaves open; `before` is the state it started from. -/
def opened (before : World) (frame : Option Frame) : Call → Option Frame
  | .execute target value data _ => some ⟨target, value, data, false, before⟩
  | _ => frame

def next (d : Deployment) (s : State) : Input → Option State
  | .call sender msgValue call =>
      if sender ≠ d.this ∧ ∀ f ∈ s.frame, f.target ≠ d.this then
        (enter d sender msgValue call s.world).toOption.map
          fun w => { world := w, frame := opened s.world s.frame call }
      else none
  | .selfCall => do
      let f ← s.frame
      if f.target = d.this ∧ f.returned = false then
        let w ← (runSelf d f s.world).toOption
        some { world := w, frame := some { f with returned := true } }
      else none
  | .returns => do
      let f ← s.frame
      if f.target = d.this → f.returned = true then
        some { world := { s.world with reentrancy := 1 }, frame := none }
      else none
  | .fails => do
      let f ← s.frame
      if f.target = d.this → f.returned = false ∧ (runSelf d f s.world).toOption.isNone then
        some { world := f.before, frame := none }
      else none
  | .arrives amount =>
      some { s with world := { s.world with balance := s.world.balance + amount } }
  | .passes seconds =>
      if s.frame.isNone then
        some { s with world := { s.world with timestamp := s.world.timestamp + seconds } }
      else none

/-- What the constructor is given, and what already sits at the address. -/
structure Creation where
  owners_ : List Address
  threshold_ : Nat
  delay_ : Nat
  balance : Nat
  timestamp : Nat

def Creation.world (creation : Creation) : Except Revert World :=
  construct creation.owners_ creation.threshold_ creation.delay_ creation.balance creation.timestamp

def system (d : Deployment) : System State Input where
  init s := s.frame = none ∧ ∃ creation : Creation, creation.world = .ok s.world
  step s input s' := next d s input = some s'

/-- The entry point an input makes the timelock run, and for whom. -/
def performed (d : Deployment) (s : State) : Input → Option (Address × Call)
  | .call sender _ call => some (sender, call)
  | .selfCall => s.frame.bind fun f => (f.called d).map fun call => (d.this, call)
  | _ => none

/-- The steps whose call, if they run one, meets a condition on the state before it. -/
def Performs (d : Deployment) (condition : World → Address → Call → Prop) (s : State)
    (input : Input) : Prop :=
  ∀ sender call, performed d s input = some (sender, call) → condition s.world sender call

/-! ## The contract alone

Every world of a run, the ones that a failing call would bring back included, is
reached by calls of entry points, the guard's release and the passing of time.
-/

inductive Move where
  | call (sender : Address) (msgValue : Nat) (call : Call)
  | release
  | arrives (amount : Nat)
  | passes (seconds : Nat)

def act (d : Deployment) (w : World) : Move → Option World
  | .call sender msgValue call => (enter d sender msgValue call w).toOption
  | .release => some { w with reentrancy := 1 }
  | .arrives amount => some { w with balance := w.balance + amount }
  | .passes seconds => some { w with timestamp := w.timestamp + seconds }

def Meets (condition : World → Address → Call → Prop) (w : World) : Move → Prop
  | .call sender _ call => condition w sender call
  | _ => True

/-- The contract's worlds while every call meets the condition. -/
def contract (d : Deployment) (condition : World → Address → Call → Prop) : System World Move where
  init w := ∃ creation : Creation, creation.world = .ok w
  step w move w' := act d w move = some w' ∧ Meets condition w move

/-! ## A run

Three owners, two of whom must agree, propose to unpause the escrow and to remove
one of them.  The hash is `keccak256` on the encodings of these two calls.
-/

/-- All of `inputs` in order, if none is refused. -/
def replay (d : Deployment) (s : State) (inputs : List Input) : Option State :=
  System.replay (next d) s inputs

theorem later_of_replay {d : Deployment} {s s' : State} {inputs : List Input}
    (replayed : replay d s inputs = some s') : (system d).Later s s' :=
  System.Later.of_replay (S := system d) (fun _ _ _ stepped => stepped) replayed

namespace Sample

def timelock : Address := 0x71E1
def escrow : Address := 0xE5C0
def alice : Address := 0xA11CE
def bob : Address := 0xB0B
def carol : Address := 0xCA401

/-- `setPaused(false)`. -/
def unpauseData : Bytes := encode 4 0x16c38b3c ++ encode 32 0
/-- `removeOwner(alice)`. -/
def removalData : Bytes := encode 4 0x173825d9 ++ encode 32 alice.toNat

def unpauseId : Bytes32 := 0x17406cad5d8157953b9d62d3a6e4a5e7524b9d87836446d82c222aede2fcd746
def removalId : Bytes32 := 0x31dcb87457dec4ca4d2f0f611939a60bfce7826630c69f66aec1b228dfd8fe58

def deployment : Deployment where
  this := timelock
  keccak256 input := if input = abiEncode timelock 0 removalData 0 then removalId else unpauseId
  dispatch data := if data = removalData then some (.removeOwner alice) else none

def creation : Creation := ⟨[alice, bob, carol], 2, 86400, 0, 1700000000⟩

def created : State := ⟨creation.world.toOption.get (by decide +kernel), none⟩

def proposeUnpause (sender : Address) : Input := .call sender 0 (.propose escrow 0 unpauseData 0)
def executeUnpause (sender : Address) : Input := .call sender 0 (.execute escrow 0 unpauseData 0)

/-- Bob and carol remove alice. -/
def removal : List Input := [
  .call bob 0 (.propose timelock 0 removalData 0),
  .call carol 0 (.confirm removalId),
  .passes 86400,
  .call bob 0 (.execute timelock 0 removalData 0),
  .selfCall,
  .returns]

/-- Alice and bob agree to unpause. -/
def agreement : List Input := [proposeUnpause alice, .call bob 0 (.confirm unpauseId)]

def agreed : State := (replay deployment created (agreement ++ [.passes 86400])).get (by decide +kernel)

def removed : State := (replay deployment created removal).get (by decide +kernel)

example : removed.world.owners = [carol, bob] := by decide +kernel

theorem created_reachable : (system deployment).Reachable created :=
  .init ⟨rfl, creation, rfl⟩

theorem agreed_reachable : (system deployment).Reachable agreed :=
  created_reachable.later
    (later_of_replay
      (show replay deployment created (agreement ++ [.passes 86400]) = some agreed by simp [agreed]))

theorem removed_reachable : (system deployment).Reachable removed :=
  created_reachable.later
    (later_of_replay (show replay deployment created removal = some removed by simp [removed]))

end Sample

end Perihelion.Timelock

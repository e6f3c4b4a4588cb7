import Perihelion.Lib.Logged
import Perihelion.Relayer.Text
import Perihelion.Sdk.IntentRecord
import Perihelion.Settlement.State

/-! # The executor of a fill

`fill` runs through its stages: the lock on the escrow, the wait for the registration on Stellar
and `fill_intent`.  What the two chains and the libraries answer is given for each attempt; what
it sets off is logged.
-/

namespace Perihelion.SolverNode

open Sdk BigEndian Logged

/-! ## What is asked outside -/

/-- The libraries.  `getAddress` prints an address, `encodingError` is the message where an
    intent's numbers cannot be encoded. -/
structure Libraries extends Viem where
  privateKeyToAccount : JsString → Escrow.Address
  getAddress : Escrow.Address → JsString
  toBytes32 : JsString → Bytes32
  encodingError : Intent → JsString
  publicKey : JsString → JsString

/-- A value that viem decodes. -/
inductive AbiValue where
  | undefined
  | address (a : Escrow.Address)
  | uint (n : Nat)
  | bool (b : Bool)
  deriving DecidableEq

/-- What simulating `status` comes to. -/
inductive StatusReply where
  | threw (err : JsString)
  | unsuccessful
  | returned (retval : ScVal)

/-- One reading of the status, and the clock in seconds after it. -/
structure Poll where
  reply : StatusReply
  now : Int

structure Receipt where
  gasUsed : Option Nat
  effectiveGasPrice : Option Nat

inductive Written where
  | broadcast (txHash : JsString)
  | reverted
  | failed (err : JsString)

inductive Simulated where
  | success
  | unsuccessful (err : JsString)
  | threw (err : JsString)

/-- The answers to one attempt, in the order in which they are asked for. -/
structure FillAnswers where
  status : StatusReply
  locks : Except JsString (List AbiValue)
  quoteFee : Except JsString Nat
  written : Written
  receipt : Except JsString Receipt
  confirmed : Except JsString Unit
  polls : List Poll
  getAccount : Except JsString Unit
  quotedFee : Except JsString Int
  simulated : Simulated
  submitted : Except JsString JsString

inductive FillStage where
  | lock
  | wait
  | fill
  | done
  | lost
  deriving DecidableEq

def FillStage.text : FillStage → JsString
  | .lock => js "lock"
  | .wait => js "wait"
  | .fill => js "fill"
  | .done => js "done"
  | .lost => js "lost"

/-- A `DefiniteFailureError`, or any other one. -/
inductive Failure where
  | definite (message : JsString)
  | other (message : JsString)

inductive Effect where
  | stage (intentHash : JsString) (stage : FillStage)
  /-- `lock` is sent to the escrow. -/
  | lock (intent : Escrow.Intent) (signature : JsString) (value : Nat)
  /-- `fill_intent` is sent to the settlement contract. -/
  | fillIntent (solver : JsString) (solverEvm intentHash : Bytes) (fillAmount : Nat) (lzFee : Int)

abbrev Promise (α : Type) := Logged Effect Failure α

def answer {α : Type} (reply : Except JsString α) : Promise α := ofExcept (reply.mapError .other)

/-! ## The executor -/

structure ExecutorConfig where
  evmPrivateKey : JsString
  sorobanSecretKey : JsString
  lzFeeBufferStroops : Option Int
  sourceConfirmations : Option Int
  persistStage : Option (JsString → FillStage → Except JsString Unit)
  loadStage : Option (JsString → Except JsString (Option FillStage))

structure Executor extends ExecutorConfig

/-- The constructor copies the keys.  The four optional fields it leaves `undefined`. -/
def Executor.new (config : ExecutorConfig) : Executor where
  evmPrivateKey := config.evmPrivateKey
  sorobanSecretKey := config.sorobanSecretKey
  lzFeeBufferStroops := none
  sourceConfirmations := none
  persistStage := none
  loadStage := none

/-- `get address()`. -/
def Executor.address (executor : Executor) (libs : Libraries) : Escrow.Address :=
  libs.privateKeyToAccount executor.evmPrivateKey

def setStage (executor : Executor) (intentHash : JsString) (stage : FillStage) : Promise PUnit := do
  note (.stage intentHash stage)
  match executor.persistStage with
  | none => pure ⟨⟩
  | some persistStage => do
      answer (persistStage intentHash stage)
      pure ⟨⟩

/-- `BigInt(n)`. -/
def toBigInt : JsNumber → Except JsString Int
  | .integer n => .ok n.value
  | .other printed => .error (js "The number " ++ printed ++
      js " cannot be converted to a BigInt because it is not an integer")

/-- The bytes of hex digits: a hash has nothing else. -/
def hexToBytes (hex : JsString) : Except JsString Bytes :=
  let clean := Relayer.strip0x hex
  if clean.length % 2 ≠ 0 then .error (js "Invalid hex length: " ++ hex)
  else .ok ((Hex.parse (Relayer.toLowerCase clean)).getD [])

/-! ## The status on Stellar -/

/-- Declared as `string | null`.  A boolean is what comes. -/
inductive Variant where
  | null
  | boolean (b : Bool)
  | string (s : JsString)
  deriving DecidableEq

/-- `${variant ?? "unknown"}`. -/
def Variant.text : Variant → JsString
  | .null => js "unknown"
  | .boolean b => js (toString b)
  | .string s => s

def readStatus (intentHash : JsString) : StatusReply → Except JsString Variant
  | .threw err => .error err
  | .unsuccessful => (hexToBytes intentHash).map fun _ => .null
  | .returned retval => do
      let _ ← hexToBytes intentHash
      -- `IntentStatus` is the enum that the SDK calls `OnChainIntentStatus`
      let status ← decodeIntentStatus retval.object
      return .boolean (status = some .filled ∨ status = some .confirmationSent)

/-- The decoder takes no value of the RPC server's. -/
theorem readStatus_returned (intentHash : JsString) (retval : ScVal) :
    ∃ err, readStatus intentHash (.returned retval) = .error err := by
  simp only [readStatus, decodeIntentStatus_object]
  cases hexToBytes intentHash with
  | error err => exact ⟨err, rfl⟩
  | ok bytes => exact ⟨js "Unexpected IntentStatus value: [object Object]", rfl⟩

def isSettled (intentHash : JsString) (reply : StatusReply) : Except JsString Bool :=
  (readStatus intentHash reply).map fun variant => variant = .string (js "Settled")

structure FillStatus where
  filled : Bool
  settlementTx : Option JsString

/-- A failed query counts as not filled. -/
def checkFillStatus (intentHash : JsString) (reply : StatusReply) : FillStatus :=
  match isSettled intentHash reply with
  | .ok true => ⟨true, some intentHash⟩
  | _ => ⟨false, none⟩

/-! ## The lock -/

/-- The getter's outputs, in the order of the contract's struct. -/
def locksOutput (lock : Escrow.Lock) : List AbiValue := [
  .address lock.solver,
  .address lock.user,
  .address lock.asset,
  .uint lock.amount,
  .uint lock.minDestAmount,
  .uint lock.deadline,
  .bool lock.released,
  .bool lock.refunded]

structure EscrowLock where
  user : AbiValue
  solver : AbiValue
  released : AbiValue
  refunded : AbiValue

/-- `const [user, solver, released, refunded] = result`: for several outputs viem returns an
    array. -/
def getLock (result : List AbiValue) : EscrowLock where
  user := result.getD 0 .undefined
  solver := result.getD 1 .undefined
  released := result.getD 2 .undefined
  refunded := result.getD 3 .undefined

def AbiValue.truthy : AbiValue → Bool
  | .undefined => false
  | .address _ => true
  | .uint n => n ≠ 0
  | .bool b => b

/-- The address that is compared in lower case.  Nothing else has a `toLowerCase`. -/
def AbiValue.toLowerCase : AbiValue → Except JsString Escrow.Address
  | .address a => .ok a
  | .undefined => .error (js "Cannot read properties of undefined (reading 'toLowerCase')")
  | .uint _ | .bool _ => .error (js "existing.solver.toLowerCase is not a function")

def AbiValue.text (libs : Libraries) : AbiValue → JsString
  | .undefined => js "undefined"
  | .address a => libs.getAddress a
  | .uint n => js (toString n)
  | .bool b => js (toString b)

structure LockResult where
  txHash : JsString
  gasWei : Nat
  lzFeeWei : Nat

def contractIntent (libs : Libraries) (intent : Intent) : Except JsString Escrow.Intent :=
  match toMessage libs.toViem intent with
  | some message => .ok message
  | none => .error (libs.encodingError intent)

def lockOnEvm (libs : Libraries) (signed : SignedIntent) (answers : FillAnswers) :
    Promise LockResult := do
  let intent ← answer (contractIntent libs signed.intent)
  let nativeFee ← answer answers.quoteFee
  note (.lock intent signed.signature nativeFee)
  match answers.written with
  | .reverted => fail (.definite (js "escrow lock reverted"))
  | .failed err => fail (.other err)
  | .broadcast txHash => do
      let receipt ← answer answers.receipt
      pure ⟨txHash, receipt.gasUsed.getD 0 * receipt.effectiveGasPrice.getD 0, nativeFee⟩

/-- Where the stages before have left the attempt. -/
structure Progress where
  stage : FillStage
  lockTx : Option JsString
  sourceGasWei : Nat
  lzFeeWei : Nat

def lockStage (libs : Libraries) (executor : Executor) (signed : SignedIntent)
    (answers : FillAnswers) : Promise Progress := do
  let hash := signed.hash
  let result ← answer answers.locks
  let existing := getLock result
  if existing.user ≠ .address 0 then
    let solver ← answer existing.solver.toLowerCase
    if solver ≠ executor.address libs then
      setStage executor hash .lost
      fail (.definite (js "intent " ++ hash ++ js " already locked by another solver " ++
        existing.solver.text libs))
    else if existing.released.truthy || existing.refunded.truthy then
      fail (.definite (js "intent " ++ hash ++ js " lock already " ++
        (if existing.released.truthy then js "released" else js "refunded")))
    else
      setStage executor hash .wait
      pure ⟨.wait, none, 0, 0⟩
  else
    let locked ← lockOnEvm libs signed answers
    setStage executor hash .wait
    pure ⟨.wait, some locked.txHash, locked.gasWei, locked.lzFeeWei⟩

/-! ## The wait -/

/-- `undefined <= 0` is false. -/
def waitForSourceConfirmations (executor : Executor) (answers : FillAnswers) : Promise Unit :=
  if executor.sourceConfirmations.any (· ≤ 0) then pure () else answer answers.confirmed

/-- The executor's own bound, not the one of `evaluate`. -/
def Executor.minFillHeadroomSecs : Int := 60

/-- The loop of `waitForRegistration`. -/
def pollRegistration (intentHash : JsString) (cutoff : Int) : List Poll → Promise Unit
  | [] => wait
  | poll :: polls => do
      let variant ← answer (readStatus intentHash poll.reply)
      if variant = .string (js "Locked") then pure ()
      else if variant = .string (js "Settled") then pure ()
      else if variant = .string (js "Cancelled") ∨ variant = .string (js "Refunded") then
        fail (.definite (js "intent " ++ intentHash ++ js " is " ++ variant.text ++ js " before fill"))
      else if cutoff ≤ poll.now then
        fail (.other (js "intent " ++ intentHash ++
          js " not registered before deadline headroom (status=" ++ variant.text ++ js ")"))
      else pollRegistration intentHash cutoff polls

def waitForRegistration (signed : SignedIntent) (answers : FillAnswers) : Promise Unit := do
  let deadline ← answer (toBigInt signed.intent.deadline)
  pollRegistration signed.hash (deadline - Executor.minFillHeadroomSecs) answers.polls

def waitStage (executor : Executor) (signed : SignedIntent) (answers : FillAnswers)
    (lockTx : Option JsString) : Promise FillStage := do
  if lockTx.any (· ≠ []) then waitForSourceConfirmations executor answers
  waitForRegistration signed answers
  setStage executor signed.hash .fill
  pure .fill

/-! ## The fill -/

/-- The address in the last 20 of 32 bytes. -/
def evmAddressToBytes32 (address : Escrow.Address) : Bytes := encode 32 address.toNat

def fillOnSoroban (libs : Libraries) (executor : Executor) (signed : SignedIntent)
    (answers : FillAnswers) : Promise JsString := do
  answer answers.getAccount
  let hashBytes ← answer (hexToBytes signed.hash)
  let quotedFee ← answer answers.quotedFee
  match executor.lzFeeBufferStroops with
  -- `quotedFee + undefined`
  | none => fail (.other (js "Cannot mix BigInt and other types, use explicit conversions"))
  | some lzFeeBufferStroops =>
      match answers.simulated with
      | .threw err => fail (.other err)
      | .unsuccessful err => fail (.definite (js "fill_intent simulation failed: " ++ err))
      | .success => do
          note (.fillIntent (libs.publicKey executor.sorobanSecretKey)
            (evmAddressToBytes32 (executor.address libs)) hashBytes
            (bigInt signed.intent.minDestAmount) (quotedFee + lzFeeBufferStroops))
          answer answers.submitted

structure FillFees where
  sourceGasWei : Nat
  lzFeeWei : Nat
  stellarFeeStroops : Nat

structure Filled where
  settlementTx : JsString
  fees : Option FillFees

/-- The hash comes back as a string, which has no fee. -/
def fillStage (libs : Libraries) (executor : Executor) (signed : SignedIntent)
    (answers : FillAnswers) (progress : Progress) : Promise Filled := do
  let settlementTx ← fillOnSoroban libs executor signed answers
  setStage executor signed.hash .done
  pure ⟨settlementTx, some ⟨progress.sourceGasWei, progress.lzFeeWei, 0⟩⟩

def loadStage (executor : Executor) (intentHash : JsString) : Promise FillStage :=
  match executor.loadStage with
  | none => pure .lock
  | some loadStage => do
      let stage ← answer (loadStage intentHash)
      pure (stage.getD .lock)

def fill (libs : Libraries) (executor : Executor) (signed : SignedIntent) (answers : FillAnswers) :
    Promise Filled := do
  let hash := signed.hash
  let status := checkFillStatus hash answers.status
  match (if status.filled then status.settlementTx.filter (· ≠ []) else none) with
  | some settlementTx => do
      setStage executor hash .done
      pure ⟨settlementTx, none⟩
  | none => do
      let stage ← loadStage executor hash
      let locked ← if stage = .lock then lockStage libs executor signed answers
        else pure ⟨stage, none, 0, 0⟩
      let reached ← if locked.stage = .wait then waitStage executor signed answers locked.lockTx
        else pure locked.stage
      if reached = .fill then fillStage libs executor signed answers { locked with stage := reached }
      else fail (.other (js "fill for " ++ hash ++ js " cannot proceed from stage " ++ reached.text))

end Perihelion.SolverNode

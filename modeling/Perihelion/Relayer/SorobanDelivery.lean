import Mathlib.Data.List.Infix
import Perihelion.Lib.Logged
import Perihelion.Relayer.LockedLog
import Perihelion.Relayer.SorobanWatcher
import Perihelion.Sdk.Units
import Perihelion.Settlement.State

/-! # Delivery to the settlement contract

`SorobanDestinationDelivery.deliver` makes one `lz_receive_bytes` transaction of a message,
restores archived entries where the simulation asks for it, and waits for a ledger.  What the RPC
node answers is given; what is sent to it is logged.
-/

namespace Perihelion.Relayer.Soroban

open BigEndian Fallible Logged
open Sdk (JsString js)
open Settlement (IntentStatus)

/-! ## Exceptions -/

inductive Thrown where
  | fatal (message : JsString)
  /-- `printed` is what `String(err)` gives. -/
  | error (message printed : JsString)
  /-- Not an `Error`. -/
  | value (printed : JsString)

/-- `new Error(message)`. -/
def Thrown.new (message : JsString) : Thrown := .error message (js "Error: " ++ message)

/-! ## Transactions -/

inductive Operation where
  | lzReceiveBytes (contract : JsString) (origin : Settlement.Origin) (guid payload : Bytes)
  | restoreFootprint
  deriving DecidableEq

/-- A transaction of the signer.  `resources` is what a simulation has found it to need. -/
structure Transaction where
  sequence : Nat
  fee : JsString
  timeoutSeconds : Nat
  operation : Operation
  resources : Option JsString
  deriving DecidableEq

inductive Effect where
  | simulateTransaction (transaction : Transaction)
  | sendTransaction (transaction : Transaction)
  | getTransaction (hash : JsString)
  | sleep (milliseconds : Nat)

abbrev Delivering (α : Type) := Logged Effect Thrown α

/-! ## `submitAndWait` -/

inductive TransactionStatus where
  | success
  | failed (resultXdr : JsString)
  | notFound

/-- What `sendTransaction` comes to.  `taken` stands for `PENDING` and `DUPLICATE`, with the answers
    to `getTransaction` after it. -/
inductive Sent where
  | error (errorXdr : Option JsString)
  | tryAgainLater (hash : JsString)
  | taken (hash : JsString) (polls : List (Except Thrown TransactionStatus))

def maxAttempts : Nat := 20
def pollIntervalMs : Nat := 1000
def maxResubmits : Nat := 3
def backoffMs : Nat := 1000

/-- The loop over `getTransaction`, with the attempts that are left. -/
def pollTransaction (hash : JsString) : Nat → List (Except Thrown TransactionStatus) → Delivering JsString
  | 0, _ => fail (.new (js "Transaction confirmation timeout: " ++ hash))
  | _ + 1, [] => wait
  | left + 1, reply :: replies => do
      note (.getTransaction hash)
      match reply with
      | .error thrown => fail thrown
      | .ok .success => pure hash
      | .ok (.failed resultXdr) => fail (.new (js "Transaction failed: " ++ resultXdr))
      | .ok .notFound => do
          note (.sleep pollIntervalMs)
          pollTransaction hash left replies

def submitAndWait (transaction : Transaction) (resubmits : Nat) :
    List (Except Thrown Sent) → Delivering JsString
  | [] => wait
  | reply :: replies => do
      note (.sendTransaction transaction)
      match reply with
      | .error thrown => fail thrown
      | .ok (.error errorXdr) =>
          fail (.new (js "Transaction rejected by RPC: " ++ errorXdr.getD (js "unknown error")))
      | .ok (.tryAgainLater hash) =>
          if maxResubmits ≤ resubmits then
            fail (.new (js "Transaction not accepted after " ++ js (toString resubmits) ++
              js " retries: " ++ hash))
          else do
            note (.sleep (backoffMs * (resubmits + 1)))
            submitAndWait transaction (resubmits + 1) replies
      | .ok (.taken hash polls) => pollTransaction hash maxAttempts polls

/-! ## Views -/

/-- What simulating a view comes to.  `returned none`: there is no result. -/
inductive ViewReply where
  | threw
  | unsuccessful
  | returned (retval : Option Native)

/-- A number stands as what it prints as. -/
def decodeIntentStatus : Option Native → Option IntentStatus
  | some (.number printed) =>
      if printed = js "0" then some .locked
      else if printed = js "1" then some .filled
      else if printed = js "2" then some .confirmationSent
      else if printed = js "3" then some .cancelled
      else none
  | some (.bigint value) =>
      match value with
      | 0 => some .locked
      | 1 => some .filled
      | 2 => some .confirmationSent
      | 3 => some .cancelled
      | _ => none
  | _ => none

def readStatus : ViewReply → Option IntentStatus
  | .returned retval => decodeIntentStatus retval
  | _ => none

/-- `/^0x[0-9a-fA-F]{64}$/`, which `intentHashScVal` asks for. -/
def isIntentHash (intentHash : JsString) : Bool := Evm.isHexWord 64 intentHash

/-- Every exception counts as no. -/
def isDelivered (messageType : MessageType) (intentHash : JsString) (reply : ViewReply) : Bool :=
  if isIntentHash intentHash then
    match messageType with
    | .fillInstruction => (readStatus reply).isSome
    | .cancelIntent => readStatus reply = some .cancelled
    | .fillConfirmed => readStatus reply = some .filled ∨ readStatus reply = some .confirmationSent
  else false

def getPeer : ViewReply → Option Bytes
  | .returned (some (.bytes bytes)) => if bytes.length = 32 then some bytes else none
  | _ => none

/-! ## The call -/

structure SorobanDeliveryConfig where
  settlementContractId : JsString
  timeoutSeconds : Option Nat

/-- `/^0x[0-9a-fA-F]+$/`. -/
def isPayload (rawPayload : JsString) : Bool :=
  (js "0x").isPrefixOf rawPayload && rawPayload.drop 2 ≠ [] &&
    (rawPayload.drop 2).all fun unit => (Hex.value unit).isSome

/-- `n / 2` as it prints. -/
def half (n : Nat) : JsString := js (toString (n / 2)) ++ if n % 2 = 0 then js "" else js ".5"

def expectedLength : MessageType → Nat
  | .fillInstruction => Evm.fillInstructionLength
  | _ => Settlement.cancelIntentLength

/-- The window of a FillInstruction has an end. -/
def checkDeadline (message : Evm.BridgeMessage) : Except Thrown Unit :=
  if message.messageType = .fillInstruction then
    match Sdk.bigIntOf message.deadline with
    | none =>
        let text := js "Cannot convert " ++ message.deadline ++ js " to a BigInt"
        .error (.error text (js "SyntaxError: " ++ text))
    | some deadline =>
        if deadline ≤ 0 then
          .error (.fatal (js "Invalid deadline on FillInstruction message: " ++ message.deadline))
        else .ok ()
  else .ok ()

/-- `outOfRange` is thrown for a nonce that has no 64 bits. -/
def appendLzReceiveCall (config : SorobanDeliveryConfig) (pending : Evm.PendingMessage)
    (peer : ViewReply) (outOfRange : Thrown) : Except Thrown Operation := do
  let message := pending.message
  require (isPayload message.rawPayload) (.fatal (js "Missing canonical LayerZero message payload"))
  require (message.rawPayload.length - 2 = 2 * expectedLength message.messageType)
    (.fatal (js "Invalid canonical payload length: " ++ half (message.rawPayload.length - 2)))
  checkDeadline message
  let senderBytes ← expect
    (.fatal (js "No trusted peer configured for source eid " ++ js (toString message.srcEid.toNat)))
    (getPeer peer)
  require (message.nonce < uint64) outOfRange
  return .lzReceiveBytes config.settlementContractId
    ⟨message.srcEid, Bytes32.ofBytes senderBytes, UInt64.ofNat message.nonce⟩
    (List.replicate 32 0) (Evm.bufferFromHex (message.rawPayload.drop 2))

/-! ## `deliver` -/

/-- What a simulation comes to.  The one that asks for a restoration is a success too. -/
inductive Simulation where
  | success (resources : JsString)
  | restore (minResourceFee transactionData resources : JsString)
  | failed (error : JsString)

/-- The answers to one delivery, in the order in which they are asked for. -/
structure Answers where
  /-- The sequence number of the signer's account. -/
  getAccount : Except Thrown Nat
  peer : ViewReply
  outOfRange : Thrown
  simulated : Except Thrown Simulation
  restoringAccount : Except Thrown Nat
  restoring : List (Except Thrown Sent)
  simulatedAgain : Except Thrown Simulation
  sends : List (Except Thrown Sent)

def SorobanDeliveryConfig.timeout (config : SorobanDeliveryConfig) : Nat :=
  config.timeoutSeconds.getD 30

def restoreFootprint (config : SorobanDeliveryConfig) (answers : Answers)
    (minResourceFee transactionData : JsString) : Delivering PUnit := do
  let sequence ← ofExcept answers.restoringAccount
  let transaction : Transaction :=
    ⟨sequence + 1, minResourceFee, config.timeout, .restoreFootprint, some transactionData⟩
  let _ ← submitAndWait transaction 0 answers.restoring
  pure ⟨⟩

/-- The transaction that is simulated last, and the outcome.  `build` counts the sequence number up
    each time. -/
def simulate (config : SorobanDeliveryConfig) (answers : Answers) (transaction : Transaction) :
    Delivering (Transaction × Simulation) := do
  note (.simulateTransaction transaction)
  let simulated ← ofExcept answers.simulated
  match simulated with
  | .restore minResourceFee transactionData _ => do
      restoreFootprint config answers minResourceFee transactionData
      let rebuilt := { transaction with sequence := transaction.sequence + 1 }
      note (.simulateTransaction rebuilt)
      let again ← ofExcept answers.simulatedAgain
      pure (rebuilt, again)
  | _ => pure (transaction, simulated)

def submit (config : SorobanDeliveryConfig) (answers : Answers) (pending : Evm.PendingMessage) :
    Delivering JsString := do
  let sequence ← ofExcept answers.getAccount
  let operation ← ofExcept (appendLzReceiveCall config pending answers.peer answers.outOfRange)
  let (transaction, simulated) ←
    simulate config answers ⟨sequence + 1, js "10000", config.timeout, operation, none⟩
  match simulated with
  | .failed error => fail (.new (js "Simulation failed: " ++ error))
  | .success resources | .restore _ _ resources =>
      submitAndWait { transaction with resources := some resources } 0 answers.sends

/-- `/signer|secret key|network passphrase/i`. -/
def namesConfiguration (message : JsString) : Bool :=
  [js "signer", js "secret key", js "network passphrase"].any fun name =>
    decide (name <:+: Relayer.toLowerCase message)

def rethrow : Thrown → Thrown
  | .fatal message => .fatal message
  | .error message printed =>
      if namesConfiguration message then .fatal (js "Soroban delivery configuration is invalid")
      else .new (js "Failed to deliver to Soroban: " ++ printed)
  | .value printed => .new (js "Failed to deliver to Soroban: " ++ printed)

def deliver (config : SorobanDeliveryConfig) (answers : Answers) (pending : Evm.PendingMessage) :
    Delivering JsString :=
  match submit config answers pending with
  | ⟨log, .failed thrown⟩ => ⟨log, .failed (rethrow thrown)⟩
  | done => done

/-! ## What is sent -/

def Effect.sent : Effect → Option Transaction
  | .sendTransaction transaction => some transaction
  | _ => none

def sent (effects : List Effect) : List Transaction := effects.filterMap Effect.sent

@[simp] theorem sent_nil : sent [] = [] := rfl

@[simp] theorem sent_cons (effect : Effect) (rest : List Effect) :
    sent (effect :: rest) = effect.sent.toList ++ sent rest := by
  cases made : effect.sent with
  | none => simp [sent, made]
  | some transaction => simp [sent, made]

@[simp] theorem sent_append (before after : List Effect) :
    sent (before ++ after) = sent before ++ sent after := List.filterMap_append

theorem sent_answer {α β : Type} {reply : Except Thrown α} {second : α → Delivering β}
    (quiet : ∀ a, sent (second a).log = []) : sent (ofExcept reply >>= second).log = [] := by
  rcases log_bind (ofExcept reply) second with same | ⟨a, -, same⟩
  · rw [same, log_ofExcept, sent_nil]
  · rw [same, log_ofExcept, List.nil_append, quiet]

@[simp] theorem sent_pollTransaction (hash : JsString) (left : Nat)
    (replies : List (Except Thrown TransactionStatus)) :
    sent (pollTransaction hash left replies).log = [] := by
  induction left generalizing replies with
  | zero => rfl
  | succ left ih =>
      cases replies with
      | nil => rfl
      | cons reply replies =>
          rcases reply with thrown | (_ | _ | _)
          case ok.notFound => simpa [pollTransaction, Effect.sent] using ih replies
          all_goals rfl

/-- The same transaction, up to four times. -/
theorem sent_submitAndWait (transaction : Transaction) {resubmits : Nat}
    (within : resubmits ≤ maxResubmits) (replies : List (Except Thrown Sent)) :
    ∃ k ≤ maxResubmits + 1 - resubmits,
      sent (submitAndWait transaction resubmits replies).log = List.replicate k transaction := by
  induction replies generalizing resubmits with
  | nil => exact ⟨0, Nat.zero_le _, rfl⟩
  | cons reply replies ih =>
      have once : 1 ≤ maxResubmits + 1 - resubmits := by omega
      rcases reply with thrown | (errorXdr | hash | ⟨hash, polls⟩)
      case ok.tryAgainLater =>
        by_cases spent : maxResubmits ≤ resubmits
        · exact ⟨1, once, by simp [submitAndWait, spent, Effect.sent]⟩
        · obtain ⟨k, few, same⟩ := @ih (resubmits + 1) (by omega)
          refine ⟨k + 1, by omega, ?_⟩
          simpa [submitAndWait, spent, Effect.sent, List.replicate_succ] using same
      case ok.taken =>
        refine ⟨1, once, ?_⟩
        simp [submitAndWait, Effect.sent]
      all_goals exact ⟨1, once, rfl⟩

theorem sent_restoreFootprint (config : SorobanDeliveryConfig) (answers : Answers)
    (minResourceFee transactionData : JsString) :
    ∃ restoration : Transaction, ∃ j ≤ maxResubmits + 1,
      restoration.operation = .restoreFootprint ∧
        sent (restoreFootprint config answers minResourceFee transactionData).log =
          List.replicate j restoration := by
  unfold restoreFootprint
  rcases log_bind _ _ with same | ⟨sequence, -, same⟩
  · rw [same]
    exact ⟨⟨0, [], 0, .restoreFootprint, none⟩, 0, Nat.zero_le _, rfl, by simp⟩
  · refine ⟨⟨sequence + 1, minResourceFee, config.timeout, .restoreFootprint, some transactionData⟩, ?_⟩
    obtain ⟨j, few, sends⟩ := sent_submitAndWait
      ⟨sequence + 1, minResourceFee, config.timeout, .restoreFootprint, some transactionData⟩
      (Nat.zero_le maxResubmits) answers.restoring
    refine ⟨j, few, rfl, ?_⟩
    rw [same, log_ofExcept, List.nil_append]
    rcases log_bind _ _ with same | ⟨_, -, same⟩
    · rw [same]
      exact sends
    · rw [same, log_pure, List.append_nil]
      exact sends

/-- The simulation leaves the call as it is. -/
theorem simulate_returned {config : SorobanDeliveryConfig} {answers : Answers}
    {transaction : Transaction} {done : Transaction × Simulation}
    (ended : (simulate config answers transaction).ending = .returned done) :
    done.1.operation = transaction.operation := by
  simp only [simulate, note_bind, ending_after, bind_returned, ofExcept_returned] at ended
  obtain ⟨simulated, -, ended⟩ := ended
  cases simulated with
  | success | failed =>
      cases ended
      rfl
  | restore minResourceFee transactionData resources =>
      simp only [bind_returned, ending_after] at ended
      obtain ⟨-, -, again, -, ended⟩ := ended
      cases ended
      rfl

theorem sent_simulate (config : SorobanDeliveryConfig) (answers : Answers)
    (transaction : Transaction) :
    ∃ restoration : Transaction, ∃ j ≤ maxResubmits + 1,
      restoration.operation = .restoreFootprint ∧
        sent (simulate config answers transaction).log = List.replicate j restoration := by
  have none_ : ∃ restoration : Transaction, ∃ j ≤ maxResubmits + 1,
      restoration.operation = .restoreFootprint ∧ [] = List.replicate j restoration :=
    ⟨⟨0, [], 0, .restoreFootprint, none⟩, 0, Nat.zero_le _, rfl, rfl⟩
  simp only [simulate, note_bind, log_after, sent_append, sent_cons, Effect.sent,
    Option.toList_none, sent_nil, List.nil_append]
  rcases log_bind _ _ with same | ⟨simulated, -, same⟩
  · rw [same, log_ofExcept]
    exact none_
  · rw [same, log_ofExcept, List.nil_append]
    cases simulated with
    | success | failed => exact none_
    | restore minResourceFee transactionData resources =>
        obtain ⟨restoration, j, few, restores, sends⟩ :=
          sent_restoreFootprint config answers minResourceFee transactionData
        refine ⟨restoration, j, few, restores, ?_⟩
        rcases log_bind _ _ with same | ⟨_, -, same⟩
        · rw [same]
          exact sends
        · simp only [same, sent_append, sends, log_after, sent_cons, Effect.sent,
            Option.toList_none, sent_nil, List.nil_append]
          rw [sent_answer fun _ => rfl, List.append_nil]

/-- A restoration at most, and then one transaction with the call, each up to four times. -/
structure Sends (config : SorobanDeliveryConfig) (answers : Answers) (pending : Evm.PendingMessage)
    (transactions : List Transaction) : Prop where
  parts : ∃ restoration call : Transaction, ∃ j k : Nat,
    transactions = List.replicate j restoration ++ List.replicate k call ∧
      j ≤ maxResubmits + 1 ∧ k ≤ maxResubmits + 1 ∧ restoration.operation = .restoreFootprint ∧
      (0 < k → appendLzReceiveCall config pending answers.peer answers.outOfRange = .ok call.operation)

theorem submit_sends (config : SorobanDeliveryConfig) (answers : Answers)
    (pending : Evm.PendingMessage) :
    Sends config answers pending (sent (submit config answers pending).log) := by
  have nothing : Sends config answers pending [] := by
    refine ⟨⟨⟨0, [], 0, .restoreFootprint, none⟩, ⟨0, [], 0, .restoreFootprint, none⟩, 0, 0, rfl, ?_⟩⟩
    simp
  unfold submit
  rcases log_bind _ _ with same | ⟨sequence, -, same⟩
  · rw [same]
    simpa using nothing
  rw [same, log_ofExcept, List.nil_append]
  rcases log_bind _ _ with same | ⟨operation, appended, same⟩
  · rw [same]
    simpa using nothing
  rw [same, log_ofExcept, List.nil_append]
  have call := (ofExcept_returned _ _).mp appended
  generalize built : (⟨sequence + 1, js "10000", config.timeout, operation, none⟩ : Transaction) = first
  obtain ⟨restoration, j, few, restores, sends⟩ := sent_simulate config answers first
  rcases log_bind (simulate config answers first) _ with same | ⟨⟨transaction, simulated⟩, ended, same⟩
  · rw [same, sends]
    exact ⟨⟨restoration, restoration, j, 0, by simp, few, by simp, restores, by simp⟩⟩
  rw [same, sent_append, sends]
  have unchanged := simulate_returned ended
  cases simulated with
  | failed error =>
      exact ⟨⟨restoration, restoration, j, 0, by simp, few, by simp, restores, by simp⟩⟩
  | success resources | restore _ _ resources =>
      obtain ⟨k, again, calls⟩ := sent_submitAndWait { transaction with resources := some resources }
        (Nat.zero_le maxResubmits) answers.sends
      refine ⟨⟨restoration, _, j, k, congrArg _ calls, few, again, restores, fun _ => ?_⟩⟩
      rw [call, unchanged, ← built]

theorem deliver_log (config : SorobanDeliveryConfig) (answers : Answers)
    (pending : Evm.PendingMessage) :
    (deliver config answers pending).log = (submit config answers pending).log := by
  unfold deliver
  split
  · rename_i same
    rw [same]
  · rfl

end Perihelion.Relayer.Soroban

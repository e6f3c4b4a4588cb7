import Perihelion.Sdk.Validate

/-! # Records from the mempool

A record is narrowed like an intent, field by field.  A page is refused as a whole if one
of its records is.
-/

namespace Perihelion.Sdk

open Fallible

inductive MempoolIntentStatus where
  | pending
  | filled
  | settled
  | refunded
  | expired
  deriving DecidableEq

def MempoolIntentStatus.text : MempoolIntentStatus → JsString
  | .pending => js "pending"
  | .filled => js "filled"
  | .settled => js "settled"
  | .refunded => js "refunded"
  | .expired => js "expired"

/-! ## The status on Stellar -/

/-- The discriminants are those of the settlement contract, 0 to 3. -/
inductive OnChainIntentStatus where
  | locked
  | filled
  | confirmationSent
  | cancelled
  deriving DecidableEq

/-- An `unknown`, as far as it is looked into; `null` counts as `undefined`. -/
inductive ScValLike where
  | undefined
  /-- Its value if it is an integer, and what it prints as. -/
  | number (integer : Option Int) (printed : JsString)
  /-- `switch?.name`, `u32` and `value`. -/
  | object (switchName : Option JsString) (u32 value : ScValLike)
  | other (printed : JsString)

/-- `String(native)`. -/
def ScValLike.text : ScValLike → JsString
  | .undefined => js "undefined"
  | .number _ printed | .other printed => printed
  | .object .. => js "[object Object]"

def toNativeStatus : ScValLike → ScValLike
  | .object switchName u32 value =>
      if switchName = some (js "scvVoid") then .undefined
      else if switchName = some (js "scvU32") then u32
      else if switchName = some (js "scvU64") ∨ switchName = some (js "scvI64") then value
      else
        match value with
        | .number .. => value
        | _ => .object switchName u32 value
  | scVal => scVal

def decodeIntentStatus (scVal : ScValLike) : Except JsString (Option OnChainIntentStatus) :=
  match toNativeStatus scVal with
  | .undefined => .ok none
  | .number (some native) printed =>
      match native with
      | 0 => .ok (some .locked)
      | 1 => .ok (some .filled)
      | 2 => .ok (some .confirmationSent)
      | 3 => .ok (some .cancelled)
      | _ => .error (js "Unknown IntentStatus discriminant: " ++ printed)
  | unexpected => .error (js "Unexpected IntentStatus value: " ++ unexpected.text)

/-- A result of a contract's view. -/
inductive ScVal where
  | void
  | u32 (n : UInt32)
  | other

/-- What the XDR library makes of it: `switch`, `u32` and `value` are methods, whatever it holds. -/
def ScVal.object (_ : ScVal) : ScValLike :=
  .object (some (js "switch")) (.other (js "function")) (.other (js "function"))

/-- A value as the RPC server returns it is no look-alike, not even for an unknown intent. -/
theorem decodeIntentStatus_object (retval : ScVal) : decodeIntentStatus retval.object =
    .error (js "Unexpected IntentStatus value: [object Object]") := by
  have native : toNativeStatus retval.object = retval.object := by
    have named : js "switch" ≠ js "scvVoid" ∧ js "switch" ≠ js "scvU32" ∧
        js "switch" ≠ js "scvU64" ∧ js "switch" ≠ js "scvI64" := by decide
    obtain ⟨void, u32, u64, i64⟩ := named
    simp only [ScVal.object, toNativeStatus, Option.some.injEq, if_neg void, if_neg u32, u64, i64,
      or_self, if_false]
  unfold decodeIntentStatus
  rw [native]
  rfl

/-! ## Shapes -/

structure SignedIntent where
  intent : Intent
  signature : JsString
  hash : JsString

structure IntentRecord extends SignedIntent where
  status : MempoolIntentStatus
  solver : Option JsString
  settlementTx : Option JsString
  createdAt : JsNumber

/-- The messages that are not about one field. -/
inductive ResponseError where
  | field (cause : MempoolResponseError)
  /-- `<what> must be an object`. -/
  | object (what : String) (got : JsValue)
  /-- `expected an array of intent records`. -/
  | array (got : JsValue)
  /-- `expected an array of intent records with at most <maxLimit> entries`. -/
  | tooLarge (length maxLimit : Nat)

/-- `[0-9a-fA-F]`. -/
def isHexUnit (unit : UInt16) : Bool :=
  isDigit unit || (65 ≤ unit && unit ≤ 70) || (97 ≤ unit && unit ≤ 102)

/-- `/^0x[0-9a-fA-F]{digits}$/`. -/
def isHexText (digits : Nat) (s : JsString) : Bool :=
  s.length = digits + 2 && s.take 2 = js "0x" && (s.drop 2).all isHexUnit

/-- `HASH_RE`. -/
def isHash (s : JsString) : Bool := isHexText 64 s

/-- `SIGNATURE_RE`. -/
def isSignature (s : JsString) : Bool := isHexText 130 s

/-- `MEMPOOL_STATUSES`. -/
def mempoolStatuses : List MempoolIntentStatus := [.pending, .settled, .refunded, .expired]

/-! ## Fields -/

/-- A string of a given shape; what is no string has not that shape either. -/
def asHexText (accepts : JsString → Bool) (requirement : String) (value : JsValue) (field : String) :
    Except MempoolResponseError JsString :=
  match value with
  | .string s => do
      require (accepts s) ⟨field, requirement, .string s⟩
      return s
  | got => .error ⟨field, requirement, got⟩

def asHash : JsValue → String → Except MempoolResponseError JsString :=
  asHexText isHash "must be a 0x-prefixed 32-byte hex string"

def asSignature : JsValue → String → Except MempoolResponseError JsString :=
  asHexText isSignature "must be a 0x-prefixed 65-byte (r,s,v) signature"

/-- `Number.isFinite`. -/
def JsNumber.isFinite : JsNumber → Bool
  | .integer _ => true
  | .other printed => printed ∉ [js "NaN", js "Infinity", js "-Infinity"]

def asFiniteNumber (value : JsValue) (field : String) : Except MempoolResponseError JsNumber :=
  match value with
  | .number n => do
      require n.isFinite ⟨field, "must be a finite number", .number n⟩
      return n
  | got => .error ⟨field, "must be a finite number", got⟩

/-- `0 ≤ n < 100_000_000_000`. -/
def inTimestampRange (n : Int) : Bool := 0 ≤ n && n < 100000000000

def asTimestampInSeconds (value : JsValue) (field : String) :
    Except MempoolResponseError JsNumber := do
  let n ← asFiniteNumber value field
  require (n.asInteger.any inTimestampRange) ⟨field, "must be a Unix timestamp in seconds", value⟩
  return n

def asStatus (value : JsValue) (field : String) : Except MempoolResponseError MempoolIntentStatus :=
  expect ⟨field, "must be one of pending, settled, refunded, expired", value⟩
    (match value with
      | .string s => mempoolStatuses.find? fun status => status.text = s
      | _ => none)

/-- A field that may be missing. -/
def optionally (narrow : JsValue → String → Except MempoolResponseError JsString) (value : JsValue)
    (field : String) : Except MempoolResponseError (Option JsString) :=
  match value with
  | .undefined => .ok none
  | value => (narrow value field).map some

/-! ## Records and pages -/

/-- The message of a field stays what it is. -/
def fieldError {α : Type} (narrowed : Except MempoolResponseError α) : Except ResponseError α :=
  narrowed.mapError .field

def parseSignedIntent (viem : Viem) (value : JsValue) : Except ResponseError SignedIntent :=
  match value with
  | .object fields => do
      let v := JsValue.object fields
      return {
        intent := ← fieldError (parseIntent viem (v.field "intent"))
        signature := ← fieldError (asSignature (v.field "signature") "signature")
        hash := ← fieldError (asHash (v.field "hash") "hash") }
  | got => .error (.object "signed intent" got)

def parseIntentRecord (viem : Viem) (value : JsValue) : Except ResponseError IntentRecord :=
  match value with
  | .object fields => do
      let v := JsValue.object fields
      let signed ← parseSignedIntent viem v
      let status ← fieldError (asStatus (v.field "status") "status")
      let solver ← fieldError (optionally (asAddress viem) (v.field "solver") "solver")
      let settlementTx ← fieldError (optionally asString (v.field "settlementTx") "settlementTx")
      let createdAt ← fieldError (asTimestampInSeconds (v.field "createdAt") "createdAt")
      return { signed with status, solver, settlementTx, createdAt }
  | got => .error (.object "intent record" got)

def defaultMaxIntentRecords : Nat := 5000

def parseIntentRecordArray (viem : Viem) (value : JsValue) (maxLimit : Nat) :
    Except ResponseError (List IntentRecord) :=
  match value with
  | .array items =>
      if maxLimit < items.length then .error (.tooLarge items.length maxLimit)
      else items.mapM (parseIntentRecord viem)
  | got => .error (.array got)

/-! ## An intent once more as JSON -/

/-- The object that `JSON.stringify` writes for an intent. -/
def Intent.json (intent : Intent) : JsValue := .object [
  (js "user", .string intent.user),
  (js "destination", .string intent.destination),
  (js "sourceChainId", .number intent.sourceChainId),
  (js "sourceAsset", .string intent.sourceAsset),
  (js "sourceAmount", .string intent.sourceAmount),
  (js "destAsset", .string intent.destAsset),
  (js "minDestAmount", .string intent.minDestAmount),
  (js "deadline", .number intent.deadline),
  (js "nonce", .string intent.nonce),
  (js "preferredSolver", .string intent.preferredSolver)]

/-- What the narrowing of an intent checks. -/
structure Intent.Narrow (viem : Viem) (intent : Intent) : Prop where
  user : viem.isAddress intent.user = true
  destination : isStellarAddress intent.destination = true
  sourceChainId : intent.sourceChainId.asInteger.any (0 < ·) = true
  sourceAsset : viem.isAddress intent.sourceAsset = true
  sourceAmount : isPositiveIntString intent.sourceAmount = true
  destAsset : isStellarAsset intent.destAsset = true
  minDestAmount : isPositiveIntString intent.minDestAmount = true
  deadline : intent.deadline.asInteger.any (0 < ·) = true
  nonce : isNonNegIntString intent.nonce = true
  preferredSolver : viem.isAddress intent.preferredSolver = true

theorem asStringWith_ok {accepts : JsString → Bool} {requirement field : String} {value : JsValue}
    {s : JsString} : asStringWith accepts requirement value field = .ok s ↔
      value = .string s ∧ accepts s = true := by
  unfold asStringWith asString
  cases value with
  | string text =>
      simp only [bind_ok, require_ok, pure_ok, JsValue.string.injEq, Except.ok.injEq]
      constructor
      · rintro ⟨_, rfl, -, holds, rfl⟩
        exact ⟨rfl, holds⟩
      · rintro ⟨rfl, holds⟩
        exact ⟨_, rfl, (), holds, rfl⟩
  | undefined | null | bool | number | array | object => simp

theorem asAddress_ok {viem : Viem} {field : String} {value : JsValue} {s : JsString} :
    asAddress viem value field = .ok s ↔ value = .string s ∧ viem.isAddress s = true := by
  unfold asAddress
  cases value with
  | string text =>
      simp only [bind_ok, require_ok, pure_ok, JsValue.string.injEq]
      constructor
      · rintro ⟨-, holds, rfl⟩
        exact ⟨rfl, holds⟩
      · rintro ⟨rfl, holds⟩
        exact ⟨(), holds, rfl⟩
  | undefined | null | bool | number | array | object => simp

theorem asPositiveInteger_ok {field : String} {value : JsValue} {n : JsNumber} :
    asPositiveInteger value field = .ok n ↔ value = .number n ∧ n.asInteger.any (0 < ·) = true := by
  unfold asPositiveInteger
  cases value with
  | number m =>
      simp only [bind_ok, require_ok, pure_ok, JsValue.number.injEq]
      constructor
      · rintro ⟨-, holds, rfl⟩
        exact ⟨rfl, holds⟩
      · rintro ⟨rfl, holds⟩
        exact ⟨(), holds, rfl⟩
  | undefined | null | bool | string | array | object => simp

theorem parseIntent_narrow {viem : Viem} {value : JsValue} {intent : Intent}
    (parsed : parseIntent viem value = .ok intent) : intent.Narrow viem := by
  simp only [parseIntent, bind_ok, pure_ok, asAddress_ok, asPositiveInteger_ok, asStellarAddress,
    asStellarAsset, asPositiveIntegerString, asIntegerString, asStringWith_ok] at parsed
  obtain ⟨_, -, _, ⟨-, user⟩, _, ⟨-, destination⟩, _, ⟨-, chain⟩, _, ⟨-, asset⟩, _, ⟨-, amount⟩, _,
    ⟨-, destAsset⟩, _, ⟨-, minimum⟩, _, ⟨-, deadline⟩, _, ⟨-, nonce⟩, _, ⟨-, solver⟩, rfl⟩ := parsed
  exact ⟨user, destination, chain, asset, amount, destAsset, minimum, deadline, nonce, solver⟩

/-- What was narrowed once is narrowed to itself. -/
theorem Intent.Narrow.parse {viem : Viem} {intent : Intent} (narrow : intent.Narrow viem) :
    parseIntent viem intent.json = .ok intent := by
  simp only [parseIntent, bind_ok, pure_ok, asAddress_ok, asPositiveInteger_ok, asStellarAddress,
    asStellarAsset, asPositiveIntegerString, asIntegerString, asStringWith_ok]
  exact ⟨intent.json, rfl, _, ⟨rfl, narrow.user⟩, _, ⟨rfl, narrow.destination⟩,
    _, ⟨rfl, narrow.sourceChainId⟩, _, ⟨rfl, narrow.sourceAsset⟩, _, ⟨rfl, narrow.sourceAmount⟩,
    _, ⟨rfl, narrow.destAsset⟩, _, ⟨rfl, narrow.minDestAmount⟩, _, ⟨rfl, narrow.deadline⟩,
    _, ⟨rfl, narrow.nonce⟩, _, ⟨rfl, narrow.preferredSolver⟩, rfl⟩

/-! ## What the narrowing of a record checks -/

theorem fieldError_ok {α : Type} {narrowed : Except MempoolResponseError α} {a : α} :
    fieldError narrowed = .ok a ↔ narrowed = .ok a := by
  cases narrowed with
  | error cause => simp [fieldError, Except.mapError]
  | ok b => simp [fieldError, Except.mapError]

theorem asHexText_ok {accepts : JsString → Bool} {requirement field : String} {value : JsValue}
    {s : JsString} : asHexText accepts requirement value field = .ok s ↔
      value = .string s ∧ accepts s = true := by
  unfold asHexText
  cases value with
  | string text =>
      simp only [bind_ok, require_ok, pure_ok, JsValue.string.injEq]
      constructor
      · rintro ⟨-, holds, rfl⟩
        exact ⟨rfl, holds⟩
      · rintro ⟨rfl, holds⟩
        exact ⟨(), holds, rfl⟩
  | undefined | null | bool | number | array | object => simp

theorem asTimestampInSeconds_ok {field : String} {value : JsValue} {n : JsNumber} :
    asTimestampInSeconds value field = .ok n ↔
      value = .number n ∧ n.asInteger.any inTimestampRange = true := by
  unfold asTimestampInSeconds asFiniteNumber
  cases value with
  | number m =>
      simp only [bind_ok, require_ok, pure_ok, JsValue.number.injEq]
      constructor
      · rintro ⟨_, ⟨-, finite, rfl⟩, -, holds, rfl⟩
        exact ⟨rfl, holds⟩
      · rintro ⟨rfl, holds⟩
        refine ⟨_, ⟨(), ?_, rfl⟩, (), holds, rfl⟩
        cases m with
        | integer _ => rfl
        | other _ => cases holds
  | undefined | null | bool | string | array | object => simp

/-- A record goes through field by field. -/
theorem parseIntentRecord_ok {viem : Viem} {fields : List (JsString × JsValue)}
    {parsed : IntentRecord} :
    parseIntentRecord viem (.object fields) = .ok parsed ↔
      parseIntent viem ((JsValue.object fields).field "intent") = .ok parsed.intent ∧
      asSignature ((JsValue.object fields).field "signature") "signature" = .ok parsed.signature ∧
      asHash ((JsValue.object fields).field "hash") "hash" = .ok parsed.hash ∧
      asStatus ((JsValue.object fields).field "status") "status" = .ok parsed.status ∧
      optionally (asAddress viem) ((JsValue.object fields).field "solver") "solver" =
        .ok parsed.solver ∧
      optionally asString ((JsValue.object fields).field "settlementTx") "settlementTx" =
        .ok parsed.settlementTx ∧
      asTimestampInSeconds ((JsValue.object fields).field "createdAt") "createdAt" =
        .ok parsed.createdAt := by
  simp only [parseIntentRecord, parseSignedIntent, bind_ok, pure_ok, fieldError_ok]
  constructor
  · rintro ⟨_, ⟨_, intent, _, signature, _, hash, rfl⟩, _, status, _, solver, _, tx, _, created, rfl⟩
    exact ⟨intent, signature, hash, status, solver, tx, created⟩
  · rintro ⟨intent, signature, hash, status, solver, tx, created⟩
    exact ⟨_, ⟨_, intent, _, signature, _, hash, rfl⟩, _, status, _, solver, _, tx, _, created, rfl⟩

theorem asStatus_text {field : String} (status known : MempoolIntentStatus) :
    asStatus (.string status.text) field = .ok known ↔ status = known ∧ status ≠ .filled := by
  unfold asStatus
  rw [expect_ok]
  cases status with
  | pending | filled | settled | refunded | expired => cases known <;> decide

end Perihelion.Sdk

import Perihelion.Sdk.Intent

/-! # Checking what came as JSON

The intent of a submission is narrowed field by field, in the order of its fields, and the
first that does not fit is named.
-/

namespace Perihelion.Sdk

open BigEndian Fallible

/-- What `JSON.parse` may return, and `undefined` for what is not there. -/
inductive JsValue where
  | undefined
  | null
  | bool (value : Bool)
  | number (value : JsNumber)
  | string (value : JsString)
  | array (items : List JsValue)
  | object (fields : List (JsString × JsValue))

/-- `value?.name`, of a value that has no such field of its own otherwise. -/
def JsValue.field (name : String) : JsValue → JsValue
  | .object fields => ((fields.find? fun f => f.1 = js name).map Prod.snd).getD .undefined
  | _ => .undefined

/-- `value && typeof value === "object"`. -/
def JsValue.isObject : JsValue → Bool
  | .array _ | .object _ => true
  | _ => false

/-- `'<field>' <requirement> (got <describe(got)>)`, after `[Perihelion] invalid mempool
    response: `.  The value is printed as JSON, cut at 200 characters. -/
structure MempoolResponseError where
  field : String
  requirement : String
  got : JsValue

def asObject (value : JsValue) (what : String) : Except MempoolResponseError JsValue :=
  match value with
  | .object fields => .ok (.object fields)
  | got => .error ⟨what, "must be an object", got⟩

def asString (value : JsValue) (field : String) : Except MempoolResponseError JsString :=
  match value with
  | .string s => .ok s
  | got => .error ⟨field, "must be a string", got⟩

/-- A string that passes a further check. -/
def asStringWith (accepts : JsString → Bool) (requirement : String) (value : JsValue)
    (field : String) : Except MempoolResponseError JsString := do
  let s ← asString value field
  require (accepts s) ⟨field, requirement, .string s⟩
  return s

def asStellarAddress : JsValue → String → Except MempoolResponseError JsString :=
  asStringWith isStellarAddress "must be a valid Stellar strkey"

def asStellarAsset : JsValue → String → Except MempoolResponseError JsString :=
  asStringWith isStellarAsset "must be a valid Stellar asset identifier"

def asIntegerString : JsValue → String → Except MempoolResponseError JsString :=
  asStringWith isNonNegIntString "must be a valid non-negative integer string"

def asPositiveIntegerString : JsValue → String → Except MempoolResponseError JsString :=
  asStringWith isPositiveIntString
    "must be a strictly positive integer string with no leading zeros"

/-- Unlike the other texts an address is not first asked to be a string. -/
def asAddress (viem : Viem) (value : JsValue) (field : String) :
    Except MempoolResponseError JsString :=
  match value with
  | .string s => do
      require (viem.isAddress s) ⟨field, "must be a valid address", .string s⟩
      return s
  | got => .error ⟨field, "must be a valid address", got⟩

def asPositiveInteger (value : JsValue) (field : String) : Except MempoolResponseError JsNumber :=
  match value with
  | .number n => do
      require (n.asInteger.any (0 < ·)) ⟨field, "must be a positive integer", .number n⟩
      return n
  | got => .error ⟨field, "must be a positive integer", got⟩

def parseIntent (viem : Viem) (value : JsValue) : Except MempoolResponseError Intent := do
  let v ← asObject value "intent"
  return {
    user := ← asAddress viem (v.field "user") "intent.user"
    destination := ← asStellarAddress (v.field "destination") "intent.destination"
    sourceChainId := ← asPositiveInteger (v.field "sourceChainId") "intent.sourceChainId"
    sourceAsset := ← asAddress viem (v.field "sourceAsset") "intent.sourceAsset"
    sourceAmount := ← asPositiveIntegerString (v.field "sourceAmount") "intent.sourceAmount"
    destAsset := ← asStellarAsset (v.field "destAsset") "intent.destAsset"
    minDestAmount := ← asPositiveIntegerString (v.field "minDestAmount") "intent.minDestAmount"
    deadline := ← asPositiveInteger (v.field "deadline") "intent.deadline"
    nonce := ← asIntegerString (v.field "nonce") "intent.nonce"
    preferredSolver := ← asAddress viem (v.field "preferredSolver") "intent.preferredSolver" }

/-- `intent.deadline <= now - clockSkew`, the deadline being an integer by then. -/
def isExpired (intent : Intent) (now clockSkew : Int) : Bool :=
  intent.deadline.asInteger.any (· ≤ addDouble now (-clockSkew))

end Perihelion.Sdk

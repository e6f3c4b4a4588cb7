import Perihelion.Lib.Fallible
import Perihelion.Lib.Transition
import Perihelion.Mempool.Store
import Perihelion.Relayer.Text
import Perihelion.Sdk.IntentRecord

/-! # The mempool server

A submission is validated, then its signature is verified elsewhere, and only then it is
written.  In between the server handles other requests, and sweeps.
-/

namespace Perihelion.Mempool

open Sdk Fallible Transition
open Relayer (toLowerCase)

inductive Body where
  | error (text : String)
  /-- `Invalid intent: <the cause>`. -/
  | invalidIntent (cause : MempoolResponseError)
  | hash (hash : Hash)
  | updated (updated : Bool)

structure Response where
  status : Nat
  body : Body

def badRequest (text : String) : Response := ⟨400, .error text⟩

/-- What the server is configured with.  `hashIntent` is viem's EIP-712 hash under the domain,
    `none` where it throws. -/
structure Options where
  viem : Viem
  statusToken : Option JsString
  hashIntent : Intent → Option Hash

/-- A submission whose signature is being verified. -/
structure Submission where
  intent : Intent
  signature : JsString

structure Server where
  store : IntentStore
  /-- The suspended submissions, oldest first. -/
  verifying : List Submission
  accepted : Nat
  rejected : Nat

/-- `/^0x[0-9a-fA-F]+$/`. -/
def isSignatureText (s : JsString) : Bool :=
  s.take 2 = js "0x" && 2 < s.length && (s.drop 2).all isHexUnit

/-- `/^0x[0-9a-f]{64}$/`. -/
def isHashText (s : JsString) : Bool :=
  s.length = 66 && s.take 2 = js "0x" &&
    (s.drop 2).all fun unit => isDigit unit || (97 ≤ unit && unit ≤ 102)

def parseHashParam (raw : JsString) : Except Response Hash := do
  let hash := toLowerCase raw
  require (isHashText hash) (badRequest "Invalid intent hash")
  return hash

/-- `INTENT_STATUSES`. -/
def parseStatus (status : JsValue) : Option IntentStatus :=
  match status with
  | .string s =>
      if s = js "pending" then some .pending
      else if s = js "filled" then some .filled
      else if s = js "settled" then some .settled
      else if s = js "refunded" then some .refunded
      else if s = js "expired" then some .expired
      else none
  | _ => none

/-! ## The handlers -/

/-- `handleSubmitIntent` up to the verification. -/
def validateSubmission (options : Options) (body : JsValue) (now : Int) :
    Except Response Submission := do
  require body.isObject (badRequest "Missing request body")
  let intent := body.field "intent"
  require intent.isObject (badRequest "Missing intent")
  let signature ← match body.field "signature" with
    | .string s => .ok s
    | _ => .error (badRequest "Invalid signature")
  require (isSignatureText signature) (badRequest "Invalid signature")
  let parsed ← match parseIntent options.viem intent with
    | .ok parsed => .ok parsed
    | .error cause => .error ⟨400, .invalidIntent cause⟩
  require (¬ isExpired parsed now 0) (badRequest "Intent has expired")
  return ⟨parsed, signature⟩

def handleSubmitIntent (options : Options) (body : JsValue) (now : Int) (server : Server) :
    Server × Option Response :=
  match validateSubmission options body now with
  | .error response => ({ server with rejected := server.rejected + 1 }, some response)
  | .ok submission => ({ server with verifying := server.verifying ++ [submission] }, none)

/-- `handleSubmitIntent` after the verification.  If hashing throws, nobody answers. -/
def finishSubmission (options : Options) (submission : Submission) (signatureValid : Bool) (now : Int)
    (server : Server) : Server × Option Response :=
  if ¬ signatureValid then
    ({ server with rejected := server.rejected + 1 },
      some (badRequest "Signature verification failed"))
  else
    match options.hashIntent submission.intent with
    | none => (server, none)
    | some hash =>
        let record : MempoolIntentRecord :=
          { hash
            intent := submission.intent
            signature := submission.signature
            status := .pending
            createdAt := now }
        ({ server with store := server.store.set hash record, accepted := server.accepted + 1 },
          some ⟨201, .hash hash⟩)

/-- The bearer token, the hash in the path and the status in the body.  An empty token counts
    as none. -/
def validateUpdate (options : Options) (authorization : Option JsString) (rawHash : JsString)
    (body : JsValue) : Except Response (Hash × IntentStatus) := do
  let token := options.statusToken.getD []
  require (token = [] ∨ authorization = some (js "Bearer " ++ token))
    ⟨401, .error "Unauthorized"⟩
  let hash ← parseHashParam rawHash
  let status ← expect (badRequest "Invalid status") (parseStatus (body.field "status"))
  return (hash, status)

def handleUpdateStatus (options : Options) (authorization : Option JsString) (rawHash : JsString)
    (body : JsValue) (server : Server) : Server × Response :=
  match validateUpdate options authorization rawHash body with
  | .error response => (server, response)
  | .ok (hash, status) =>
      let (store, updated) := server.store.updateStatus hash status
      ({ server with store },
        if updated then ⟨200, .updated true⟩ else ⟨404, .error "Intent not found"⟩)

/-! ## The server as a transition system -/

/-- Requests, the outcomes of verifications in any order, and the sweep timer.  A time is the
    clock's, in seconds. -/
inductive Input where
  | submit (body : JsValue) (now : Int)
  | verified (index : Nat) (signatureValid : Bool) (now : Int)
  | updateStatus (authorization : Option JsString) (rawHash : JsString) (body : JsValue)
  | sweep (now : Int)

/-- Only the outcome of a verification that is not under way is no step. -/
def handle (options : Options) (server : Server) : Input → Option (Server × Option Response)
  | .submit body now => some (handleSubmitIntent options body now server)
  | .verified index signatureValid now =>
      server.verifying[index]?.map fun submission =>
        finishSubmission options submission signatureValid now
          { server with verifying := server.verifying.eraseIdx index }
  | .updateStatus authorization rawHash body =>
      let (server, response) := handleUpdateStatus options authorization rawHash body server
      some (server, some response)
  | .sweep now => some ({ server with store := (server.store.evictExpired now).1 }, none)

def next (options : Options) (server : Server) (input : Input) : Option Server :=
  (handle options server input).map Prod.fst

def system (options : Options) : System Server Input where
  init server := ∃ maxSize expiryGraceMs, server = ⟨.new maxSize expiryGraceMs, [], 0, 0⟩
  step server input server' := next options server input = some server'

end Perihelion.Mempool

import Perihelion.Escrow.State
import Perihelion.Sdk.Stellar

/-! # Intents in the SDK

What a client builds and checks before anything is signed.
-/

namespace Perihelion.Sdk

open BigEndian Fallible

/-! ## Numbers -/

/-- The double closest to an integer: 53 significant bits, ties to even. -/
def nearestDouble (n : Nat) : Nat :=
  let ulp := 2 ^ (n.log2 - 52)
  let down := n / ulp
  let rest := n % ulp
  if 2 * rest < ulp ∨ (2 * rest = ulp ∧ down % 2 = 0) then down * ulp else (down + 1) * ulp

/-- A sum of two integers, both doubles. -/
def addDouble (a b : Int) : Int := (a + b).sign * nearestDouble (a + b).natAbs

/-- A number that `Number.isInteger` takes. -/
structure JsInteger where
  value : Int
  finite : value.natAbs < 2 ^ 1024
  exact : nearestDouble value.natAbs = value.natAbs

/-- Any number.  Fractions, `NaN` and the infinities are only ever printed. -/
inductive JsNumber where
  | integer (n : JsInteger)
  | other (printed : JsString)

def JsNumber.asInteger : JsNumber → Option Int
  | .integer n => some n.value
  | .other _ => none

/-- Up to 2^53 nothing is rounded. -/
theorem nearestDouble_small {n : Nat} (small : n ≤ 2 ^ 53) : nearestDouble n = n := by
  by_cases top : n = 2 ^ 53
  · subst top
    decide +kernel
  · have width : n.log2 ≤ 52 := by
      by_cases zero : n = 0
      · subst zero
        decide
      · have bits := (Nat.log2_lt zero).mpr (show n < 2 ^ 53 by omega)
        omega
    have ulp : n.log2 - 52 = 0 := by omega
    simp only [nearestDouble, ulp, Nat.pow_zero, Nat.div_one, Nat.mod_one]
    simp

theorem nearestDouble_natAbs {n : Nat} (small : n ≤ 2 ^ 53) :
    nearestDouble (n : Int).natAbs = (n : Int).natAbs := by
  rw [Int.natAbs_natCast]
  exact nearestDouble_small small

theorem natAbs_lt_of_small {n : Nat} (small : n ≤ 2 ^ 53) : (n : Int).natAbs < 2 ^ 1024 := by
  rw [Int.natAbs_natCast]
  exact Nat.lt_of_le_of_lt small (by decide +kernel)

theorem addDouble_le {a b bound : Int} (small : a + b ≤ 2 ^ 53) (nonneg : 0 ≤ bound)
    (below : a + b ≤ bound) : addDouble a b ≤ bound := by
  unfold addDouble
  rcases lt_trichotomy (a + b) 0 with negative | zero | positive
  · rw [Int.sign_eq_neg_one_of_neg negative]
    omega
  · rw [zero]
    simpa using nonneg
  · rw [Int.sign_eq_one_of_pos positive, nearestDouble_small (by omega)]
    omega

/-! ## Decimal strings -/

/-- 48 is `0`. -/
def isDigit (unit : UInt16) : Bool := 48 ≤ unit && unit ≤ 57

/-- `/^[1-9][0-9]*$/`. -/
def isPositiveIntString : JsString → Bool
  | [] => false
  | first :: rest => 49 ≤ first && first ≤ 57 && rest.all isDigit

/-- `/^(?:0|[1-9][0-9]*)$/`. -/
def isNonNegIntString (s : JsString) : Bool := s = js "0" || isPositiveIntString s

/-- `BigInt(s)` of a decimal string.  It is only called on what one of the patterns has let
    through, so that the handlers for its own error are never reached. -/
def bigInt (s : JsString) : Nat := s.foldl (fun n unit => 10 * n + (unit.toNat - 48)) 0

theorem bigInt_pos {s : JsString} (positive : isPositiveIntString s = true) : 0 < bigInt s := by
  have grows (rest : JsString) {n : Nat} (start : 0 < n) :
      0 < rest.foldl (fun n unit => 10 * n + (unit.toNat - 48)) n := by
    induction rest generalizing n with
    | nil => exact start
    | cons unit rest ih => exact ih (show 0 < 10 * n + (unit.toNat - 48) by omega)
  cases s with
  | nil => cases positive
  | cons first rest =>
      simp only [isPositiveIntString, Bool.and_eq_true, decide_eq_true_iff,
        UInt16.le_iff_toNat_le, UInt16.reduceToNat] at positive
      exact grows rest (show 0 < 10 * 0 + (first.toNat - 48) by omega)

/-! ## Parameters -/

/-- An EIP-712 intent as the client holds it. -/
structure Intent where
  user : JsString
  destination : JsString
  sourceChainId : JsNumber
  sourceAsset : JsString
  sourceAmount : JsString
  destAsset : JsString
  minDestAmount : JsString
  deadline : JsNumber
  nonce : JsString
  preferredSolver : JsString

structure IntentParams where
  user : JsString
  destination : JsString
  sourceChainId : JsNumber
  sourceAsset : JsString
  sourceAmount : JsString
  destAsset : JsString
  minDestAmount : JsString
  deadline : JsNumber
  nonce : Option JsString
  preferredSolver : Option JsString

/-- The two things that are asked of viem: whether a text is an address, and which one its
    ABI encoder takes it for. -/
structure Viem where
  isAddress : JsString → Bool
  toAddress : JsString → Escrow.Address

inductive ErrorClass where
  | perihelionValidationError
  | intentValidationError
  deriving DecidableEq

/-- A piece of a message template. -/
inductive Piece where
  | text (s : String)
  | string (value : JsString)
  | number (value : JsNumber)
  | integer (value : Int)

structure ValidationError where
  errorClass : ErrorClass
  field : String
  message : List Piece

def intentError (field : String) (message : List Piece) : ValidationError :=
  ⟨.intentValidationError, field, message⟩

def maxDestinationLen : Nat := 56
def maxDestAssetLen : Nat := 69
/-- 7 days. -/
def maxDeadlineHorizonSec : Nat := 604800
def u128Max : Nat := 340282366920938463463374607431768211455
def i128Max : Nat := 170141183460469231731687303715884105727

def notAnAddress (got : JsString) : List Piece :=
  [.text "must be a valid 20-byte EVM address (got '", .string got, .text "')"]

def tooLong (max got : Nat) : List Piece :=
  [.text "exceeds ", .integer max, .text " bytes (got ", .integer got, .text " bytes)"]

def notPositive (got : JsString) : List Piece :=
  [.text "must be a positive integer string with no leading zeros (got '", .string got,
    .text "')"]

def exceedsMaximum (max : Nat) : List Piece :=
  [.text "exceeds maximum bridgeable amount (", .integer max, .text ")"]

/-- The nonce, where one is given. -/
def validateNonce (nonce : JsString) : Except ValidationError Unit := do
  require (isNonNegIntString nonce) (intentError "nonce"
    [.text "must be a non-negative decimal integer string (got '", .string nonce, .text "')"])
  require (bigInt nonce ≤ 2 ^ 256 - 1) (intentError "nonce"
    [.text "exceeds uint256 maximum (got ", .string nonce, .text ")"])

def validateIntent (viem : Viem) (params : IntentParams) (now : JsInteger) :
    Except ValidationError Unit := do
  require (viem.isAddress params.user) (intentError "user" (notAnAddress params.user))
  require (isStellarAddress params.destination) (intentError "destination"
    [.text "must be a valid Stellar strkey starting with G or C, 56 chars of A-Z/2-7, with a valid checksum (got '",
      .string params.destination, .text "')"])
  let destBytes := (textEncode params.destination).length
  require (destBytes ≤ maxDestinationLen)
    (intentError "destination" (tooLong maxDestinationLen destBytes))
  require (params.sourceChainId.asInteger.any (0 < ·)) (intentError "sourceChainId"
    [.text "must be a positive integer chain ID (got ", .number params.sourceChainId, .text ")"])
  require (viem.isAddress params.sourceAsset)
    (intentError "sourceAsset" (notAnAddress params.sourceAsset))
  require (isPositiveIntString params.sourceAmount)
    (intentError "sourceAmount" (notPositive params.sourceAmount))
  require (bigInt params.sourceAmount ≤ u128Max)
    (intentError "sourceAmount" (exceedsMaximum u128Max))
  require (isStellarAsset params.destAsset) ⟨.perihelionValidationError, "destAsset",
    [.text "must be 'native', '<CODE>:<G...ISSUER>' or a 'C...' token contract strkey, with a valid checksum (got '",
      .string params.destAsset, .text "')"]⟩
  let destAssetBytes := (textEncode params.destAsset).length
  require (destAssetBytes ≤ maxDestAssetLen)
    (intentError "destAsset" (tooLong maxDestAssetLen destAssetBytes))
  require (isPositiveIntString params.minDestAmount)
    (intentError "minDestAmount" (notPositive params.minDestAmount))
  require (bigInt params.minDestAmount ≤ i128Max)
    (intentError "minDestAmount" (exceedsMaximum i128Max))
  require (params.deadline.asInteger.any (now.value < ·)) (intentError "deadline"
    [.text "must be a Unix timestamp strictly in the future (got ", .number params.deadline,
      .text ", now is ", .integer now.value, .text ")"])
  require (params.deadline.asInteger.all (· ≤ addDouble now.value maxDeadlineHorizonSec))
    (intentError "deadline"
      [.text "must be at most ", .integer maxDeadlineHorizonSec,
        .text "s in the future (= 7 days); got ", .number params.deadline, .text ", now is ",
        .integer now.value,
        .text "; the Soroban settlement contract rejects FillInstructions with a deadline further out than this"])
  match params.nonce with
  | none => pure ()
  | some nonce => validateNonce nonce
  require (params.preferredSolver.all viem.isAddress) (intentError "preferredSolver"
    [.text "must be a valid 20-byte EVM address or zero address (got '",
      .string (params.preferredSolver.getD []), .text "')"])

def zeroAddress : JsString := js "0x0000000000000000000000000000000000000000"

/-- The intent that `buildIntent` makes of its parameters. -/
def IntentParams.intent (params : IntentParams) (randomNonce : JsString) : Intent where
  user := params.user
  destination := params.destination
  sourceChainId := params.sourceChainId
  sourceAsset := params.sourceAsset
  sourceAmount := params.sourceAmount
  destAsset := params.destAsset
  minDestAmount := params.minDestAmount
  deadline := params.deadline
  nonce := params.nonce.getD randomNonce
  preferredSolver := params.preferredSolver.getD zeroAddress

/-- `validateAmount(value, field, max)` of a decimal string. -/
def validateAmount (value : JsString) (field : String) (max : Nat) :
    Except ValidationError Unit := do
  require (0 < bigInt value) ⟨.perihelionValidationError, field,
    [.text "must be > 0 (got ", .string value, .text ")"]⟩
  require (bigInt value ≤ max) ⟨.perihelionValidationError, field, exceedsMaximum max⟩

/-- The warning about small amounts is left out. -/
def buildIntent (viem : Viem) (params : IntentParams) (now : JsInteger)
    (randomNonce : JsString) : Except ValidationError Intent := do
  validateIntent viem params now
  let intent := params.intent randomNonce
  validateAmount intent.sourceAmount "sourceAmount" u128Max
  validateAmount intent.minDestAmount "minDestAmount" i128Max
  pure intent

/-- `BigInt(n)` for an ABI integer; `BigInt` and the encoder throw at anything else. -/
def JsNumber.toUint (n : JsNumber) : Option Nat := n.asInteger.bind Int.toNat?

/-- The ABI encoding of `toMessage(intent)`, its two numbers being those. -/
def Intent.message (viem : Viem) (intent : Intent) (sourceChainId deadline : Nat) :
    Escrow.Intent where
  user := viem.toAddress intent.user
  destination := textEncode intent.destination
  sourceChainId
  sourceAsset := viem.toAddress intent.sourceAsset
  sourceAmount := bigInt intent.sourceAmount
  destAsset := textEncode intent.destAsset
  minDestAmount := bigInt intent.minDestAmount
  deadline
  nonce := bigInt intent.nonce
  preferredSolver := viem.toAddress intent.preferredSolver

/-- Of an intent whose texts are decimal, as `validateIntent` and `parseIntent` ask. -/
def toMessage (viem : Viem) (intent : Intent) : Option Escrow.Intent := do
  let sourceChainId ← intent.sourceChainId.toUint
  let deadline ← intent.deadline.toUint
  pure (intent.message viem sourceChainId deadline)

/-! ## What passes -/

/-- What the escrow and the settlement contract later ask about again. -/
structure Validated (params : IntentParams) (now : JsInteger) : Prop where
  destination : isStellarAddress params.destination = true
  sourceChainId : ∃ n, params.sourceChainId.asInteger = some n ∧ 0 < n
  sourceAmount : bigInt params.sourceAmount ≤ u128Max
  positiveSource : 0 < bigInt params.sourceAmount
  destAsset : isStellarAsset params.destAsset = true
  minDestAmount : bigInt params.minDestAmount ≤ i128Max
  positiveMin : 0 < bigInt params.minDestAmount
  deadline : ∃ n, params.deadline.asInteger = some n ∧ now.value < n ∧
    n ≤ addDouble now.value maxDeadlineHorizonSec

theorem validateIntent_ok {viem : Viem} {params : IntentParams} {now : JsInteger}
    (accepted : validateIntent viem params now = .ok ()) : Validated params now := by
  simp only [validateIntent, bind_ok, require_ok, exists_const] at accepted
  obtain ⟨-, destination, -, chain, -, sourceDigits, sourceAmount, destAsset, -, minDigits,
    minDestAmount, early, horizon, -⟩ := accepted
  obtain ⟨chainId, chain, positive⟩ := (Option.any_eq_true _ _).mp chain
  obtain ⟨deadline, given, early⟩ := (Option.any_eq_true _ _).mp early
  rw [given, Option.all_some] at horizon
  exact ⟨destination, ⟨chainId, chain, by simpa using positive⟩, sourceAmount,
    bigInt_pos sourceDigits, destAsset, minDestAmount, bigInt_pos minDigits,
    ⟨deadline, given, by simpa using early, by simpa using horizon⟩⟩

/-- The second check of the amounts never fails after the first. -/
theorem buildIntent_ok {viem : Viem} {params : IntentParams} {now : JsInteger}
    (accepted : validateIntent viem params now = .ok ()) (randomNonce : JsString) :
    buildIntent viem params now randomNonce = .ok (params.intent randomNonce) := by
  have valid := validateIntent_ok accepted
  simp only [buildIntent, validateAmount, bind_ok, require_ok, exists_const, pure_ok, accepted,
    true_and]
  exact ⟨⟨valid.positiveSource, valid.sourceAmount⟩,
    ⟨valid.positiveMin, valid.minDestAmount⟩, trivial⟩

end Perihelion.Sdk

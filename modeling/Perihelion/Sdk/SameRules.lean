import Perihelion.Sdk.IntentRecord

/-! # The rules for an intent, twice

A client checks an intent before it is signed, and narrows the JSON that the mempool returns.
For the chain id, the two amounts and the nonce both ask for the same grammar, but only the
first asks for a number that the contracts can hold.
-/

namespace Perihelion.Sdk

open BigEndian Fallible

/-- The intent as an argument of `validateIntent`. -/
def Intent.params (intent : Intent) : IntentParams where
  user := intent.user
  destination := intent.destination
  sourceChainId := intent.sourceChainId
  sourceAsset := intent.sourceAsset
  sourceAmount := intent.sourceAmount
  destAsset := intent.destAsset
  minDestAmount := intent.minDestAmount
  deadline := intent.deadline
  nonce := some intent.nonce
  preferredSolver := some intent.preferredSolver

/-- The range of a deadline at the given time. -/
def DeadlineInRange (now : JsInteger) (deadline : JsNumber) : Prop :=
  ∃ n, deadline.asInteger = some n ∧ now.value < n ∧ n ≤ addDouble now.value maxDeadlineHorizonSec

inductive IntentField where
  | sourceChainId
  | sourceAmount
  | minDestAmount
  | nonce

namespace IntentField

/-- The two intents have the field in common. -/
def Shared (a b : Intent) : IntentField → Prop
  | sourceChainId => a.sourceChainId = b.sourceChainId
  | sourceAmount => a.sourceAmount = b.sourceAmount
  | minDestAmount => a.minDestAmount = b.minDestAmount
  | nonce => a.nonce = b.nonce

/-- A positive integer, a positive decimal string or a decimal string. -/
def Written (intent : Intent) : IntentField → Prop
  | sourceChainId => ∃ n, intent.sourceChainId.asInteger = some n ∧ 0 < n
  | sourceAmount => isPositiveIntString intent.sourceAmount = true
  | minDestAmount => isPositiveIntString intent.minDestAmount = true
  | nonce => isNonNegIntString intent.nonce = true

/-- What an `u128`, an `i128` and an `uint256` hold. -/
def Fits (intent : Intent) : IntentField → Prop
  | sourceChainId => True
  | sourceAmount => bigInt intent.sourceAmount ≤ u128Max
  | minDestAmount => bigInt intent.minDestAmount ≤ i128Max
  | nonce => bigInt intent.nonce ≤ 2 ^ 256 - 1

/-- The field is accepted: there is an intent with it that `parseIntent` takes. -/
def Parses (viem : Viem) (intent : Intent) (field : IntentField) : Prop :=
  ∃ other : Intent, field.Shared other intent ∧ parseIntent viem other.json = .ok other

/-- The field is accepted: there is an intent with it that `validateIntent` takes at `now`. -/
def Validates (viem : Viem) (now : JsInteger) (intent : Intent) (field : IntentField) : Prop :=
  ∃ other : Intent, field.Shared other intent ∧ validateIntent viem other.params now = .ok ()

end IntentField

theorem deadlineInRange_iff {now : JsInteger} {deadline : JsNumber} :
    DeadlineInRange now deadline ↔
      deadline.asInteger.any (now.value < ·) = true ∧
        deadline.asInteger.all (· ≤ addDouble now.value maxDeadlineHorizonSec) = true := by
  unfold DeadlineInRange
  cases deadline.asInteger with
  | none => simp
  | some n => simp

theorem validateIntent_iff {viem : Viem} {params : IntentParams} {now : JsInteger} :
    validateIntent viem params now = .ok () ↔
      viem.isAddress params.user = true ∧ isStellarAddress params.destination = true ∧
        (textEncode params.destination).length ≤ maxDestinationLen ∧
        params.sourceChainId.asInteger.any (0 < ·) = true ∧
        viem.isAddress params.sourceAsset = true ∧
        isPositiveIntString params.sourceAmount = true ∧ bigInt params.sourceAmount ≤ u128Max ∧
        isStellarAsset params.destAsset = true ∧
        (textEncode params.destAsset).length ≤ maxDestAssetLen ∧
        isPositiveIntString params.minDestAmount = true ∧ bigInt params.minDestAmount ≤ i128Max ∧
        DeadlineInRange now params.deadline ∧
        (∀ nonce ∈ params.nonce, isNonNegIntString nonce = true ∧ bigInt nonce ≤ 2 ^ 256 - 1) ∧
        params.preferredSolver.all viem.isAddress = true := by
  simp only [validateIntent, bind_ok, require_ok, exists_const, deadlineInRange_iff, and_assoc]
  cases params.nonce with
  | none => simp
  | some nonce =>
      simp only [validateNonce, bind_ok, require_ok, exists_const, Option.mem_some_iff, forall_eq',
        and_assoc]

namespace IntentField

theorem one_small : 1 ≤ 2 ^ 53 := by decide

theorem one_finite : ((1 : Nat) : Int).natAbs < 2 ^ 1024 := natAbs_lt_of_small one_small

theorem one_exact : nearestDouble ((1 : Nat) : Int).natAbs = ((1 : Nat) : Int).natAbs :=
  nearestDouble_natAbs one_small

def one : JsNumber := .integer ⟨(1 : Nat), one_finite, one_exact⟩

/-- An intent that both take, with the given deadline. -/
def plain (deadline : JsNumber) : Intent where
  user := zeroAddress
  destination := js "GAAAAAAAAAAAAAAAAAAAAAAAAAAAAAAAAAAAAAAAAAAAAAAAAAAAAWHF"
  sourceChainId := one
  sourceAsset := zeroAddress
  sourceAmount := js "1"
  destAsset := js "native"
  minDestAmount := js "1"
  deadline
  nonce := js "0"
  preferredSolver := zeroAddress

/-- `plain` with the field of another intent. -/
def put (intent : Intent) (deadline : JsNumber) : IntentField → Intent
  | sourceChainId => { plain deadline with sourceChainId := intent.sourceChainId }
  | sourceAmount => { plain deadline with sourceAmount := intent.sourceAmount }
  | minDestAmount => { plain deadline with minDestAmount := intent.minDestAmount }
  | nonce => { plain deadline with nonce := intent.nonce }

theorem shared_put (intent : Intent) (deadline : JsNumber) (field : IntentField) :
    field.Shared (field.put intent deadline) intent := by
  cases field <;> rfl

/-- Both are properties of the field alone. -/
theorem Shared.same {a b : Intent} {field : IntentField} (shared : field.Shared a b) :
    (field.Written a ↔ field.Written b) ∧ (field.Fits a ↔ field.Fits b) := by
  cases field with
  | sourceChainId | sourceAmount | minDestAmount | nonce =>
      simp only [Shared] at shared
      simp only [Written, Fits, shared, and_self]

theorem narrow_put {viem : Viem} (zero : viem.isAddress zeroAddress = true) {intent : Intent}
    {field : IntentField} (written : field.Written intent) : (field.put intent one).Narrow viem := by
  have narrow : (plain one).Narrow viem := by
    constructor
    case user => exact zero
    case destination => decide +kernel
    case sourceChainId => rfl
    case sourceAsset => exact zero
    case sourceAmount => rfl
    case destAsset => decide +kernel
    case minDestAmount => rfl
    case deadline => rfl
    case nonce => rfl
    case preferredSolver => exact zero
  cases field with
  | sourceChainId =>
      obtain ⟨n, given, positive⟩ := written
      exact { narrow with sourceChainId := (Option.any_eq_true _ _).mpr ⟨n, given, by simpa using positive⟩ }
  | sourceAmount => exact { narrow with sourceAmount := written }
  | minDestAmount => exact { narrow with minDestAmount := written }
  | nonce => exact { narrow with nonce := written }

/-- `parseIntent` asks for the grammar. -/
theorem parses_iff {viem : Viem} (zero : viem.isAddress zeroAddress = true) {intent : Intent}
    {field : IntentField} : field.Parses viem intent ↔ field.Written intent := by
  constructor
  · intro parses
    obtain ⟨other, shared, parsed⟩ := parses
    have narrow := parseIntent_narrow parsed
    rw [← shared.same.1]
    cases field with
    | sourceChainId =>
        obtain ⟨n, given, positive⟩ := (Option.any_eq_true _ _).mp narrow.sourceChainId
        exact ⟨n, given, by simpa using positive⟩
    | sourceAmount => exact narrow.sourceAmount
    | minDestAmount => exact narrow.minDestAmount
    | nonce => exact narrow.nonce
  · intro written
    exact ⟨field.put intent one, shared_put .., (narrow_put zero written).parse⟩

theorem validateIntent_put {viem : Viem} (zero : viem.isAddress zeroAddress = true) {now : JsInteger}
    {intent : Intent} (inRange : DeadlineInRange now intent.deadline) {field : IntentField}
    (written : field.Written intent) (fits : field.Fits intent) :
    validateIntent viem (field.put intent intent.deadline).params now = .ok () := by
  have destination : isStellarAddress (plain one).destination = true := by decide +kernel
  have destBytes : (textEncode (plain one).destination).length ≤ maxDestinationLen := by
    decide +kernel
  have assetBytes : (textEncode (js "native")).length ≤ maxDestAssetLen := by decide
  have native : isStellarAsset (js "native") = true := by decide +kernel
  have amount : isPositiveIntString (js "1") = true := rfl
  have small : bigInt (js "1") ≤ i128Max := by decide
  have smaller : bigInt (js "1") ≤ u128Max := by decide
  have nonce : ∀ nonce ∈ some (js "0"), isNonNegIntString nonce = true ∧ bigInt nonce ≤ 2 ^ 256 - 1 := by
    intro nonce given
    obtain rfl := Option.some.inj given
    exact ⟨rfl, Nat.zero_le _⟩
  apply validateIntent_iff.mpr
  cases field with
  | sourceChainId =>
      obtain ⟨n, given, positive⟩ := written
      have chain : intent.sourceChainId.asInteger.any (0 < ·) = true :=
        (Option.any_eq_true _ _).mpr ⟨n, given, by simpa using positive⟩
      exact ⟨zero, destination, destBytes, chain, zero, amount, smaller, native, assetBytes, amount,
        small, inRange, nonce, zero⟩
  | sourceAmount =>
      exact ⟨zero, destination, destBytes, rfl, zero, written, fits, native, assetBytes, amount,
        small, inRange, nonce, zero⟩
  | minDestAmount =>
      exact ⟨zero, destination, destBytes, rfl, zero, amount, smaller, native, assetBytes, written,
        fits, inRange, nonce, zero⟩
  | nonce =>
      refine ⟨zero, destination, destBytes, rfl, zero, amount, smaller, native, assetBytes, amount,
        small, inRange, ?_, zero⟩
      intro nonce given
      obtain rfl := Option.some.inj given
      exact ⟨written, fits⟩

/-- `validateIntent` asks for the grammar and for a number that fits. -/
theorem validates_iff {viem : Viem} (zero : viem.isAddress zeroAddress = true) {now : JsInteger}
    {intent : Intent} (inRange : DeadlineInRange now intent.deadline) {field : IntentField} :
    field.Validates viem now intent ↔ field.Written intent ∧ field.Fits intent := by
  constructor
  · intro validates
    obtain ⟨other, shared, valid⟩ := validates
    obtain ⟨-, -, -, chain, -, source, sourceFits, -, -, minimum, minimumFits, -, nonce, -⟩ :=
      validateIntent_iff.mp valid
    rw [← shared.same.1, ← shared.same.2]
    cases field with
    | sourceChainId =>
        obtain ⟨n, given, positive⟩ := (Option.any_eq_true _ _).mp chain
        exact ⟨⟨n, given, by simpa using positive⟩, trivial⟩
    | sourceAmount => exact ⟨source, sourceFits⟩
    | minDestAmount => exact ⟨minimum, minimumFits⟩
    | nonce => exact nonce _ rfl
  · intro given
    exact ⟨field.put intent intent.deadline, shared_put .., validateIntent_put zero inRange given.1 given.2⟩

end IntentField

/-- The two functions accept the same field exactly if what is written as they ask also fits. -/
theorem same_rules {viem : Viem} (zero : viem.isAddress zeroAddress = true) {now : JsInteger}
    {intent : Intent} (inRange : DeadlineInRange now intent.deadline) :
    (∀ field : IntentField, field.Parses viem intent ↔ field.Validates viem now intent) ↔
      ∀ field : IntentField, field.Written intent → field.Fits intent := by
  simp only [IntentField.parses_iff zero, IntentField.validates_iff zero inRange, iff_self_and]

namespace Sample

/-- An address is `0x` and 40 digits; which one it is does not matter here. -/
def viem : Viem where
  isAddress s := s.length == 42 && s.take 2 == js "0x" && (s.drop 2).all fun unit =>
    isDigit unit || (97 ≤ unit && unit ≤ 102)
  toAddress _ := 0

def second (n : Nat) (small : n ≤ 2 ^ 53) : JsInteger where
  value := n
  finite := natAbs_lt_of_small small
  exact := nearestDouble_natAbs small

def now : JsInteger := second 1700000000 (by decide)

def intent : Intent := IntentField.plain (.integer (second 1700003600 (by decide)))

/-- 2^128 of the source asset, at least 2^127 of the other, and 2^256 for a nonce. -/
def vast : Intent :=
  { intent with
    sourceAmount := js "340282366920938463463374607431768211456"
    minDestAmount := js "170141183460469231731687303715884105728"
    nonce := js "115792089237316195423570985008687907853269984665640564039457584007913129639936" }

theorem intent_inRange : DeadlineInRange now intent.deadline :=
  deadlineInRange_iff.mpr (by decide +kernel)

theorem zero_isAddress : viem.isAddress zeroAddress = true := by decide +kernel

end Sample

theorem same_rules_sample :
    IntentField.sourceAmount.Parses Sample.viem Sample.intent ↔
      IntentField.sourceAmount.Validates Sample.viem Sample.now Sample.intent := by
  apply (same_rules Sample.zero_isAddress Sample.intent_inRange).mpr
  intro field _
  cases field with
  | sourceChainId => exact trivial
  | sourceAmount | minDestAmount => exact Nat.le_of_ble_eq_true rfl
  | nonce => exact Nat.zero_le _

/-- Three fields that `parseIntent` takes and `validateIntent` does not. -/
theorem rules_differ :
    DeadlineInRange Sample.now Sample.vast.deadline ∧
      (∀ field : IntentField, field.Parses Sample.viem Sample.vast) ∧
      ¬ IntentField.sourceAmount.Validates Sample.viem Sample.now Sample.vast ∧
      ¬ IntentField.minDestAmount.Validates Sample.viem Sample.now Sample.vast ∧
      ¬ IntentField.nonce.Validates Sample.viem Sample.now Sample.vast := by
  have inRange : DeadlineInRange Sample.now Sample.vast.deadline := Sample.intent_inRange
  have source : ¬ bigInt Sample.vast.sourceAmount ≤ u128Max := by decide +kernel
  have minimum : ¬ bigInt Sample.vast.minDestAmount ≤ i128Max := by decide +kernel
  have nonce : ¬ bigInt Sample.vast.nonce ≤ 2 ^ 256 - 1 := by decide +kernel
  simp only [IntentField.parses_iff Sample.zero_isAddress,
    IntentField.validates_iff Sample.zero_isAddress inRange]
  refine ⟨inRange, ?_, fun valid => source valid.2, fun valid => minimum valid.2,
    fun valid => nonce valid.2⟩
  intro field
  cases field with
  | sourceChainId => exact ⟨1, rfl, Int.one_pos⟩
  | sourceAmount => exact (by decide +kernel : isPositiveIntString Sample.vast.sourceAmount = true)
  | minDestAmount => exact (by decide +kernel : isPositiveIntString Sample.vast.minDestAmount = true)
  | nonce => exact (by decide +kernel : isNonNegIntString Sample.vast.nonce = true)

end Perihelion.Sdk

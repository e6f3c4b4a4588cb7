import Perihelion.Escrow.IntentHash
import Perihelion.Sdk.BigIntText
import Perihelion.Sdk.IntentRecord

/-! # Verifying a signature in the client

`verifyIntent` mirrors `_verify` of the escrow, from the texts that the client holds.  Throwing is
`none`: a caller that awaits it takes that for a refusal.
-/

namespace Perihelion.Sdk

open BigEndian
open Relayer (toLowerCase hexText)

/-- `BigInt("0x" ‖ s)`, of hexadecimal digits. -/
def hexNumber (s : JsString) : Option Nat :=
  s.foldlM (fun n unit => (Hex.value unit).map (16 * n + ·)) 0

/-- The bytes of a text of pairs of digits after `0x`. -/
def hexBytes (s : JsString) : Option Bytes := if s.take 2 = js "0x" then Hex.parse (s.drop 2) else none

/-! ## Hash -/

structure TypedDataDomain where
  name : JsString
  version : JsString
  chainId : JsNumber
  verifyingContract : JsString

def perihelionDomain (chainId : JsNumber) (verifyingContract : JsString) : TypedDataDomain :=
  ⟨js "Perihelion", js "1", chainId, verifyingContract⟩

def TypedDataDomain.typed (viem : Viem) (domain : TypedDataDomain) (chainId : Nat) :
    TypedData.Struct TypedData.domainType where
  values := [.string (textEncode domain.name), .string (textEncode domain.version),
    .uint256 (BitVec.ofNat 256 chainId), .address (viem.toAddress domain.verifyingContract)]
  typed := rfl

/-- `BigInt(text)` of a `uint256`; the encoder throws at a negative number. -/
def uintOf (text : JsString) : Option Nat := (bigIntOf text).bind Int.toNat?

/-- `toMessage(intent)` as it is encoded, whatever the texts are. -/
def encodeMessage (viem : Viem) (intent : Intent) : Option Escrow.Intent := do
  let sourceChainId ← intent.sourceChainId.toUint
  let sourceAmount ← uintOf intent.sourceAmount
  let minDestAmount ← uintOf intent.minDestAmount
  let deadline ← intent.deadline.toUint
  let nonce ← uintOf intent.nonce
  return { intent.message viem sourceChainId deadline with sourceAmount, minDestAmount, nonce }

/-- viem encodes nothing else: addresses that are some, and numbers that a word holds. -/
structure Encodable (viem : Viem) (intent : Intent) (message : Escrow.Intent) : Prop where
  user : viem.isAddress intent.user = true
  sourceAsset : viem.isAddress intent.sourceAsset = true
  preferredSolver : viem.isAddress intent.preferredSolver = true
  sourceChainId : message.sourceChainId < uint256
  sourceAmount : message.sourceAmount < uint256
  minDestAmount : message.minDestAmount < uint256
  deadline : message.deadline < uint256
  nonce : message.nonce < uint256

instance (viem : Viem) (intent : Intent) (message : Escrow.Intent) :
    Decidable (Encodable viem intent message) :=
  decidable_of_iff (viem.isAddress intent.user = true ∧ viem.isAddress intent.sourceAsset = true ∧
      viem.isAddress intent.preferredSolver = true ∧ message.sourceChainId < uint256 ∧
      message.sourceAmount < uint256 ∧ message.minDestAmount < uint256 ∧
      message.deadline < uint256 ∧ message.nonce < uint256)
    ⟨fun ⟨user, asset, solver, chain, amount, minimum, deadline, nonce⟩ =>
        ⟨user, asset, solver, chain, amount, minimum, deadline, nonce⟩,
      fun e => ⟨e.user, e.sourceAsset, e.preferredSolver, e.sourceChainId, e.sourceAmount,
        e.minDestAmount, e.deadline, e.nonce⟩⟩

/-- `hashTypedData({ domain, types: INTENT_TYPES, primaryType: "Intent", message })`. -/
def hashIntent (viem : Viem) (keccak256 : Bytes → Bytes32) (intent : Intent)
    (domain : TypedDataDomain) : Option Bytes32 := do
  let message ← encodeMessage viem intent
  let chainId ← domain.chainId.toUint
  if Encodable viem intent message ∧ chainId < uint256 ∧
      viem.isAddress domain.verifyingContract = true then
    some (TypedData.hashTypedData keccak256 (domain.typed viem chainId) message.typed)
  else none

/-! ## Signature -/

def secp256k1HalfN : Nat := 0x7fffffffffffffffffffffffffffffff5d576e7357a4501ddfe92f46681b20a0

def erc1271MagicValue : JsString := js "0x1626ba7e"

/-- A client's view of the chain. -/
structure PublicClient where
  /-- `getCode`, of which an account without code has none. -/
  getCode : JsString → Except Unit (Option JsString)
  /-- Return data of `isValidSignature(digest, signature)`; `none` is a revert or a failed call. -/
  isValidSignature : JsString → Bytes32 → JsString → Option Bytes

structure VerifyIntentOptions where
  client : Option PublicClient
  isContract : Option Bool

/-- The override, or what the chain says; without either it is no contract. -/
def VerifyIntentOptions.contract (options : VerifyIntentOptions) (user : JsString) : Bool :=
  match options.isContract with
  | some isContract => isContract
  | none =>
      match options.client with
      | none => false
      | some client =>
          match client.getCode user with
          | .ok code => code.any (· ≠ js "0x")
          | .error _ => false

/-- The parity bit of `v`; anything but 0, 1, 27 and 28 throws. -/
def toRecoveryBit (v : Nat) : Option Bool :=
  if v = 0 ∨ v = 27 then some false else if v = 1 ∨ v = 28 then some true else none

/-- `recoverAddress`, of which `recover` is the curve: digest, `r`, `s` and the parity bit. -/
def recoverAddress (recover : Bytes32 → Nat → Nat → Bool → Option Escrow.Address) (digest : Bytes32)
    (signature : JsString) : Option Escrow.Address := do
  let bytes ← hexBytes signature
  if bytes.length ≠ 65 then none
  else
    let v ← hexNumber (signature.drop 130)
    let odd ← toRecoveryBit v
    let r ← hexNumber ((signature.drop 2).take 64)
    let s ← hexNumber ((signature.drop 66).take 64)
    recover digest r s odd

/-- The accepted reply of `isValidSignature`: viem decodes the first word of at least one. -/
def repliesMagic (reply : Bytes) : Bool :=
  32 ≤ reply.length && toLowerCase (hexText (reply.take 4)) = erc1271MagicValue

def verifyIntent (viem : Viem) (keccak256 : Bytes → Bytes32)
    (recover : Bytes32 → Nat → Nat → Bool → Option Escrow.Address) (intent : Intent)
    (signature : JsString) (domain : TypedDataDomain) (options : VerifyIntentOptions) :
    Option Bool :=
  if options.contract intent.user then
    match options.client with
    | none => some false
    | some client => do
        let digest ← hashIntent viem keccak256 intent domain
        some ((client.isValidSignature intent.user digest signature).any repliesMagic)
  else if signature.length ≠ 132 then some false
  else do
    let s ← hexNumber ((signature.drop 66).take 64)
    if secp256k1HalfN < s then some false
    else
      let digest ← hashIntent viem keccak256 intent domain
      let recovered ← recoverAddress recover digest signature
      some (toLowerCase (hexText (encode 20 recovered.toNat)) == toLowerCase intent.user)

/-! ## Texts -/

theorem hexNumber_parsed {s : JsString} {bytes : Bytes} (parsed : Hex.parse s = some bytes) :
    hexNumber s = some (decode bytes) := by
  have general (n : Nat) : s.foldlM (fun n unit => (Hex.value unit).map (16 * n + ·)) n =
      some (bytes.foldl (fun acc b => acc * 256 + b.toNat) n) := by
    fun_induction Hex.parse s generalizing bytes n with
    | case1 =>
        cases parsed
        rfl
    | case2 => cases parsed
    | case3 high low rest ih =>
        obtain ⟨h, l, tail, first, second, found, rfl⟩ := Hex.parse_cons.mp parsed
        have highSmall := Hex.value_lt first
        have lowSmall := Hex.value_lt second
        have byte : (UInt8.ofNat (16 * h + l)).toNat = 16 * h + l := by
          rw [UInt8.toNat_ofNat', Nat.mod_eq_of_lt (by omega)]
        have whole : 16 * (16 * n + h) + l = n * 256 + (16 * h + l) := by ring
        simp only [List.foldlM_cons, first, second, Option.map_some, Option.bind_eq_bind,
          Option.bind_some, List.foldl_cons, byte, whole]
        exact ih found _
  exact general 0

/-- Reading a field of the bytes off the text. -/
theorem hexNumber_field {s : JsString} {bytes : Bytes} (read : hexBytes s = some bytes) (offset n : Nat) :
    hexNumber ((s.drop (2 * offset + 2)).take (2 * n)) = some (decode (field bytes offset n)) := by
  unfold hexBytes at read
  split at read
  · have tail := Hex.parse_drop read offset
    rw [List.drop_drop, Nat.add_comm 2] at tail
    exact hexNumber_parsed (Hex.parse_take tail n)
  · cases read

theorem hexBytes_hexText (bytes : Bytes) : hexBytes (hexText bytes) = some bytes := by
  have front : (hexText bytes).take 2 = js "0x" := List.take_left' rfl
  have back : (hexText bytes).drop 2 = Hex.text bytes := List.drop_left' rfl
  rw [hexBytes, if_pos front, back, Hex.parse_text]

theorem hexBytes_length {s : JsString} {bytes : Bytes} (read : hexBytes s = some bytes) :
    s.length = 2 * bytes.length + 2 := by
  unfold hexBytes at read
  split at read
  · rename_i start
    have digits := Hex.parse_length read
    have front := congrArg List.length start
    rw [List.length_take, show (js "0x").length = 2 from rfl] at front
    rw [List.length_drop] at digits
    omega
  · cases read

/-- One digit in lower case. -/
theorem lower_value {unit : UInt16} {n : Nat} (read : Hex.value unit = some n) :
    toLowerCase [unit] = [Hex.digit n] := by
  have bound := unit.toNat_lt
  have cases : (48 ≤ unit.toNat ∧ unit.toNat ≤ 57 ∧ n = unit.toNat - 48) ∨
      (97 ≤ unit.toNat ∧ unit.toNat ≤ 102 ∧ n = unit.toNat - 87) ∨
      (65 ≤ unit.toNat ∧ unit.toNat ≤ 70 ∧ n = unit.toNat - 55) := by
    simp only [Hex.value] at read
    grind
  simp only [toLowerCase, List.map_cons, List.map_nil, List.cons.injEq, and_true, Hex.digit]
  apply UInt16.toNat_inj.mp
  simp only [UInt16.le_iff_toNat_le, UInt16.reduceToNat, ← UInt16.toNat_inj]
  rcases cases with ⟨above, below, rfl⟩ | ⟨above, below, rfl⟩ | ⟨above, below, rfl⟩
  · rw [if_neg (by omega), if_neg (by omega), if_pos (by omega), UInt16.toNat_ofNat']
    omega
  · rw [if_neg (by omega), if_neg (by omega), if_neg (by omega), UInt16.toNat_ofNat']
    omega
  · rw [if_pos (by omega), if_neg (by omega), UInt16.toNat_add, UInt16.toNat_ofNat']
    simp only [UInt16.reduceToNat]
    omega

theorem toLowerCase_append (s t : JsString) :
    toLowerCase (s ++ t) = toLowerCase s ++ toLowerCase t :=
  List.map_append

theorem toLowerCase_parsed {s : JsString} {bytes : Bytes} (parsed : Hex.parse s = some bytes) :
    toLowerCase s = Hex.text bytes := by
  fun_induction Hex.parse s generalizing bytes with
  | case1 =>
      cases parsed
      rfl
  | case2 => cases parsed
  | case3 high low rest ih =>
      obtain ⟨h, l, tail, first, second, found, rfl⟩ := Hex.parse_cons.mp parsed
      have highSmall := Hex.value_lt first
      have lowSmall := Hex.value_lt second
      have byte : (UInt8.ofNat (16 * h + l)).toNat = 16 * h + l := by
        rw [UInt8.toNat_ofNat', Nat.mod_eq_of_lt (by omega)]
      have top : (16 * h + l) / 16 = h := by omega
      have bottom : (16 * h + l) % 16 = l := by omega
      rw [show high :: low :: rest = [high] ++ ([low] ++ rest) from rfl, toLowerCase_append,
        toLowerCase_append, lower_value first, lower_value second, ih found, Hex.text_cons, byte, top,
        bottom]
      rfl

theorem toLowerCase_hexBytes {s : JsString} {bytes : Bytes} (read : hexBytes s = some bytes) :
    toLowerCase s = hexText bytes := by
  unfold hexBytes at read
  split at read
  · rename_i start
    have head : toLowerCase (js "0x") = js "0x" := by decide
    rw [← List.take_append_drop 2 s, start, toLowerCase_append, head, toLowerCase_parsed read,
      hexText]
  · cases read

/-! ## Agreement with the escrow -/

/-- What viem takes for an address are the digits of its 20 bytes. -/
structure Viem.Reads (viem : Viem) : Prop where
  hex : ∀ {s : JsString}, viem.isAddress s = true → ∃ bytes, hexBytes s = some bytes ∧
    bytes.length = 20 ∧ viem.toAddress s = BitVec.ofNat 160 (decode bytes)

/-- `ecrecover` is the same curve; where nothing is recovered it answers the zero address. -/
def Recovers (ecrecover : Bytes32 → Nat → Nat → Nat → Escrow.Address)
    (recover : Bytes32 → Nat → Nat → Bool → Option Escrow.Address) : Prop :=
  ∀ digest r s odd, ecrecover digest (if odd then 28 else 27) r s = (recover digest r s odd).getD 0

/-- The domain is that of the deployment. -/
structure Deployed (viem : Viem) (d : Escrow.Deployment) (chainId : JsNumber) (contract : JsString) :
    Prop where
  chainId : chainId.toUint = some d.chainid
  word : d.chainid < uint256
  isAddress : viem.isAddress contract = true
  contract : viem.toAddress contract = d.this

/-- The options tell the user's code as the chain has it, and a client answers what the account
    answers the escrow. -/
structure Sees (options : VerifyIntentOptions) (c : Escrow.Context) (user : JsString)
    (account : Escrow.Address) (signature : JsString) (bytes : Bytes) : Prop where
  contract : options.contract user = c.codeAt account
  client : c.codeAt account = true → ∃ client, options.client = some client ∧
    ∀ digest, client.isValidSignature user digest signature =
      if account = c.this then none else c.isValidSignature account digest bytes

/-- For what the validators let through, the texts are the digits of their numbers. -/
theorem Intent.Narrow.encoded {viem : Viem} {intent : Intent} (narrow : intent.Narrow viem) :
    encodeMessage viem intent = toMessage viem intent := by
  have read {text : JsString} (canonical : isNonNegIntString text = true) :
      uintOf text = some (bigInt text) := by
    rw [uintOf, bigIntOf_decimal canonical]
    rfl
  have positive {text : JsString} (digits : isPositiveIntString text = true) :
      isNonNegIntString text = true := by
    rw [isNonNegIntString, digits, Bool.or_true]
  simp only [encodeMessage, toMessage, read (positive narrow.sourceAmount),
    read (positive narrow.minDestAmount), read narrow.nonce, Option.bind_eq_bind, Option.bind_some]
  rfl

theorem encodeMessage_user {viem : Viem} {intent : Intent} {message : Escrow.Intent}
    (encoded : encodeMessage viem intent = some message) :
    message.user = viem.toAddress intent.user := by
  simp only [encodeMessage, Option.bind_eq_bind, Option.bind_eq_some_iff, Option.pure_def,
    Option.some.injEq] at encoded
  obtain ⟨_, -, _, -, _, -, _, -, _, -, rfl⟩ := encoded
  rfl

theorem hashIntent_encodable {viem : Viem} {keccak256 : Bytes → Bytes32} {intent : Intent}
    {domain : TypedDataDomain} {digest : Bytes32}
    (hashed : hashIntent viem keccak256 intent domain = some digest) :
    ∃ message, encodeMessage viem intent = some message ∧ Encodable viem intent message := by
  obtain ⟨message, encoded, rest⟩ := Option.bind_eq_some_iff.mp hashed
  obtain ⟨_, -, rest⟩ := Option.bind_eq_some_iff.mp rest
  split at rest
  · rename_i given
    exact ⟨message, encoded, given.1⟩
  · cases rest

theorem hashIntent_deployed {viem : Viem} {d : Escrow.Deployment} {chainId contract}
    (deployed : Deployed viem d chainId contract) {intent : Intent} {message : Escrow.Intent}
    (encoded : encodeMessage viem intent = some message) :
    hashIntent viem d.keccak256 intent (perihelionDomain chainId contract) =
      if Encodable viem intent message then some (Escrow.hashIntent d message) else none := by
  have typed : (perihelionDomain chainId contract).typed viem d.chainid =
      Escrow.domain d.chainid d.this := by
    have name : textEncode (js "Perihelion") = ascii "Perihelion" := by decide
    have version : textEncode (js "1") = ascii "1" := by decide
    ext1
    simp only [TypedDataDomain.typed, perihelionDomain, name, version, deployed.contract,
      Escrow.domain]
  have chain : (perihelionDomain chainId contract).chainId.toUint = some d.chainid := deployed.chainId
  have known : viem.isAddress (perihelionDomain chainId contract).verifyingContract = true :=
    deployed.isAddress
  simp only [hashIntent, encoded, chain, Option.bind_eq_bind, Option.bind_some, typed, known,
    deployed.word, and_true, Escrow.hashIntent_typed]

/-- An address is compared as the account it stands for. -/
theorem Viem.Reads.same_iff {viem : Viem} (reads : viem.Reads) {user : JsString}
    (known : viem.isAddress user = true) (account : Escrow.Address) :
    toLowerCase (hexText (encode 20 account.toNat)) = toLowerCase user ↔
      account = viem.toAddress user := by
  obtain ⟨bytes, read, width, address⟩ := reads.hex known
  have size : (256 : Nat) ^ 20 = 2 ^ 160 := by norm_num
  have small := decode_lt bytes
  rw [width, size] at small
  have own := hexBytes_hexText (encode 20 account.toNat)
  rw [toLowerCase_hexBytes own, toLowerCase_hexBytes read, address]
  constructor
  · intro same
    have digits := List.append_cancel_left same
    have equal : encode 20 account.toNat = bytes := by
      have back := congrArg Hex.parse digits
      rwa [Hex.parse_text, Hex.parse_text, Option.some.injEq] at back
    have value := congrArg decode equal
    rw [decode_encode, size, Nat.mod_eq_of_lt account.isLt] at value
    rw [← value, BitVec.ofNat_toNat, BitVec.setWidth_eq]
  · rintro rfl
    rw [BitVec.toNat_ofNat, Nat.mod_eq_of_lt small, ← width, encode_decode]

theorem toRecoveryBit_ok {v : Nat} {odd : Bool} :
    toRecoveryBit v = some odd ↔
      (if v < 27 then v + 27 else v) = if odd then 28 else 27 := by
  unfold toRecoveryBit
  cases odd with
  | true =>
      simp only [if_true]
      grind
  | false =>
      simp only [Bool.false_eq_true, if_false]
      grind

theorem recoverAddress_ok {recover} {signature : JsString} {bytes : Bytes}
    (text : hexBytes signature = some bytes) {digest : Bytes32} {account : Escrow.Address} :
    recoverAddress recover digest signature = some account ↔ bytes.length = 65 ∧ ∃ odd,
      toRecoveryBit (decode (field bytes 64 1)) = some odd ∧
        recover digest (decode (field bytes 0 32)) (decode (field bytes 32 32)) odd = some account := by
  by_cases width : bytes.length = 65
  · have v := hexNumber_field text 64 1
    have r := hexNumber_field text 0 32
    have s := hexNumber_field text 32 32
    have last : (signature.drop 130).take 2 = signature.drop 130 := by
      have length := hexBytes_length text
      apply List.take_of_length_le
      rw [List.length_drop]
      omega
    norm_num [last] at v r s
    simp only [recoverAddress, text, v, r, s, width, Option.bind_eq_bind, Option.bind_some, ne_eq,
      not_true_eq_false, if_false, true_and, Option.bind_eq_some_iff]
  · simp [recoverAddress, text, width]

theorem verifyEcdsa_ok {d : Escrow.Deployment} {digest : Bytes32} {signer : Escrow.Address}
    {bytes : Bytes} :
    Escrow.verifyEcdsa d digest signer bytes = true ↔ bytes.length = 65 ∧
      decode (field bytes 32 32) ≤ Escrow.secp256k1HalfOrder ∧ signer ≠ 0 ∧ ∃ odd,
        toRecoveryBit (decode (field bytes 64 1)) = some odd ∧
          d.ecrecover digest (if odd then 28 else 27) (decode (field bytes 0 32))
            (decode (field bytes 32 32)) = signer := by
  simp only [toRecoveryBit_ok, Escrow.verifyEcdsa]
  by_cases width : bytes.length = 65
  · simp only [width, ne_eq, not_true_eq_false, if_false, true_and]
    generalize (if decode (field bytes 64 1) < 27 then decode (field bytes 64 1) + 27
      else decode (field bytes 64 1)) = v
    generalize decode (field bytes 32 32) = s
    by_cases high : Escrow.secp256k1HalfOrder < s
    · simp [high]
    · by_cases valid : v = 27 ∨ v = 28
      · rcases valid with rfl | rfl <;> simp [high] <;> grind
      · have refused : ¬ ∃ odd : Bool, v = (if odd then 28 else 27) ∧
            d.ecrecover digest (if odd then 28 else 27) (decode (field bytes 0 32)) s = signer := by
          rintro ⟨odd, rfl, -⟩
          cases odd <;> exact absurd (by simp) valid
        simp only [refused, and_false, iff_false]
        grind
  · simp [width]

/-- The two recoveries of one signature. -/
theorem recovers_iff {ecrecover recover} (recovers : Recovers ecrecover recover) {digest r s odd}
    {account : Escrow.Address} (owned : account ≠ 0) :
    recover digest r s odd = some account ↔ ecrecover digest (if odd then 28 else 27) r s = account := by
  rw [recovers]
  cases recover digest r s odd with
  | none =>
      constructor
      · intro found
        cases found
      · intro zero
        exact absurd zero.symm owned
  | some found => simp

theorem repliesMagic_iff {reply : Bytes} : repliesMagic reply = true ↔
    32 ≤ reply.length ∧ reply.take 4 = Escrow.erc1271Selector := by
  have lower : toLowerCase (hexText (reply.take 4)) = hexText (reply.take 4) :=
    toLowerCase_hexBytes (hexBytes_hexText _)
  have magic : erc1271MagicValue = hexText Escrow.erc1271Selector := by decide
  rw [repliesMagic, lower, magic, Bool.and_eq_true, decide_eq_true_eq, decide_eq_true_eq]
  constructor
  · rintro ⟨long, same⟩
    have read := congrArg hexBytes same
    rw [hexBytes_hexText, hexBytes_hexText, Option.some.injEq] at read
    exact ⟨long, read⟩
  · rintro ⟨long, same⟩
    exact ⟨long, by rw [same]⟩

/-- The account answers with the magic value and something after it in the same word. -/
def Dirty (c : Escrow.Context) (digest : Bytes32) (signer : Escrow.Address) (signature : Bytes) :
    Prop :=
  c.codeAt signer = true ∧ signer ≠ c.this ∧
    ∃ reply, c.isValidSignature signer digest signature = some reply ∧ 32 ≤ reply.length ∧
      reply.take 4 = Escrow.erc1271Selector ∧ decode (field reply 4 28) ≠ 0

theorem verify_contract {c : Escrow.Context} {digest : Bytes32} {signer : Escrow.Address}
    {signature : Bytes} (code : c.codeAt signer = true) :
    (if signer = c.this then none else c.isValidSignature signer digest signature).any
        repliesMagic = true ↔
      Escrow.verify c digest signer signature = .ok true ∨ Dirty c digest signer signature := by
  by_cases own : signer = c.this
  · rw [own] at code
    simp [Escrow.verify, code, own, Dirty]
  · simp only [Escrow.verify, code, own, if_false, if_true, Dirty, ne_eq, not_false_eq_true,
      true_and]
    cases c.isValidSignature signer digest signature with
    | none => simp
    | some reply =>
        simp only [Option.any_some, repliesMagic_iff, Option.some.injEq, exists_eq_left']
        by_cases short : reply.length < 32
        · simp [short, Nat.not_le.mpr short]
        · by_cases clean : decode (field reply 4 28) = 0
          · simp [short, clean, Nat.not_lt.mp short]
          · simp [short, clean, Nat.not_lt.mp short]

/-- The last part of `verifyIntent`, of a user without code. -/
theorem verify_account {viem : Viem} (reads : viem.Reads) {d : Escrow.Deployment} {recover}
    (recovers : Recovers d.ecrecover recover) {user : JsString} (known : viem.isAddress user = true)
    (owned : viem.toAddress user ≠ 0) {signature : JsString} {bytes : Bytes}
    (text : hexBytes signature = some bytes) (digest : Bytes32) :
    (∃ recovered, recoverAddress recover digest signature = some recovered ∧
        decode (field bytes 32 32) ≤ secp256k1HalfN ∧
        toLowerCase (hexText (encode 20 recovered.toNat)) = toLowerCase user) ↔
      Escrow.verifyEcdsa d digest (viem.toAddress user) bytes = true := by
  have half : Escrow.secp256k1HalfOrder = secp256k1HalfN := rfl
  rw [verifyEcdsa_ok, half]
  constructor
  · rintro ⟨recovered, found, low, same⟩
    obtain ⟨width, odd, parity, found⟩ := (recoverAddress_ok text).mp found
    rw [(reads.same_iff known recovered).mp same] at found
    exact ⟨width, low, owned, odd, parity, (recovers_iff recovers owned).mp found⟩
  · rintro ⟨width, low, -, odd, parity, found⟩
    have back := (recovers_iff recovers owned).mpr found
    exact ⟨viem.toAddress user, (recoverAddress_ok text).mpr ⟨width, odd, parity, back⟩, low,
      (reads.same_iff known _).mpr rfl⟩

section verifies

variable {viem : Viem} {d : Escrow.Deployment} {recover : Bytes32 → Nat → Nat → Bool → Option Escrow.Address}
  {chainId : JsNumber} {contract : JsString} {intent : Intent} {message : Escrow.Intent}
  {signature : JsString} {options : VerifyIntentOptions}

/-- Nothing is verified of an intent that has no hash. -/
theorem verifyIntent_hashed {keccak256 : Bytes → Bytes32} {domain : TypedDataDomain}
    (accepted : verifyIntent viem keccak256 recover intent signature domain options = some true) :
    ∃ digest, hashIntent viem keccak256 intent domain = some digest := by
  unfold verifyIntent at accepted
  split at accepted
  · split at accepted
    · cases accepted
    · obtain ⟨digest, hashed, -⟩ := Option.bind_eq_some_iff.mp accepted
      exact ⟨digest, hashed⟩
  · split at accepted
    · cases accepted
    · obtain ⟨s, -, rest⟩ := Option.bind_eq_some_iff.mp accepted
      split at rest
      · cases rest
      · obtain ⟨digest, hashed, -⟩ := Option.bind_eq_some_iff.mp rest
        exact ⟨digest, hashed⟩

theorem verifyIntent_contract (deployed : Deployed viem d chainId contract)
    (encoded : encodeMessage viem intent = some message) (encodable : Encodable viem intent message)
    (code : options.contract intent.user = true) {client : PublicClient}
    (given : options.client = some client) :
    verifyIntent viem d.keccak256 recover intent signature (perihelionDomain chainId contract)
        options = some true ↔
      (client.isValidSignature intent.user (Escrow.hashIntent d message) signature).any
        repliesMagic = true := by
  simp only [verifyIntent, code, if_true, given, hashIntent_deployed deployed encoded, encodable,
    Option.bind_eq_bind, Option.bind_some, Option.some.injEq]

theorem verifyIntent_account (reads : viem.Reads) (recovers : Recovers d.ecrecover recover)
    (deployed : Deployed viem d chainId contract) (encoded : encodeMessage viem intent = some message)
    (encodable : Encodable viem intent message) (owned : message.user ≠ 0)
    (plain : options.contract intent.user = false) :
    verifyIntent viem d.keccak256 recover intent signature (perihelionDomain chainId contract)
        options = some true ↔
      ∃ bytes, hexBytes signature = some bytes ∧
        Escrow.verifyEcdsa d (Escrow.hashIntent d message) message.user bytes = true := by
  have user := encodeMessage_user encoded
  simp only [verifyIntent, plain, Bool.false_eq_true, if_false, hashIntent_deployed deployed encoded,
    encodable, if_true]
  cases text : hexBytes signature with
  | none =>
      have unread (digest : Bytes32) : recoverAddress recover digest signature = none := by
        rw [recoverAddress, text]
        rfl
      simp only [unread, reduceCtorEq, false_and, exists_const, iff_false]
      intro accepted
      split at accepted
      · cases accepted
      · obtain ⟨s, -, rest⟩ := Option.bind_eq_some_iff.mp accepted
        split at rest <;> cases rest
  | some bytes =>
      have length := hexBytes_length text
      simp only [Option.some.injEq, exists_eq_left']
      rw [user, ← verify_account reads recovers encodable.user (user ▸ owned) text]
      by_cases width : bytes.length = 65
      · have s := hexNumber_field text 32 32
        norm_num at s
        have whole : signature.length = 132 := by omega
        simp only [whole, ne_eq, not_true_eq_false, if_false, s, Option.bind_eq_bind,
          Option.bind_some]
        by_cases high : secp256k1HalfN < decode (field bytes 32 32)
        · simp [high, Nat.not_le.mpr high]
        · simp [high, Nat.not_lt.mp high, Option.bind_eq_some_iff]
      · have wrong : signature.length ≠ 132 := by omega
        simp [wrong, recoverAddress_ok text, width]

end verifies

theorem verifyIntent_iff {viem : Viem} (reads : viem.Reads) {c : Escrow.Context} {recover}
    (recovers : Recovers c.ecrecover recover) {chainId contract}
    (deployed : Deployed viem c.toDeployment chainId contract) {intent : Intent}
    (owned : viem.toAddress intent.user ≠ 0) {signature : JsString} {bytes : Bytes}
    (text : hexBytes signature = some bytes) {options : VerifyIntentOptions}
    (sees : Sees options c intent.user (viem.toAddress intent.user) signature bytes) :
    verifyIntent viem c.keccak256 recover intent signature (perihelionDomain chainId contract)
        options = some true ↔
      ∃ message, encodeMessage viem intent = some message ∧ Encodable viem intent message ∧
        (Escrow.verify c (Escrow.hashIntent c.toDeployment message) message.user bytes = .ok true ∨
          Dirty c (Escrow.hashIntent c.toDeployment message) message.user bytes) := by
  constructor
  · intro accepted
    obtain ⟨digest, hashed⟩ := verifyIntent_hashed accepted
    obtain ⟨message, encoded, encodable⟩ := hashIntent_encodable hashed
    refine ⟨message, encoded, encodable, ?_⟩
    rw [← encodeMessage_user encoded] at owned sees
    cases code : c.codeAt message.user with
    | true =>
        obtain ⟨client, given, answers⟩ := sees.client code
        rw [verifyIntent_contract deployed encoded encodable (sees.contract.trans code) given,
          answers] at accepted
        exact (verify_contract code).mp accepted
    | false =>
        rw [verifyIntent_account reads recovers deployed encoded encodable owned
          (sees.contract.trans code)] at accepted
        obtain ⟨_, same, verified⟩ := accepted
        cases text.symm.trans same
        left
        rw [Escrow.verify, code, if_neg Bool.false_ne_true, verified]
  · rintro ⟨message, encoded, encodable, accepted⟩
    rw [← encodeMessage_user encoded] at owned sees
    cases code : c.codeAt message.user with
    | true =>
        obtain ⟨client, given, answers⟩ := sees.client code
        rw [verifyIntent_contract deployed encoded encodable (sees.contract.trans code) given,
          answers]
        exact (verify_contract code).mpr accepted
    | false =>
        rw [verifyIntent_account reads recovers deployed encoded encodable owned
          (sees.contract.trans code)]
        rcases accepted with verified | dirty
        · rw [Escrow.verify, code, if_neg Bool.false_ne_true, Except.ok.injEq] at verified
          exact ⟨bytes, text, verified⟩
        · cases dirty.1.symm.trans code

namespace Sample

/-- Texts in lower case need no checksum. -/
def lowerViem : Viem where
  isAddress s := (hexBytes s).any (·.length = 20) && toLowerCase s = s
  toAddress s := BitVec.ofNat 160 (decode ((hexBytes s).getD []))

theorem lowerViem_reads : lowerViem.Reads where
  hex := by
    intro s known
    obtain ⟨bytes, read, width⟩ :=
      (Option.any_eq_true _ _).mp (Bool.and_eq_true_iff.mp known).1
    refine ⟨bytes, read, of_decide_eq_true width, ?_⟩
    simp only [lowerViem, read, Option.getD_some]

def wholeNumber (n : Nat) (small : n ≤ 2 ^ 53) : JsNumber :=
  .integer ⟨n, natAbs_lt_of_small small, nearestDouble_natAbs small⟩

theorem one_small : 1 ≤ 2 ^ 53 := by decide

theorem due_small : 1700010000 ≤ 2 ^ 53 := by decide

/-- The intent of the sample escrow, whose user is a wallet contract. -/
def walletIntent : Intent where
  user := js "0x0000000000000000000000000000000000005afe"
  destination := js "GADQOBYHA4DQOBYHA4DQOBYHA4DQOBYHA4DQOBYHA4DQOBYHA4DQOZPI"
  sourceChainId := wholeNumber 1 one_small
  sourceAsset := js "0x00000000000000000000000000000000000070ce"
  sourceAmount := js "100"
  destAsset := js "native"
  minDestAmount := js "90"
  deadline := wholeNumber 1700010000 due_small
  nonce := js "7"
  preferredSolver := js "0x0000000000000000000000000000000000000000"

def escrowContext : Escrow.Context := Escrow.Sample.lockTx.context Escrow.Sample.deployment

def client : PublicClient where
  getCode _ := .ok (some (js "0x6001"))
  isValidSignature user digest _ :=
    Escrow.Sample.host.isValidSignature (lowerViem.toAddress user) digest []

def options : VerifyIntentOptions := ⟨some client, none⟩

theorem wallet_message : encodeMessage lowerViem walletIntent = some Escrow.Sample.intent := by
  decide +kernel

theorem wallet_encodable : Encodable lowerViem walletIntent Escrow.Sample.intent := by
  decide +kernel

theorem escrow_deployed : Deployed lowerViem escrowContext.toDeployment (wholeNumber 1 (by decide))
    (js "0x000000000000000000000000000000000000e5c0") where
  chainId := rfl
  word := by decide
  isAddress := by decide +kernel
  contract := by decide +kernel

theorem wallet_seen : Sees options escrowContext walletIntent.user
    (lowerViem.toAddress walletIntent.user) (js "0x") [] where
  contract := by decide +kernel
  client := by
    intro _
    refine ⟨client, rfl, ?_⟩
    intro digest
    rw [if_neg (by decide +kernel)]
    rfl

end Sample

/-- The wallet takes the empty signature. -/
theorem verifyIntent_wallet :
    verifyIntent Sample.lowerViem Sample.escrowContext.keccak256 (fun _ _ _ _ => none)
      Sample.walletIntent (js "0x")
      (perihelionDomain (Sample.wholeNumber 1 (by decide))
        (js "0x000000000000000000000000000000000000e5c0")) Sample.options = some true := by
  have recovers : Recovers Sample.escrowContext.ecrecover (fun _ _ _ _ => none) :=
    fun digest r s odd => rfl
  refine (verifyIntent_iff Sample.lowerViem_reads recovers Sample.escrow_deployed
    (by decide +kernel) (by decide) Sample.wallet_seen).mpr
    ⟨Escrow.Sample.intent, Sample.wallet_message, Sample.wallet_encodable, Or.inl ?_⟩
  decide +kernel

end Perihelion.Sdk

import Perihelion.Lib.Layout
import Perihelion.Settlement.Messages
import Perihelion.Settlement.Strkey

/-! # One payload for an instruction

The decoders of `lz_receive_bytes` against the encoders beside them.  An identifier has one strkey
and one padding, and a number one spelling, so that the accepted payloads are the encoded ones.
-/

namespace Perihelion.Settlement

open BigEndian BigEndian.Layout Fallible

/-! ## The encoder -/

/-- `Address::to_string`, as bytes. -/
def Address.toString : Address → Bytes
  | .account key => base32 (strkeyPayload versionAccount key.toBytes)
  | .contract id => base32 (strkeyPayload versionContract id.toBytes)

/-- The escrow's encoder as the settlement's tests mirror it.  A longer identifier panics. -/
def encodeFillInstructionWithDestAsset (fi : FillInstruction) (destAssetId : Bytes) : Option Bytes :=
  if destAssetId.length ≤ maxDestAssetLen then
    some ([protocolVersion] ++ [msgFillInstruction] ++ fi.intentHash.toBytes
      ++ encode 4 fi.srcEid.toNat ++ padRight 56 fi.recipient.toString
      ++ padRight maxDestAssetLen destAssetId ++ encode 16 fi.minDestAmount.toNat
      ++ encode 8 fi.deadline ++ (fi.lockedSolver.getD 0).toBytes ++ encode 8 fi.reservationWindow)
  else none

/-- What an instruction from the wire is like. -/
structure WireFillInstruction.Canonical (fi : WireFillInstruction) : Prop where
  destAsset : (DestAsset.parse fi.destAsset).isSome
  minDestAmount : 0 ≤ fi.minDestAmount.toInt
  deadline : fi.deadline < uint64
  preferredSolver : fi.preferredSolver = none
  lockedSolver : fi.lockedSolver ≠ some 0
  reservationWindow : fi.reservationWindow < uint64

/-! ## Texts -/

/-- An address and its strkey. -/
def strkeys : Bytes ≃. Address where
  toFun := Address.fromStringBytes
  invFun address := some address.toString
  inv := by
    intro text address
    unfold Address.fromStringBytes
    simp only [Option.some.injEq, Option.map_eq_some_iff]
    constructor
    · rintro rfl
      cases address with
      | account key =>
          refine ⟨(versionAccount, key.toBytes), ?_, by simp⟩
          exact decodeStrkey_iff.mpr ⟨Or.inl rfl, Bytes32.toBytes_length key, rfl⟩
      | contract id =>
          refine ⟨(versionContract, id.toBytes), ?_, by simp [versionContract, versionAccount]⟩
          exact decodeStrkey_iff.mpr ⟨Or.inr rfl, Bytes32.toBytes_length id, rfl⟩
    · rintro ⟨⟨version, key⟩, decoded, rfl⟩
      obtain ⟨known, width, rfl⟩ := decodeStrkey_iff.mp decoded
      rcases known with rfl | rfl
      · simp [Address.toString, Bytes32.toBytes_ofBytes width]
      · simp [Address.toString, Bytes32.toBytes_ofBytes width, versionContract, versionAccount]

theorem take_trimmedLen_eq (padded : Bytes) : padded.take (trimmedLen padded) = unpad padded := by
  have start : unpad padded <+: padded := List.rdropWhile_prefix ..
  have length : trimmedLen padded = (unpad padded).length := by
    simp [trimmedLen, unpad, List.rdropWhile]
  rw [length, ← List.prefix_iff_eq_take.mp start]

theorem padRight_eq {n : Nat} {text : Bytes} (fits : text.length ≤ n) :
    padRight n text = text.rightpad n 0 := by
  rw [padRight, List.take_of_length_le fits, List.rightpad]

theorem Address.toString_plain (address : Address) :
    address.toString.length = 56 ∧ 0 ∉ address.toString := by
  have read : address ∈ strkeys address.toString := (strkeys.mem_iff_mem).mp rfl
  obtain ⟨decoded, strkey, -⟩ := Option.map_eq_some_iff.mp read
  exact decodeStrkey_nonzero strkey

/-- Every canonical identifier fits its field. -/
theorem DestAsset.parse_length {id : Bytes} (canonical : (DestAsset.parse id).isSome) :
    id.length ≤ maxDestAssetLen := by
  by_cases native : id = ascii "native"
  · rw [native]
    decide
  · rw [DestAsset.parse_isSome native] at canonical
    split at canonical
    · rename_i colon
      obtain ⟨-, short, -, -, valid⟩ := canonical
      have issuer := (isValidStrkey_nonzero valid).1
      rw [colon_parts colon, List.length_append, List.length_cons, issuer]
      exact Nat.add_le_add_right short 57
    · rw [(isValidStrkey_nonzero canonical.2).1]
      decide

/-! ## The fields -/

def hash : Layout Bytes32 := word 32

def eid : Layout Eid :=
  (word 4).via (Equiv.mk UInt32.ofBitVec UInt32.toBitVec (fun _ => rfl) fun _ => rfl).toPEquiv

def recipient : Layout Address := (padded 56).via strkeys

def destAsset : Layout Bytes :=
  (padded maxDestAssetLen).via (PEquiv.ofSet {id | (DestAsset.parse id).isSome})

def minDestAmount : Layout I128 := (word 16).via (PEquiv.ofSet {amount | 0 ≤ amount.toInt})

def lockedSolver : Layout (Option Bytes32) := hash.via (nullable 0)

variable {text : Bytes}

theorem hash_reads {x : Bytes32} : hash.Reads text x ↔ text.length = 32 ∧ Bytes32.ofBytes text = x :=
  word_reads

theorem hash_writes {x : Bytes32} : hash.Writes x text ↔ text = x.toBytes := word_writes

theorem eid_reads {e : Eid} : eid.Reads text e ↔ text.length = 4 ∧ UInt32.ofNat (decode text) = e := by
  simp only [eid, via_reads, word_reads, Equiv.toPEquiv_apply, Option.mem_some_iff]
  constructor
  · rintro ⟨_, ⟨length, rfl⟩, rfl⟩
    exact ⟨length, rfl⟩
  · rintro ⟨length, rfl⟩
    exact ⟨_, ⟨length, rfl⟩, rfl⟩

theorem eid_writes {e : Eid} : eid.Writes e text ↔ text = encode 4 e.toNat := by
  simp only [eid, via_writes, word_writes, ← Equiv.toPEquiv_symm, Equiv.toPEquiv_apply, Option.mem_some_iff,
    exists_eq_left']
  rfl

theorem recipient_reads {address : Address} :
    recipient.Reads text address ↔ text.length = 56 ∧ decodeStrkeyAddress text = .ok address := by
  simp only [recipient, via_reads, padded_reads, decodeStrkeyAddress, bind_ok, require_ok, exists_const,
    expect_ok, take_trimmedLen_eq, ← Address.fromStringBytes_isSome]
  constructor
  · rintro ⟨_, ⟨length, rfl, -⟩, read⟩
    have read : Address.fromStringBytes (unpad text) = some address := read
    exact ⟨length, by rw [read]; rfl, read⟩
  · rintro ⟨length, -, read⟩
    obtain ⟨_, strkey, -⟩ := Option.map_eq_some_iff.mp read
    exact ⟨_, ⟨length, rfl, (decodeStrkey_nonzero strkey).2⟩, read⟩

theorem recipient_writes {address : Address} :
    recipient.Writes address text ↔ text = padRight 56 address.toString := by
  obtain ⟨length, plain⟩ := address.toString_plain
  have written (strkey : Bytes) : strkey ∈ strkeys.symm address ↔ address.toString = strkey :=
    Option.some_inj
  simp [recipient, via_writes, padded_writes, written, length, plain, padRight_eq]

theorem destAsset_reads {id : Bytes} : destAsset.Reads text id ↔
    text.length = maxDestAssetLen ∧ text.take (trimmedLen text) = id ∧ (DestAsset.parse id).isSome := by
  simp only [destAsset, via_reads, padded_reads, PEquiv.mem_ofSet_iff, take_trimmedLen_eq,
    Set.mem_ofPred_eq]
  constructor
  · rintro ⟨_, ⟨length, rfl, -⟩, rfl, canonical⟩
    exact ⟨length, rfl, canonical⟩
  · rintro ⟨length, rfl, canonical⟩
    exact ⟨_, ⟨length, rfl, DestAsset.parse_nonzero canonical⟩, rfl, canonical⟩

theorem destAsset_writes {id : Bytes} : destAsset.Writes id text ↔
    (DestAsset.parse id).isSome ∧ text = padRight maxDestAssetLen id := by
  simp only [destAsset, via_writes, padded_writes, PEquiv.ofSet_symm, PEquiv.mem_ofSet_iff,
    Set.mem_ofPred_eq]
  constructor
  · rintro ⟨_, ⟨rfl, canonical⟩, ⟨short, -⟩, rfl⟩
    exact ⟨canonical, (padRight_eq short).symm⟩
  · rintro ⟨canonical, rfl⟩
    have short := DestAsset.parse_length canonical
    exact ⟨_, ⟨rfl, canonical⟩, ⟨short, DestAsset.parse_nonzero canonical⟩, padRight_eq short⟩

theorem minDestAmount_reads {amount : I128} : minDestAmount.Reads text amount ↔
    text.length = 16 ∧ BitVec.ofNat 128 (decode text) = amount ∧ 0 ≤ amount.toInt := by
  simp only [minDestAmount, via_reads, word_reads, PEquiv.mem_ofSet_iff, Set.mem_ofPred_eq]
  constructor
  · rintro ⟨_, ⟨length, rfl⟩, rfl, nonneg⟩
    exact ⟨length, rfl, nonneg⟩
  · rintro ⟨length, rfl, nonneg⟩
    exact ⟨_, ⟨length, rfl⟩, rfl, nonneg⟩

theorem minDestAmount_writes {amount : I128} : minDestAmount.Writes amount text ↔
    0 ≤ amount.toInt ∧ text = encode 16 amount.toNat := by
  simp only [minDestAmount, via_writes, word_writes, PEquiv.ofSet_symm, PEquiv.mem_ofSet_iff,
    Set.mem_ofPred_eq]
  constructor
  · rintro ⟨_, ⟨rfl, nonneg⟩, rfl⟩
    exact ⟨nonneg, rfl⟩
  · rintro ⟨nonneg, rfl⟩
    exact ⟨_, ⟨rfl, nonneg⟩, rfl⟩

/-- The zero word stands for no solver. -/
theorem ofBytes_eq_zero (width : text.length = 32) : Bytes32.ofBytes text = 0 ↔ decode text = 0 := by
  have small := decode_lt text
  rw [width] at small
  rw [← BitVec.toNat_inj, Bytes32.ofBytes, BitVec.toNat_ofNat, Nat.mod_eq_of_lt (by omega)]
  rfl

theorem lockedSolver_reads {solver : Option Bytes32} : lockedSolver.Reads text solver ↔
    text.length = 32 ∧
      (if decode text = 0 then none else some (Bytes32.ofBytes text)) = solver := by
  have chosen (x : Bytes32) : solver ∈ nullable 0 x ↔ (if x = 0 then none else some x) = solver :=
    Option.some_inj
  simp only [lockedSolver, via_reads, hash_reads, chosen]
  constructor
  · rintro ⟨_, ⟨length, rfl⟩, solved⟩
    simp only [ofBytes_eq_zero length] at solved
    exact ⟨length, solved⟩
  · rintro ⟨length, solved⟩
    refine ⟨_, ⟨length, rfl⟩, ?_⟩
    simpa only [ofBytes_eq_zero length] using solved

theorem lockedSolver_writes {solver : Option Bytes32} : lockedSolver.Writes solver text ↔
    solver ≠ some 0 ∧ text = (solver.getD 0).toBytes := by
  simp only [lockedSolver, via_writes, hash_writes]
  cases solver with
  | none =>
      have chosen (x : Bytes32) : x ∈ (nullable (0 : Bytes32)).symm none ↔ 0 = x := Option.some_inj
      simp only [chosen, exists_eq_left', ne_eq, reduceCtorEq, not_false_eq_true, true_and]
      rfl
  | some solver =>
      have chosen (x : Bytes32) :
          x ∈ (nullable 0).symm (some solver) ↔ solver ≠ 0 ∧ solver = x := by
        simp [nullable, PEquiv.symm]
      simp only [chosen, and_assoc, exists_and_left, exists_eq_left', ne_eq, Option.some.injEq]
      rfl

/-! ## The payload -/

/-- What a FillInstruction says. -/
abbrev Fields : Type :=
  Unit × Bytes32 × Eid × Address × Bytes × I128 × Nat × Option Bytes32 × Nat

def WireFillInstruction.fields (fi : WireFillInstruction) : Fields :=
  ((), fi.intentHash, fi.srcEid, fi.recipient, fi.destAsset, fi.minDestAmount, fi.deadline,
    fi.lockedSolver, fi.reservationWindow)

def fillInstruction : Layout Fields :=
  (literal [protocolVersion, msgFillInstruction]).pair <| hash.pair <| eid.pair <| recipient.pair <|
    destAsset.pair <| minDestAmount.pair <| (unsigned 8).pair <| lockedSolver.pair (unsigned 8)

theorem uint64_eq : 256 ^ 8 = uint64 := by
  unfold uint64
  norm_num

theorem fillInstruction_writes {fi : WireFillInstruction} (canonical : fi.Canonical)
    (asset : Address) : ∃ message,
      encodeFillInstructionWithDestAsset (fi.intoFillInstruction asset) fi.destAsset = some message ∧
        fillInstruction.Writes fi.fields message := by
  have short := DestAsset.parse_length canonical.destAsset
  have deadline := canonical.deadline
  have window := canonical.reservationWindow
  rw [← uint64_eq] at deadline window
  refine ⟨_, if_pos short, ?_⟩
  simp only [List.append_assoc]
  exact (literal_writes.mpr rfl).pair <| (hash_writes.mpr rfl).pair <| (eid_writes.mpr rfl).pair <|
    (recipient_writes.mpr rfl).pair <| (destAsset_writes.mpr ⟨canonical.destAsset, rfl⟩).pair <|
    (minDestAmount_writes.mpr ⟨canonical.minDestAmount, rfl⟩).pair <|
    (unsigned_writes.mpr ⟨deadline, rfl⟩).pair <|
    (lockedSolver_writes.mpr ⟨canonical.lockedSolver, rfl⟩).pair (unsigned_writes.mpr ⟨window, rfl⟩)

theorem fillInstruction_reads {fi : WireFillInstruction} {message : Bytes} :
    fillInstruction.Reads message fi.fields ↔
      message.take 2 = [protocolVersion, msgFillInstruction] ∧
        hash.Reads (field message 2 32) fi.intentHash ∧
        eid.Reads (field message 34 4) fi.srcEid ∧
        recipient.Reads (field message 38 56) fi.recipient ∧
        destAsset.Reads (field message 94 maxDestAssetLen) fi.destAsset ∧
        minDestAmount.Reads (field message 163 16) fi.minDestAmount ∧
        (unsigned 8).Reads (field message 179 8) fi.deadline ∧
        lockedSolver.Reads (field message 187 32) fi.lockedSolver ∧
        (unsigned 8).Reads (message.drop 219) fi.reservationWindow := by
  simp only [fillInstruction, WireFillInstruction.fields, pair_reads, literal_reads, List.drop_drop]
  rfl

theorem decodeFillInstruction_ok {rest : Bytes} {fi : WireFillInstruction} :
    decodeFillInstruction (protocolVersion :: msgFillInstruction :: rest) = .ok fi ↔
      fi.preferredSolver = none ∧
        fillInstruction.Reads (protocolVersion :: msgFillInstruction :: rest) fi.fields := by
  generalize layout : protocolVersion :: msgFillInstruction :: rest = message
  have header : message.take 2 = [protocolVersion, msgFillInstruction] := by rw [← layout]; rfl
  simp only [decodeFillInstruction, readField, bind_ok, require_ok, exists_const, pure_ok,
    fillInstruction_reads, hash_reads, eid_reads, recipient_reads, destAsset_reads,
    minDestAmount_reads, unsigned_reads, lockedSolver_reads, header, true_and]
  have last (length : message.length = fillInstructionLength) :
      message.drop 219 = field message 219 8 := by
    unfold fillInstructionLength at length
    exact (List.take_of_length_le (by rw [List.length_drop]; omega)).symm
  constructor
  · rintro ⟨length, _, ⟨-, rfl⟩, _, ⟨-, rfl⟩, _, ⟨-, rfl⟩, recipient, addressed, _, ⟨-, rfl⟩, asset, _,
      ⟨-, rfl⟩, nonneg, _, ⟨-, rfl⟩, _, ⟨-, rfl⟩, _, ⟨-, rfl⟩, rfl⟩
    rw [last length]
    unfold fillInstructionLength at length
    have sized {offset n : Nat} (inside : offset + n ≤ 227) : (field message offset n).length = n :=
      field_length (by omega)
    exact ⟨rfl, ⟨sized (by decide), rfl⟩, ⟨sized (by decide), rfl⟩, ⟨sized (by decide), addressed⟩,
      ⟨sized (by decide), rfl, asset⟩, ⟨sized (by decide), rfl, nonneg⟩, ⟨sized (by decide), rfl⟩,
      ⟨sized (by decide), rfl⟩, sized (by decide), rfl⟩
  · cases fi
    rintro ⟨rfl, ⟨-, rfl⟩, ⟨-, rfl⟩, ⟨-, addressed⟩, ⟨-, rfl, asset⟩, ⟨-, rfl, nonneg⟩, ⟨-, rfl⟩, ⟨-, rfl⟩,
      tail, rfl⟩
    have length : message.length = fillInstructionLength := by
      rw [List.length_drop] at tail
      unfold fillInstructionLength
      omega
    rw [last length]
    have inside {offset n : Nat} (inside : offset + n ≤ 227) : offset + n ≤ message.length := by
      rw [length]
      exact inside
    exact ⟨length, _, ⟨inside (by decide), rfl⟩, _, ⟨inside (by decide), rfl⟩, _,
      ⟨inside (by decide), rfl⟩, _, addressed, _, ⟨inside (by decide), rfl⟩, asset, _,
      ⟨inside (by decide), rfl⟩, nonneg, _, ⟨inside (by decide), rfl⟩, _, ⟨inside (by decide), rfl⟩, _,
      ⟨inside (by decide), rfl⟩, rfl⟩

theorem canonical_of_reads {fi : WireFillInstruction} {message : Bytes}
    (unset : fi.preferredSolver = none) (reads : fillInstruction.Reads message fi.fields) :
    fi.Canonical := by
  obtain ⟨-, -, -, -, asset, amount, deadline, solver, window⟩ := fillInstruction_reads.mp reads
  constructor
  case destAsset => exact (destAsset_writes.mp (destAsset.reads_iff_writes.mp asset)).1
  case minDestAmount => exact (minDestAmount_writes.mp (minDestAmount.reads_iff_writes.mp amount)).1
  case deadline =>
    rw [← uint64_eq]
    exact (unsigned_writes.mp ((unsigned 8).reads_iff_writes.mp deadline)).1
  case preferredSolver => exact unset
  case lockedSolver => exact (lockedSolver_writes.mp (lockedSolver.reads_iff_writes.mp solver)).1
  case reservationWindow =>
    rw [← uint64_eq]
    exact (unsigned_writes.mp ((unsigned 8).reads_iff_writes.mp window)).1

/-- What is decoded is what was encoded, and there is no other payload for it. -/
theorem decodeFillInstruction_iff {rest : Bytes} {fi : WireFillInstruction} (asset : Address) :
    decodeFillInstruction (protocolVersion :: msgFillInstruction :: rest) = .ok fi ↔
      fi.Canonical ∧ encodeFillInstructionWithDestAsset (fi.intoFillInstruction asset) fi.destAsset =
        some (protocolVersion :: msgFillInstruction :: rest) := by
  rw [decodeFillInstruction_ok]
  constructor
  · rintro ⟨unset, reads⟩
    have canonical := canonical_of_reads unset reads
    obtain ⟨message, encoded, writes⟩ := fillInstruction_writes canonical asset
    rw [encoded, reads.text_eq writes]
    exact ⟨canonical, rfl⟩
  · rintro ⟨canonical, encoded⟩
    obtain ⟨message, encoded', writes⟩ := fillInstruction_writes canonical asset
    obtain rfl := Option.some.inj (encoded.symm.trans encoded')
    exact ⟨canonical.preferredSolver, fillInstruction.reads_iff_writes.mpr writes⟩

/-! ## Cancellations -/

def cancelReasons : List UInt8 := [cancelReasonExpired, cancelReasonAdmin, cancelReasonInvalid]

def cancelIntent (reason : UInt8) : Layout (Unit × Bytes32 × Unit) :=
  (literal [protocolVersion, msgCancelIntent]).pair <| hash.pair (literal [reason])

theorem cancelIntent_writes (intentHash : Bytes32) (reason : UInt8) :
    (cancelIntent reason).Writes ((), intentHash, ()) (encodeCancelIntent intentHash reason) := by
  unfold encodeCancelIntent
  simp only [List.append_assoc]
  exact (literal_writes.mpr rfl).pair <| (hash_writes.mpr rfl).pair (literal_writes.mpr rfl)

theorem cancelIntent_reads {intentHash : Bytes32} {reason : UInt8} {message : Bytes} :
    (cancelIntent reason).Reads message ((), intentHash, ()) ↔
      message.take 2 = [protocolVersion, msgCancelIntent] ∧
        hash.Reads (field message 2 32) intentHash ∧ message.drop 34 = [reason] := by
  simp only [cancelIntent, pair_reads, literal_reads, List.drop_drop]
  rfl

theorem decodeCancelIntent_iff {rest : Bytes} {ci : CancelInstruction} :
    decodeCancelIntent (protocolVersion :: msgCancelIntent :: rest) = .ok ci ↔
      ∃ reason ∈ cancelReasons, ci.reason = reason.toNat ∧
        protocolVersion :: msgCancelIntent :: rest = encodeCancelIntent ci.intentHash reason := by
  generalize layout : protocolVersion :: msgCancelIntent :: rest = message
  have header : message.take 2 = [protocolVersion, msgCancelIntent] := by rw [← layout]; rfl
  have written reason : message = encodeCancelIntent ci.intentHash reason ↔
      hash.Reads (field message 2 32) ci.intentHash ∧ message.drop 34 = [reason] := by
    have writes := cancelIntent_writes ci.intentHash reason
    constructor
    · intro same
      rw [← same, ← reads_iff_writes, cancelIntent_reads] at writes
      exact writes.2
    · intro reads
      exact (cancelIntent_reads.mpr ⟨header, reads⟩).text_eq writes
  have last (length : message.length = cancelIntentLength) : message.drop 34 = field message 34 1 := by
    unfold cancelIntentLength at length
    exact (List.take_of_length_le (by rw [List.length_drop]; omega)).symm
  have value (reason : UInt8) : decode [reason] = reason.toNat := by simp [decode]
  simp only [decodeCancelIntent, readField, bind_ok, require_ok, exists_const, pure_ok, written,
    hash_reads]
  constructor
  · rintro ⟨length, _, ⟨-, rfl⟩, _, ⟨-, rfl⟩, known, rfl⟩
    have sized : (field message 2 32).length = 32 := by
      apply field_length
      rw [length]
      decide
    rw [last length]
    rcases known with known | known | known
    · exact ⟨_, by decide, by rw [known, value], ⟨sized, rfl⟩, known⟩
    · exact ⟨_, by decide, by rw [known, value], ⟨sized, rfl⟩, known⟩
    · exact ⟨_, by decide, by rw [known, value], ⟨sized, rfl⟩, known⟩
  · rintro ⟨reason, known, reasoned, ⟨sized, hashed⟩, tail⟩
    have length : message.length = cancelIntentLength := by
      have rest := congrArg List.length tail
      rw [List.length_drop, List.length_singleton] at rest
      unfold cancelIntentLength
      omega
    rw [last length] at tail
    have known : [reason] = [cancelReasonExpired] ∨ [reason] = [cancelReasonAdmin] ∨
        [reason] = [cancelReasonInvalid] := by simpa [cancelReasons] using known
    refine ⟨length, _, ⟨by rw [length]; decide, rfl⟩, _, ⟨by rw [length]; decide, rfl⟩, ?_, ?_⟩
    · rw [tail]
      exact known
    · rw [tail, value, hashed, ← reasoned]

/-! ## Messages -/

/-- What a cancel carries in place of an instruction. -/
def WireFillInstruction.dummy (intentHash : Bytes32) : WireFillInstruction where
  intentHash := intentHash
  srcEid := 0
  recipient := .account 0
  destAsset := []
  minDestAmount := 0
  deadline := 0
  preferredSolver := none
  lockedSolver := none
  reservationWindow := 0

/-- A FillInstruction payload. -/
def IsInstruction (message : Bytes)
    (decoded : UInt8 × WireFillInstruction × Option CancelInstruction) : Prop :=
  ∃ fi : WireFillInstruction, decoded = (msgFillInstruction, fi, none) ∧ fi.Canonical ∧
    ∀ asset, encodeFillInstructionWithDestAsset (fi.intoFillInstruction asset) fi.destAsset =
      some message

/-- A CancelIntent payload. -/
def IsCancel (message : Bytes)
    (decoded : UInt8 × WireFillInstruction × Option CancelInstruction) : Prop :=
  ∃ intentHash, ∃ reason ∈ cancelReasons,
    decoded = (msgCancelIntent, .dummy intentHash, some ⟨intentHash, reason.toNat⟩) ∧
      message = encodeCancelIntent intentHash reason

theorem encoded_header {fi : FillInstruction} {destAssetId message : Bytes}
    (encoded : encodeFillInstructionWithDestAsset fi destAssetId = some message) :
    ∃ rest, message = protocolVersion :: msgFillInstruction :: rest := by
  unfold encodeFillInstructionWithDestAsset at encoded
  split at encoded
  · exact ⟨_, (Option.some.inj encoded).symm⟩
  · cases encoded

theorem decodeMessage_iff {message : Bytes}
    {decoded : UInt8 × WireFillInstruction × Option CancelInstruction} :
    decodeMessage message = .ok decoded ↔ IsInstruction message decoded ∨ IsCancel message decoded := by
  constructor
  · intro read
    cases message with
    | nil => cases read
    | cons version tail =>
        cases tail with
        | nil => cases read
        | cons msgType rest =>
            simp only [decodeMessage, bind_ok, require_ok, exists_const] at read
            obtain ⟨rfl, read⟩ := read
            split at read
            · rename_i fill
              subst fill
              simp only [bind_ok, pure_ok] at read
              obtain ⟨fi, read, rfl⟩ := read
              refine Or.inl ⟨fi, rfl, ?_, fun asset => ((decodeFillInstruction_iff asset).mp read).2⟩
              exact ((decodeFillInstruction_iff fi.recipient).mp read).1
            · split at read
              · rename_i cancel
                subst cancel
                simp only [bind_ok, pure_ok] at read
                obtain ⟨ci, read, rfl⟩ := read
                obtain ⟨reason, known, same, encoded⟩ := decodeCancelIntent_iff.mp read
                refine Or.inr ⟨ci.intentHash, reason, known, ?_, encoded⟩
                rw [← same]
                rfl
              · cases read
  · rintro (⟨fi, rfl, canonical, encoded⟩ | ⟨intentHash, reason, known, rfl, rfl⟩)
    · obtain ⟨rest, rfl⟩ := encoded_header (encoded fi.recipient)
      have read := (decodeFillInstruction_iff fi.recipient).mpr ⟨canonical, encoded fi.recipient⟩
      simp only [decodeMessage, read]
      rfl
    · have layout : ∃ rest, encodeCancelIntent intentHash reason =
          protocolVersion :: msgCancelIntent :: rest := ⟨_, rfl⟩
      obtain ⟨rest, layout⟩ := layout
      have read : decodeCancelIntent (protocolVersion :: msgCancelIntent :: rest) =
          .ok ⟨intentHash, reason.toNat⟩ :=
        decodeCancelIntent_iff.mpr ⟨reason, known, rfl, layout.symm⟩
      rw [layout]
      simp only [decodeMessage, read]
      rfl

/-- The decoder undoes the encoders and takes nothing else, and no two payloads mean the same. -/
theorem decodeMessage_canonical :
    (∀ message decoded, decodeMessage message = .ok decoded ↔
      IsInstruction message decoded ∨ IsCancel message decoded) ∧
    ∀ message message' decoded, decodeMessage message = .ok decoded →
      decodeMessage message' = .ok decoded → message = message' := by
  refine ⟨fun message decoded => decodeMessage_iff, ?_⟩
  intro message message' decoded read read'
  rcases decodeMessage_iff.mp read with ⟨fi, rfl, -, encoded⟩ | ⟨intentHash, reason, -, rfl, rfl⟩
  · rcases decodeMessage_iff.mp read' with ⟨fi', same, -, encoded'⟩ | ⟨_, _, -, same, -⟩
    · obtain ⟨-, rfl, -⟩ := Prod.mk.inj same
      exact Option.some.inj ((encoded fi.recipient).symm.trans (encoded' fi.recipient))
    · cases same
  · rcases decodeMessage_iff.mp read' with ⟨_, same, -⟩ | ⟨intentHash', reason', -, same, rfl⟩
    · cases same
    · simp only [Prod.mk.injEq, Option.some.injEq, CancelInstruction.mk.injEq] at same
      obtain ⟨-, -, rfl, reasons⟩ := same
      rw [UInt8.toNat_inj.mp reasons]

end Perihelion.Settlement
